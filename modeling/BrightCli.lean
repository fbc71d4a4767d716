import BrightCli.Lib.Trace
import BrightCli.Lib.InsertionMap
import BrightCli.Lib.PropertyMap
import BrightCli.Lib.Glob
import BrightCli.Lib.RegExp
import BrightCli.Lib.JsNumber
import BrightCli.Lib.JsValue
import BrightCli.Lib.Utf8
import BrightCli.Lib.Base64
import BrightCli.Lib.Text
import BrightCli.Lib.Replace
import BrightCli.Lib.Uri
import BrightCli.Lib.HeaderLine
import BrightCli.Lib.CommandLine
import BrightCli.Lib.StoppableLoop
import BrightCli.Lib.EventEmitter
import BrightCli.Lib.Simulation
import BrightCli.Lib.PromiseAny
import BrightCli.Lib.Pipe
import BrightCli.Lib.Json
import BrightCli.Source.Helpers
import BrightCli.Source.Platform
import BrightCli.Source.Pool
import BrightCli.Source.Request
import BrightCli.Source.Certificates
import BrightCli.Source.Scripts
import BrightCli.Source.Headers
import BrightCli.Source.Proxy
import BrightCli.Source.SystemConfig
import BrightCli.Source.NetworkTest
import BrightCli.Source.Traceroute
import BrightCli.Source.EntryPoints
import BrightCli.Source.AbortablePolling
import BrightCli.Source.Backoff
import BrightCli.Source.Scan.Breakpoint
import BrightCli.Source.Scan.BasePolling
import BrightCli.Source.Scan.AttackParamLocations
import BrightCli.Source.Http.Curl
import BrightCli.Source.Http.Executor
import BrightCli.Source.HeaderRecord
import BrightCli.Source.Mcp.RepeaterTools
import BrightCli.Source.Repeater.Requests
import BrightCli.Source.Repeater.Connection
import BrightCli.Source.Ws.Exchange
import BrightCli.Source.Repeater.Life
import BrightCli.Source.Http.Race
import BrightCli.Source.Repeater.Diagnostics
import BrightCli.Source.Mcp.Server
import BrightCli.Source.Wizard.Tokens
import BrightCli.Guarantees.ScanVerdict
import BrightCli.Guarantees.TameRequests
import BrightCli.Guarantees.Acknowledgement
import BrightCli.Guarantees.CredentialAttribution
import BrightCli.Guarantees.Reconnection
import BrightCli.Guarantees.ReconnectionDelay
import BrightCli.Guarantees.IdentityScript
import BrightCli.Guarantees.CertificateEligibility
import BrightCli.Guarantees.ScriptSeparation
import BrightCli.Guarantees.ScriptOrder
import BrightCli.Guarantees.WsErrors
import BrightCli.Guarantees.WsReplies
import BrightCli.Guarantees.RepeaterRegistry
import BrightCli.Guarantees.Redaction
import BrightCli.Guarantees.PollingStop
import BrightCli.Guarantees.RetryBudget
import BrightCli.Guarantees.ShellQuoting
import BrightCli.Guarantees.ProbeConclusion
import BrightCli.Guarantees.SequentialTraceroute
import BrightCli.Guarantees.IcmpMessages
import BrightCli.Guarantees.HeaderAgreement
import BrightCli.Guarantees.HeaderArguments
import BrightCli.Guarantees.ProxyRouting
import BrightCli.Guarantees.ConfigRotation
import BrightCli.Guarantees.ChunkIndependence
import BrightCli.Guarantees.PingUrls
import BrightCli.Guarantees.WildcardGlob
import BrightCli.Guarantees.RequestOnWire
import BrightCli.Guarantees.RequestHeaders
import BrightCli.Guarantees.ResponseFidelity
import BrightCli.Guarantees.CertificateSelection
import BrightCli.Guarantees.EntryPointPages
import BrightCli.Guarantees.ScriptUpdates
import BrightCli.Guarantees.AttackLocations
import BrightCli.Guarantees.BoundedPool
import BrightCli.Guarantees.RepeaterLife
import BrightCli.Guarantees.RepeaterExit
import BrightCli.Guarantees.CertificateRace
import BrightCli.Guarantees.PingDialogue
import BrightCli.Guarantees.PingReport
import BrightCli.Guarantees.ToolReplies
import BrightCli.Guarantees.PollingOutcome
import BrightCli.Guarantees.Relay
import BrightCli.Guarantees.WsOutcome
import BrightCli.Guarantees.StoredTokens
