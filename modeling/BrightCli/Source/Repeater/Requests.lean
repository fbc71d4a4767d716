import BrightCli.Source.Http.Executor
import BrightCli.Source.Ws.Exchange

/-!
# From a request event to its acknowledgement

Source: `wrapEventListener` of `src/Repeater/DefaultRepeaterServer.ts`,
`requestReceived` of `src/Repeater/ServerRepeaterLauncher.ts`, `sendRequest` of
`src/Repeater/DefaultRepeaterCommandHub.ts`, and `execute` of
`src/RequestExecutor/WsRequestExecutor.ts`.

What the client of a WebSocket request meets is a field of `Executors`: its events,
taken with the matcher that the pattern of the request gives. An exchange runs no
script, and what it throws are errors of the runtime or of the `ws` package. The
acknowledgements of an event are the calls of its callback, in order, after the
handler has settled.
-/
namespace BrightCli.Source.Repeater
open BrightCli.Lib BrightCli.Lib.Js BrightCli.Source.Http BrightCli.Source.Certificates

structure Executors where
  http : World
  /-- Whether a pattern, compiled with the flag `i`, matches a frame. -/
  frameMatches : String → String → Bool
  /-- The calls of `executeRequest` of the WebSocket executor; the attempt is `none`
  without certificates. -/
  wsCall : Option Nat → (request : Request) →
    Ws.Exchange.Call (request.correlationIdRegex.map frameMatches)

def Executors.wsExchange (executors : Executors) (attempt : Option Nat) (request : Request) :
    Except JsError Response :=
  (executors.wsCall attempt request).outcome

namespace WsRequestExecutor

def attemptWithCertificate (executors : Executors) (request : Request) (attempt : Nat) :
    Except Value Response := do
  debugRequest executors.http request
  (executors.wsExchange (some attempt) request).mapError JsError.toValue

/-- The guarded part of `execute`. -/
def guarded (executors : Executors) (options : Request) : Except Value Response := do
  let certs ← targetCerts executors.http options
  if certs.isEmpty then
    debugRequest executors.http options
    (executors.wsExchange none options).mapError JsError.toValue
  else
    promiseAny ((executors.http.settlement certs).map fun entry =>
      attemptWithCertificate executors options entry.2)

/-- The error handler of `execute`. -/
def errorResponse (executors : Executors) (err : Value) : Except Value Response := do
  let info ← err.get "info"
  let message ← info.orElseEval (err.get "message")
  let code ← err.get "code"
  let errorCode ← code.orElseEval (err.get "syscall")
  logCause executors.http.logLevel message
  pure { protocol := "ws", message, errorCode }

def execute (executors : Executors) (options : Request) : Except Value Response :=
  match guarded executors options with
  | .ok response => .ok response
  | .error err => errorResponse executors err

end WsRequestExecutor

namespace DefaultRepeaterCommandHub

def unsupportedProtocol (protocol : Value) : Except Value Response := do
  let text ← protocol.toText
  .error (plainError ("Unsupported protocol \"" ++ text ++ "\""))

/-- The executor is looked up by strict equality with its protocol. -/
def sendRequest (executors : Executors) (request : Request) : Except Value Response :=
  match request.protocol with
  | .str protocol =>
    if protocol = "http" then Http.execute executors.http request
    else if protocol = "ws" then WsRequestExecutor.execute executors request
    else unsupportedProtocol (.str protocol)
  | protocol => unsupportedProtocol protocol

end DefaultRepeaterCommandHub

namespace ServerRepeaterLauncher

/-- `new Request({ ...event })` and its execution. The answer has the members
of the response. -/
def requestReceived (executors : Executors) (event : Value) : Except Value Response := do
  let entries ← event.spreadEntries
  let request ← Request.new executors.http.platform (.obj entries [] none)
  DefaultRepeaterCommandHub.sendRequest executors request

end ServerRepeaterLauncher

namespace DefaultRepeaterServer

/-- The calls of the callback. A handler that throws is logged and the callback
is not called. -/
def wrapEventListener (handler : Value → Except Value Response) (event : Value) : List Response :=
  match handler event with
  | .ok response => [response]
  | .error _ => []

def acknowledgements (executors : Executors) (event : Value) : List Response :=
  wrapEventListener (ServerRepeaterLauncher.requestReceived executors) event

end DefaultRepeaterServer

end BrightCli.Source.Repeater
