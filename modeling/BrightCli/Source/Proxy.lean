import BrightCli.Source.Http.Curl

/-!
# Proxies

Source: `src/Utils/DefaultProxyFactory.ts` and, of
`src/RequestExecutor/WsRequestExecutor.ts`, the constructor and the choice of the
agent in `executeRequest`; `secureEndpoint` of `src/RequestExecutor/Request.ts`.

An agent is given by its class and what it was constructed with. The agents of a
SOCKS proxy are one object for both schemes.
-/
namespace BrightCli.Source.Proxy
open BrightCli.Lib BrightCli.Lib.Js BrightCli.Source.Http

inductive Agent where
  | patchedHttpsProxy (proxyUrl : String) (rejectUnauthorized : Bool)
  | httpProxy (proxyUrl : String) (rejectUnauthorized : Bool)
  | socksProxy (proxyUrl : String)
  deriving DecidableEq, Repr

structure Agents where
  httpsAgent : Agent
  httpAgent : Agent
  deriving DecidableEq, Repr

structure ProxyOptions where
  proxyUrl : String
  rejectUnauthorized : Bool := false
  deriving DecidableEq, Repr

def socksProtocols : List String := ["socks:", "socks4:", "socks4a:", "socks5:", "socks5h:"]

namespace DefaultProxyFactory

def createHttpProxy (options : ProxyOptions) : Agents :=
  { httpsAgent := .patchedHttpsProxy options.proxyUrl options.rejectUnauthorized
    httpAgent := .httpProxy options.proxyUrl options.rejectUnauthorized }

def createSocksProxy (options : ProxyOptions) : Agents :=
  { httpsAgent := .socksProxy options.proxyUrl, httpAgent := .socksProxy options.proxyUrl }

/-- `protocol.replace(':', '')`: the first colon is removed. -/
def withoutColon (protocol : String) : String := String.ofList (protocol.toList.erase ':')

def createProxy (platform : Platform) (options : ProxyOptions) : Except String Agents :=
  match platform.parseUrl options.proxyUrl with
  | none =>
    .error ("Invalid Proxy URL: '" ++ options.proxyUrl ++ "'. Please provide a valid URL.")
  | some url =>
    if url.protocol = "http:" ∨ url.protocol = "https:" then .ok (createHttpProxy options)
    else if url.protocol ∈ socksProtocols then .ok (createSocksProxy options)
    else .error ("Unsupported proxy protocol: '" ++ withoutColon url.protocol ++
      "'. Please use a supported protocol (HTTP(S), SOCKS4, or SOCKS5).")

def createProxyForClient (platform : Platform) (options : ProxyOptions) (targetUrl : String) :
    Except String Agent := do
  let proxies ← createProxy platform options
  match platform.parseUrl targetUrl with
  | none =>
    .error ("Invalid Target URL: '" ++ targetUrl ++
      "'. Please contact support at support@brightsec.com")
  | some url =>
    if url.protocol = "http:" ∨ url.protocol = "ws:" then .ok proxies.httpAgent
    else if url.protocol = "https:" ∨ url.protocol = "wss:" then .ok proxies.httpsAgent
    else .error ("Proxy not supported for protocol '" ++ url.protocol ++
      "'. Please contact support at support@brightsec.com")

end DefaultProxyFactory

def secureEndpoint (request : Request) : Bool := "https".toList.isPrefixOf request.url.toList

/-- The proxy agents of the executor, missing when no proxy is configured. -/
structure WsRequestExecutor where
  httpProxyAgent : Option Agent
  httpsProxyAgent : Option Agent
  deriving DecidableEq, Repr

namespace WsRequestExecutor

/-- The constructor throws what the factory throws. -/
def new (platform : Platform) (options : RequestExecutorOptions) :
    Except String WsRequestExecutor :=
  match options.proxyUrl with
  | none => .ok { httpProxyAgent := none, httpsProxyAgent := none }
  | some proxyUrl =>
    if proxyUrl = "" then .ok { httpProxyAgent := none, httpsProxyAgent := none }
    else do
      let agents ← DefaultProxyFactory.createProxy platform { proxyUrl }
      .ok { httpProxyAgent := some agents.httpAgent, httpsProxyAgent := some agents.httpsAgent }

/-- The agent that the client is given; without one it connects directly. -/
def agent (executor : WsRequestExecutor) (request : Request) : Option Agent :=
  if secureEndpoint request then executor.httpsProxyAgent else executor.httpProxyAgent

end WsRequestExecutor

end BrightCli.Source.Proxy
