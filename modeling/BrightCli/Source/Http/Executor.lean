import BrightCli.Source.Certificates
import BrightCli.Source.Http.Curl
import BrightCli.Source.Scripts

/-!
# The HTTP request executor

Source: `src/RequestExecutor/HttpRequestExecutor.ts`, and `exec` and `has` of
`src/Scripts/VirtualScript.ts`.

An executor meets three things it does not control: the user's scripts, the
target behind libcurl, and the interleaving of certificate attempts. They are
fields of `World`. A script is run anew for each call and may behave
differently each time, so its exports depend on the call. The value an exported
function returns or rejects with is the value after the `await`.
-/
namespace BrightCli.Source.Http
open BrightCli.Lib BrightCli.Lib.Js BrightCli.Source.Scripts BrightCli.Source.Certificates

inductive LogLevel where
  | silent
  | error
  | warn
  | notice
  | verbose
  | trace
  deriving DecidableEq, Repr

def LogLevel.rank : LogLevel → Nat
  | .silent => 0
  | .error => 1
  | .warn => 2
  | .notice => 3
  | .verbose => 4
  | .trace => 5

/-- What libcurl delivers at the end of a transfer. -/
structure CurlReply where
  statusCode : Nat
  rawBody : Utf8.Bytes
  rawHeaders : List (List (String × Value))
  ttfb : Nat

/-- The calls of one `execute` that run a script; the attempt is `none` for an
exchange without certificates. -/
inductive ScriptCall where
  | request
  | hasResponse (attempt : Option Nat)
  | response (attempt : Option Nat)
  deriving DecidableEq, Repr

/-- A function a script exports. -/
abbrev ScriptFunction := Value → Except Value Value

structure World where
  platform : Platform
  options : RequestExecutorOptions
  logLevel : LogLevel
  /-- The store at the moment of the call. -/
  scripts : ScriptCall → Store
  /-- Running the script and reading an export: it may throw, and the export
  may be no function. -/
  exports : ScriptCall → VirtualScript → String → Except Value (Option ScriptFunction)
  cache : Cache
  /-- The material the shared request holds when an attempt starts. -/
  material : Nat → TlsMaterial
  /-- The attempts in the order in which they settle. -/
  settlement : List Cert → List (Cert × Nat)
  settlement_perm : ∀ certs, (settlement certs).Perm certs.zipIdx
  setOpt : CurlOption → Except JsError Unit
  perform : Option Nat → List CurlOption → Except JsError CurlReply

/-- A world to evaluate the model with: no scripts, no certificates, and a
target that answers every request with an empty page. -/
def World.plain : World where
  platform := .ascii
  options :=
    { timeout := none, proxyUrl := none, headers := none
      headers_plain := plain_of_no_headers
      certs := none, whitelistMimes := []
      maxBodySize := none, maxContentLength := none, reuseConnection := false
      proxyDomains := none, proxyDomainsBypass := none, kerberos := none }
  logLevel := .notice
  scripts _ := .empty
  exports _ _ _ := .ok none
  cache := .empty
  material _ := { ca := none, pfx := none, passphrase := .undefined }
  settlement certs := certs.zipIdx
  settlement_perm _ := List.Perm.refl _
  setOpt _ := .ok ()
  perform _ _ := .ok { statusCode := 200, rawBody := [], rawHeaders := [], ttfb := 0 }

def invalidUrl : Value :=
  JsError.toValue
    { name := "TypeError", message := "Invalid URL", code := some "ERR_INVALID_URL", syscall := none }

/-- `new URL(url)`. -/
def newURL (platform : Platform) (url : String) : Except Value Helpers.Url :=
  match platform.parseUrl url with
  | some parsed => .ok parsed
  | none => .error invalidUrl

namespace VirtualScript

def missingFunction (script : VirtualScript) (functionName : String) : Value :=
  plainError ("Error Loading Script: Script " ++ script.id ++
    " does not match expected format, missing function " ++ functionName ++ ".")

def has (world : World) (call : ScriptCall) (script : VirtualScript) (functionName : String) :
    Except Value Bool := do
  let exported ← world.exports call script functionName
  pure exported.isSome

def exec (world : World) (call : ScriptCall) (script : VirtualScript) (functionName : String)
    (argument : Value) : Except Value Value := do
  match ← world.exports call script functionName with
  | none => .error (missingFunction script functionName)
  | some function => function argument

end VirtualScript

def defaultScriptEntrypoint : String := "handle"

def responseScriptEntrypoint : String := "onResponse"

/-- The argument `{...script.toJSON(), body}`: the key `body` keeps its place. -/
def scriptOptions (request : Request) (body : Value) : Value :=
  .obj ({ request with body }).toJSON [] none

/-- The body as a script sees it. `iconv.encode` takes a missing body as empty. -/
def decodedBody (platform : Platform) (request : Request) : Except Value Value :=
  if request.encoding.truthy then do
    let text := match request.body with
      | .str s => s
      | _ => ""
    let buffer ← platform.iconvEncode text request.encoding
    pure (.str (Utf8.decode buffer))
  else pure request.body

def transformScript (world : World) (script : Request) : Except Value Request := do
  let url ← newURL world.platform script.url
  match DefaultVirtualScripts.find (world.scripts .request) url.hostname with
  | none => pure script
  | some vm =>
    let body ← decodedBody world.platform script
    let result ← VirtualScript.exec world .request vm defaultScriptEntrypoint
      (scriptOptions script body)
    Request.new world.platform result

def handleResponseScript (world : World) (attempt : Option Nat) (request : Request)
    (response : Response) : Except Value Response := do
  let url ← newURL world.platform request.url
  match DefaultVirtualScripts.find (world.scripts (.response attempt)) url.hostname with
  | none => pure response
  | some vm =>
    let handles ← VirtualScript.has world (.hasResponse attempt) vm responseScriptEntrypoint
    if !handles then pure response
    else
      let result ← VirtualScript.exec world (.response attempt) vm responseScriptEntrypoint
        (.obj [("protocol", .str response.protocol), ("statusCode", response.statusCode),
          ("headers", response.headers), ("body", response.body)] [] none)
      if !result.truthy then pure response
      else
        let statusCode ← result.get "statusCode"
        let headers ← result.get "headers"
        let body ← result.get "body"
        pure
          { protocol := response.protocol
            statusCode := statusCode.orElse response.statusCode
            headers := headers.orElse response.headers
            body := body.orElse response.body
            encoding := response.encoding
            ttfb := response.ttfb }

def parseCurlHeaders (platform : Platform) (rawHeaders : List (List (String × Value))) : Headers :=
  ((rawHeaders.getLast?.getD []).filter fun entry => entry.1 ≠ "result").foldl
    (fun result entry => result.assign (toLowerCase platform entry.1) entry.2) .empty

def responseHasNoBody (method : String) (statusCode : Nat) : Bool :=
  method = "HEAD" || (100 ≤ statusCode && statusCode < 200) || statusCode = 204 || statusCode = 304

/-- Media type, and the encoding to decode with. -/
def parseContentType (platform : Platform) (headers : Headers) : String × String :=
  let header := (headers.get? "content-type").getD .undefined
  let parsed := platform.safeParse
    (if header.truthy then header else .str "application/octet-stream")
  match parsed.charset with
  | some charset =>
    if charset ≠ "" ∧ platform.encodingExists charset then (parsed.type, charset)
    else (parsed.type, "utf-8")
  | none => (parsed.type, "utf-8")

/-- `ToNumber`, with `none` for not a number. It looks for `valueOf` before it takes the
text. -/
def toNumber (platform : Platform) : Value → Except Value (Option Int)
  | .undefined => .ok none
  | .null => .ok (some 0)
  | .bool b => .ok (some (if b then 1 else 0))
  | .num n => .ok (some n)
  | v => do
    let _ ← v.get "valueOf"
    let text ← v.toText
    pure (platform.numberOfText text)

/-- `body.subarray(0, end)`; a negative end counts from the back. -/
def subarray (body : Utf8.Bytes) (stop : Int) : Utf8.Bytes :=
  if stop < 0 then body.take (body.length + stop).toNat else body.take stop.toNat

def truncateBody (body : Utf8.Bytes) (maxSize : Int) (allowTruncation : Bool) : Utf8.Bytes :=
  if allowTruncation then subarray body maxSize else []

/-- The size limit; nothing is larger than `none`. -/
def maxSize (platform : Platform) (options : RequestExecutorOptions) (request : Request)
    (whiteListed : Option WhitelistMimeType) : Except Value (Option Int) :=
  match whiteListed with
  | some _ => pure (options.maxBodySize.map Int.ofNat)
  | none => do
    let limit ← toNumber platform
      (request.maxContentSize.orElse ((options.maxContentLength.map fun n => .num n).getD .undefined))
    pure (limit.map (· * 1024))

def truncateResponse (platform : Platform) (options : RequestExecutorOptions) (request : Request)
    (rawBody : Utf8.Bytes) (responseHeaders : Headers) : Except Value (String × Headers) := do
  let contentType := parseContentType platform responseHeaders
  let whiteListed := options.whitelistMimes.find? fun mime => mime.type.isPrefixOf contentType.1
  let limit ← maxSize platform options request whiteListed
  let headers :=
    if request.decompress then responseHeaders.delete "content-encoding" else responseHeaders
  let body :=
    match limit with
    | some size =>
      if size < rawBody.length then
        truncateBody rawBody size
          (match whiteListed with
            | none => true
            | some mime => mime.allowTruncation.getD false)
      else rawBody
    | none => rawBody
  let text ← platform.iconvDecode body (request.encoding.orElse (.str contentType.2))
  pure (text, headers.assign "content-length" (.str (toString body.length)))

def executeRequest (world : World) (attempt : Option Nat) (request : Request) :
    Except Value Response := do
  let handle ← configureCurl world.platform world.options world.setOpt request
  let reply ← (world.perform attempt handle).mapError JsError.toValue
  let headers := parseCurlHeaders world.platform reply.rawHeaders
  if responseHasNoBody request.method reply.statusCode then
    handleResponseScript world attempt request
      { protocol := "http"
        statusCode := .num reply.statusCode
        headers := .obj headers.entries [] none
        body := .str ""
        ttfb := .num reply.ttfb }
  else
    let truncated ← truncateResponse world.platform world.options request reply.rawBody headers
    handleResponseScript world attempt request
      { protocol := "http"
        statusCode := .num reply.statusCode
        headers := .obj truncated.2.entries [] none
        body := .str truncated.1
        encoding := request.encoding
        ttfb := .num reply.ttfb }

/-- `logger.debug` with the `%j` of a request. -/
def debugRequest (world : World) (request : Request) : Except Value Unit :=
  if LogLevel.verbose.rank ≤ world.logLevel.rank then
    Value.stringify (.obj request.toJSON [] none)
  else pure ()

/-- An attempt with a certificate. Its error handler logs and throws again, and
what it throws is never looked at. -/
def attemptWithCertificate (world : World) (request : Request) (attempt : Nat) :
    Except Value Response := do
  debugRequest world request
  let material := world.material attempt
  executeRequest world (some attempt)
    { request with ca := material.ca, pfx := material.pfx, passphrase := material.passphrase }

def aggregateError : Value :=
  JsError.toValue
    { name := "AggregateError", message := "All promises were rejected", code := none, syscall := none }

/-- `Promise.any` of promises that settle in the given order. -/
def promiseAny : List (Except Value Response) → Except Value Response
  | [] => .error aggregateError
  | .ok response :: _ => .ok response
  | .error _ :: rest => promiseAny rest

def tryRequestWithCertificates (world : World) (request : Request) (certs : List Cert) :
    Except Value Response :=
  promiseAny ((world.settlement certs).map fun entry => attemptWithCertificate world request entry.2)

/-- The certificates for a request; `none` where none are configured. -/
def targetCerts (world : World) (request : Request) : Except Value (List Cert) :=
  match world.options.certs with
  | none => pure []
  | some certs =>
    match DefaultCertificatesResolver.resolve world.platform world.cache request certs with
    | some found => .ok found
    | none => .error invalidUrl

/-- The request with the headers of the options. -/
def configured (world : World) (options : Request) : Except Value Request :=
  match world.options.headers with
  | some headers => options.setHeaders world.platform (.obj headers [] none)
  | none => pure options

/-- The guarded part of `execute`. -/
def guarded (world : World) (options : Request) : Except Value Response := do
  let options ← configured world options
  let options ← transformScript world options
  let certs ← targetCerts world options
  if certs.isEmpty then
    debugRequest world options
    executeRequest world none options
  else tryRequestWithCertificates world options certs

/-- `logger.error('Cause: %s', message)`. -/
def logCause (logLevel : LogLevel) (message : Value) : Except Value Unit :=
  if LogLevel.error.rank ≤ logLevel.rank then message.format else .ok ()

/-- The error handler of `execute`. It reads properties of whatever was thrown
and formats its message for the log. -/
def errorResponse (world : World) (err : Value) : Except Value Response := do
  let cause ← err.get "cause"
  let message ← (cause.orElse err).get "message"
  let code ← (cause.orElse err).get "code"
  let syscall ← (cause.orElse err).get "syscall"
  let name ← (cause.orElse err).get "name"
  logCause world.logLevel message
  pure { protocol := "http", message, errorCode := (code.orElse syscall).orElse name }

def execute (world : World) (options : Request) : Except Value Response :=
  match guarded world options with
  | .ok response => .ok response
  | .error err => errorResponse world err

end BrightCli.Source.Http
