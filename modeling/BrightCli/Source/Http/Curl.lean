import BrightCli.Source.Request

/-!
# The curl handle of a request

Source: `configureCurl` of `src/RequestExecutor/HttpRequestExecutor.ts` and the
functions it calls.

A handle is the list of options set on it, in order. Setting one may fail, as
may the legacy URL parser, the body encoder and the conversion of a header
value; the first failure leaves `configureCurl`.
-/
namespace BrightCli.Source.Http
open BrightCli.Lib BrightCli.Lib.Js

structure WhitelistMimeType where
  type : String
  allowTruncation : Option Bool
  deriving DecidableEq, Repr

structure KerberosOptions where
  enabled : Bool
  domains : Option (List String)
  credentials : Option String
  delegation : Bool
  deriving DecidableEq, Repr

structure RequestExecutorOptions where
  timeout : Option Int
  proxyUrl : Option String
  headers : Option (List (String × Value))
  /-- They are given on the command line, as JSON or as texts. -/
  headers_plain : ∀ entries, headers = some entries → ∀ entry ∈ entries, entry.2.plain = true
  certs : Option (List Cert)
  whitelistMimes : List WhitelistMimeType
  maxBodySize : Option Nat
  maxContentLength : Option Nat
  reuseConnection : Bool
  proxyDomains : Option (List String)
  proxyDomainsBypass : Option (List String)
  kerberos : Option KerberosOptions

theorem plain_of_no_headers : ∀ entries : List (String × Value), none = some entries →
    ∀ entry ∈ entries, entry.2.plain = true := by
  intro entries given
  cases given

inductive CurlOption where
  | url (value : String)
  | userPwd (value : String)
  | requestTarget (value : String)
  | pathAsIs (value : Bool)
  | sslVerifyPeer (value : Bool)
  | sslVerifyHost (value : Nat)
  | followLocation (value : Bool)
  | postFields (value : String)
  | postFieldSize (value : Nat)
  | caInfoBlob (value : Utf8.Bytes)
  | sslCertBlob (value : Utf8.Bytes)
  | sslCertType (value : String)
  | keyPasswd (value : Value)
  | timeoutMs (value : Int)
  | userAgent (value : String)
  | acceptEncoding (value : String)
  | httpHeader (lines : List String)
  | tcpKeepAlive (value : Nat)
  | tcpKeepIdle (value : Nat)
  | sharedMulti
  | freshConnect (value : Nat)
  | forbidReuse (value : Nat)
  | httpAuthNegotiate
  | gssapiDelegation
  | proxy (value : String)
  | customRequest (value : String)

def keepAliveIdleTimeout : Nat := 60

/-- Path, query and fragment as they stand in the URL. -/
def buildRawPath (url : String) : String :=
  let rec afterSeparator : List Char → Option (List Char)
    | ':' :: '/' :: '/' :: rest => some rest
    | _ :: rest => afterSeparator rest
    | [] => none
  let withoutProtocol := (afterSeparator url.toList).getD url.toList
  match withoutProtocol.dropWhile fun c => c ≠ '/' ∧ c ≠ '?' ∧ c ≠ '#' with
  | [] => "/"
  | '/' :: rest => String.ofList ('/' :: rest)
  | rest => String.ofList ('/' :: rest)

/-- The text and the length that are posted. -/
def applyCurlBody (platform : Platform) (request : Request) : Except Value (List CurlOption) :=
  match request.body with
  | .str body =>
    if body = "" then pure []
    else do
      let bodyBuffer ←
        if request.encoding.truthy then platform.iconvEncode body request.encoding
        else pure (Utf8.encode body)
      pure [.postFields (Utf8.decode bodyBuffer), .postFieldSize bodyBuffer.length]
  | _ => pure []

def applyCurlTls (request : Request) : List CurlOption :=
  (match request.ca with
    | some ca => [.caInfoBlob ca]
    | none => []) ++
  match request.pfx with
  | some pfx =>
    [.sslCertBlob pfx, .sslCertType "P12"] ++
      if request.passphrase.truthy then [.keyPasswd request.passphrase] else []
  | none => []

def applyCurlTimeout (options : RequestExecutorOptions) (request : Request) : List CurlOption :=
  match request.timeout.orElse ((options.timeout.map Value.num).getD .undefined) with
  | .num timeout => [.timeoutMs timeout]
  | _ => []

def hasHeader (platform : Platform) (request : Request) (headerName : String) : Bool :=
  request.headers.entries.any fun entry =>
    toLowerCase platform entry.1 = toLowerCase platform headerName

/-- `${key}: ${v ?? ''}`. -/
def headerLine (key : String) (v : Value) : Except Value String := do
  let text ← (v.orElse (.str "")).toText
  pure (key ++ ": " ++ text)

def headerValues : Value → List Value
  | .arr values => values
  | value => [value]

/-- The lines of the entries, one for each value; an empty name is skipped. -/
def headerLines : List (String × Value) → Except Value (List String)
  | [] => pure []
  | (key, value) :: rest =>
    if key = "" then headerLines rest
    else do
      let lines ← (headerValues value).mapM (headerLine key)
      let more ← headerLines rest
      pure (lines ++ more)

def buildCurlHeaders (request : Request) : Except Value (List String) :=
  headerLines request.headers.entries

def hostMatches (domains : List String) (hostname : String) : Bool :=
  domains.any fun domain => Helpers.wildcardMatches domain hostname

def shouldApplyKerberos (platform : Platform) (options : RequestExecutorOptions)
    (request : Request) : Except Value Bool :=
  match options.kerberos with
  | none => pure false
  | some kerberos =>
    if !kerberos.enabled then pure false
    else
      match kerberos.domains with
      | none => pure true
      | some domains => do
        let url ← (platform.legacyParseUrl request.url).mapError JsError.toValue
        pure (hostMatches domains url.hostname)

def resolveProxy (platform : Platform) (options : RequestExecutorOptions) (request : Request) :
    Except Value (Option String) := do
  let url ← (platform.legacyParseUrl request.url).mapError JsError.toValue
  if options.proxyDomains.any fun domains => !hostMatches domains url.hostname then pure none
  else if options.proxyDomainsBypass.any fun domains => hostMatches domains url.hostname then
    pure none
  else pure options.proxyUrl

def applyCurlHeaders (platform : Platform) (options : RequestExecutorOptions) (request : Request) :
    Except Value (List CurlOption) := do
  let curlHeaders ← buildCurlHeaders request
  let kerberos ← if options.reuseConnection then pure false
    else shouldApplyKerberos platform options request
  let closing :=
    if !options.reuseConnection && !kerberos && !hasHeader platform request "connection" then
      ["Connection: close"]
    else []
  let identity :=
    if !request.decompress && !hasHeader platform request "accept-encoding" then
      ["Accept-Encoding: identity"]
    else []
  let lines := curlHeaders ++ closing ++ identity
  pure
    ([.userAgent ""] ++ (if request.decompress then [.acceptEncoding ""] else []) ++
      if lines.isEmpty then [] else [.httpHeader lines])

def applyCurlKerberos (platform : Platform) (options : RequestExecutorOptions) (request : Request) :
    Except Value (List CurlOption) := do
  let applies ← shouldApplyKerberos platform options request
  match applies, options.kerberos with
  | true, some kerberos =>
    let credentials := match kerberos.credentials with
      | some text => if text = "" then ":" else text
      | none => ":"
    pure
      ([.httpAuthNegotiate, .userPwd credentials] ++
        if kerberos.delegation then [.gssapiDelegation] else [])
  | _, _ => pure []

/-- Sets the options one by one until one is refused. -/
def setOpts (setOpt : CurlOption → Except JsError Unit) (set : List CurlOption) :
    List CurlOption → Except Value (List CurlOption)
  | [] => pure set
  | option :: rest => do
    (setOpt option).mapError JsError.toValue
    setOpts setOpt (set ++ [option]) rest

def configureCurl (platform : Platform) (options : RequestExecutorOptions)
    (setOpt : CurlOption → Except JsError Unit) (request : Request) :
    Except Value (List CurlOption) := do
  let url ← (platform.legacyParseUrl request.url).mapError JsError.toValue
  let handle ← setOpts setOpt []
    ([.url (url.protocol ++ "//" ++ url.host)] ++
      (match url.auth with
        | some auth => if auth = "" then [] else [.userPwd auth]
        | none => []) ++
      [.requestTarget (buildRawPath request.url), .pathAsIs true, .sslVerifyPeer false,
        .sslVerifyHost 0, .followLocation false])
  let body ← applyCurlBody platform request
  let handle ← setOpts setOpt handle (body ++ applyCurlTls request ++ applyCurlTimeout options request)
  let headers ← applyCurlHeaders platform options request
  let handle ← setOpts setOpt handle headers
  let reuse ← if options.reuseConnection then pure true
    else shouldApplyKerberos platform options request
  let handle ← setOpts setOpt handle
    (if reuse then [.tcpKeepAlive 1, .tcpKeepIdle keepAliveIdleTimeout, .sharedMulti]
      else [.freshConnect 1, .forbidReuse 1])
  let kerberos ← applyCurlKerberos platform options request
  let handle ← setOpts setOpt handle kerberos
  let proxyUrl ← resolveProxy platform options request
  setOpts setOpt handle
    ((match proxyUrl with
      | some proxy => if proxy = "" then [] else [.proxy proxy]
      | none => []) ++ [.customRequest request.method])

end BrightCli.Source.Http
