import BrightCli.Source.Platform

/-!
# Requests and responses

Source: `src/RequestExecutor/Request.ts`, `src/RequestExecutor/Response.ts`.

The constructor takes an options object of unknown origin and either throws or
normalises five members: the method is upper-cased, the URL validated and
trimmed, the correlation pattern compiled, the headers merged, the certificates
copied into buffers. The other members are stored as they come.
-/
namespace BrightCli.Source
open BrightCli.Lib BrightCli.Lib.Js

def singleValueHeaders : List String :=
  ["authorization", "content-disposition", "content-length", "content-type", "from", "host",
    "if-modified-since", "if-unmodified-since", "location", "max-forwards", "proxy-authorization",
    "referer", "user-agent"]

abbrev Headers := PropertyMap Value

/-- The members the constructor reads, as they come. -/
structure RequestOptions where
  protocol : Value
  method : Value
  url : Value
  body : Value
  ca : Value
  pfx : Value
  passphrase : Value
  timeout : Value
  correlationIdRegex : Value
  maxContentSize : Value
  encoding : Value
  decompress : Value
  headers : Value
  keepAlive : Value

/-- The first property that a parameter pattern reads. -/
def destructure (argument : Value) (key : String) : Except Value Value :=
  match argument with
  | .undefined => .error (typeError
      ("Cannot destructure property '" ++ key ++ "' of 'undefined' as it is undefined."))
  | .null => .error (typeError
      ("Cannot destructure property '" ++ key ++ "' of 'object null' as it is null."))
  | _ => argument.get key

/-- The parameter pattern of the constructor, in its order. -/
def RequestOptions.read (options : Value) : Except Value RequestOptions := do
  let protocol ← destructure options "protocol"
  let method ← options.get "method"
  let url ← options.get "url"
  let body ← options.get "body"
  let ca ← options.get "ca"
  let pfx ← options.get "pfx"
  let passphrase ← options.get "passphrase"
  let timeout ← options.get "timeout"
  let correlationIdRegex ← options.get "correlationIdRegex"
  let maxContentSize ← options.get "maxContentSize"
  let encoding ← options.get "encoding"
  let decompress ← options.get "decompress"
  let headers ← options.get "headers"
  let keepAlive ← options.get "keepAlive"
  pure { protocol, method, url, body, ca, pfx, passphrase, timeout, correlationIdRegex,
         maxContentSize, encoding, decompress, headers, keepAlive }

structure Cert where
  path : String
  hostname : String
  passphrase : Option String
  port : Option String
  deriving DecidableEq, Repr

structure Request where
  protocol : Value
  method : String
  url : String
  body : Value
  correlationIdRegex : Option String
  headers : Headers
  ca : Option Utf8.Bytes
  pfx : Option Utf8.Bytes
  passphrase : Value
  encoding : Value
  timeout : Value
  maxContentSize : Value
  decompress : Bool
  keepAlive : Value

structure Response where
  protocol : String
  statusCode : Value := .undefined
  headers : Value := .undefined
  body : Value := .undefined
  encoding : Value := .undefined
  message : Value := .undefined
  errorCode : Value := .undefined
  ttfb : Value := .undefined

namespace Request

/-- What the constructor makes of a URL alone. -/
def ofUrl (url : String) : Request where
  protocol := .str "http"
  method := "GET"
  url
  body := .undefined
  correlationIdRegex := none
  headers := .empty
  ca := none
  pfx := none
  passphrase := .undefined
  encoding := .undefined
  timeout := .undefined
  maxContentSize := .undefined
  decompress := true
  keepAlive := .undefined

/-- `method?.toUpperCase() ?? 'GET'`. -/
def normalizeMethod (platform : Platform) : Value → Except Value String
  | .undefined => .ok "GET"
  | .null => .ok "GET"
  | .str s => .ok (toUpperCase platform s)
  | v => do
    let _ ← v.get "toUpperCase"
    .error (typeError "method.toUpperCase is not a function")

/-- `validateUrl` and the `trim` after it. The parser also takes values that
convert to a URL; these have no `trim`. -/
def normalizeUrl (platform : Platform) (url : Value) : Except Value String :=
  match url.toText with
  | .error _ => .error (plainError "Invalid URL.")
  | .ok text =>
    match platform.parseUrl text, url with
    | none, _ => .error (plainError "Invalid URL.")
    | some _, .str s => .ok (trim s)
    | some _, _ => .error (typeError "url.trim is not a function")

def precheckBody (body : Value) : Except Value Unit :=
  match body with
  | .str _ => .ok ()
  | v => if v.truthy then .error (plainError "Body must be string.") else .ok ()

/-- The source of the compiled pattern; its flags are always `i`. -/
def normalizeCorrelationIdRegex (platform : Platform) (pattern : Value) :
    Except Value (Option String) :=
  if pattern.truthy then
    match pattern.patternText with
    | .ok text =>
      if platform.acceptsPattern text then .ok (some text)
      else .error (plainError "Correlation id must be regular expression.")
    | .error _ => .error (plainError "Correlation id must be regular expression.")
  else .ok none

/-- A list of values of a single-value header becomes one value. -/
def normalizeHeader (platform : Platform) (field : String) : Value → Except Value Value
  | .arr items =>
    if toLowerCase platform field ∈ singleValueHeaders then do
      let joined ← Value.join ", " items
      pure (.str joined)
    else pure (.arr items)
  | v => pure v

/-- The `reduce` of `setHeaders` over the merged entries. -/
def collectHeaders (platform : Platform) :
    List (String × Value) → Headers → Except Value Headers
  | [], result => pure result
  | (field, value) :: rest, result => do
    let normal ← normalizeHeader platform field value
    collectHeaders platform rest (result.assign field normal)

/-- `setHeaders` on the given current headers. -/
def mergeHeaders (platform : Platform) (current : Headers) (headers : Value) :
    Except Value Headers := do
  let added ← headers.spreadEntries
  collectHeaders platform ((PropertyMap.ofEntries current.entries).spread added).entries .empty

def setHeaders (platform : Platform) (request : Request) (headers : Value) :
    Except Value Request := do
  let merged ← mergeHeaders platform request.headers headers
  pure { request with headers := merged }

/-- `Buffer.from(v)`. -/
def bufferFrom (platform : Platform) : Value → Except Value Utf8.Bytes
  | .str s => .ok (Utf8.encode s)
  | .bytes b => .ok b
  | v => platform.bufferFromOther v

def copyBuffer (platform : Platform) (v : Value) : Except Value (Option Utf8.Bytes) :=
  if v.truthy then do
    let buffer ← bufferFrom platform v
    pure (some buffer)
  else pure none

/-- The constructor after its parameter pattern was matched. -/
def ofOptions (platform : Platform) (options : RequestOptions) : Except Value Request := do
  let method ← normalizeMethod platform options.method
  let url ← normalizeUrl platform options.url
  precheckBody options.body
  let correlationIdRegex ← normalizeCorrelationIdRegex platform options.correlationIdRegex
  let headers ← mergeHeaders platform .empty options.headers
  let pfx ← copyBuffer platform options.pfx
  let ca ← copyBuffer platform options.ca
  pure
    { protocol := options.protocol
      method, url
      body := options.body
      correlationIdRegex, headers, ca, pfx
      passphrase := options.passphrase
      encoding := options.encoding
      timeout := options.timeout
      maxContentSize := options.maxContentSize
      decompress := match options.decompress with
        | .undefined => true
        | v => v.truthy
      keepAlive := options.keepAlive }

def new (platform : Platform) (options : Value) : Except Value Request := do
  let members ← RequestOptions.read options
  ofOptions platform members

/-- The last portion of a POSIX path, trailing slashes ignored. -/
def basename (path : String) : List Char :=
  ((path.toList.reverse.dropWhile (· = '/')).takeWhile (· ≠ '/')).reverse

/-- `path.extname`: from the last dot of the base name on, unless that dot is
its first character. -/
def extname (path : String) : String :=
  let base := basename path
  let afterDot := (base.reverse.takeWhile (· ≠ '.')).reverse
  if '.' ∈ base ∧ afterDot.length + 1 < base.length ∧ base ≠ ['.', '.'] then
    String.ofList ('.' :: afterDot)
  else ""

/-- Where `loadCert` puts a certificate. -/
inductive CertKind where
  | ca
  | pfx
  | unsupported
  deriving DecidableEq, Repr

def certKind (path : String) : CertKind :=
  if extname path ∈ [".pem", ".crt", ".ca"] then .ca
  else if extname path = ".pfx" then .pfx
  else .unsupported

/-- `loadCert` from the completion of its read on. A read that failed leaves the
content undefined and goes on; a passphrase that does not open the store is only
warned about. -/
def loadCert (request : Request) (cert : Cert) (content : Option Utf8.Bytes) : Request :=
  match certKind cert.path with
  | .ca => { request with ca := content }
  | .pfx => { request with pfx := content, passphrase := Value.ofOption cert.passphrase }
  | .unsupported => request

/-- `buffer?.toString('utf8')`. -/
def bufferText : Option Utf8.Bytes → Value
  | some b => .str (Utf8.decode b)
  | none => .undefined

def regexValue : Option String → Value
  | some source => .regexp source "i"
  | none => .undefined

def toJSON (request : Request) : List (String × Value) :=
  [("protocol", request.protocol), ("url", .str request.url), ("body", request.body),
    ("method", .str request.method), ("headers", .obj request.headers.entries [] none),
    ("passphrase", request.passphrase), ("ca", bufferText request.ca),
    ("pfx", bufferText request.pfx), ("correlationIdRegex", regexValue request.correlationIdRegex)]

/-- The requests that can exist: made by the constructor and changed by the two
methods that change one. -/
inductive Built (platform : Platform) : Request → Prop
  | new (options : Value) {request : Request} (made : Request.new platform options = .ok request) :
      Built platform request
  | setHeaders {request next : Request} {headers : Value} (built : Built platform request)
      (made : request.setHeaders platform headers = .ok next) : Built platform next
  | loadCert {request : Request} (cert : Cert) (content : Option Utf8.Bytes)
      (built : Built platform request) : Built platform (request.loadCert cert content)

/-- A header that `setHeaders` would store as it is. -/
def NormalHeader (platform : Platform) (entry : String × Value) : Prop :=
  entry.1 ≠ "__proto__" ∧ normalizeHeader platform entry.1 entry.2 = .ok entry.2

/-- What the constructor would not change. -/
structure Normal (platform : Platform) (request : Request) : Prop where
  method : toUpperCase platform request.method = request.method
  url : trim request.url = request.url
  body : precheckBody request.body = .ok ()
  pattern : ∀ source, request.correlationIdRegex = some source →
    platform.acceptsPattern source = true
  headers : ∀ entry ∈ request.headers.entries, NormalHeader platform entry

theorem normalizeHeader_idem (platform : Platform) (field : String) (value normal : Value)
    (normalized : normalizeHeader platform field value = .ok normal) :
    normalizeHeader platform field normal = .ok normal := by
  cases value with
  | arr items =>
    by_cases single : toLowerCase platform field ∈ singleValueHeaders
    · simp only [normalizeHeader, if_pos single] at normalized
      obtain ⟨joined, -, same⟩ := bind_eq_ok_iff.mp normalized
      cases same
      rfl
    · simp only [normalizeHeader, if_neg single] at normalized
      cases normalized
      simp only [normalizeHeader, if_neg single]
      rfl
  | _ =>
    cases normalized
    rfl

/-- What every stored header satisfies, given what the merged ones satisfy. -/
theorem collectHeaders_all {platform : Platform} {P Q : String × Value → Prop}
    (store : ∀ field value normal, Q (field, value) → field ≠ "__proto__" →
      normalizeHeader platform field value = .ok normal → P (field, normal))
    (entries : List (String × Value)) (result merged : Headers)
    (given : ∀ entry ∈ entries, Q entry) (stored : ∀ entry ∈ result.entries, P entry)
    (collected : collectHeaders platform entries result = .ok merged) :
    ∀ entry ∈ merged.entries, P entry := by
  induction entries generalizing result with
  | nil =>
    cases collected
    exact stored
  | cons head rest ih =>
    obtain ⟨field, value⟩ := head
    rw [collectHeaders] at collected
    obtain ⟨normal, normalized, collected⟩ := bind_eq_ok_iff.mp collected
    refine ih _ (fun entry member => given entry (by simp [member])) ?_ collected
    intro entry member
    unfold PropertyMap.assign at member
    split at member
    · exact stored entry member
    · rename_i ownKey
      rcases PropertyMap.mem_set member with rfl | old
      · exact store field value normal (given _ (by simp)) ownKey normalized
      · exact stored entry old

theorem mergeHeaders_normal (platform : Platform) (current merged : Headers) (headers : Value)
    (made : mergeHeaders platform current headers = .ok merged) :
    ∀ entry ∈ merged.entries, NormalHeader platform entry := by
  obtain ⟨added, -, collected⟩ := bind_eq_ok_iff.mp made
  refine collectHeaders_all (Q := fun _ => True) ?_ _ .empty merged (fun _ _ => trivial)
    (by simp [PropertyMap.empty]) collected
  intro field value normal _ ownKey normalized
  exact ⟨ownKey, normalizeHeader_idem platform field value normal normalized⟩

theorem normalizeMethod_normal (platform : Platform) (method : Value) (normal : String)
    (made : normalizeMethod platform method = .ok normal) :
    toUpperCase platform normal = normal := by
  have capitals : toUpperCase platform "GET" = "GET" := by
    have g := platform.upper_capital 'G' (by decide)
    have e := platform.upper_capital 'E' (by decide)
    have t := platform.upper_capital 'T' (by decide)
    simp [toUpperCase, g, e, t]
  unfold normalizeMethod at made
  split at made
  · cases made
    exact capitals
  · cases made
    exact capitals
  · cases made
    exact toUpperCase_idem platform _
  · obtain ⟨_, -, thrown⟩ := bind_eq_ok_iff.mp made
    cases thrown

theorem normalizeUrl_normal (platform : Platform) (url : Value) (normal : String)
    (made : normalizeUrl platform url = .ok normal) : trim normal = normal := by
  unfold normalizeUrl at made
  split at made
  · cases made
  · split at made
    · cases made
    · cases made
      exact trim_idem _
    · cases made

theorem normalizeCorrelationIdRegex_normal (platform : Platform) (pattern : Value)
    (source : String) (made : normalizeCorrelationIdRegex platform pattern = .ok (some source)) :
    platform.acceptsPattern source = true := by
  unfold normalizeCorrelationIdRegex at made
  split at made
  · split at made
    · split at made
      · rename_i accepted
        cases made
        exact accepted
      · cases made
    · cases made
  · cases made

/-- What the members of a made request come from. -/
structure MadeFrom (platform : Platform) (options : RequestOptions) (request : Request) : Prop where
  method : normalizeMethod platform options.method = .ok request.method
  url : normalizeUrl platform options.url = .ok request.url
  checked : precheckBody options.body = .ok ()
  pattern : normalizeCorrelationIdRegex platform options.correlationIdRegex =
    .ok request.correlationIdRegex
  headers : mergeHeaders platform .empty options.headers = .ok request.headers
  pfx : copyBuffer platform options.pfx = .ok request.pfx
  ca : copyBuffer platform options.ca = .ok request.ca
  protocol : request.protocol = options.protocol
  body : request.body = options.body
  passphrase : request.passphrase = options.passphrase
  encoding : request.encoding = options.encoding
  maxContentSize : request.maxContentSize = options.maxContentSize

theorem ofOptions_madeFrom {platform : Platform} {options : RequestOptions} {request : Request}
    (made : ofOptions platform options = .ok request) : MadeFrom platform options request := by
  obtain ⟨method, normalMethod, made⟩ := bind_eq_ok_iff.mp made
  obtain ⟨url, normalUrl, made⟩ := bind_eq_ok_iff.mp made
  obtain ⟨_, checkedBody, made⟩ := bind_eq_ok_iff.mp made
  obtain ⟨pattern, normalPattern, made⟩ := bind_eq_ok_iff.mp made
  obtain ⟨headers, merged, made⟩ := bind_eq_ok_iff.mp made
  obtain ⟨pfx, copiedPfx, made⟩ := bind_eq_ok_iff.mp made
  obtain ⟨ca, copiedCa, made⟩ := bind_eq_ok_iff.mp made
  cases made
  exact ⟨normalMethod, normalUrl, checkedBody, normalPattern, merged, copiedPfx, copiedCa, rfl, rfl,
    rfl, rfl, rfl⟩

theorem ofOptions_normal (platform : Platform) (options : RequestOptions) (request : Request)
    (made : ofOptions platform options = .ok request) : Normal platform request := by
  have source := ofOptions_madeFrom made
  refine ⟨normalizeMethod_normal platform _ _ source.method,
    normalizeUrl_normal platform _ _ source.url, ?_, ?_, mergeHeaders_normal _ _ _ _ source.headers⟩
  · rw [source.body]
    exact source.checked
  · intro pattern compiled
    exact normalizeCorrelationIdRegex_normal platform _ pattern (compiled ▸ source.pattern)

theorem Built.normal {platform : Platform} {request : Request} (built : Built platform request) :
    Normal platform request := by
  induction built with
  | new options made =>
    obtain ⟨members, -, made⟩ := bind_eq_ok_iff.mp made
    exact ofOptions_normal platform members _ made
  | setHeaders _ made ih =>
    obtain ⟨merged, mergedHeaders, same⟩ := bind_eq_ok_iff.mp made
    cases same
    exact ⟨ih.method, ih.url, ih.body, ih.pattern, mergeHeaders_normal _ _ _ _ mergedHeaders⟩
  | loadCert cert content _ ih =>
    unfold Request.loadCert
    split
    · exact ⟨ih.method, ih.url, ih.body, ih.pattern, ih.headers⟩
    · exact ⟨ih.method, ih.url, ih.body, ih.pattern, ih.headers⟩
    · exact ih

end Request

end BrightCli.Source
