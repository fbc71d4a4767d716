import BrightCli.Guarantees.Acknowledgement
import BrightCli.Guarantees.RequestHeaders
import BrightCli.Guarantees.RequestOnWire
import BrightCli.Guarantees.ResponseFidelity

/-!
# A request from its event to its acknowledgement

What the cluster asks for travels through the constructor of the request, the merge
with the configured headers, the script of the host, the selection of certificates, the
curl handle, the transfer and the truncation of the answer. This module composes the
results about these stages: for a host without script and certificates, and what can be
written into a handle as it is (`Deliverable`), the transfer that is performed carries
what the event asked for, and the one acknowledgement reports what became of that
transfer.

* `new_event`, `configured_request` and `guarded_request` follow the request to
  the transfer;
* `carries_of_configured` says what the handle carries;
* `answers_of_transfer` says what the acknowledgement holds of the reply.
-/
namespace BrightCli.Guarantees.Relay
open BrightCli.Lib BrightCli.Lib.Js BrightCli.Source BrightCli.Source.Http
  BrightCli.Source.Repeater BrightCli.Source.Scripts BrightCli.Guarantees.TameRequests
  BrightCli.Guarantees.Acknowledgement BrightCli.Guarantees.RequestOnWire
  BrightCli.Guarantees.RequestHeaders BrightCli.Guarantees.ResponseFidelity

/-- A request for an HTTP target, its URL in three parts. -/
structure Payload where
  scheme : String
  authority : String
  /-- Path, query and fragment. -/
  rest : String
  method : String
  headers : HeaderRecord
  body : String
  encoding : Option String
  timeout : Option Int
  maxContentSize : Option Int
  named : SchemeName scheme
  bare : ∀ c ∈ authority.toList, ¬ Delimiter c
  starts : ∀ c, rest.toList.head? = some c → Delimiter c

namespace Payload

def url (payload : Payload) : String :=
  payload.scheme ++ "://" ++ payload.authority ++ payload.rest

def number : Option Int → Value
  | some n => .num n
  | none => .undefined

/-- The event as it comes from the cluster. -/
def event (payload : Payload) : Value :=
  .obj [("protocol", .str "http"), ("url", .str payload.url), ("method", .str payload.method),
    ("headers", payload.headers.toObject), ("body", .str payload.body),
    ("encoding", Value.ofOption payload.encoding), ("timeout", number payload.timeout),
    ("maxContentSize", number payload.maxContentSize)] [] none

/-- The request of the payload when it has these headers. -/
def request (platform : Platform) (payload : Payload) (record : HeaderRecord) : Request :=
  { Request.ofUrl payload.url with
    method := toUpperCase platform payload.method
    headers := record.toHeaders
    body := .str payload.body
    encoding := Value.ofOption payload.encoding
    timeout := number payload.timeout
    maxContentSize := number payload.maxContentSize }

/-- The bytes that the body stands for. -/
def bytes (platform : Platform) (payload : Payload) : Except Value Utf8.Bytes :=
  match payload.encoding.filter (· ≠ "") with
  | some encoding => platform.iconvEncode payload.body (.str encoding)
  | none => .ok (Utf8.encode payload.body)

end Payload

/-- The headers a request goes out with: its own, under those of the options. -/
def effective (platform : Platform) (own : HeaderRecord) : Option HeaderRecord → HeaderRecord
  | some configured => merged platform own configured
  | none => HeaderRecord.merge platform .empty own

/-- The payload is for a host without script and certificates, and everything in it can
be written into a handle as it is: the URL has no blanks around it, the headers have
names, and values that libcurl sends, and the bytes of the body are well-formed text. -/
structure Deliverable (world : World) (payload : Payload) (configured : Option HeaderRecord) :
    Prop where
  trimmed : trim payload.url = payload.url
  options : world.options.headers = configured.map fun record => record.toHeaders.entries
  unscripted : ∃ url, world.platform.parseUrl payload.url = some url ∧
    DefaultVirtualScripts.find (world.scripts .request) url.hostname = none ∧
    DefaultVirtualScripts.find (world.scripts (.response none)) url.hostname = none
  uncertified : targetCerts world
    (payload.request world.platform (effective world.platform payload.headers configured)) = .ok []
  names : ∀ entry ∈ (effective world.platform payload.headers configured).entries, entry.1 ≠ ""
  sendable : ∀ header ∈ (requested (effective world.platform payload.headers configured)).map chars,
    HeaderLine.Sendable header
  textual : ∀ bytes, payload.bytes world.platform = .ok bytes → Utf8.Valid bytes

/-- What a handle is for. -/
structure Carries (libcurl : HeaderLine.Client) (world : World) (payload : Payload)
    (record : HeaderRecord) (handle : List CurlOption) : Prop where
  host : ∃ url, world.platform.legacyParseUrl payload.url = .ok url ∧
    handle.head? = some (.url (url.protocol ++ "//" ++ url.host))
  method : handle.getLast? = some (.customRequest (toUpperCase world.platform payload.method))
  target : handle.filter (part · = .target) = [.requestTarget (rawTarget payload.rest)]
  headers : ∃ added, sentHeaders libcurl handle = (requested record ++ added).map onWire ∧
    ∀ pair ∈ added, Addable world.platform record pair
  body : if payload.body = "" then handle.filter (part · = .body) = []
    else ∃ bytes, payload.bytes world.platform = .ok bytes ∧
      Denotes (handle.filter (part · = .body)) bytes
  timeout : handle.filter (part · = .timeout) =
    ((payload.timeout.or world.options.timeout).map CurlOption.timeoutMs).toList

/-- The size beyond which a page is cut, in bytes. The limit for media types that are
not listed is given in kibibytes, and the payload may set its own. -/
def sizeLimit (world : World) (payload : Payload) (headers : Headers) : Option Int :=
  if world.options.whitelistMimes.any (covers world.platform headers) then
    world.options.maxBodySize.map Int.ofNat
  else
    (payload.maxContentSize.or (world.options.maxContentLength.map Int.ofNat)).map (· * 1024)

/-- What a response tells of the page: the text of the bytes that were kept, in the
encoding that was asked for or else by the declared charset, and headers that fit them. -/
structure Shows (world : World) (payload : Payload) (reply : CurlReply) (response : Response) :
    Prop where
  text : ∃ kept text, kept <+: reply.rawBody ∧
    world.platform.iconvDecode kept (.str (payload.encoding.getD
      (charset world.platform (parseCurlHeaders world.platform reply.rawHeaders)))) = .ok text ∧
    response.body = .str text ∧
    response.headers = .obj (returnedHeaders (Request.ofUrl payload.url)
      (parseCurlHeaders world.platform reply.rawHeaders) kept).entries [] none ∧
    ((∀ size, sizeLimit world payload (parseCurlHeaders world.platform reply.rawHeaders) =
        some size → (reply.rawBody.length : Int) ≤ size) → kept = reply.rawBody)
  encoding : response.encoding = Value.ofOption payload.encoding

/-- A response that stands for the reply of the target. -/
structure Answers (world : World) (payload : Payload) (reply : CurlReply) (response : Response) :
    Prop where
  protocol : response.protocol = "http"
  status : response.statusCode = .num reply.statusCode
  ttfb : response.ttfb = .num reply.ttfb
  silent : response.message = .undefined ∧ response.errorCode = .undefined
  page : if responseHasNoBody (toUpperCase world.platform payload.method) reply.statusCode then
      response.body = .str "" ∧ response.headers =
        .obj (parseCurlHeaders world.platform reply.rawHeaders).entries [] none
    else Shows world payload reply response

/-- The response that describes an error of the runtime or of a package. -/
def described (e : JsError) : Response :=
  { protocol := "http", message := .str e.message
    errorCode := ((Value.ofOption e.code).orElse (Value.ofOption e.syscall)).orElse (.str e.name) }

/-- How a payload is answered. -/
inductive Relayed (libcurl : HeaderLine.Client) (world : World) (payload : Payload)
    (record : HeaderRecord) : Response → Prop where
  /-- The handle cannot be set up; nothing is sent. -/
  | unsent (e : JsError)
      (refused : configureCurl world.platform world.options world.setOpt
        (payload.request world.platform record) = .error e.toValue) :
      Relayed libcurl world payload record (described e)
  | failed (handle : List CurlOption) (e : JsError)
      (carries : Carries libcurl world payload record handle)
      (performed : world.perform none handle = .error e) :
      Relayed libcurl world payload record (described e)
  /-- The page has a text that cannot be decoded. -/
  | unreadable (handle : List CurlOption) (reply : CurlReply) (e : JsError)
      (carries : Carries libcurl world payload record handle)
      (performed : world.perform none handle = .ok reply)
      (paged : responseHasNoBody (toUpperCase world.platform payload.method) reply.statusCode = false)
      (undecoded : truncateResponse world.platform world.options
        (payload.request world.platform record) reply.rawBody
        (parseCurlHeaders world.platform reply.rawHeaders) = .error e.toValue) :
      Relayed libcurl world payload record (described e)
  | answered (handle : List CurlOption) (reply : CurlReply) (response : Response)
      (carries : Carries libcurl world payload record handle)
      (performed : world.perform none handle = .ok reply)
      (answers : Answers world payload reply response) :
      Relayed libcurl world payload record response

/-! ## From the event to the transfer -/

section Request
variable {world : World} {payload : Payload} {configured : Option HeaderRecord}

theorem new_event {platform : Platform} {url : Helpers.Url}
    (trimmed : trim payload.url = payload.url) (parsed : platform.parseUrl payload.url = some url) :
    Request.new platform payload.event =
      .ok (payload.request platform (HeaderRecord.merge platform .empty payload.headers)) := by
  have read : RequestOptions.read payload.event = .ok
      { protocol := .str "http", method := .str payload.method, url := .str payload.url
        body := .str payload.body, ca := .undefined, pfx := .undefined, passphrase := .undefined
        timeout := Payload.number payload.timeout, correlationIdRegex := .undefined
        maxContentSize := Payload.number payload.maxContentSize
        encoding := Value.ofOption payload.encoding, decompress := .undefined
        headers := payload.headers.toObject, keepAlive := .undefined } := rfl
  have method : Request.normalizeMethod platform (.str payload.method) =
      .ok (toUpperCase platform payload.method) := rfl
  have normal : Request.normalizeUrl platform (.str payload.url) = .ok payload.url := by
    simp [Request.normalizeUrl, Value.toText, parsed, trimmed]
  have body : Request.precheckBody (.str payload.body) = .ok () := rfl
  have pattern : Request.normalizeCorrelationIdRegex platform .undefined = .ok none := rfl
  have headers : Request.mergeHeaders platform .empty payload.headers.toObject =
      .ok (HeaderRecord.merge platform .empty payload.headers).toHeaders :=
    HeaderRecord.mergeHeaders_toHeaders platform .empty payload.headers
  rw [Request.new, read, ok_bind, Request.ofOptions]
  dsimp only
  rw [method, ok_bind, normal, ok_bind, body, ok_bind, pattern, ok_bind, headers]
  rfl

theorem request_tame (P : Value → Prop) (platform : Platform) (payload : Payload)
    (record : HeaderRecord) : TameRequest P (payload.request platform record) where
  protocol := Value.tame_of_plain rfl
  body := Value.tame_of_plain rfl
  headers entry listed := Value.tame_of_plain (record.toHeaders_plain entry listed)
  passphrase := Value.tame_of_plain rfl
  encoding := by
    change (Value.ofOption payload.encoding).Tame _
    cases payload.encoding <;> exact Value.tame_of_plain rfl
  maxContentSize := by
    change (Payload.number payload.maxContentSize).Tame _
    cases payload.maxContentSize <;> exact Value.tame_of_plain rfl

theorem configured_request
    (given : world.options.headers = configured.map fun record => record.toHeaders.entries) :
    Http.configured world
        (payload.request world.platform (HeaderRecord.merge world.platform .empty payload.headers)) =
      .ok (payload.request world.platform (effective world.platform payload.headers configured)) := by
  cases configured with
  | none =>
    rw [Http.configured, given]
    rfl
  | some record =>
    exact configured_eq world payload.headers record _
      (HeaderRecord.mergeHeaders_toHeaders world.platform .empty payload.headers) given

/-- Without a script the answer of the transfer is passed on as it is. -/
theorem guarded_request (deliverable : Deliverable world payload configured) :
    guarded world
        (payload.request world.platform (HeaderRecord.merge world.platform .empty payload.headers)) =
      transfer world none
        (payload.request world.platform (effective world.platform payload.headers configured)) := by
  obtain ⟨url, parsed, unscripted, unhandled⟩ := deliverable.unscripted
  have same : ∀ record, transformScript world (payload.request world.platform record) =
      .ok (payload.request world.platform record) := by
    intro record
    have parsed' : world.platform.parseUrl (payload.request world.platform record).url = some url :=
      parsed
    simp only [transformScript, newURL, parsed', ok_bind, unscripted]
    rfl
  have kept : ∀ record response,
      handleResponseScript world none (payload.request world.platform record) response =
        .ok response := by
    intro record response
    have parsed' : world.platform.parseUrl (payload.request world.platform record).url = some url :=
      parsed
    simp only [handleResponseScript, newURL, parsed', ok_bind, unhandled]
    rfl
  rw [guarded, configured_request deliverable.options, ok_bind, same, ok_bind,
    deliverable.uncertified, ok_bind]
  simp only [List.isEmpty_nil, ↓reduceIte]
  rw [debugRequest_ok world (request_tame _ _ _ _), ok_bind, executeRequest_eq]
  cases transfer world none
      (payload.request world.platform (effective world.platform payload.headers configured)) with
  | error thrown => rfl
  | ok response => exact kept _ response

theorem errorResponse_error (world : World) (e : JsError) :
    errorResponse world e.toValue = .ok (described e) := by
  have cause : e.toValue.get "cause" = .ok .undefined := rfl
  have written : logCause world.logLevel (.str e.message) = .ok () := by
    unfold logCause
    split <;> rfl
  rw [errorResponse, cause, ok_bind]
  change (logCause world.logLevel (.str e.message) >>= fun _ => .ok (described e)) = _
  rw [written]
  rfl

end Request

/-! ## What the handle carries -/

section Handle
variable {platform : Platform} {options : RequestExecutorOptions}
  {setOpt : CurlOption → Except JsError Unit}

/-- The first option of a handle names the host, the last one the method. -/
theorem configureCurl_ends {request : Request} {handle : List CurlOption}
    (done : configureCurl platform options setOpt request = .ok handle) :
    (∃ url, platform.legacyParseUrl request.url = .ok url ∧
      handle.head? = some (.url (url.protocol ++ "//" ++ url.host))) ∧
    handle.getLast? = some (.customRequest request.method) := by
  obtain ⟨url, parsed, done⟩ := bind_eq_ok_iff.mp done
  obtain ⟨first, started, done⟩ := bind_eq_ok_iff.mp done
  obtain ⟨body, -, done⟩ := bind_eq_ok_iff.mp done
  obtain ⟨second, filled, done⟩ := bind_eq_ok_iff.mp done
  obtain ⟨headers, -, done⟩ := bind_eq_ok_iff.mp done
  obtain ⟨third, headed, done⟩ := bind_eq_ok_iff.mp done
  dsimp only at done
  rw [← apply_ite (· >>= _)] at done
  obtain ⟨reuse, -, done⟩ := bind_eq_ok_iff.mp done
  obtain ⟨fourth, pooled, done⟩ := bind_eq_ok_iff.mp done
  obtain ⟨kerberos, -, done⟩ := bind_eq_ok_iff.mp done
  obtain ⟨fifth, negotiated, done⟩ := bind_eq_ok_iff.mp done
  obtain ⟨proxyUrl, -, done⟩ := bind_eq_ok_iff.mp done
  have shape := setOpts_eq_ok _ done
  rw [setOpts_eq_ok _ negotiated, setOpts_eq_ok _ pooled, setOpts_eq_ok _ headed,
    setOpts_eq_ok _ filled, setOpts_eq_ok _ started] at shape
  refine ⟨⟨url, mapError_eq_ok_iff.mp parsed, ?_⟩, ?_⟩
  · rw [shape]
    simp only [List.nil_append, List.append_assoc, List.cons_append, List.head?_cons]
  · rw [shape, ← List.append_assoc, List.getLast?_concat]

/-- The payload's own timeout comes before that of the options. -/
theorem applyCurlTimeout_payload (options : RequestExecutorOptions) (payload : Payload)
    (record : HeaderRecord) :
    applyCurlTimeout options (payload.request platform record) =
      ((payload.timeout.or options.timeout).map CurlOption.timeoutMs).toList := by
  unfold applyCurlTimeout
  dsimp only [Payload.request]
  cases payload.timeout with
  | some n => rfl
  | none => cases options.timeout <;> rfl

/-- What is posted for the body of a payload. -/
theorem applyCurlBody_payload {payload : Payload} {record : HeaderRecord} {posted : List CurlOption}
    (nonempty : payload.body ≠ "")
    (made : applyCurlBody platform (payload.request platform record) = .ok posted) :
    ∃ bytes, payload.bytes platform = .ok bytes ∧
      posted = [.postFields (Utf8.decode bytes), .postFieldSize bytes.length] := by
  rw [applyCurlBody] at made
  change (if payload.body = "" then pure [] else _) = _ at made
  rw [if_neg nonempty] at made
  unfold Payload.bytes
  cases given : payload.encoding with
  | none =>
    simp only [Payload.request, given, Value.ofOption, Value.truthy] at made
    exact ⟨_, rfl, (Except.ok.inj made).symm⟩
  | some encoding =>
    by_cases empty : encoding = ""
    · simp only [Payload.request, given, Value.ofOption, Value.truthy, empty] at made
      rw [Option.filter_some, if_neg (by simpa using empty)]
      exact ⟨_, rfl, (Except.ok.inj made).symm⟩
    · have truthy : decide (encoding ≠ "") = true := decide_eq_true empty
      simp only [Payload.request, given, Value.ofOption, Value.truthy, truthy, if_true] at made
      obtain ⟨bytes, encoded, rest⟩ := bind_eq_ok_iff.mp made
      rw [Option.filter_some, if_pos truthy]
      exact ⟨bytes, encoded, (Except.ok.inj rest).symm⟩

theorem carries_of_configured (libcurl : HeaderLine.Client) {world : World} {payload : Payload}
    {record : HeaderRecord} {handle : List CurlOption}
    (done : configureCurl world.platform world.options world.setOpt
      (payload.request world.platform record) = .ok handle)
    (names : ∀ entry ∈ record.entries, entry.1 ≠ "")
    (sendable : ∀ header ∈ (requested record).map chars, HeaderLine.Sendable header)
    (textual : ∀ bytes, payload.bytes world.platform = .ok bytes → Utf8.Valid bytes) :
    Carries libcurl world payload record handle := by
  obtain ⟨host, method⟩ := configureCurl_ends done
  refine ⟨host, method, handle_target done rfl payload.named payload.bare payload.starts,
    handle_headers libcurl done rfl names sendable, ?_, ?_⟩
  · have posted := (configureCurl_parts done).2.1
    split
    · rename_i empty
      rw [applyCurlBody] at posted
      change (if payload.body = "" then pure [] else _) = _ at posted
      rw [if_pos empty] at posted
      exact (Except.ok.inj posted).symm
    · rename_i nonempty
      obtain ⟨bytes, encoded, options⟩ := applyCurlBody_payload nonempty posted
      refine ⟨bytes, encoded, ?_⟩
      rw [options]
      exact (denotes_buffer_iff bytes).mpr (textual bytes encoded)
  · rw [← (configureCurl_parts done).2.2.2, applyCurlTimeout_payload]

end Handle

/-! ## What the acknowledgement holds -/

section Answer
variable {world : World} {payload : Payload} {record : HeaderRecord}

/-- A body is cut at its end or dropped. -/
theorem truncateBody_isPrefix (body : Utf8.Bytes) (size : Int) (allowTruncation : Bool) :
    truncateBody body size allowTruncation <+: body := by
  unfold truncateBody subarray
  split
  · split <;> exact List.take_prefix _ _
  · exact List.nil_prefix

/-- The bytes kept by a limit. -/
theorem kept_of_limit {body kept : Utf8.Bytes} {limit : Option Int} {allowTruncation : Bool}
    (cut : kept = match limit with
      | some size => if size < body.length then truncateBody body size allowTruncation else body
      | none => body) :
    kept <+: body ∧ ((∀ size, limit = some size → (body.length : Int) ≤ size) → kept = body) := by
  cases limit with
  | none => exact ⟨cut ▸ List.prefix_refl _, fun _ => cut⟩
  | some size =>
    dsimp only at cut
    split at cut
    · rename_i exceeds
      refine ⟨cut ▸ truncateBody_isPrefix body size allowTruncation, fun fits => ?_⟩
      have := fits size rfl
      omega
    · exact ⟨cut ▸ List.prefix_refl _, fun _ => cut⟩

theorem maxSize_payload (headers : Headers) :
    maxSize world.platform world.options (payload.request world.platform record)
      (world.options.whitelistMimes.find? (covers world.platform headers)) =
        .ok (sizeLimit world payload headers) := by
  unfold maxSize sizeLimit
  cases found : world.options.whitelistMimes.find? (covers world.platform headers) with
  | some mime =>
    have listed : world.options.whitelistMimes.any (covers world.platform headers) = true :=
      List.any_eq_true.mpr ⟨mime, List.mem_of_find?_eq_some found, List.find?_some found⟩
    rw [if_pos listed]
    rfl
  | none =>
    have unlisted : ¬ world.options.whitelistMimes.any (covers world.platform headers) = true := by
      rw [List.any_eq_true]
      rintro ⟨mime, member, covered⟩
      exact List.find?_eq_none.mp found mime member covered
    rw [if_neg unlisted]
    dsimp only [Payload.request]
    cases payload.maxContentSize with
    | some n => rfl
    | none => cases world.options.maxContentLength <;> rfl

theorem shows_of_truncated {reply : CurlReply} {truncated : String × Headers} {response : Response}
    (done : truncateResponse world.platform world.options (payload.request world.platform record)
      reply.rawBody (parseCurlHeaders world.platform reply.rawHeaders) = .ok truncated)
    (body : response.body = .str truncated.1)
    (headers : response.headers = .obj truncated.2.entries [] none)
    (encoding : response.encoding = Value.ofOption payload.encoding) :
    Shows world payload reply response := by
  rw [truncateResponse, parseContentType_eq] at done
  obtain ⟨limit, limited, done⟩ := bind_eq_ok_iff.mp done
  obtain ⟨text, decoded, done⟩ := bind_eq_ok_iff.mp done
  obtain rfl := Except.ok.inj done
  have decoder : (payload.request world.platform record).encoding.orElse
      (.str (charset world.platform (parseCurlHeaders world.platform reply.rawHeaders))) =
      .str (payload.encoding.getD
        (charset world.platform (parseCurlHeaders world.platform reply.rawHeaders))) := by
    dsimp only [Payload.request]
    cases payload.encoding <;> rfl
  rw [decoder] at decoded
  refine ⟨⟨_, text, (kept_of_limit rfl).1, decoded, body, headers, ?_⟩, encoding⟩
  intro within
  refine (kept_of_limit rfl).2 ?_
  have same := limited.symm.trans (maxSize_payload (parseCurlHeaders world.platform reply.rawHeaders))
  rw [Except.ok.inj same]
  exact within

theorem answers_of_transfer (libcurl : HeaderLine.Client)
    (names : ∀ entry ∈ record.entries, entry.1 ≠ "")
    (sendable : ∀ header ∈ (requested record).map chars, HeaderLine.Sendable header)
    (textual : ∀ bytes, payload.bytes world.platform = .ok bytes → Utf8.Valid bytes)
    {outcome : Except Value Response}
    (done : transfer world none (payload.request world.platform record) = outcome) :
    ∃ response, Relayed libcurl world payload record response ∧
      (outcome = .ok response ∨ ∃ e : JsError, outcome = .error e.toValue ∧ response = described e) := by
  have tame := request_tame IsError world.platform payload record
  have errors : ∀ e : JsError, IsError e.toValue := fun e => ⟨e, rfl⟩
  rw [transfer] at done
  cases configured : configureCurl world.platform world.options world.setOpt
      (payload.request world.platform record) with
  | error thrown =>
    obtain ⟨e, rfl⟩ := configureCurl_throwsOnly errors world _ tame thrown configured
    rw [configured] at done
    exact ⟨described e, .unsent e configured, Or.inr ⟨e, done.symm, rfl⟩⟩
  | ok handle =>
    have carries := carries_of_configured libcurl configured names sendable textual
    rw [configured, ok_bind] at done
    cases performed : world.perform none handle with
    | error e =>
      rw [performed] at done
      exact ⟨described e, .failed handle e carries performed, Or.inr ⟨e, done.symm, rfl⟩⟩
    | ok reply =>
      rw [performed] at done
      change (if responseHasNoBody (toUpperCase world.platform payload.method) reply.statusCode = true
        then _ else _) = outcome at done
      split at done
      · rename_i bodiless
        refine ⟨_, .answered handle reply _ carries performed ?_, Or.inl done.symm⟩
        refine ⟨rfl, rfl, rfl, ⟨rfl, rfl⟩, ?_⟩
        rw [if_pos bodiless]
        exact ⟨rfl, rfl⟩
      · rename_i paged
        cases cut : truncateResponse world.platform world.options
            (payload.request world.platform record) reply.rawBody
            (parseCurlHeaders world.platform reply.rawHeaders) with
        | error thrown =>
          obtain ⟨e, rfl⟩ := truncateResponse_throwsOnly errors world _ tame _ _ thrown cut
          rw [cut] at done
          exact ⟨described e, .unreadable handle reply e carries performed (by simpa using paged) cut,
            Or.inr ⟨e, done.symm, rfl⟩⟩
        | ok truncated =>
          rw [cut] at done
          refine ⟨_, .answered handle reply _ carries performed ?_, Or.inl done.symm⟩
          refine ⟨rfl, rfl, rfl, ⟨rfl, rfl⟩, ?_⟩
          rw [if_neg paged]
          exact shows_of_truncated cut rfl rfl rfl

end Answer

/-- A post with two headers, one of which the options replace, and limits of its own. -/
def posted : Payload where
  scheme := "http"
  authority := "a.test"
  rest := "/form?next=1"
  method := "post"
  headers := wanted
  body := "hi"
  encoding := none
  timeout := some 5000
  maxContentSize := some 64
  named := ⟨⟨'h', ['t', 't', 'p'], rfl, by decide⟩, fun c member =>
    Or.inl (List.all_eq_true.mp (rfl : "http".toList.all (fun c => c.isAlphanum) = true) c member)⟩
  bare := by
    intro c member
    have ordinary := List.all_eq_true.mp
      (rfl : "a.test".toList.all (fun c => c ≠ '/' ∧ c ≠ '?' ∧ c ≠ '#') = true) c member
    simpa [Delimiter] using ordinary
  starts := by
    intro c first
    cases first
    exact Or.inl rfl

def postingExecutors : Executors := { plainExecutors with http := worldWith replacement }

theorem entries_posted : (merged .ascii wanted replacement).entries =
    [("Accept", .one (some "b")), ("X-Tag", .many [some "1", some "2"])] := by
  have accept : arrayIndex? "Accept" = none :=
    PropertyMap.arrayIndex?_of_not_digit (c := 'A') (by decide) (by decide)
  have tag : arrayIndex? "X-Tag" = none :=
    PropertyMap.arrayIndex?_of_not_digit (c := 'X') (by decide) (by decide)
  have several : toLowerCase .ascii "X-Tag" ∉ singleValueHeaders := by decide
  simp [merged, HeaderRecord.merge, wanted, replacement, PropertyMap.ofNames, PropertyMap.spread,
    PropertyMap.empty, PropertyMap.set, PropertyMap.setEntries, PropertyMap.insertEntry,
    PropertyMap.assign, HeaderRecord.normalEntry, HeaderValue.normalize, ListedBefore, accept, tag,
    several]

end BrightCli.Guarantees.Relay
