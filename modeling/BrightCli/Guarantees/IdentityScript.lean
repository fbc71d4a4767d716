import BrightCli.Source.Http.Executor

/-!
# A script that returns its argument

`transformScript` hands a script the plain form of the request and builds a new
request from what comes back. For a script that returns its argument this is a
round trip through `toJSON` and the constructor. It keeps what `toJSON` lists
and the constructor normalises, because a request that exists is in normal form
already; it resets what `toJSON` leaves out, and it passes the certificates
through text.
-/
namespace BrightCli.Guarantees.IdentityScript
open BrightCli.Lib BrightCli.Lib.Js BrightCli.Source BrightCli.Source.Scripts BrightCli.Source.Http

/-- Equality in everything the rest of `execute` uses. -/
structure SameUse (platform : Platform) (first second : Request) : Prop where
  url : first.url = second.url
  method : first.method = second.method
  headers : first.headers = second.headers
  correlationIdRegex : first.correlationIdRegex = second.correlationIdRegex
  posted : applyCurlBody platform first = applyCurlBody platform second
  encoding : first.encoding = second.encoding
  timeout : first.timeout = second.timeout
  maxContentSize : first.maxContentSize = second.maxContentSize
  decompress : first.decompress = second.decompress
  ca : first.ca = second.ca
  pfx : first.pfx = second.pfx
  passphrase : first.passphrase = second.passphrase

/-- A certificate that text can carry. -/
def Textual : Option Utf8.Bytes → Prop
  | none => True
  | some bytes => bytes ≠ [] ∧ Utf8.Valid bytes

/-- The request uses nothing that the round trip resets. -/
structure Carried (request : Request) : Prop where
  encoding : request.encoding = .undefined
  timeout : request.timeout = .undefined
  maxContentSize : request.maxContentSize = .undefined
  decompress : request.decompress = true
  ca : Textual request.ca
  pfx : Textual request.pfx

/-- What becomes of a certificate: text, and a buffer again unless it is empty. -/
def recoded : Option Utf8.Bytes → Option Utf8.Bytes
  | none => none
  | some bytes => if Utf8.decode bytes = "" then none else some (Utf8.encode (Utf8.decode bytes))

theorem recoded_eq_iff (cert : Option Utf8.Bytes) : recoded cert = cert ↔ Textual cert := by
  cases cert with
  | none => simp [recoded, Textual]
  | some bytes =>
    simp only [recoded, Textual]
    by_cases blank : Utf8.decode bytes = ""
    · rw [if_pos blank]
      constructor
      · intro same
        cases same
      · intro textual
        have roundTrip := (Utf8.encode_decode_iff bytes).mpr textual.2
        rw [(Utf8.encode_eq_nil_iff _).mpr blank] at roundTrip
        exact absurd roundTrip.symm textual.1
    · rw [if_neg blank, Option.some.injEq, Utf8.encode_decode_iff]
      constructor
      · intro valid
        refine ⟨?_, valid⟩
        intro empty
        subst empty
        exact blank rfl
      · exact And.right

theorem copyBuffer_bufferText (platform : Platform) (cert : Option Utf8.Bytes) :
    Request.copyBuffer platform (Request.bufferText cert) = .ok (recoded cert) := by
  cases cert with
  | none => rfl
  | some bytes =>
    unfold Request.copyBuffer Request.bufferText recoded
    by_cases blank : Utf8.decode bytes = ""
    · simp [Value.truthy, blank, pure, Except.pure]
    · simp [Value.truthy, blank, Request.bufferFrom, bind, Except.bind, pure, Except.pure]

theorem collectHeaders_spread (platform : Platform) (entries : List (String × Value)) (result : Headers)
    (normal : ∀ entry ∈ entries, Request.NormalHeader platform entry) :
    Request.collectHeaders platform entries result = .ok (result.spread entries) := by
  induction entries generalizing result with
  | nil => rfl
  | cons head rest ih =>
    obtain ⟨ownKey, unchanged⟩ := normal head (by simp)
    have assigned : result.assign head.1 head.2 = result.set head.1 head.2 := if_neg ownKey
    rw [Request.collectHeaders, unchanged]
    change Request.collectHeaders platform rest (result.assign head.1 head.2) = _
    rw [assigned, ih _ fun entry member => normal entry (by simp [member])]
    rfl

/-- Merging normal headers into no headers gives these headers. -/
theorem mergeHeaders_entries (platform : Platform) (headers : Headers)
    (normal : ∀ entry ∈ headers.entries, Request.NormalHeader platform entry) :
    Request.mergeHeaders platform .empty (.obj headers.entries [] none) = .ok headers := by
  have literal : (PropertyMap.ofEntries (PropertyMap.empty : Headers).entries).spread
      headers.entries = headers := PropertyMap.ofEntries_entries headers
  change Request.collectHeaders platform
    ((PropertyMap.ofEntries (PropertyMap.empty : Headers).entries).spread headers.entries).entries
    .empty = _
  rw [literal, collectHeaders_spread platform _ _ normal]
  exact congrArg Except.ok (PropertyMap.ofEntries_entries headers)

theorem normalizeCorrelationIdRegex_regexValue (platform : Platform) (pattern : Option String)
    (accepted : ∀ source, pattern = some source → platform.acceptsPattern source = true) :
    Request.normalizeCorrelationIdRegex platform (Request.regexValue pattern) = .ok pattern := by
  cases pattern with
  | none => rfl
  | some source =>
    simp [Request.normalizeCorrelationIdRegex, Request.regexValue, Value.truthy,
      Value.patternText, accepted source rfl]

/-- What the constructor makes of the argument of a script. -/
def rebuilt (request : Request) (body : Value) : Request :=
  { request with
    body
    ca := recoded request.ca
    pfx := recoded request.pfx
    encoding := .undefined
    timeout := .undefined
    maxContentSize := .undefined
    decompress := true
    keepAlive := .undefined }

theorem new_scriptOptions (platform : Platform) (request : Request) (body : Value)
    (normal : request.Normal platform) (url : Helpers.Url)
    (parsed : platform.parseUrl request.url = some url)
    (checked : Request.precheckBody body = .ok ()) :
    Request.new platform (scriptOptions request body) = .ok (rebuilt request body) := by
  have method : Request.normalizeMethod platform (.str request.method) = .ok request.method :=
    congrArg Except.ok normal.method
  have target : Request.normalizeUrl platform (.str request.url) = .ok request.url := by
    simp [Request.normalizeUrl, Value.toText, parsed, normal.url]
  have pattern := normalizeCorrelationIdRegex_regexValue platform request.correlationIdRegex
    normal.pattern
  have headers := mergeHeaders_entries platform request.headers normal.headers
  have ca := copyBuffer_bufferText platform request.ca
  have pfx := copyBuffer_bufferText platform request.pfx
  have members : RequestOptions.read (scriptOptions request body) = .ok
      { protocol := request.protocol
        method := .str request.method
        url := .str request.url
        body
        ca := Request.bufferText request.ca
        pfx := Request.bufferText request.pfx
        passphrase := request.passphrase
        timeout := .undefined
        correlationIdRegex := Request.regexValue request.correlationIdRegex
        maxContentSize := .undefined
        encoding := .undefined
        decompress := .undefined
        headers := .obj request.headers.entries [] none
        keepAlive := .undefined } := rfl
  unfold Request.new
  rw [members, ok_bind]
  simp only [Request.ofOptions, method, target, checked, pattern, headers, ca, pfx, ok_bind]
  rfl

theorem decodedBody_checked (platform : Platform) (request : Request) (body : Value)
    (checked : Request.precheckBody request.body = .ok ())
    (decoded : decodedBody platform request = .ok body) : Request.precheckBody body = .ok () := by
  unfold decodedBody at decoded
  split at decoded
  · obtain ⟨buffer, -, same⟩ := bind_eq_ok_iff.mp decoded
    cases same
    rfl
  · cases decoded
    exact checked

/-- An identity script keeps everything `execute` uses exactly when the request
uses nothing that the round trip resets. -/
theorem identity_script_noop_iff (world : World) (request : Request)
    (built : request.Built world.platform) (url : Helpers.Url)
    (parsed : world.platform.parseUrl request.url = some url) (script : VirtualScript)
    (found : DefaultVirtualScripts.find (world.scripts .request) url.hostname = some script)
    (identity : world.exports .request script "handle" = .ok (some fun argument => .ok argument)) :
    (∃ result, transformScript world request = .ok result ∧
      SameUse world.platform result request) ↔ Carried request := by
  have executed : ∀ argument, Http.VirtualScript.exec world .request script defaultScriptEntrypoint
      argument = .ok argument := by
    intro argument
    simp [Http.VirtualScript.exec, defaultScriptEntrypoint, identity, bind, Except.bind]
  have transformed : transformScript world request =
      decodedBody world.platform request >>= fun body =>
        Request.new world.platform (scriptOptions request body) := by
    simp [transformScript, newURL, parsed, found, executed, bind, Except.bind]
  have normal := built.normal
  constructor
  · intro noop
    obtain ⟨result, made, same⟩ := noop
    rw [transformed] at made
    obtain ⟨body, decoded, made⟩ := bind_eq_ok_iff.mp made
    rw [new_scriptOptions world.platform request body normal url parsed
      (decodedBody_checked world.platform request body normal.body decoded)] at made
    cases made
    exact ⟨same.encoding.symm, same.timeout.symm, same.maxContentSize.symm, same.decompress.symm,
      (recoded_eq_iff request.ca).mp same.ca, (recoded_eq_iff request.pfx).mp same.pfx⟩
  · intro carried
    have body : decodedBody world.platform request = .ok request.body := by
      simp [decodedBody, carried.encoding, Value.truthy, pure, Except.pure]
    refine ⟨rebuilt request request.body, ?_, ?_⟩
    · rw [transformed, body]
      exact new_scriptOptions world.platform request request.body normal url parsed normal.body
    · have posted : applyCurlBody world.platform (rebuilt request request.body) =
          applyCurlBody world.platform request := by
        simp [applyCurlBody, rebuilt, carried.encoding]
      exact ⟨rfl, rfl, rfl, rfl, posted, carried.encoding.symm, carried.timeout.symm,
        carried.maxContentSize.symm, carried.decompress.symm,
        (recoded_eq_iff request.ca).mpr carried.ca, (recoded_eq_iff request.pfx).mpr carried.pfx, rfl⟩

def catchAll : VirtualScript := { id := "*", type := .localType, code := "exports.handle = x => x" }

/-- Every host has the identity script. -/
def identityWorld : World :=
  { World.plain with
    scripts := fun _ => InsertionMap.set .empty "*" catchAll
    exports := fun _ _ _ => .ok (some fun argument => .ok argument) }

/-- A request with headers, a body, a pattern and a certificate, as the server sends it. -/
def postedPayload : Value :=
  .obj [("protocol", .str "http"), ("method", .str "post"), ("url", .str "https://example.com/"),
    ("headers", .obj [("Cookie", .arr [.str "a=1", .str "b=2"])] [] none),
    ("body", .str "a=1"), ("correlationIdRegex", .str "id"), ("ca", .str "pem")] [] none

def posted : Request :=
  { Request.ofUrl "https://example.com/" with
    method := "POST"
    headers := .ofEntries [("Cookie", .arr [.str "a=1", .str "b=2"])]
    body := .str "a=1"
    correlationIdRegex := some "id"
    ca := some (Utf8.encode "pem") }

theorem identity_script_keeps_posted :
    Request.new .ascii postedPayload = .ok posted ∧
    ∃ result, transformScript identityWorld posted = .ok result ∧ SameUse .ascii result posted := by
  have made : Request.new .ascii postedPayload = .ok posted := rfl
  have pem : Textual posted.ca := ⟨by decide, "pem", rfl⟩
  exact ⟨made, (identity_script_noop_iff identityWorld posted (.new postedPayload made) _ rfl catchAll
    rfl rfl).mpr ⟨rfl, rfl, rfl, rfl, pem, trivial⟩⟩

/-- A request with a timeout and a size limit of its own, as the server sends them. -/
def limitedPayload : Value :=
  .obj [("protocol", .str "http"), ("url", .str "https://example.com/"), ("timeout", .num 5000),
    ("maxContentSize", .num 16), ("decompress", .bool false)] [] none

def limited : Request :=
  { Request.ofUrl "https://example.com/" with
    timeout := .num 5000, maxContentSize := .num 16, decompress := false }

/-- The identity script drops the timeout, the size limit and the flag. -/
theorem identity_script_drops_limits :
    Request.new .ascii limitedPayload = .ok limited ∧
    ¬ ∃ result, transformScript identityWorld limited = .ok result ∧
      SameUse .ascii result limited := by
  refine ⟨rfl, ?_⟩
  intro noop
  obtain ⟨result, made, same⟩ := noop
  have reset : transformScript identityWorld limited = .ok (rebuilt limited limited.body) := rfl
  rw [reset] at made
  cases made
  have timeout : Value.undefined = Value.num 5000 := same.timeout
  cases timeout

end BrightCli.Guarantees.IdentityScript
