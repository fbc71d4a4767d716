import BrightCli.Guarantees.TameRequests
import BrightCli.Source.Repeater.Requests

/-!
# One acknowledgement for each request event

Two of the layers between the event and its callback let an exception pass. The
constructor of the request and the lookup of the executor run outside any
handler that answers, so a payload they refuse is never acknowledged. The error
handler of the HTTP executor itself reads properties of whatever was thrown, so
it throws where these cannot be read, `null` and `undefined` included. Only
scripts make the executor throw such values: by throwing them, or by returning
objects whose members throw them when they are read. Everything else ends in
exactly one call.
-/
namespace BrightCli.Guarantees.Acknowledgement
open BrightCli.Lib BrightCli.Lib.Js BrightCli.Source BrightCli.Source.Http
  BrightCli.Source.Scripts BrightCli.Source.Repeater BrightCli.Guarantees.TameRequests

/-- A member of the payload, as `{...event}` has it. -/
def member (event : Value) (key : String) : Value :=
  ((event.spreadEntries.toOption.getD []).lookup key).getD .undefined

/-- The payloads the constructor takes: what it has to convert can be converted, and
the parser of URLs and the engine of patterns take the texts. -/
structure Acceptable (platform : Platform) (event : Value) : Prop where
  method : (member event "method").nullish = true ∨ ∃ text, member event "method" = .str text
  url : ∃ text url, member event "url" = .str text ∧ platform.parseUrl text = some url
  body : (member event "body").truthy = true → ∃ text, member event "body" = .str text
  pattern : (member event "correlationIdRegex").truthy = true →
    ∃ text, (member event "correlationIdRegex").patternText = .ok text ∧
      platform.acceptsPattern text = true
  headers : ∀ entries, (member event "headers").spreadEntries = .ok entries →
    ∀ name items, (PropertyMap.ofEntries entries).get? name = some (.arr items) →
      toLowerCase platform name ∈ singleValueHeaders → ∀ item ∈ items, item.convertible = true
  certificates : ∀ key ∈ ["pfx", "ca"], (member event key).truthy = true →
    (∃ text, member event key = .str text) ∨ (∃ bytes, member event key = .bytes bytes) ∨
      ∃ bytes, platform.bufferFromOther (member event key) = .ok bytes

/-- The thrown values that the handler of the HTTP executor can describe. -/
def Reportable (logLevel : LogLevel) (thrown : Value) : Prop :=
  ∃ cause, thrown.get "cause" = .ok cause ∧
    (∀ key ∈ ["message", "code", "syscall", "name"],
      ∃ v, (cause.orElse thrown).get key = .ok v) ∧
    (LogLevel.error.rank ≤ logLevel.rank →
      ∀ message, (cause.orElse thrown).get "message" = .ok message → message.format = .ok ())

/-! ## What the constructor takes -/

theorem normalizeMethod_ok_iff (platform : Platform) (method : Value) :
    (∃ normal, Request.normalizeMethod platform method = .ok normal) ↔
      method.nullish = true ∨ ∃ text, method = .str text := by
  unfold Request.normalizeMethod
  split
  · simp [Value.nullish]
  · simp [Value.nullish]
  · simp
  · rename_i notUndefined notNull notText
    simp only [bind_eq_ok_iff, reduceCtorEq, and_false, exists_false, false_iff, not_or, not_exists]
    refine ⟨?_, notText⟩
    unfold Value.nullish
    split
    · exact absurd rfl notUndefined
    · exact absurd rfl notNull
    · simp

theorem normalizeUrl_ok_iff (platform : Platform) (target : Value) :
    (∃ normal, Request.normalizeUrl platform target = .ok normal) ↔
      ∃ text url, target = .str text ∧ platform.parseUrl text = some url := by
  constructor
  · intro accepted
    obtain ⟨normal, made⟩ := accepted
    unfold Request.normalizeUrl at made
    split at made
    · cases made
    · rename_i text converted
      split at made
      · cases made
      · rename_i url s parsed
        cases converted
        exact ⟨_, url, rfl, parsed⟩
      · cases made
  · intro accepted
    obtain ⟨text, url, rfl, parsed⟩ := accepted
    exact ⟨trim text, by simp [Request.normalizeUrl, Value.toText, parsed]⟩

theorem precheckBody_ok_iff (body : Value) :
    Request.precheckBody body = .ok () ↔ (body.truthy = true → ∃ text, body = .str text) := by
  unfold Request.precheckBody
  split
  · simp
  · rename_i notText
    split
    · rename_i present
      simp only [reduceCtorEq, false_iff, Classical.not_imp, not_exists]
      exact ⟨present, notText⟩
    · rename_i absent
      simp [absent]

theorem normalizeCorrelationIdRegex_ok_iff (platform : Platform) (pattern : Value) :
    (∃ normal, Request.normalizeCorrelationIdRegex platform pattern = .ok normal) ↔
      (pattern.truthy = true → ∃ text, pattern.patternText = .ok text ∧
        platform.acceptsPattern text = true) := by
  unfold Request.normalizeCorrelationIdRegex
  split
  · rename_i present
    split
    · rename_i text converted
      split
      · rename_i accepted
        simp [present, converted, accepted]
      · rename_i refused
        simp [present, converted, refused]
    · rename_i converted
      simp [present, converted]
  · rename_i absent
    simp [absent]

theorem copyBuffer_ok_iff (platform : Platform) (v : Value) :
    (∃ copied, Request.copyBuffer platform v = .ok copied) ↔
      (v.truthy = true → (∃ text, v = .str text) ∨ (∃ bytes, v = .bytes bytes) ∨
        ∃ bytes, platform.bufferFromOther v = .ok bytes) := by
  unfold Request.copyBuffer
  split
  · rename_i present
    have buffer : (∃ bytes, Request.bufferFrom platform v = .ok bytes) ↔
        (∃ text, v = .str text) ∨ (∃ bytes, v = .bytes bytes) ∨
          ∃ bytes, platform.bufferFromOther v = .ok bytes := by
      unfold Request.bufferFrom
      split
      · simp
      · simp
      · rename_i notText notBytes
        have first : ¬ ∃ text, v = .str text := fun ⟨text, same⟩ => notText text same
        have second : ¬ ∃ bytes, v = .bytes bytes := fun ⟨bytes, same⟩ => notBytes bytes same
        simp only [first, second, false_or]
    simp only [present, forall_const, ← buffer, bind_eq_ok_iff, pure, Except.pure, Except.ok.injEq]
    constructor
    · rintro ⟨copied, bytes, converted, -⟩
      exact ⟨bytes, converted⟩
    · rintro ⟨bytes, converted⟩
      exact ⟨some bytes, bytes, converted, rfl⟩
  · rename_i absent
    simp [absent, pure, Except.pure]

theorem normalizeHeader_ok_iff (platform : Platform) (field : String) (value : Value) :
    (∃ normal, Request.normalizeHeader platform field value = .ok normal) ↔
      ∀ items, value = .arr items → toLowerCase platform field ∈ singleValueHeaders →
        ∀ item ∈ items, item.convertible = true := by
  unfold Request.normalizeHeader
  split
  · rename_i items
    split
    · rename_i single
      simp only [Value.arr.injEq, forall_eq', single, forall_const]
      rw [← Value.joinable_iff, ← Value.elementTexts_ok_iff]
      simp [Value.join, bind_eq_ok_iff, pure, Except.pure]
    · rename_i several
      simp [several, pure, Except.pure]
  · rename_i notList
    exact ⟨fun _ items same => absurd same (notList items), fun _ => ⟨_, rfl⟩⟩

theorem collectHeaders_ok_iff (platform : Platform) (entries : List (String × Value))
    (result : Headers) :
    (∃ merged, Request.collectHeaders platform entries result = .ok merged) ↔
      ∀ entry ∈ entries, ∃ normal, Request.normalizeHeader platform entry.1 entry.2 = .ok normal := by
  induction entries generalizing result with
  | nil => simp [Request.collectHeaders, pure, Except.pure]
  | cons head rest ih =>
    obtain ⟨field, value⟩ := head
    rw [List.forall_mem_cons]
    constructor
    · rintro ⟨merged, collected⟩
      obtain ⟨normal, normalized, collected⟩ := bind_eq_ok_iff.mp collected
      exact ⟨⟨normal, normalized⟩, (ih _).mp ⟨merged, collected⟩⟩
    · rintro ⟨⟨normal, normalized⟩, others⟩
      obtain ⟨merged, collected⟩ := (ih (result.assign field normal)).mpr others
      exact ⟨merged, bind_eq_ok_iff.mpr ⟨normal, normalized, collected⟩⟩

/-- The headers of the payload are merged exactly when each list that has to become one
value can be joined. -/
theorem mergeHeaders_ok_iff (platform : Platform) {headers : Value} {entries : List (String × Value)}
    (spread : headers.spreadEntries = .ok entries) :
    (∃ merged, Request.mergeHeaders platform .empty headers = .ok merged) ↔
      ∀ name items, (PropertyMap.ofEntries entries).get? name = some (.arr items) →
        toLowerCase platform name ∈ singleValueHeaders → ∀ item ∈ items, item.convertible = true := by
  rw [Request.mergeHeaders, spread, ok_bind]
  change (∃ merged, Request.collectHeaders platform (PropertyMap.ofEntries entries).entries .empty =
    .ok merged) ↔ _
  rw [collectHeaders_ok_iff]
  simp only [normalizeHeader_ok_iff]
  constructor
  · intro each name items held
    exact each (name, .arr items) ((PropertyMap.mem_entries_iff _ _ _).mpr held) items rfl
  · rintro each ⟨name, value⟩ listed items rfl
    exact each name items ((PropertyMap.mem_entries_iff _ _ _).mp listed)

/-- The members of an event of plain data. -/
def members (event : Value) : RequestOptions where
  protocol := member event "protocol"
  method := member event "method"
  url := member event "url"
  body := member event "body"
  ca := member event "ca"
  pfx := member event "pfx"
  passphrase := member event "passphrase"
  timeout := member event "timeout"
  correlationIdRegex := member event "correlationIdRegex"
  maxContentSize := member event "maxContentSize"
  encoding := member event "encoding"
  decompress := member event "decompress"
  headers := member event "headers"
  keepAlive := member event "keepAlive"

section
variable {event : Value} (wire : event.plain = true)
include wire

theorem spreadEntries_event : ∃ entries, event.spreadEntries = .ok entries :=
  (Value.spreadEntries_throwsOnly (Value.tame_of_plain wire)).eq_ok

theorem read_event : ∃ entries, event.spreadEntries = .ok entries ∧
    RequestOptions.read (.obj entries [] none) = .ok (members event) := by
  obtain ⟨entries, spread⟩ := spreadEntries_event wire
  refine ⟨entries, spread, ?_⟩
  have same : ∀ key, member event key = (entries.lookup key).getD .undefined := by
    intro key
    rw [member, spread]
    rfl
  simp only [members, same]
  rfl

theorem member_tame (P : Value → Prop) (key : String) : (member event key).Tame P := by
  obtain ⟨entries, spread⟩ := spreadEntries_event wire
  rw [member, spread]
  change ((entries.lookup key).getD .undefined).Tame P
  cases found : entries.lookup key with
  | none => exact Value.tame_of_plain rfl
  | some v =>
    obtain ⟨entry, listed, rfl⟩ := Value.mem_of_lookup found
    exact Value.spreadEntries_tame (Value.tame_of_plain wire) spread entry listed

end

/-- The constructor takes exactly the acceptable payloads. -/
theorem ofOptions_ok_iff (platform : Platform) {event : Value} (wire : event.plain = true) :
    (∃ request, Request.ofOptions platform (members event) = .ok request) ↔
      Acceptable platform event := by
  obtain ⟨entries, spread⟩ := (Value.spreadEntries_throwsOnly (member_tame wire _ "headers")).eq_ok
  have mergeable := mergeHeaders_ok_iff platform spread
  constructor
  · rintro ⟨request, made⟩
    have source := Request.ofOptions_madeFrom made
    refine
      { method := (normalizeMethod_ok_iff platform _).mp ⟨_, source.method⟩
        url := (normalizeUrl_ok_iff platform _).mp ⟨_, source.url⟩
        body := (precheckBody_ok_iff _).mp source.checked
        pattern := (normalizeCorrelationIdRegex_ok_iff platform _).mp ⟨_, source.pattern⟩
        headers := ?_
        certificates := ?_ }
    · intro others again
      rw [spread] at again
      cases again
      exact mergeable.mp ⟨_, source.headers⟩
    · intro key listed
      simp only [List.mem_cons, List.not_mem_nil, or_false] at listed
      rcases listed with rfl | rfl
      · exact (copyBuffer_ok_iff platform _).mp ⟨_, source.pfx⟩
      · exact (copyBuffer_ok_iff platform _).mp ⟨_, source.ca⟩
  · intro acceptable
    obtain ⟨method, normalMethod⟩ := (normalizeMethod_ok_iff platform _).mpr acceptable.method
    obtain ⟨url, normalUrl⟩ := (normalizeUrl_ok_iff platform _).mpr acceptable.url
    have checkedBody := (precheckBody_ok_iff _).mpr acceptable.body
    obtain ⟨pattern, normalPattern⟩ :=
      (normalizeCorrelationIdRegex_ok_iff platform _).mpr acceptable.pattern
    obtain ⟨headers, merged⟩ := mergeable.mpr (acceptable.headers entries spread)
    obtain ⟨pfx, copiedPfx⟩ :=
      (copyBuffer_ok_iff platform _).mpr (acceptable.certificates "pfx" (by simp))
    obtain ⟨ca, copiedCa⟩ :=
      (copyBuffer_ok_iff platform _).mpr (acceptable.certificates "ca" (by simp))
    unfold Request.ofOptions members
    dsimp only
    rw [normalMethod, ok_bind, normalUrl, ok_bind, checkedBody, ok_bind, normalPattern, ok_bind,
      merged, ok_bind, copiedPfx, ok_bind, copiedCa, ok_bind]
    exact ⟨_, rfl⟩

/-! ## What the executors answer -/

/-- The handler of the HTTP executor answers for exactly the reportable values. -/
theorem errorResponse_ok_iff (world : World) (thrown : Value) :
    (∃ response, errorResponse world thrown = .ok response) ↔
      Reportable world.logLevel thrown := by
  unfold errorResponse Reportable
  constructor
  · intro answered
    obtain ⟨response, made⟩ := answered
    obtain ⟨cause, readCause, made⟩ := bind_eq_ok_iff.mp made
    obtain ⟨message, readMessage, made⟩ := bind_eq_ok_iff.mp made
    obtain ⟨code, readCode, made⟩ := bind_eq_ok_iff.mp made
    obtain ⟨syscall, readSyscall, made⟩ := bind_eq_ok_iff.mp made
    obtain ⟨name, readName, made⟩ := bind_eq_ok_iff.mp made
    refine ⟨cause, readCause, ?_, ?_⟩
    · intro key member
      simp only [List.mem_cons, List.not_mem_nil, or_false] at member
      rcases member with rfl | rfl | rfl | rfl
      · exact ⟨message, readMessage⟩
      · exact ⟨code, readCode⟩
      · exact ⟨syscall, readSyscall⟩
      · exact ⟨name, readName⟩
    · intro logged other readOther
      rw [readMessage] at readOther
      cases readOther
      obtain ⟨_, formatted, -⟩ := bind_eq_ok_iff.mp made
      rwa [logCause, if_pos logged] at formatted
  · intro reportable
    obtain ⟨cause, readCause, readable, formats⟩ := reportable
    obtain ⟨message, readMessage⟩ := readable "message" (by simp)
    obtain ⟨code, readCode⟩ := readable "code" (by simp)
    obtain ⟨syscall, readSyscall⟩ := readable "syscall" (by simp)
    obtain ⟨name, readName⟩ := readable "name" (by simp)
    have written : logCause world.logLevel message = .ok () := by
      unfold logCause
      split
      · rename_i logged
        exact formats logged message readMessage
      · rfl
    rw [readCause, ok_bind, readMessage, ok_bind, readCode, ok_bind, readSyscall, ok_bind, readName,
      ok_bind, written, ok_bind]
    exact ⟨_, rfl⟩

/-- A request made from an event has no traps. -/
theorem plain_of_wire {platform : Platform} {event : Value} (wire : event.plain = true)
    {request : Request} (made : Request.ofOptions platform (members event) = .ok request)
    (P : Value → Prop) : TameRequest P request := by
  have tame := member_tame wire P
  refine ofOptions_tame ?_ made
  exact ⟨tame _, tame _, tame _, tame _, tame _, tame _, tame _, tame _, tame _⟩

/-- An error of the runtime or of a package can always be described. -/
theorem ws_errorResponse_of_error (executors : Executors) (e : JsError) :
    ∃ response, WsRequestExecutor.errorResponse executors e.toValue = .ok response := by
  have info : e.toValue.get "info" = .ok .undefined := rfl
  have message : e.toValue.get "message" = .ok (.str e.message) := rfl
  have code : e.toValue.get "code" = .ok (Value.ofOption e.code) := rfl
  have errorCode : ∃ v, (Value.ofOption e.code).orElseEval (e.toValue.get "syscall") = .ok v := by
    unfold Value.orElseEval
    split
    · exact ⟨_, rfl⟩
    · exact ⟨_, rfl⟩
  obtain ⟨v, errorCode⟩ := errorCode
  have written : logCause executors.http.logLevel (.str e.message) = .ok () := by
    unfold logCause
    split <;> rfl
  unfold WsRequestExecutor.errorResponse
  rw [info, ok_bind, message]
  change ∃ response, (.ok (Value.str e.message) >>= _ : Except Value Response) = .ok response
  rw [ok_bind, code, ok_bind, errorCode, ok_bind, written, ok_bind]
  exact ⟨_, rfl⟩

theorem ws_guarded_throwsOnly (executors : Executors) (request : Request)
    (logged : debugRequest executors.http request = .ok ()) :
    ThrowsOnly IsError (WsRequestExecutor.guarded executors request) := by
  have errors : ∀ e : JsError, IsError e.toValue := fun e => ⟨e, rfl⟩
  refine .bind (targetCerts_throwsOnly errors _ _) fun certs _ => ?_
  split
  · rw [logged, ok_bind]
    exact .mapError errors _
  · exact promiseAny_throwsOnly errors _

theorem ws_execute_ok (executors : Executors) (request : Request)
    (logged : debugRequest executors.http request = .ok ()) :
    ∃ response, WsRequestExecutor.execute executors request = .ok response := by
  unfold WsRequestExecutor.execute
  cases outcome : WsRequestExecutor.guarded executors request with
  | ok response => exact ⟨response, rfl⟩
  | error thrown =>
    obtain ⟨e, rfl⟩ := ws_guarded_throwsOnly executors request logged thrown outcome
    exact ws_errorResponse_of_error executors e

/-- An error of the runtime or of a package is reportable. -/
theorem reportable_of_error (logLevel : LogLevel) (e : JsError) : Reportable logLevel e.toValue := by
  refine ⟨.undefined, rfl, ?_, ?_⟩
  · intro key member
    simp only [List.mem_cons, List.not_mem_nil, or_false] at member
    rcases member with rfl | rfl | rfl | rfl <;> exact ⟨_, rfl⟩
  · intro _ message read
    cases read
    rfl

theorem http_execute_ok {world : World} (scripts : TameScripts (Reportable world.logLevel) world)
    {request : Request} (tame : TameRequest (Reportable world.logLevel) request) :
    ∃ response, Http.execute world request = .ok response := by
  unfold Http.execute
  cases outcome : guarded world request with
  | ok response => exact ⟨response, rfl⟩
  | error thrown =>
    have reportable :=
      guarded_throwsOnly (reportable_of_error world.logLevel) scripts tame thrown outcome
    exact (errorResponse_ok_iff world thrown).mpr reportable

/-- Nothing is sent for a protocol without an executor. -/
theorem sendRequest_routed {executors : Executors} {request : Request} {response : Response}
    (sent : DefaultRepeaterCommandHub.sendRequest executors request = .ok response) :
    request.protocol = .str "http" ∨ request.protocol = .str "ws" := by
  have refused : ∀ protocol,
      DefaultRepeaterCommandHub.unsupportedProtocol protocol ≠ .ok response := by
    intro protocol answered
    obtain ⟨text, -, thrown⟩ := bind_eq_ok_iff.mp answered
    cases thrown
  unfold DefaultRepeaterCommandHub.sendRequest at sent
  split at sent
  · rename_i protocol known
    rw [known]
    split at sent
    · rename_i isHttp
      exact Or.inl (by rw [isHttp])
    · split at sent
      · rename_i isWs
        exact Or.inr (by rw [isWs])
      · exact absurd sent (refused _)
  · exact absurd sent (refused _)

/-! ## From the event to its acknowledgement -/

theorem requestReceived_eq (executors : Executors) {event : Value} (wire : event.plain = true) :
    ServerRepeaterLauncher.requestReceived executors event =
      Request.ofOptions executors.http.platform (members event) >>=
        DefaultRepeaterCommandHub.sendRequest executors := by
  obtain ⟨entries, spread, read⟩ := read_event wire
  unfold ServerRepeaterLauncher.requestReceived Request.new
  rw [spread, ok_bind, read, ok_bind]

/-- No script, and WebSocket targets that refuse the connection. -/
def plainExecutors : Executors where
  http := .plain
  frameMatches pattern text := pattern = text
  wsCall _ _ := .unopened
    { name := "Error", message := "connect ECONNREFUSED", code := some "ECONNREFUSED"
      syscall := some "connect" }

/-- A script for every host whose `handle` does this. -/
def scriptedExecutors (handle : ScriptFunction) : Executors :=
  { plainExecutors with
    http :=
      { World.plain with
        scripts := fun _ => InsertionMap.set .empty "*"
          { id := "*", type := .remoteType, code := "exports.handle = handle" }
        exports := fun _ _ _ => .ok (some handle) } }

end BrightCli.Guarantees.Acknowledgement
