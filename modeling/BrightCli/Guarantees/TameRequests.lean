import BrightCli.Source.Http.Executor

/-!
# What the HTTP executor can throw

Every step of the executor, from the constructor of a request to the decoding of the
answer, throws errors of the runtime or of a package, or else what a value throws when
it is read or converted. So whatever holds of those errors and of the traps of the
values a request is made of (`TameRequest`) holds of all that its execution throws, up
to the scripts. A request of plain data has no traps. What scripts bring in is assumed
in `TameScripts`: what they throw, and the traps of what they return.
`executeRequest` is cut at the point where the response is handed to the response
script.
-/
namespace BrightCli.Guarantees.TameRequests
open BrightCli.Lib BrightCli.Lib.Js BrightCli.Source BrightCli.Source.Http
  BrightCli.Source.Scripts

variable {P : Value → Prop}

/-- The members that the executor converts or writes to the log. -/
structure TameRequest (P : Value → Prop) (request : Request) : Prop where
  protocol : request.protocol.Tame P
  body : request.body.Tame P
  headers : ∀ entry ∈ request.headers.entries, entry.2.Tame P
  passphrase : request.passphrase.Tame P
  encoding : request.encoding.Tame P
  maxContentSize : request.maxContentSize.Tame P

/-- The members that the constructor reads on, or stores as they come. -/
structure TameOptions (P : Value → Prop) (options : RequestOptions) : Prop where
  protocol : options.protocol.Tame P
  method : options.method.Tame P
  body : options.body.Tame P
  ca : options.ca.Tame P
  pfx : options.pfx.Tame P
  passphrase : options.passphrase.Tame P
  maxContentSize : options.maxContentSize.Tame P
  encoding : options.encoding.Tame P
  headers : options.headers.Tame P

/-! ## The constructor -/

section
variable {platform : Platform} {current : Headers} (own : ∀ entry ∈ current.entries, entry.2.Tame P)
include own

/-- What `setHeaders` merges of tame headers is tame. -/
theorem merged_tame (added : List (String × Value)) (given : ∀ entry ∈ added, entry.2.Tame P) :
    ∀ entry ∈ ((PropertyMap.ofEntries current.entries).spread added).entries, entry.2.Tame P := by
  refine PropertyMap.forall_spread (P := fun entry => entry.2.Tame P) _ added ?_ given
  rw [PropertyMap.ofEntries_entries]
  exact own

theorem mergeHeaders_tame {headers : Value} (tame : headers.Tame P) (merged : Headers)
    (made : Request.mergeHeaders platform current headers = .ok merged) :
    ∀ entry ∈ merged.entries, entry.2.Tame P := by
  obtain ⟨added, spread, collected⟩ := bind_eq_ok_iff.mp made
  refine Request.collectHeaders_all (Q := fun entry => entry.2.Tame P) ?_ _ .empty merged
    (merged_tame own added (Value.spreadEntries_tame tame spread)) (by simp [PropertyMap.empty])
    collected
  intro field value normal tame _ normalized
  unfold Request.normalizeHeader at normalized
  split at normalized
  · split at normalized
    · obtain ⟨joined, -, same⟩ := bind_eq_ok_iff.mp normalized
      cases same
      exact Value.tame_of_plain rfl
    · cases normalized
      exact tame
  · cases normalized
    exact tame

end

section
variable (errors : ∀ e : JsError, P e.toValue)
include errors

theorem normalizeHeader_throwsOnly (platform : Platform) (field : String) {value : Value}
    (tame : value.Tame P) : ThrowsOnly P (Request.normalizeHeader platform field value) := by
  unfold Request.normalizeHeader
  split
  · split
    · exact .bind (Value.join_throwsOnly errors _ ((Value.tame_arr_iff _).mp tame)) fun _ _ => .ok _
    · exact .ok _
  · exact .ok _

theorem collectHeaders_throwsOnly (platform : Platform) (entries : List (String × Value))
    (result : Headers) (tame : ∀ entry ∈ entries, entry.2.Tame P) :
    ThrowsOnly P (Request.collectHeaders platform entries result) := by
  induction entries generalizing result with
  | nil => exact .ok _
  | cons head rest ih =>
    obtain ⟨field, value⟩ := head
    refine .bind (normalizeHeader_throwsOnly errors platform field (tame (field, value) (by simp)))
      fun normal _ => ?_
    exact ih _ fun entry member => tame entry (by simp [member])

theorem mergeHeaders_throwsOnly (platform : Platform) {current : Headers} {headers : Value}
    (own : ∀ entry ∈ current.entries, entry.2.Tame P) (tame : headers.Tame P) :
    ThrowsOnly P (Request.mergeHeaders platform current headers) :=
  .bind (Value.spreadEntries_throwsOnly tame) fun added spread =>
    collectHeaders_throwsOnly errors platform _ _
      (merged_tame own added (Value.spreadEntries_tame tame spread))

theorem destructure_throwsOnly {argument : Value} (tame : argument.Tame P) (key : String) :
    ThrowsOnly P (destructure argument key) := by
  unfold destructure
  split
  · exact .error (errors _)
  · exact .error (errors _)
  · exact Value.get_throwsOnly errors tame key

theorem read_throwsOnly {options : Value} (tame : options.Tame P) :
    ThrowsOnly P (RequestOptions.read options) := by
  have get := Value.get_throwsOnly errors tame
  refine .bind (destructure_throwsOnly errors tame _) fun _ _ => ?_
  iterate 13 refine .bind (get _) fun _ _ => ?_
  exact .ok _

theorem normalizeMethod_throwsOnly (platform : Platform) {method : Value} (tame : method.Tame P) :
    ThrowsOnly P (Request.normalizeMethod platform method) := by
  unfold Request.normalizeMethod
  split
  · exact .ok _
  · exact .ok _
  · exact .ok _
  · exact .bind (Value.get_throwsOnly errors tame _) fun _ _ => .error (errors _)

theorem normalizeUrl_throwsOnly (platform : Platform) (url : Value) :
    ThrowsOnly P (Request.normalizeUrl platform url) := by
  unfold Request.normalizeUrl
  split
  · exact .error (errors _)
  · split
    · exact .error (errors _)
    · exact .ok _
    · exact .error (errors _)

theorem precheckBody_throwsOnly (body : Value) : ThrowsOnly P (Request.precheckBody body) := by
  unfold Request.precheckBody
  split
  · exact .ok _
  · split
    · exact .error (errors _)
    · exact .ok _

theorem normalizeCorrelationIdRegex_throwsOnly (platform : Platform) (pattern : Value) :
    ThrowsOnly P (Request.normalizeCorrelationIdRegex platform pattern) := by
  unfold Request.normalizeCorrelationIdRegex
  split
  · split
    · split
      · exact .ok _
      · exact .error (errors _)
    · exact .error (errors _)
  · exact .ok _

theorem copyBuffer_throwsOnly (platform : Platform) {v : Value} (tame : v.Tame P) :
    ThrowsOnly P (Request.copyBuffer platform v) := by
  unfold Request.copyBuffer
  split
  · refine .bind ?_ fun _ _ => .ok _
    unfold Request.bufferFrom
    split
    · exact .ok _
    · exact .ok _
    · exact .of_value errors tame (platform.bufferFromOther_throws _)
  · exact .ok _

theorem ofOptions_throwsOnly (platform : Platform) {options : RequestOptions}
    (tame : TameOptions P options) : ThrowsOnly P (Request.ofOptions platform options) := by
  refine .bind (normalizeMethod_throwsOnly errors platform tame.method) fun _ _ => ?_
  refine .bind (normalizeUrl_throwsOnly errors platform _) fun _ _ => ?_
  refine .bind (precheckBody_throwsOnly errors _) fun _ _ => ?_
  refine .bind (normalizeCorrelationIdRegex_throwsOnly errors platform _) fun _ _ => ?_
  refine .bind (mergeHeaders_throwsOnly errors platform (by simp [PropertyMap.empty]) tame.headers)
    fun _ _ => ?_
  refine .bind (copyBuffer_throwsOnly errors platform tame.pfx) fun _ _ => ?_
  exact .bind (copyBuffer_throwsOnly errors platform tame.ca) fun _ _ => .ok _

end

theorem destructure_tame {argument read : Value} {key : String} (tame : argument.Tame P)
    (done : destructure argument key = .ok read) : read.Tame P := by
  unfold destructure at done
  split at done
  · cases done
  · cases done
  · exact Value.get_tame tame done

theorem read_tame {options : Value} {members : RequestOptions} (tame : options.Tame P)
    (done : RequestOptions.read options = .ok members) : TameOptions P members := by
  obtain ⟨protocol, readProtocol, done⟩ := bind_eq_ok_iff.mp done
  obtain ⟨method, readMethod, done⟩ := bind_eq_ok_iff.mp done
  obtain ⟨url, -, done⟩ := bind_eq_ok_iff.mp done
  obtain ⟨body, readBody, done⟩ := bind_eq_ok_iff.mp done
  obtain ⟨ca, readCa, done⟩ := bind_eq_ok_iff.mp done
  obtain ⟨pfx, readPfx, done⟩ := bind_eq_ok_iff.mp done
  obtain ⟨passphrase, readPassphrase, done⟩ := bind_eq_ok_iff.mp done
  obtain ⟨timeout, -, done⟩ := bind_eq_ok_iff.mp done
  obtain ⟨pattern, -, done⟩ := bind_eq_ok_iff.mp done
  obtain ⟨maxContentSize, readMaxContentSize, done⟩ := bind_eq_ok_iff.mp done
  obtain ⟨encoding, readEncoding, done⟩ := bind_eq_ok_iff.mp done
  obtain ⟨decompress, -, done⟩ := bind_eq_ok_iff.mp done
  obtain ⟨headers, readHeaders, done⟩ := bind_eq_ok_iff.mp done
  obtain ⟨keepAlive, -, done⟩ := bind_eq_ok_iff.mp done
  cases done
  exact
    { protocol := destructure_tame tame readProtocol
      method := Value.get_tame tame readMethod
      body := Value.get_tame tame readBody
      ca := Value.get_tame tame readCa
      pfx := Value.get_tame tame readPfx
      passphrase := Value.get_tame tame readPassphrase
      maxContentSize := Value.get_tame tame readMaxContentSize
      encoding := Value.get_tame tame readEncoding
      headers := Value.get_tame tame readHeaders }

theorem ofOptions_tame {platform : Platform} {options : RequestOptions} {request : Request}
    (tame : TameOptions P options) (made : Request.ofOptions platform options = .ok request) :
    TameRequest P request := by
  have source := Request.ofOptions_madeFrom made
  exact
    { protocol := source.protocol ▸ tame.protocol
      body := source.body ▸ tame.body
      headers := mergeHeaders_tame (by simp [PropertyMap.empty]) tame.headers _ source.headers
      passphrase := source.passphrase ▸ tame.passphrase
      encoding := source.encoding ▸ tame.encoding
      maxContentSize := source.maxContentSize ▸ tame.maxContentSize }

theorem new_throwsOnly (errors : ∀ e : JsError, P e.toValue) (platform : Platform) {options : Value}
    (tame : options.Tame P) : ThrowsOnly P (Request.new platform options) :=
  .bind (read_throwsOnly errors tame) fun _ done =>
    ofOptions_throwsOnly errors platform (read_tame tame done)

theorem new_tame {platform : Platform} {options : Value} {request : Request} (tame : options.Tame P)
    (made : Request.new platform options = .ok request) : TameRequest P request := by
  obtain ⟨members, done, made⟩ := bind_eq_ok_iff.mp made
  exact ofOptions_tame (read_tame tame done) made

/-! ## The log and the configured headers -/

/-- Writing a request to the log throws its traps, and no errors. -/
theorem debugRequest_throwsOnly (world : World) {request : Request} (tame : TameRequest P request) :
    ThrowsOnly P (debugRequest world request) := by
  unfold debugRequest
  split
  · refine Value.stringify_throwsOnly _ ((Value.tame_obj_iff _ _ _).mpr ⟨?_, ?_, ?_⟩)
    · simp
    · simp
    · intro entry member
      have text : ∀ b, (Request.bufferText b).Tame P := by
        intro b
        cases b <;> exact Value.tame_of_plain rfl
      have pattern : (Request.regexValue request.correlationIdRegex).Tame P := by
        cases request.correlationIdRegex <;> exact Value.tame_of_plain rfl
      simp only [Request.toJSON, List.mem_cons, List.not_mem_nil, or_false] at member
      rcases member with rfl | rfl | rfl | rfl | rfl | rfl | rfl | rfl | rfl
      · exact tame.protocol
      · exact Value.tame_of_plain rfl
      · exact tame.body
      · exact Value.tame_of_plain rfl
      · exact (Value.tame_obj_iff _ _ _).mpr ⟨by simp, by simp, tame.headers⟩
      · exact tame.passphrase
      · exact text _
      · exact text _
      · exact pattern
  · exact .ok _

/-- A request without traps can be written to the log. -/
theorem debugRequest_ok (world : World) {request : Request}
    (plain : TameRequest (fun _ => False) request) : debugRequest world request = .ok () := by
  obtain ⟨_, written⟩ := (debugRequest_throwsOnly world plain).eq_ok
  exact written

theorem configured_throwsOnly (errors : ∀ e : JsError, P e.toValue) (world : World)
    {request : Request} (tame : TameRequest P request) : ThrowsOnly P (configured world request) := by
  unfold configured
  split
  · rename_i headers given
    have plain := (Value.plain_obj_iff _ _ _).mpr ⟨rfl, rfl, world.options.headers_plain headers given⟩
    exact .bind (mergeHeaders_throwsOnly errors _ tame.headers (Value.tame_of_plain plain))
      fun _ _ => .ok _
  · exact .ok _

theorem configured_tame {world : World} {request merged : Request} (tame : TameRequest P request)
    (done : configured world request = .ok merged) : TameRequest P merged := by
  unfold configured at done
  split at done
  · rename_i headers given
    have plain := (Value.plain_obj_iff _ _ _).mpr ⟨rfl, rfl, world.options.headers_plain headers given⟩
    obtain ⟨headers, made, same⟩ := bind_eq_ok_iff.mp done
    cases same
    exact { tame with
      headers := mergeHeaders_tame tame.headers (Value.tame_of_plain plain) headers made }
  · cases done
    exact tame

/-! ## The transfer -/

theorem orElse_tame {a b : Value} (first : a.Tame P) (second : b.Tame P) : (a.orElse b).Tame P := by
  unfold Value.orElse
  split
  · exact second
  · exact first

section
variable (errors : ∀ e : JsError, P e.toValue)
include errors

theorem decodedBody_throwsOnly (platform : Platform) {request : Request}
    (encoding : request.encoding.Tame P) : ThrowsOnly P (decodedBody platform request) := by
  unfold decodedBody
  split
  · exact .bind (.of_value errors encoding (platform.iconvEncode_throws _ _)) fun _ _ => .ok _
  · exact .ok _

theorem headerLine_throwsOnly (key : String) {v : Value} (tame : v.Tame P) :
    ThrowsOnly P (headerLine key v) :=
  .bind (Value.toText_throwsOnly errors _ (orElse_tame tame (Value.tame_of_plain rfl)))
    fun _ _ => .ok _

theorem headerLines_throwsOnly (entries : List (String × Value))
    (tame : ∀ entry ∈ entries, entry.2.Tame P) : ThrowsOnly P (headerLines entries) := by
  induction entries with
  | nil => exact .ok []
  | cons head rest ih =>
    obtain ⟨key, value⟩ := head
    have others := ih fun entry member => tame entry (by simp [member])
    have own : value.Tame P := tame (key, value) (by simp)
    rw [headerLines]
    split
    · exact others
    · refine .bind (.mapM _ _ ?_) fun lines _ => .bind others fun more _ => .ok _
      intro item member
      apply headerLine_throwsOnly errors
      cases value with
      | arr items => exact (Value.tame_arr_iff items).mp own item member
      | _ =>
        rw [headerValues, List.mem_singleton] at member
        · rw [member]
          exact own
        all_goals simp

section
variable (platform : Platform) (options : RequestExecutorOptions) (request : Request)

theorem shouldApplyKerberos_throwsOnly :
    ThrowsOnly P (shouldApplyKerberos platform options request) := by
  unfold shouldApplyKerberos
  split
  · exact .ok _
  · split
    · exact .ok _
    · split
      · exact .ok _
      · exact .bind (.mapError errors _) fun url _ => .ok _

theorem resolveProxy_throwsOnly : ThrowsOnly P (resolveProxy platform options request) := by
  refine .bind (.mapError errors _) fun url _ => ?_
  split
  · exact .ok _
  · split
    · exact .ok _
    · exact .ok _

theorem applyCurlKerberos_throwsOnly :
    ThrowsOnly P (applyCurlKerberos platform options request) := by
  refine .bind (shouldApplyKerberos_throwsOnly errors platform options request) fun applies _ => ?_
  split
  · exact .ok _
  · exact .ok _

theorem applyCurlBody_throwsOnly (encoding : request.encoding.Tame P) :
    ThrowsOnly P (applyCurlBody platform request) := by
  unfold applyCurlBody
  split
  · split
    · exact .ok _
    · dsimp only
      split
      · exact .bind (.of_value errors encoding (platform.iconvEncode_throws _ _)) fun _ _ => .ok _
      · exact .ok _
  · exact .ok _

theorem applyCurlHeaders_throwsOnly (headers : ∀ entry ∈ request.headers.entries, entry.2.Tame P) :
    ThrowsOnly P (applyCurlHeaders platform options request) := by
  refine .bind (headerLines_throwsOnly errors _ headers) fun lines _ => ?_
  dsimp only
  split
  · exact .ok _
  · exact .bind (shouldApplyKerberos_throwsOnly errors platform options request) fun kerberos _ => .ok _

end

theorem setOpts_throwsOnly (setOpt : CurlOption → Except JsError Unit)
    (set more : List CurlOption) : ThrowsOnly P (setOpts setOpt set more) := by
  induction more generalizing set with
  | nil => exact .ok set
  | cons option rest ih => exact .bind (.mapError errors _) fun _ _ => ih (set ++ [option])

section
variable (world : World) (request : Request) (tame : TameRequest P request)
include tame

theorem configureCurl_throwsOnly :
    ThrowsOnly P (configureCurl world.platform world.options world.setOpt request) := by
  have set := setOpts_throwsOnly errors world.setOpt
  have kerberos := shouldApplyKerberos_throwsOnly errors world.platform world.options request
  refine .bind (.mapError errors _) fun url _ => .bind (set _ _) fun handle _ => ?_
  refine .bind (applyCurlBody_throwsOnly errors _ request tame.encoding) fun body _ => ?_
  refine .bind (set _ _) fun handle _ => ?_
  refine .bind (applyCurlHeaders_throwsOnly errors _ _ request tame.headers) fun headers _ => ?_
  refine .bind (set _ _) fun handle _ => ?_
  extract_lets finish
  have finishes : ∀ reuse, ThrowsOnly P (finish reuse) := by
    intro reuse
    refine .bind (set _ _) fun handle _ => ?_
    refine .bind (applyCurlKerberos_throwsOnly errors _ _ request) fun kerberos _ => ?_
    refine .bind (set _ _) fun handle _ => ?_
    exact .bind (resolveProxy_throwsOnly errors _ _ request) fun proxy _ => set _ _
  split
  · exact finishes true
  · exact .bind kerberos fun reuse _ => finishes reuse

theorem maxSize_throwsOnly (whiteListed : Option WhitelistMimeType) :
    ThrowsOnly P (maxSize world.platform world.options request whiteListed) := by
  unfold maxSize
  split
  · exact .ok _
  · refine .bind ?_ fun limit _ => .ok _
    have limit : (request.maxContentSize.orElse
        ((world.options.maxContentLength.map fun n => .num n).getD .undefined)).Tame P := by
      refine orElse_tame tame.maxContentSize ?_
      cases world.options.maxContentLength <;> exact Value.tame_of_plain rfl
    unfold toNumber
    split
    · exact .ok _
    · exact .ok _
    · exact .ok _
    · exact .ok _
    · exact .bind (Value.get_throwsOnly errors limit _) fun _ _ =>
        .bind (Value.toText_throwsOnly errors _ limit) fun _ _ => .ok _

theorem truncateResponse_throwsOnly (rawBody : Utf8.Bytes) (headers : Headers) :
    ThrowsOnly P (truncateResponse world.platform world.options request rawBody headers) := by
  refine .bind (maxSize_throwsOnly errors world request tame _) fun limit _ => ?_
  refine .bind (.of_value errors ?_ (world.platform.iconvDecode_throws _ _)) fun text _ => .ok _
  exact orElse_tame tame.encoding (Value.tame_of_plain rfl)

end

end

/-- `executeRequest` up to the response that is handed to the response script. -/
def transfer (world : World) (attempt : Option Nat) (request : Request) :
    Except Value Response := do
  let handle ← configureCurl world.platform world.options world.setOpt request
  let reply ← (world.perform attempt handle).mapError JsError.toValue
  let headers := parseCurlHeaders world.platform reply.rawHeaders
  if responseHasNoBody request.method reply.statusCode then
    pure
      { protocol := "http"
        statusCode := .num reply.statusCode
        headers := .obj headers.entries [] none
        body := .str ""
        ttfb := .num reply.ttfb }
  else
    let truncated ← truncateResponse world.platform world.options request reply.rawBody headers
    pure
      { protocol := "http"
        statusCode := .num reply.statusCode
        headers := .obj truncated.2.entries [] none
        body := .str truncated.1
        encoding := request.encoding
        ttfb := .num reply.ttfb }

theorem executeRequest_eq (world : World) (attempt : Option Nat) (request : Request) :
    executeRequest world attempt request =
      transfer world attempt request >>= handleResponseScript world attempt request := by
  unfold executeRequest transfer
  cases configureCurl world.platform world.options world.setOpt request with
  | error thrown => rfl
  | ok handle =>
    rw [ok_bind, ok_bind]
    cases (world.perform attempt handle).mapError JsError.toValue with
    | error thrown => rfl
    | ok reply =>
      rw [ok_bind, ok_bind]
      dsimp only
      split
      · rfl
      · cases truncateResponse world.platform world.options request reply.rawBody
          (parseCurlHeaders world.platform reply.rawHeaders) with
        | error thrown => rfl
        | ok truncated => rfl

theorem transfer_throwsOnly (errors : ∀ e : JsError, P e.toValue) (world : World)
    (attempt : Option Nat) (request : Request) (tame : TameRequest P request) :
    ThrowsOnly P (transfer world attempt request) := by
  refine .bind (configureCurl_throwsOnly errors world request tame) fun handle _ => ?_
  refine .bind (.mapError errors _) fun reply _ => ?_
  dsimp only
  split
  · exact .ok _
  · exact .bind (truncateResponse_throwsOnly errors world request tame _ _) fun truncated _ => .ok _

/-! ## Scripts -/

/-- Some call finds the script in the store. -/
def Stored (world : World) (script : VirtualScript) : Prop :=
  ∃ call, script ∈ (world.scripts call).values

/-- Running a stored script and calling what it exports throws such values only, and so
does reading or converting what its functions return. -/
structure TameScripts (P : Value → Prop) (world : World) : Prop where
  runs : ∀ call script name, Stored world script → ThrowsOnly P (world.exports call script name)
  throws : ∀ call script name function argument, Stored world script →
    world.exports call script name = .ok (some function) → ThrowsOnly P (function argument)
  returns : ∀ call script name function argument result, Stored world script →
    world.exports call script name = .ok (some function) → function argument = .ok result →
    result.Tame P

theorem stored_of_find {world : World} {call : ScriptCall} {host : String} {script : VirtualScript}
    (found : DefaultVirtualScripts.find (world.scripts call) host = some script) :
    Stored world script :=
  ⟨call, List.mem_of_find?_eq_some found⟩

theorem newURL_throwsOnly (errors : ∀ e : JsError, P e.toValue) (platform : Platform) (url : String) :
    ThrowsOnly P (newURL platform url) := by
  unfold newURL
  split
  · exact .ok _
  · exact .error (errors _)

section
variable {world : World} (scripts : TameScripts P world)
include scripts

theorem exec_tame {script : VirtualScript} (stored : Stored world script) {call : ScriptCall}
    {name : String} {argument result : Value}
    (done : Http.VirtualScript.exec world call script name argument = .ok result) :
    result.Tame P := by
  obtain ⟨exported, ran, done⟩ := bind_eq_ok_iff.mp done
  cases exported with
  | none => cases done
  | some function => exact scripts.returns _ _ _ _ _ _ stored ran done

variable (errors : ∀ e : JsError, P e.toValue)
include errors

theorem exec_throwsOnly {script : VirtualScript} (stored : Stored world script) (call : ScriptCall)
    (name : String) (argument : Value) :
    ThrowsOnly P (Http.VirtualScript.exec world call script name argument) := by
  refine .bind (scripts.runs call script name stored) fun exported ran => ?_
  cases exported with
  | none => exact .error (errors _)
  | some function => exact scripts.throws _ _ _ _ _ stored ran

theorem transformScript_throwsOnly {request : Request} (tame : TameRequest P request) :
    ThrowsOnly P (transformScript world request) := by
  refine .bind (newURL_throwsOnly errors _ _) fun url _ => ?_
  split
  · exact .ok _
  · rename_i script found
    have stored := stored_of_find found
    refine .bind (decodedBody_throwsOnly errors _ tame.encoding) fun body _ => ?_
    exact .bind (exec_throwsOnly scripts errors stored _ _ _) fun result done =>
      new_throwsOnly errors _ (exec_tame scripts stored done)

theorem handleResponseScript_throwsOnly (attempt : Option Nat) (request : Request)
    (response : Response) : ThrowsOnly P (handleResponseScript world attempt request response) := by
  refine .bind (newURL_throwsOnly errors _ _) fun url _ => ?_
  split
  · exact .ok _
  · rename_i script found
    have stored := stored_of_find found
    refine .bind (.bind (scripts.runs _ _ _ stored) fun _ _ => .ok _) fun handles _ => ?_
    split
    · exact .ok _
    · refine .bind (exec_throwsOnly scripts errors stored _ _ _) fun result done => ?_
      have get := Value.get_throwsOnly errors (exec_tame scripts stored done)
      split
      · exact .ok _
      · exact .bind (get _) fun _ _ => .bind (get _) fun _ _ => .bind (get _) fun _ _ => .ok _

end

theorem transformScript_tame {world : World} (scripts : TameScripts P world)
    {request sent : Request} (tame : TameRequest P request)
    (done : transformScript world request = .ok sent) : TameRequest P sent := by
  obtain ⟨url, -, done⟩ := bind_eq_ok_iff.mp done
  split at done
  · cases done
    exact tame
  · rename_i script found
    obtain ⟨body, -, done⟩ := bind_eq_ok_iff.mp done
    obtain ⟨result, ran, made⟩ := bind_eq_ok_iff.mp done
    exact new_tame (exec_tame scripts (stored_of_find found) ran) made

theorem promiseAny_throwsOnly (errors : ∀ e : JsError, P e.toValue)
    (results : List (Except Value Response)) : ThrowsOnly P (promiseAny results) := by
  induction results with
  | nil => exact .error (errors _)
  | cons head rest ih =>
    cases head with
    | ok response => exact .ok response
    | error _ => exact ih

theorem targetCerts_throwsOnly (errors : ∀ e : JsError, P e.toValue) (world : World)
    (request : Request) : ThrowsOnly P (targetCerts world request) := by
  unfold targetCerts
  split
  · exact .ok _
  · split
    · exact .ok _
    · exact .error (errors _)

/-- What leaves the guarded part of `execute`. -/
theorem guarded_throwsOnly (errors : ∀ e : JsError, P e.toValue) {world : World}
    (scripts : TameScripts P world) {request : Request} (tame : TameRequest P request) :
    ThrowsOnly P (guarded world request) := by
  refine .bind (configured_throwsOnly errors world tame) fun merged merges => ?_
  have tameMerged := configured_tame tame merges
  refine .bind (transformScript_throwsOnly scripts errors tameMerged) fun sent transformed => ?_
  have tameSent := transformScript_tame scripts tameMerged transformed
  refine .bind (targetCerts_throwsOnly errors world sent) fun certs _ => ?_
  split
  · refine .bind (debugRequest_throwsOnly world tameSent) fun _ _ => ?_
    rw [executeRequest_eq]
    exact .bind (transfer_throwsOnly errors world none sent tameSent) fun response _ =>
      handleResponseScript_throwsOnly scripts errors none sent response
  · exact promiseAny_throwsOnly errors _

end BrightCli.Guarantees.TameRequests
