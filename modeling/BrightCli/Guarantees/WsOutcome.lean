import BrightCli.Guarantees.Acknowledgement
import BrightCli.Guarantees.WsReplies

/-!
# How a WebSocket exchange ends

An exchange is settled by one event, whatever the client, its `send` and the frame timer
do before and after. The invariant `Underway` keeps what the events so far have made of an
exchange that is not settled: the answer of the handshake, and the frames that came since
the callback of `send`. `underway_step` reads the settling event and its outcome off it,
and `ws_relayed` carries the outcome of the call that was made for an event, with the
pattern of that event, to its acknowledgement.
-/
namespace BrightCli.Guarantees.WsOutcome
open BrightCli.Lib BrightCli.Lib.Js BrightCli.Source BrightCli.Source.Http
  BrightCli.Source.Repeater BrightCli.Source.Ws BrightCli.Source.Ws.Exchange
  BrightCli.Guarantees.Acknowledgement BrightCli.Guarantees.TameRequests
  BrightCli.Guarantees.WsErrors BrightCli.Guarantees.WsReplies

/-- The answers to the handshake. -/
def handshakes (seen : List Event) : List IncomingMessage :=
  seen.filterMap fun event =>
    match event with
    | .upgrade res => some res
    | _ => none

section
variable (matcher : Option (String → Bool))

/-- The matching frames since the callback of `send`. -/
def heard (seen : List Event) : List String :=
  (seen.dropWhile fun event => !completes event).filterMap (reply matcher)

/-- The event that settles an exchange and its outcome, after the events before it. -/
inductive Settles (before : List Event) : Event → Except JsError Response → Prop where
  /-- The first matching frame since the callback of `send`. -/
  | frame (text : String) (res : IncomingMessage) (counted : accepts matcher text = true)
      (sent : before.any completes = true) (first : heard matcher before = [])
      (shaken : handshakes before = [res]) :
      Settles before (.message text) (.ok
        { protocol := "ws", statusCode := .num res.statusCode, headers := res.headers
          body := .str text })
  | closed (code : Nat) (reason : Utf8.Bytes) (res : IncomingMessage)
      (sent : before.any completes = true) (unanswered : heard matcher before = [])
      (shaken : handshakes before = [res]) :
      Settles before (.closed code reason) (.ok
        { protocol := "ws", statusCode := .num code, headers := res.headers, body := .bytes reason })
  | unsent (err : JsError) : Settles before (.sendCompleted (some err)) (.error err)
  | late (sent : before.any completes = true) (unanswered : heard matcher before = []) :
      Settles before .timeout (.error timedOut)
  /-- A protocol error, in the handshake or while a frame is awaited. -/
  | broken (err : JsError)
      (listened : handshakes before = [] ∨ before.any completes = true ∧ heard matcher before = []) :
      Settles before (.protocolError err) (.error err)

/-- What the events seen have made of an exchange in a phase that is not settled. -/
def Progress (seen : List Event) (timed : Prop) : Phase → Prop
  | .connecting => seen.any completes = false
  | .connected => seen.any completes = false
  | .sending => seen.any completes = false
  | .consuming => seen.any completes = true ∧ heard matcher seen = [] ∧ timed
  | _ => True

/-- An exchange that is not settled, after the events seen. -/
structure Underway (seen : List Event) (s : Exchange) : Prop where
  handshake : handshakes seen = s.upgraded.toList
  progress : Progress matcher seen (s.crashed = false → s.timer = true) s.phase

end

section
variable {matcher : Option (String → Bool)} {seen : List Event} {e : Event} {s next : Exchange}

theorem handshakes_snoc : handshakes (seen ++ [e]) = handshakes seen ++ handshakes [e] :=
  List.filterMap_append

theorem heard_snoc : heard matcher (seen ++ [e]) =
    if seen.any completes then heard matcher seen ++ (reply matcher e).toList else [] := by
  unfold heard
  rw [List.dropWhile_append]
  cases started : seen.any completes with
  | true =>
    have nonempty : (seen.dropWhile fun event => !completes event).isEmpty = false := by
      rw [List.isEmpty_eq_false_iff]
      intro nil
      obtain ⟨first, member, isStart⟩ := List.any_eq_true.mp started
      simpa [isStart] using List.dropWhile_eq_nil_iff.mp nil first member
    rw [nonempty, if_neg (by simp), if_pos rfl, List.filterMap_append]
    cases answer : reply matcher e <;> simp [answer]
  | false =>
    have all : ∀ event ∈ seen, (!completes event) = true := by
      intro event member
      simpa using List.any_eq_false.mp started event member
    rw [List.dropWhile_eq_nil_iff.mpr all, List.isEmpty_nil, if_pos rfl, if_neg Bool.false_ne_true]
    -- the callback itself is no frame
    cases e with
    | sendCompleted err => cases err <;> rfl
    | _ => rfl

/-- How a step changes the phase. -/
inductive Moves (matcher : Option (String → Bool)) (s : Exchange) : Event → Phase → Prop where
  | stays (e : Event) (unheard : s.phase = .consuming → reply matcher e = none)
      (incomplete : completes e = false) : Moves matcher s e s.phase
  | connected (e : Event) (connecting : s.phase = .connecting) (incomplete : completes e = false) :
      Moves matcher s e .connected
  | called (connected : s.phase = .connected) : Moves matcher s .sendCalled .sending
  | sent (sending : s.phase = .sending) : Moves matcher s (.sendCompleted none) .consuming
  | unsent (err : JsError) (sending : s.phase = .sending) :
      Moves matcher s (.sendCompleted (some err)) (.rejected err)
  | frame (text : String) (consuming : s.phase = .consuming) (counted : accepts matcher text = true) :
      Moves matcher s (.message text) (.resolved (s.frameResponse text))
  | closed (code : Nat) (reason : Utf8.Bytes) (consuming : s.phase = .consuming) :
      Moves matcher s (.closed code reason) (.resolved (s.closeResponse code reason))
  | late (timer : s.timer = true) (listened : s.phase = .connecting ∨ s.phase = .consuming) :
      Moves matcher s .timeout (.rejected timedOut)
  | broken (err : JsError) (opened : s.opened = true)
      (listened : s.phase = .connecting ∨ s.phase = .consuming) :
      Moves matcher s (.protocolError err) (.rejected err)

/-- `connect` goes on when its last event has come. -/
theorem advance_cases (s : Exchange) : advance s = s ∨
    s.phase = .connecting ∧ advance s = { s with phase := .connected } := by
  unfold advance
  split
  · rename_i connecting
    split
    · exact Or.inr ⟨connecting, rfl⟩
    · exact Or.inl rfl
  · exact Or.inl rfl

theorem emitError_phase (s : Exchange) (err : JsError) : (emitError s err).phase = s.phase ∨
    (s.phase = .connecting ∨ s.phase = .consuming) ∧ (emitError s err).phase = .rejected err := by
  unfold emitError
  split
  · exact Or.inl rfl
  · split
    · rename_i connecting
      exact Or.inr ⟨Or.inl connecting, rfl⟩
    · rename_i consuming
      exact Or.inr ⟨Or.inr consuming, rfl⟩
    · exact Or.inl rfl

theorem moves_of_step (stepped : step matcher s e = some next) : Moves matcher s e next.phase := by
  obtain ⟨-, taken⟩ := step_taken stepped
  cases taken with
  | upgrade res _ _ =>
    rcases advance_cases _ with same | ⟨connecting, moved⟩
    · rw [same]
      exact .stays _ (fun _ => rfl) rfl
    · rw [moved]
      exact .connected _ connecting rfl
  | opened _ _ =>
    rcases advance_cases _ with same | ⟨connecting, moved⟩
    · rw [same]
      exact .stays _ (fun _ => rfl) rfl
    · rw [moved]
      exact .connected _ connecting rfl
  | sendCalled connected => exact .called connected
  | sendCompleted err sending =>
    cases err with
    | none => exact .sent sending
    | some err => exact .unsent err sending
  | message text _ _ =>
    unfold handleMessage
    split
    · rename_i consuming
      split
      · rename_i counted
        exact .frame text consuming counted
      · rename_i refused
        exact .stays _ (fun _ => if_neg refused) rfl
    · rename_i other
      exact .stays _ (fun consuming => absurd consuming other) rfl
  | closed code reason _ _ =>
    unfold handleClose
    split
    · rename_i consuming
      exact .closed code reason consuming
    · exact .stays _ (fun _ => rfl) rfl
  | timeout timer =>
    rcases emitError_phase { s with timer := false } timedOut with same | ⟨listened, rejected⟩
    · rw [same]
      exact .stays _ (fun _ => rfl) rfl
    · rw [rejected]
      exact .late timer listened
  | protocolError err opened _ _ =>
    rcases emitError_phase { s with failed := true } err with same | ⟨listened, rejected⟩
    · rw [same]
      exact .stays _ (fun _ => rfl) rfl
    · rw [rejected]
      exact .broken err opened listened

/-- A settled exchange stays as it is. -/
theorem settled_stays (s : Exchange) (e : Event) (next : Exchange)
    (outcome : Except JsError Response) (settled : outcome? s.phase = some outcome)
    (stepped : step matcher s e = some next) : outcome? next.phase = some outcome := by
  have other : ∀ phase, outcome? phase = none → s.phase ≠ phase := by
    intro phase unsettled same
    rw [same, unsettled] at settled
    cases settled
  have moves := moves_of_step stepped
  generalize next.phase = phase at moves ⊢
  cases moves with
  | stays _ _ => exact settled
  | connected _ connecting => exact absurd connecting (other _ rfl)
  | called connected => exact absurd connected (other _ rfl)
  | sent sending => exact absurd sending (other _ rfl)
  | unsent _ sending => exact absurd sending (other _ rfl)
  | frame _ consuming _ => exact absurd consuming (other _ rfl)
  | closed _ _ consuming => exact absurd consuming (other _ rfl)
  | late _ listened => rcases listened with phase | phase <;> exact absurd phase (other _ rfl)
  | broken _ _ listened => rcases listened with phase | phase <;> exact absurd phase (other _ rfl)

/-- An error changes the phase, the waiters and the timer, or ends the process. -/
theorem emitError_effects (s : Exchange) (err : JsError) :
    (emitError s err).upgraded = s.upgraded ∧
      (s.phase = .consuming → (emitError s err).phase = .consuming → (emitError s err).crashed = true) := by
  unfold emitError
  split
  · exact ⟨rfl, fun _ _ => rfl⟩
  · split
    · exact ⟨rfl, fun _ settled => by cases settled⟩
    · exact ⟨rfl, fun _ settled => by cases settled⟩
    · rename_i other
      exact ⟨rfl, fun consuming => absurd consuming other⟩

/-- A step takes down the answer of the handshake, and the timer of an exchange that awaits
a frame runs until it is settled. -/
theorem effects_of_step (stepped : step matcher s e = some next) :
    (s.upgraded.toList ++ handshakes [e] = next.upgraded.toList) ∧
      (s.phase = .consuming → next.phase = .consuming → next.crashed = false → s.timer = true →
        next.timer = true) := by
  obtain ⟨-, taken⟩ := step_taken stepped
  cases taken with
  | upgrade res fresh _ =>
    rcases advance_cases _ with same | ⟨-, moved⟩
    · rw [same]
      exact ⟨by simp [fresh, handshakes], fun _ _ _ timer => timer⟩
    · rw [moved]
      exact ⟨by simp [fresh, handshakes], fun _ _ _ timer => timer⟩
  | opened _ _ =>
    rcases advance_cases _ with same | ⟨-, moved⟩
    · rw [same]
      exact ⟨by simp [handshakes], fun _ _ _ timer => timer⟩
    · rw [moved]
      exact ⟨by simp [handshakes], fun _ _ _ timer => timer⟩
  | sendCalled connected => exact ⟨by simp [handshakes], fun _ _ _ timer => timer⟩
  | sendCompleted err sending =>
    refine ⟨?_, fun consuming => ?_⟩
    · cases err <;> simp [handshakes, handleSent, settle]
    · cases sending.symm.trans consuming
  | message text _ _ =>
    unfold handleMessage
    split
    · split
      · exact ⟨by simp [handshakes, settle], fun _ settled => by cases settled⟩
      · exact ⟨by simp [handshakes], fun _ _ _ timer => timer⟩
    · exact ⟨by simp [handshakes], fun _ _ _ timer => timer⟩
  | closed code reason _ _ =>
    unfold handleClose
    split
    · exact ⟨by simp [handshakes, settle], fun _ settled => by cases settled⟩
    · exact ⟨by simp [handshakes], fun _ _ _ timer => timer⟩
  | timeout timer =>
    obtain ⟨upgraded, crashes⟩ := emitError_effects { s with timer := false } timedOut
    refine ⟨by simp [handshakes, upgraded], fun consuming still alive => ?_⟩
    rw [crashes consuming still] at alive
    cases alive
  | protocolError err _ _ _ =>
    obtain ⟨upgraded, crashes⟩ := emitError_effects { s with failed := true } err
    refine ⟨by simp [handshakes, upgraded], fun consuming still alive => ?_⟩
    rw [crashes consuming still] at alive
    cases alive

/-- The handshake of an exchange that sends or has sent is complete. -/
theorem handshake_of_consuming (underway : Underway matcher seen s) (sound : Sound s)
    (alive : s.crashed = false) (consuming : s.phase = .consuming) :
    ∃ res, s.upgraded = some res ∧ handshakes seen = [res] := by
  rcases sound.of_alive alive with ⟨-, settled, -⟩ | ⟨-, shape⟩
  · rw [consuming] at settled
    exact settled.elim
  · unfold Shape at shape
    rw [consuming] at shape
    obtain ⟨res, upgraded⟩ := Option.isSome_iff_exists.mp shape.1.2
    exact ⟨res, upgraded, by rw [underway.handshake, upgraded]; rfl⟩

/-- A handshake that is awaited after `open` has had no answer. -/
theorem handshake_of_connecting (underway : Underway matcher seen s) (sound : Sound s)
    (alive : s.crashed = false) (opened : s.opened = true) (connecting : s.phase = .connecting) :
    handshakes seen = [] := by
  rcases sound.of_alive alive with ⟨-, settled, -⟩ | ⟨-, shape⟩
  · rw [connecting] at settled
    exact settled.elim
  · unfold Shape at shape
    rw [connecting] at shape
    have missing : s.upgraded = none := by
      cases upgraded : s.upgraded with
      | none => rfl
      | some res => exact absurd ⟨opened, by rw [upgraded]; rfl⟩ shape.1
    rw [underway.handshake, missing]
    rfl

theorem unsent_snoc (before : seen.any completes = false) (incomplete : completes e = false) :
    (seen ++ [e]).any completes = false := by
  rw [any_snoc, before, incomplete]
  rfl

/-- An event that neither answers nor completes `send`. -/
theorem progress_snoc {timed timed' : Prop} {phase : Phase}
    (progress : Progress matcher seen timed phase)
    (unheard : phase = .consuming → reply matcher e = none) (incomplete : completes e = false)
    (still : phase = .consuming → timed → timed') :
    Progress matcher (seen ++ [e]) timed' phase := by
  cases phase with
  | connecting => exact unsent_snoc progress incomplete
  | connected => exact unsent_snoc progress incomplete
  | sending => exact unsent_snoc progress incomplete
  | consuming =>
    obtain ⟨sent, unanswered, timed⟩ := progress
    refine ⟨?_, ?_, still rfl timed⟩
    · rw [any_snoc, sent]
      rfl
    · rw [heard_snoc, if_pos sent, unanswered, unheard rfl]
      rfl
  | resolved response => trivial
  | rejected err => trivial

theorem timer_of_sent (stepped : step matcher s (.sendCompleted none) = some next) : next.timer = true := by
  obtain ⟨-, taken⟩ := step_taken stepped
  cases taken
  rfl

theorem underway_step (underway : Underway matcher seen s) (sound : Sound s)
    (unsettled : outcome? s.phase = none) (stepped : step matcher s e = some next) :
    outcome? next.phase = none ∧ Underway matcher (seen ++ [e]) next ∨
      ∃ outcome, outcome? next.phase = some outcome ∧ Settles matcher seen e outcome := by
  obtain ⟨alive, -⟩ := step_taken stepped
  obtain ⟨upgraded, timer⟩ := effects_of_step stepped
  have handshake : handshakes (seen ++ [e]) = next.upgraded.toList := by
    rw [handshakes_snoc, underway.handshake, upgraded]
  have progress := underway.progress
  have unanswered : s.phase = .consuming →
      seen.any completes = true ∧ heard matcher seen = [] ∧ (s.crashed = false → s.timer = true) := by
    intro consuming
    rw [consuming] at progress
    exact progress
  have moves := moves_of_step stepped
  generalize reached : next.phase = phase at moves
  cases moves with
  | stays _ unheard incomplete =>
    refine Or.inl ⟨unsettled, handshake, ?_⟩
    rw [reached]
    refine progress_snoc progress unheard incomplete fun consuming timed running => ?_
    exact timer consuming (reached.trans consuming) running (timed alive)
  | connected _ connecting incomplete =>
    refine Or.inl ⟨rfl, handshake, ?_⟩
    rw [connecting] at progress
    rw [reached]
    exact unsent_snoc progress incomplete
  | called connected =>
    refine Or.inl ⟨rfl, handshake, ?_⟩
    rw [connected] at progress
    rw [reached]
    exact unsent_snoc progress rfl
  | sent sending =>
    refine Or.inl ⟨rfl, handshake, ?_⟩
    rw [sending] at progress
    rw [reached]
    refine ⟨by simp [completes], ?_, fun _ => timer_of_sent stepped⟩
    rw [heard_snoc, if_neg (by rw [progress]; exact Bool.false_ne_true)]
  | unsent err sending => exact Or.inr ⟨_, rfl, .unsent err⟩
  | frame text consuming counted =>
    obtain ⟨res, isUpgraded, shaken⟩ := handshake_of_consuming underway sound alive consuming
    obtain ⟨sent, first, -⟩ := unanswered consuming
    refine Or.inr ⟨_, rfl, ?_⟩
    simp only [frameResponse, headers, isUpgraded]
    exact .frame text res counted sent first shaken
  | closed code reason consuming =>
    obtain ⟨res, isUpgraded, shaken⟩ := handshake_of_consuming underway sound alive consuming
    obtain ⟨sent, first, -⟩ := unanswered consuming
    refine Or.inr ⟨_, rfl, ?_⟩
    simp only [closeResponse, headers, isUpgraded]
    exact .closed code reason res sent first shaken
  | late timed _ =>
    obtain ⟨-, consuming, -⟩ := consuming_of_timer sound alive timed
    obtain ⟨sent, first, -⟩ := unanswered consuming
    exact Or.inr ⟨_, rfl, .late sent first⟩
  | broken err opened listened =>
    refine Or.inr ⟨_, rfl, .broken err ?_⟩
    rcases listened with connecting | consuming
    · exact Or.inl (handshake_of_connecting underway sound alive opened connecting)
    · obtain ⟨sent, first, -⟩ := unanswered consuming
      exact Or.inr ⟨sent, first⟩

theorem underway_run {events : List Event} (reached : Trace.run (step matcher) init events = some s)
    (unsettled : outcome? s.phase = none) : Underway matcher events s := by
  refine Trace.run_induction
    (P := fun seen s => outcome? s.phase = none → Underway matcher seen s) ?_ ?_ reached unsettled
  · intro _
    exact ⟨rfl, rfl⟩
  · intro seen s e next ran ih stepped unsettled
    cases before : outcome? s.phase with
    | some outcome =>
      -- what is settled stays settled
      rw [settled_stays s e next outcome before stepped] at unsettled
      cases unsettled
    | none =>
      rcases underway_step (ih before) (sound_run matcher seen s ran) before stepped with
        ⟨-, underway⟩ | ⟨outcome, settled, -⟩
      · exact underway
      · rw [settled] at unsettled
        cases unsettled

/-- A settled exchange was settled by one of its events. -/
theorem settles_of_run {events : List Event} {outcome : Except JsError Response}
    (ran : Trace.run (step matcher) init events = some s) (settled : outcome? s.phase = some outcome) :
    ∃ before last after, events = before ++ last :: after ∧ Settles matcher before last outcome := by
  obtain ⟨before, last, after, mid, next, split, reached, unsettled, stepped, ended⟩ :=
    Trace.run_concludes settled_stays rfl ran settled
  refine ⟨before, last, after, split, ?_⟩
  rcases underway_step (underway_run reached unsettled) (sound_run matcher before mid reached)
    unsettled stepped with ⟨still, -⟩ | ⟨other, same, settles⟩
  · rw [still] at ended
    cases ended
  · obtain rfl := Option.some.inj (same.symm.trans ended)
    exact settles

end

/-- From the callback of `send` on an exchange cannot hang: it is settled, or the frame timer
runs and rejects it when it fires. -/
theorem exchange_cannot_hang (matcher : Option (String → Bool)) (events : List Event) (s : Exchange)
    (ran : Trace.run (step matcher) init events = some s) (alive : s.crashed = false)
    (sent : events.any completes = true) :
    (∃ outcome, outcome? s.phase = some outcome) ∨
      ∃ next, step matcher s .timeout = some next ∧ next.phase = .rejected timedOut := by
  cases settled : outcome? s.phase with
  | some outcome => exact Or.inl ⟨outcome, rfl⟩
  | none =>
    have progress := (underway_run ran settled).progress
    have timer : s.timer = true := by
      cases phase : s.phase with
      | consuming =>
        rw [phase] at progress
        exact progress.2.2 alive
      | resolved response =>
        rw [phase] at settled
        cases settled
      | rejected err =>
        rw [phase] at settled
        cases settled
      | _ =>
        rw [phase] at progress
        cases sent.symm.trans progress
    have fired := timeout_rejects (sound_run matcher events s ran) alive timer
    refine Or.inr ⟨emitError { s with timer := false } timedOut, ?_, by rw [fired]⟩
    rw [step, alive, if_neg Bool.false_ne_true]
    exact if_pos timer

/-- The connection is closed before `send` completes; only the timer can end the exchange. -/
def closedEarly : List Event :=
  [.upgrade switching, .opened, .sendCalled, .closed 1006 [], .sendCompleted none]

theorem closed_early_times_out :
    ∃ s, Trace.run (step none) init closedEarly = some s ∧ outcome? s.phase = none ∧
      ∃ next, step none s .timeout = some next ∧ next.phase = .rejected timedOut := by
  refine ⟨_, rfl, rfl, ?_⟩
  rcases exchange_cannot_hang none closedEarly _ rfl rfl rfl with ⟨outcome, settled⟩ | fires
  · cases settled
  · exact fires

/-! ## The acknowledgement -/

/-- The response that describes an error of an exchange. -/
def described (err : JsError) : Response :=
  { protocol := "ws", message := .str err.message
    errorCode := (Value.ofOption err.code).orElse (Value.ofOption err.syscall) }

def answer : Except JsError Response → Response
  | .ok response => response
  | .error err => described err

/-- The pattern of an event that has one. -/
def pattern? (event : Value) : Option String :=
  if (member event "correlationIdRegex").truthy then
    (member event "correlationIdRegex").patternText.toOption
  else none

theorem pattern_of_made {platform : Platform} {event : Value} {request : Request}
    (made : Request.ofOptions platform (members event) = .ok request) :
    request.correlationIdRegex = pattern? event := by
  have compiled : Request.normalizeCorrelationIdRegex platform (member event "correlationIdRegex") =
      .ok request.correlationIdRegex := (Request.ofOptions_madeFrom made).pattern
  unfold Request.normalizeCorrelationIdRegex at compiled
  unfold pattern?
  split at compiled
  · rename_i present
    rw [if_pos present]
    split at compiled
    · rename_i text converted
      split at compiled
      · rw [converted]
        exact (Except.ok.inj compiled).symm
      · cases compiled
    · cases compiled
  · rename_i absent
    rw [if_neg absent]
    exact (Except.ok.inj compiled).symm

/-- A call that opened its connection was settled by one of the events of its client. -/
theorem settles_of_call {matcher : Option (String → Bool)} (call : Call matcher) {events : List Event}
    (opened : call.events? = some events) :
    ∃ before last after, events = before ++ last :: after ∧
      Settles matcher before last call.outcome := by
  cases call with
  | unopened err => cases opened
  | exchanged events last outcome ran alive settled =>
    cases opened
    exact settles_of_run ran settled

theorem errorResponse_error (executors : Executors) (err : JsError) :
    WsRequestExecutor.errorResponse executors err.toValue = .ok (described err) := by
  have written : logCause executors.http.logLevel (.str err.message) = .ok () := by
    unfold logCause
    split <;> rfl
  have code : (Value.ofOption err.code).orElseEval (err.toValue.get "syscall") =
      .ok ((Value.ofOption err.code).orElse (Value.ofOption err.syscall)) := by
    cases err.code <;> rfl
  unfold WsRequestExecutor.errorResponse
  change ((Value.ofOption err.code).orElseEval (err.toValue.get "syscall") >>= fun errorCode =>
    logCause executors.http.logLevel (.str err.message) >>= fun _ => _) = _
  rw [code, ok_bind, written]
  rfl

theorem execute_exchanged {executors : Executors} {request : Request}
    (plain : TameRequest (fun _ => False) request)
    (uncertified : targetCerts executors.http request = .ok []) :
    WsRequestExecutor.execute executors request = .ok (answer (executors.wsExchange none request)) := by
  have guarded : WsRequestExecutor.guarded executors request =
      (executors.wsExchange none request).mapError JsError.toValue := by
    rw [WsRequestExecutor.guarded, uncertified, ok_bind]
    simp only [List.isEmpty_nil, ↓reduceIte]
    rw [debugRequest_ok executors.http plain, ok_bind]
  rw [WsRequestExecutor.execute, guarded]
  cases executors.wsExchange none request with
  | ok response => rfl
  | error err => exact errorResponse_error executors err

/-- A frame in the way, then the reply. -/
def ponged : List Event :=
  [.upgrade switching, .opened, .sendCalled, .sendCompleted none, .message "ping", .message "pong"]

def pong : Response :=
  { protocol := "ws", statusCode := .num 101, headers := .undefined, body := .str "pong" }

/-- A target that answers requests with the pattern `pong`. -/
def pongCall (request : Request) :
    Call (request.correlationIdRegex.map plainExecutors.frameMatches) :=
  if asked : request.correlationIdRegex = some "pong" then
    .exchanged ponged
      { phase := .resolved pong, opened := true, upgraded := some switching, waiters := [.close]
        timer := false, closed := false, failed := false, crashed := false }
      (.ok pong) (by rw [asked]; rfl) rfl rfl
  else .unopened timedOut

def pongExecutors : Executors := { plainExecutors with wsCall := fun _ request => pongCall request }

def pingEvent : Value :=
  .obj [("protocol", .str "ws"), ("url", .str "ws://example.com/"), ("body", .str "ping"),
    ("correlationIdRegex", .str "pong")] [] none

theorem pingEvent_acceptable : Acceptable .ascii pingEvent where
  method := Or.inl rfl
  url := ⟨_, _, rfl, rfl⟩
  body _ := ⟨_, rfl⟩
  pattern _ := ⟨_, rfl, rfl⟩
  headers := by
    intro entries spread name items held
    cases spread
    cases held
  certificates := by
    intro key listed present
    simp only [List.mem_cons, List.not_mem_nil, or_false] at listed
    rcases listed with rfl | rfl <;> cases present

end BrightCli.Guarantees.WsOutcome
