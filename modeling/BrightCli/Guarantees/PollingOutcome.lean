import BrightCli.Guarantees.PollingStop
import BrightCli.Guarantees.ScanVerdict

/-!
# How a polling ends

A polling ends with one event, and the exit code follows from that event and from what
came before it: the answer that concludes it, or the failure that is not tried again.
`ScanVerdict` is about the runs in which the API only answers; here requests may fail,
the timeout may fire and `stop` may be called, at any moment and in any order. What the
scan polling has seen before its end is neither terminal nor a reason to break, so
neither a timeout nor an outage hides a finding that was seen.
-/
namespace BrightCli.Guarantees.PollingOutcome
open BrightCli.Lib
open BrightCli.Source.Scan (ApiError shouldRetry defaultReconnectTimes)

/-! ## `scan:polling` -/

section Scan
open BrightCli.Source.Scan BrightCli.Guarantees.PollingStop

/-- The failures of the request that is being made, and of its retries. -/
def tries : List PollEvent → Nat :=
  List.foldl (fun count event =>
    match event with
    | .delayElapsed => 0
    | .statusFailed _ => count + 1
    | _ => count) 0

/-- The timeout has fired or `stop` was called. -/
def signalled (seen : List PollEvent) : Bool := seen.any scanSignal

/-- How the last event ends the command, after the events before it. -/
inductive Concludes (type : BreakpointType) (before : List PollEvent) : PollEvent → Nat → Prop where
  | finished (state : ScanState) (terminal : isRedundant state.status = true) :
      Concludes type before (.statusAnswered state) 0
  | found (state : ScanState) (running : isRedundant state.status = false)
      (hit : Shows (create type).severity state) : Concludes type before (.statusAnswered state) 50
  | stopped (state : ScanState) (running : isRedundant state.status = false)
      (clean : ¬ Shows (create type).severity state) (told : signalled before = true) :
      Concludes type before (.statusAnswered state) 0
  | failed (err : ApiError)
      (final : shouldRetry err = false ∨ tries before = defaultReconnectTimes) :
      Concludes type before (.statusFailed err) 1

/-- The scan goes on and shows nothing to break on. -/
def Unremarkable (type : BreakpointType) (state : ScanState) : Prop :=
  isRedundant state.status = false ∧ ¬ Shows (create type).severity state

/-- A polling that has not ended, after the events seen. -/
structure Pending (type : BreakpointType) (seen : List PollEvent) (polling : BasePolling) : Prop where
  active : polling.active = !signalled seen
  depth : match polling.phase with
    | .requesting depth => tries seen = depth ∧ depth ≤ defaultReconnectTimes
    | .backingOff depth => tries seen = depth + 1 ∧ depth < defaultReconnectTimes
    | _ => True
  answers : ∀ state, .statusAnswered state ∈ seen → Unremarkable type state

theorem tries_snoc (seen : List PollEvent) (event : PollEvent) :
    tries (seen ++ [event]) =
      match event with
      | .delayElapsed => 0
      | .statusFailed _ => tries seen + 1
      | _ => tries seen := by
  simp only [tries, List.foldl_append, List.foldl_cons, List.foldl_nil]

theorem signalled_snoc (seen : List PollEvent) (event : PollEvent) :
    signalled (seen ++ [event]) = (signalled seen || scanSignal event) := by
  simp [signalled]

theorem answers_snoc {type : BreakpointType} {seen : List PollEvent} {event : PollEvent}
    (answers : ∀ state, .statusAnswered state ∈ seen → Unremarkable type state)
    (own : ∀ state, event = .statusAnswered state → Unremarkable type state) :
    ∀ state, .statusAnswered state ∈ seen ++ [event] → Unremarkable type state := by
  intro state member
  rcases List.mem_append.mp member with old | new
  · exact answers state old
  · exact own state (List.mem_singleton.mp new).symm

/-- An answer ends the polling, or it goes on with another delay. -/
theorem pending_answered {type : BreakpointType} {seen : List PollEvent} {timer : Bool}
    {depth : Nat} (state : ScanState)
    (answers : ∀ state, .statusAnswered state ∈ seen → Unremarkable type state)
    (next : BasePolling)
    (moved : BasePolling.answered (create type) ⟨!signalled seen, timer, .requesting depth⟩ state = next) :
    (next.outcome? = none ∧ Pending type (seen ++ [.statusAnswered state]) next) ∨
      ∃ outcome, next.outcome? = some outcome ∧
        Concludes type seen (.statusAnswered state) (exitCode outcome) := by
  subst moved
  cases terminal : isRedundant state.status with
  | true =>
    refine .inr ⟨.resolved, ?_, .finished state terminal⟩
    simp [BasePolling.answered, terminal, BasePolling.settle, BasePolling.outcome?]
  | false =>
    cases hit : (create type).isExcepted state with
    | true =>
      refine .inr ⟨.rejected (.breakpoint (create type).breakOn), ?_, .found state terminal
        ((create_isExcepted_iff type state).mp hit)⟩
      simp [BasePolling.answered, terminal, OnSeverity.execute, hit, BasePolling.settle,
        BasePolling.outcome?]
    | false =>
      have clean : ¬ Shows (create type).severity state := by
        rw [← create_isExcepted_iff, hit]
        exact Bool.false_ne_true
      cases told : signalled seen with
      | true =>
        refine .inr ⟨.resolved, ?_, .stopped state terminal clean told⟩
        simp [BasePolling.answered, terminal, OnSeverity.execute, hit, BasePolling.loop,
          BasePolling.settle, BasePolling.outcome?]
      | false =>
        have loops : BasePolling.answered (create type) ⟨!false, timer, .requesting depth⟩ state =
            ⟨true, timer, .delaying⟩ := by
          simp [BasePolling.answered, terminal, OnSeverity.execute, hit, BasePolling.loop]
        rw [loops]
        refine .inl ⟨rfl, by rw [signalled_snoc, told]; rfl, trivial, answers_snoc answers ?_⟩
        intro other same
        cases same
        exact ⟨terminal, clean⟩

/-- A failure ends the polling, or the request is made again after a pause. -/
theorem pending_failed {type : BreakpointType} {seen : List PollEvent} {timer : Bool} {depth : Nat}
    (err : ApiError) (made : tries seen = depth) (within : depth ≤ defaultReconnectTimes)
    (answers : ∀ state, .statusAnswered state ∈ seen → Unremarkable type state)
    (next : BasePolling)
    (moved : BasePolling.failed ⟨!signalled seen, timer, .requesting depth⟩ depth err = next) :
    (next.outcome? = none ∧ Pending type (seen ++ [.statusFailed err]) next) ∨
      ∃ outcome, next.outcome? = some outcome ∧
        Concludes type seen (.statusFailed err) (exitCode outcome) := by
  rcases failed_cases ⟨!signalled seen, timer, .requesting depth⟩ depth err with
    ⟨again, paused⟩ | ⟨final, settled⟩
  · rw [paused] at moved
    subst moved
    simp only [retried, Bool.and_eq_true, decide_eq_true_eq] at again
    refine .inl ⟨rfl, by rw [signalled_snoc]; simp [scanSignal], ⟨?_, again.2⟩,
      answers_snoc answers (fun _ same => by cases same)⟩
    rw [tries_snoc, made]
  · rw [settled] at moved
    subst moved
    refine .inr ⟨_, rfl, .failed err ?_⟩
    cases retryable : shouldRetry err with
    | false => exact .inl rfl
    | true =>
      simp only [retried, retryable, Bool.true_and, decide_eq_false_iff_not] at final
      exact .inr (by omega)

theorem pending_step {type : BreakpointType} {seen : List PollEvent} {polling next : BasePolling}
    {event : PollEvent} (pending : Pending type seen polling)
    (unsettled : polling.outcome? = none)
    (stepped : BasePolling.step (create type) polling event = some next) :
    (next.outcome? = none ∧ Pending type (seen ++ [event]) next) ∨
      ∃ outcome, next.outcome? = some outcome ∧ Concludes type seen event (exitCode outcome) := by
  obtain ⟨active, timer, phase⟩ := polling
  obtain ⟨told, depth, answers⟩ := pending
  dsimp only at told depth
  subst told
  cases event with
  | timeoutFired =>
    simp only [BasePolling.step] at stepped
    split at stepped
    · cases stepped
      refine .inl ⟨unsettled, by rw [signalled_snoc]; simp [scanSignal], ?_, answers_snoc answers (fun _ same => by cases same)⟩
      simpa only [tries_snoc] using depth
    · cases stepped
  | stopCalled =>
    obtain rfl := Option.some.inj stepped
    refine .inl ⟨unsettled, by rw [signalled_snoc]; simp [scanSignal, BasePolling.stop], ?_,
      answers_snoc answers (fun _ same => by cases same)⟩
    simpa only [tries_snoc, BasePolling.stop] using depth
  | delayElapsed =>
    cases phase with
    | delaying =>
      obtain rfl := Option.some.inj stepped
      refine .inl ⟨rfl, by rw [signalled_snoc]; simp [scanSignal], ⟨?_, Nat.zero_le _⟩,
        answers_snoc answers (fun _ same => by cases same)⟩
      rw [tries_snoc]
    | settled outcome => cases unsettled
    | _ => cases stepped
  | statusAnswered state =>
    cases phase with
    | requesting depth => exact pending_answered state answers next (Option.some.inj stepped)
    | settled outcome => cases unsettled
    | _ => cases stepped
  | statusFailed err =>
    cases phase with
    | requesting tried =>
      exact pending_failed err depth.1 depth.2 answers next (Option.some.inj stepped)
    | settled outcome => cases unsettled
    | _ => cases stepped
  | retryElapsed =>
    cases phase with
    | backingOff tried =>
      obtain rfl := Option.some.inj stepped
      refine .inl ⟨rfl, by rw [signalled_snoc]; simp [scanSignal], ⟨?_, by have := depth.2; omega⟩,
        answers_snoc answers (fun _ same => by cases same)⟩
      rw [tries_snoc]
      exact depth.1
    | settled outcome => cases unsettled
    | _ => cases stepped

theorem settled_stays {type : BreakpointType} (polling : BasePolling) (event : PollEvent)
    (next : BasePolling) (outcome : Outcome) (settled : polling.outcome? = some outcome)
    (stepped : BasePolling.step (create type) polling event = some next) :
    next.outcome? = some outcome := by
  obtain ⟨active, timer, phase⟩ := polling
  cases phase with
  | settled ended =>
    cases settled
    cases event with
    | timeoutFired =>
      simp only [BasePolling.step] at stepped
      split at stepped
      · cases stepped
        rfl
      · cases stepped
    | _ =>
      obtain rfl := Option.some.inj stepped
      rfl
  | _ => cases settled

theorem pending_run {type : BreakpointType} {timeout : Option Nat} {events : List PollEvent}
    {polling : BasePolling}
    (ran : Trace.run (BasePolling.step (create type)) (.start timeout) events = some polling)
    (unsettled : polling.outcome? = none) : Pending type events polling := by
  refine Trace.run_induction
    (P := fun seen polling => polling.outcome? = none → Pending type seen polling) ?_ ?_ ran unsettled
  · intro _
    exact ⟨rfl, trivial, fun state member => by cases member⟩
  · intro seen before event next _ holds stepped open_
    cases earlier : before.outcome? with
    | some outcome =>
      rw [settled_stays before event next outcome earlier stepped] at open_
      cases open_
    | none =>
      rcases pending_step (holds earlier) earlier stepped with ⟨_, pending⟩ | ⟨outcome, ended, _⟩
      · exact pending
      · rw [ended] at open_
        cases open_

/-- The exit code of `scan:polling` in every run, with failures, retries, the timeout and
`stop` at any moment: 50 for an answer that shows a finding, 1 for a failure that is not
tried again, 0 for a terminal state or for an answer after the polling was told to stop.
No answer before that one was terminal or showed a finding. -/
theorem scan_exit_code (type : BreakpointType) (timeout : Option Nat) (events : List PollEvent)
    (polling : BasePolling) (outcome : Outcome)
    (ran : Trace.run (BasePolling.step (create type)) (.start timeout) events = some polling)
    (ended : polling.outcome? = some outcome) :
    ∃ before event after, events = before ++ event :: after ∧
      Concludes type before event (exitCode outcome) ∧
      ∀ state, .statusAnswered state ∈ before → Unremarkable type state := by
  obtain ⟨before, event, after, mid, next, split, reached, unsettled, stepped, last⟩ :=
    Trace.run_concludes settled_stays rfl ran ended
  have pending := pending_run reached unsettled
  rcases pending_step pending unsettled stepped with ⟨still, _⟩ | ⟨other, same, concludes⟩
  · rw [still] at last
    cases last
  · obtain rfl := Option.some.inj (same.symm.trans last)
    exact ⟨before, event, after, split, concludes, pending.answers⟩

/-- An outage that is waited out, a timeout in the middle of it, and a finding. -/
def lateFinding : List PollEvent :=
  [.delayElapsed, .statusFailed connectionReset, .timeoutFired, .retryElapsed,
    .statusAnswered (ScanVerdict.quietRun 1 .running)]

theorem late_finding_breaks :
    ∃ polling outcome before event after,
      Trace.run (BasePolling.step (create .any)) (.start (some 60)) lateFinding = some polling ∧
      polling.outcome? = some outcome ∧ exitCode outcome = 50 ∧
      lateFinding = before ++ event :: after ∧ Concludes .any before event (exitCode outcome) := by
  obtain ⟨before, event, after, split, concludes, -⟩ :=
    scan_exit_code .any (some 60) lateFinding _ _ rfl rfl
  exact ⟨_, _, before, event, after, rfl, rfl, rfl, split, concludes⟩

end Scan

/-! ## `discovery:polling` and `entrypoints:update-host-polling` -/

section Abortable
open BrightCli.Source.Polling BrightCli.Guarantees.PollingStop

variable {ν : Type}

/-- The failures of the request that is being made, and of its retries. -/
def abortTries : List (Event ν) → Nat :=
  List.foldl (fun count event =>
    match event with
    | .delayElapsed => 0
    | .statusFailed _ => count + 1
    | _ => count) 0

def told (seen : List (Event ν)) : Bool := seen.any abortSignal

/-- How the last event ends the polling. -/
inductive Ends (isFinished : ν → Bool) (before : List (Event ν)) : Event ν → Outcome → Prop where
  | finished (view : Option ν) (last : AbortablePolling.processView isFinished view = false) :
      Ends isFinished before (.statusAnswered view) .resolved
  /-- It is told to stop in its delay. -/
  | interrupted (event : Event ν) (signal : abortSignal event = true) :
      Ends isFinished before event .resolved
  | answeredLate (view : Option ν) (stopped : told before = true) :
      Ends isFinished before (.statusAnswered view) .resolved
  | failedLate (err : ApiError) (stopped : told before = true) :
      Ends isFinished before (.statusFailed err) .resolved
  | failed (err : ApiError) (untold : told before = false)
      (final : shouldRetry err = false ∨ abortTries before = defaultReconnectTimes) :
      Ends isFinished before (.statusFailed err) (.exited 1)

def outcome? (polling : AbortablePolling) : Option Outcome :=
  match polling.phase with
  | .settled outcome => some outcome
  | _ => none

structure Going (isFinished : ν → Bool) (seen : List (Event ν)) (polling : AbortablePolling) :
    Prop where
  aborted : polling.aborted = told seen
  depth : match polling.phase with
    | .requesting depth => abortTries seen = depth ∧ depth ≤ defaultReconnectTimes
    | .backingOff depth => abortTries seen = depth + 1 ∧ depth < defaultReconnectTimes
    | .delaying => told seen = false
    | .settled _ => True
  answers : ∀ view, .statusAnswered view ∈ seen → AbortablePolling.processView isFinished view = true

theorem abortTries_snoc (seen : List (Event ν)) (event : Event ν) :
    abortTries (seen ++ [event]) =
      match event with
      | .delayElapsed => 0
      | .statusFailed _ => abortTries seen + 1
      | _ => abortTries seen := by
  simp only [abortTries, List.foldl_append, List.foldl_cons, List.foldl_nil]

theorem told_snoc (seen : List (Event ν)) (event : Event ν) :
    told (seen ++ [event]) = (told seen || abortSignal event) := by
  simp [told]

theorem views_snoc {isFinished : ν → Bool} {seen : List (Event ν)} {event : Event ν}
    (answers : ∀ view, .statusAnswered view ∈ seen → AbortablePolling.processView isFinished view = true)
    (own : ∀ view, event = .statusAnswered view → AbortablePolling.processView isFinished view = true) :
    ∀ view, .statusAnswered view ∈ seen ++ [event] →
      AbortablePolling.processView isFinished view = true := by
  intro view member
  rcases List.mem_append.mp member with old | new
  · exact answers view old
  · exact own view (List.mem_singleton.mp new).symm

/-- The timeout and `stop` end a delay, and are remembered otherwise. -/
theorem going_signal {isFinished : ν → Bool} {seen : List (Event ν)} {polling next : AbortablePolling}
    {event : Event ν} (going : Going isFinished seen polling) (unsettled : outcome? polling = none)
    (signal : abortSignal event = true)
    (moved : next.aborted = polling.abort.aborted ∧ next.phase = polling.abort.phase) :
    (outcome? next = none ∧ Going isFinished (seen ++ [event]) next) ∨
      ∃ outcome, outcome? next = some outcome ∧ Ends isFinished seen event outcome := by
  obtain ⟨aborted, depth, answers⟩ := going
  have plain : ∀ view, event = .statusAnswered view →
      AbortablePolling.processView isFinished view = true := by
    rintro view rfl
    cases signal
  have tries : abortTries (seen ++ [event]) = abortTries seen := by
    rw [abortTries_snoc]
    cases event with
    | delayElapsed => cases signal
    | statusFailed err => cases signal
    | _ => rfl
  cases phase : polling.phase with
  | delaying =>
    have ended : polling.abort.phase = .settled .resolved := by
      simp [AbortablePolling.abort, phase, AbortablePolling.handleError, AbortablePolling.settle]
    refine .inr ⟨.resolved, ?_, .interrupted event signal⟩
    simp [outcome?, moved.2, ended]
  | settled outcome =>
    simp [outcome?, phase] at unsettled
  | requesting tried =>
    have same : polling.abort.aborted = true ∧ polling.abort.phase = .requesting tried := by
      simp [AbortablePolling.abort, phase]
    rw [same.1, same.2] at moved
    rw [phase] at depth
    refine .inl ⟨by simp [outcome?, moved.2], by rw [moved.1, told_snoc, signal, Bool.or_true], ?_,
      views_snoc answers plain⟩
    rw [moved.2, tries]
    exact depth
  | backingOff tried =>
    have same : polling.abort.aborted = true ∧ polling.abort.phase = .backingOff tried := by
      simp [AbortablePolling.abort, phase]
    rw [same.1, same.2] at moved
    rw [phase] at depth
    refine .inl ⟨by simp [outcome?, moved.2], by rw [moved.1, told_snoc, signal, Bool.or_true], ?_,
      views_snoc answers plain⟩
    rw [moved.2, tries]
    exact depth

theorem going_answered {isFinished : ν → Bool} {seen : List (Event ν)} {timer : Bool} {depth : Nat}
    (view : Option ν)
    (answers : ∀ view, .statusAnswered view ∈ seen → AbortablePolling.processView isFinished view = true)
    (next : AbortablePolling)
    (moved : AbortablePolling.answered isFinished ⟨told seen, timer, .requesting depth⟩ view = next) :
    (outcome? next = none ∧ Going isFinished (seen ++ [.statusAnswered view]) next) ∨
      ∃ outcome, outcome? next = some outcome ∧
        Ends isFinished seen (.statusAnswered view) outcome := by
  subst moved
  cases goes : AbortablePolling.processView isFinished view with
  | false =>
    refine .inr ⟨.resolved, ?_, .finished view goes⟩
    simp [AbortablePolling.answered, goes, AbortablePolling.settle, outcome?]
  | true =>
    cases stopped : told seen with
    | true =>
      refine .inr ⟨.resolved, ?_, .answeredLate view stopped⟩
      simp [AbortablePolling.answered, goes, AbortablePolling.delay, AbortablePolling.handleError,
        AbortablePolling.settle, outcome?]
    | false =>
      have delays : AbortablePolling.answered isFinished ⟨false, timer, .requesting depth⟩ view =
          ⟨false, timer, .delaying⟩ := by
        simp [AbortablePolling.answered, goes, AbortablePolling.delay]
      have still : told (seen ++ [.statusAnswered view]) = false := by
        rw [told_snoc, stopped]
        rfl
      rw [delays]
      refine .inl ⟨rfl, still.symm, still, views_snoc answers ?_⟩
      intro other same
      cases same
      exact goes

theorem going_failed {isFinished : ν → Bool} {seen : List (Event ν)} {timer : Bool} {depth : Nat}
    (err : ApiError) (made : abortTries seen = depth) (within : depth ≤ defaultReconnectTimes)
    (answers : ∀ view, .statusAnswered view ∈ seen → AbortablePolling.processView isFinished view = true)
    (next : AbortablePolling)
    (moved : AbortablePolling.failed ⟨told seen, timer, .requesting depth⟩ depth err = next) :
    (outcome? next = none ∧ Going isFinished (seen ++ [.statusFailed err]) next) ∨
      ∃ outcome, outcome? next = some outcome ∧ Ends isFinished seen (.statusFailed err) outcome := by
  rcases abort_failed_cases ⟨told seen, timer, .requesting depth⟩ depth err with
    ⟨again, paused⟩ | ⟨final, settled⟩
  · rw [paused] at moved
    subst moved
    simp only [retried, Bool.and_eq_true, decide_eq_true_eq] at again
    refine .inl ⟨rfl, by rw [told_snoc]; simp [abortSignal], ⟨?_, again.2⟩,
      views_snoc answers (fun _ same => by cases same)⟩
    rw [abortTries_snoc, made]
  · rw [settled] at moved
    subst moved
    cases stopped : told seen with
    | true => exact .inr ⟨.resolved, rfl, .failedLate err stopped⟩
    | false =>
      refine .inr ⟨.exited 1, rfl, .failed err stopped ?_⟩
      cases retryable : shouldRetry err with
      | false => exact .inl rfl
      | true =>
        simp only [retried, retryable, Bool.true_and, decide_eq_false_iff_not] at final
        exact .inr (by omega)

theorem going_step {isFinished : ν → Bool} {seen : List (Event ν)} {polling next : AbortablePolling}
    {event : Event ν} (going : Going isFinished seen polling) (unsettled : outcome? polling = none)
    (stepped : AbortablePolling.step isFinished polling event = some next) :
    (outcome? next = none ∧ Going isFinished (seen ++ [event]) next) ∨
      ∃ outcome, outcome? next = some outcome ∧ Ends isFinished seen event outcome := by
  have whole := going
  obtain ⟨aborted, timer, phase⟩ := polling
  obtain ⟨same, depth, answers⟩ := going
  dsimp only at same depth
  subst same
  cases event with
  | timeoutFired =>
    simp only [AbortablePolling.step] at stepped
    split at stepped
    · obtain rfl := Option.some.inj stepped
      exact going_signal whole unsettled rfl ⟨rfl, rfl⟩
    · cases stepped
  | stopCalled =>
    obtain rfl := Option.some.inj stepped
    exact going_signal whole unsettled rfl ⟨rfl, rfl⟩
  | delayElapsed =>
    cases phase with
    | delaying =>
      have untold : told seen = false := depth
      have loops : AbortablePolling.loop ⟨told seen, timer, .delaying⟩ =
          ⟨told seen, timer, .requesting 0⟩ := by
        simp [AbortablePolling.loop, untold]
      have same : AbortablePolling.loop ⟨told seen, timer, .delaying⟩ = next := Option.some.inj stepped
      rw [loops] at same
      subst same
      refine .inl ⟨rfl, by rw [told_snoc]; simp [abortSignal], ⟨?_, Nat.zero_le _⟩,
        views_snoc answers (fun _ same => by cases same)⟩
      rw [abortTries_snoc]
    | _ => cases stepped
  | statusAnswered view =>
    cases phase with
    | requesting tried => exact going_answered view answers next (Option.some.inj stepped)
    | _ => cases stepped
  | statusFailed err =>
    cases phase with
    | requesting tried =>
      exact going_failed err depth.1 depth.2 answers next (Option.some.inj stepped)
    | _ => cases stepped
  | retryElapsed =>
    cases phase with
    | backingOff tried =>
      obtain rfl := Option.some.inj stepped
      refine .inl ⟨rfl, by rw [told_snoc]; simp [abortSignal], ⟨?_, by have := depth.2; omega⟩,
        views_snoc answers (fun _ same => by cases same)⟩
      rw [abortTries_snoc]
      exact depth.1
    | _ => cases stepped

theorem outcome_stays {isFinished : ν → Bool} (polling : AbortablePolling) (event : Event ν)
    (next : AbortablePolling) (outcome : Outcome) (settled : outcome? polling = some outcome)
    (stepped : AbortablePolling.step isFinished polling event = some next) :
    outcome? next = some outcome := by
  obtain ⟨aborted, timer, phase⟩ := polling
  cases phase with
  | settled ended =>
    cases settled
    cases event with
    | timeoutFired =>
      simp only [AbortablePolling.step] at stepped
      split at stepped
      · obtain rfl := Option.some.inj stepped
        rfl
      · cases stepped
    | stopCalled =>
      obtain rfl := Option.some.inj stepped
      rfl
    | _ => cases stepped
  | _ => cases settled

theorem going_run {isFinished : ν → Bool} {timeout : Option Nat} {events : List (Event ν)}
    {polling : AbortablePolling}
    (ran : Trace.run (AbortablePolling.step isFinished) (.start timeout) events = some polling)
    (unsettled : outcome? polling = none) : Going isFinished events polling := by
  refine Trace.run_induction
    (P := fun seen polling => outcome? polling = none → Going isFinished seen polling)
    ?_ ?_ ran unsettled
  · intro _
    exact ⟨rfl, ⟨rfl, Nat.zero_le _⟩, fun view member => by cases member⟩
  · intro seen before event next _ holds stepped pending
    cases earlier : outcome? before with
    | some outcome =>
      rw [outcome_stays before event next outcome earlier stepped] at pending
      cases pending
    | none =>
      rcases going_step (holds earlier) earlier stepped with ⟨_, going⟩ | ⟨outcome, ended, _⟩
      · exact going
      · rw [ended] at pending
        cases pending

theorem polling_ends {isFinished : ν → Bool} {timeout : Option Nat} {events : List (Event ν)}
    {polling : AbortablePolling} {outcome : Outcome}
    (ran : Trace.run (AbortablePolling.step isFinished) (.start timeout) events = some polling)
    (ended : outcome? polling = some outcome) :
    ∃ before event after, events = before ++ event :: after ∧ Ends isFinished before event outcome ∧
      ∀ view, .statusAnswered view ∈ before → AbortablePolling.processView isFinished view = true := by
  obtain ⟨before, event, after, mid, next, split, reached, unsettled, stepped, last⟩ :=
    Trace.run_concludes outcome_stays rfl ran ended
  have going := going_run reached unsettled
  rcases going_step going unsettled stepped with ⟨still, _⟩ | ⟨other, same, ends⟩
  · rw [still] at last
    cases last
  · obtain rfl := Option.some.inj (same.symm.trans last)
    exact ⟨before, event, after, split, ends, going.answers⟩

/-- A request can only fail while the polling is pending. -/
theorem failing_unsettled {isFinished : ν → Bool} {polling next : AbortablePolling} {err : ApiError}
    (stepped : AbortablePolling.step isFinished polling (.statusFailed err) = some next) :
    outcome? polling = none := by
  obtain ⟨aborted, timer, phase⟩ := polling
  cases phase with
  | settled outcome => cases stepped
  | _ => rfl

/-- A failure after which the polling is still pending is one to try again. -/
theorem not_final_of_going {isFinished : ν → Bool} {seen : List (Event ν)}
    {polling next : AbortablePolling} {err : ApiError} (going : Going isFinished seen polling)
    (stepped : AbortablePolling.step isFinished polling (.statusFailed err) = some next)
    (pending : outcome? next = none) :
    ¬ (shouldRetry err = false ∨ abortTries seen = defaultReconnectTimes) := by
  obtain ⟨aborted, timer, phase⟩ := polling
  cases phase with
  | requesting depth =>
    have made : abortTries seen = depth := going.depth.1
    rcases abort_failed_cases ⟨aborted, timer, .requesting depth⟩ depth err with
      ⟨again, -⟩ | ⟨-, settled⟩
    · simp only [retried, Bool.and_eq_true, decide_eq_true_eq] at again
      rintro (final | spent)
      · rw [again.1] at final
        cases final
      · omega
    · have moved : AbortablePolling.failed ⟨aborted, timer, .requesting depth⟩ depth err = next :=
        Option.some.inj stepped
      rw [settled] at moved
      subst moved
      cases pending
  | _ => cases stepped

/-- How the polling of a discovery or of a host update ends, for either set of final
statuses. The process is ended with code 1 exactly when a request fails for good before
the polling was told to stop; otherwise the command goes on to exit code 0, because of a
final status or a missing view, or because it was told to stop. No view before the end
was final. -/
theorem status_polling_outcome (isFinished : ν → Bool) (timeout : Option Nat)
    (events : List (Event ν)) (polling : AbortablePolling)
    (ran : Trace.run (AbortablePolling.step isFinished) (.start timeout) events = some polling) :
    (outcome? polling = some (.exited 1) ↔
      ∃ before err after, events = before ++ .statusFailed err :: after ∧ told before = false ∧
        (shouldRetry err = false ∨ abortTries before = defaultReconnectTimes)) ∧
    ∀ outcome, outcome? polling = some outcome →
      ∃ before event after, events = before ++ event :: after ∧
        Ends isFinished before event outcome ∧
        ∀ view, .statusAnswered view ∈ before →
          AbortablePolling.processView isFinished view = true := by
  refine ⟨⟨?_, ?_⟩, fun outcome ended => polling_ends ran ended⟩
  · intro exited
    obtain ⟨before, event, after, split, ends, -⟩ := polling_ends ran exited
    cases ends with
    | failed err untold final => exact ⟨before, err, after, split, untold, final⟩
  · rintro ⟨before, err, after, rfl, untold, final⟩
    rw [Trace.run_append] at ran
    obtain ⟨mid, reached, later⟩ := Option.bind_eq_some_iff.mp ran
    rw [Trace.run_cons] at later
    obtain ⟨next, stepped, rest⟩ := Option.bind_eq_some_iff.mp later
    have unsettled := failing_unsettled stepped
    have going := going_run reached unsettled
    have ended : outcome? next = some (.exited 1) := by
      rcases going_step going unsettled stepped with ⟨still, again⟩ | ⟨outcome, same, ends⟩
      · -- it would be backing off, but this failure is not tried again
        exact absurd final (not_final_of_going going stepped still)
      · cases ends with
        | interrupted _ signal => cases signal
        | failedLate _ stopped => rw [untold] at stopped; cases stopped
        | failed _ _ _ => exact same
    exact Trace.run_invariant (P := fun polling => outcome? polling = some (.exited 1)) ended
      (fun s e next kept moved => outcome_stays s e next _ kept moved) rest

/-- A discovery that is asked for twice: the API fails in a way that is not tried again. -/
def refusedDiscovery : List (Event DiscoveryPolling.DiscoveryStatus) :=
  [.statusAnswered (some .running), .delayElapsed,
    .statusFailed { axios := true, status := some 401, code := none }]

theorem refused_discovery_exits :
    ∃ polling, Trace.run DiscoveryPolling.step (.start none) refusedDiscovery = some polling ∧
      outcome? polling = some (.exited 1) ∧
      ∃ before event after, refusedDiscovery = before ++ event :: after ∧
        Ends DiscoveryPolling.isFinished before event (.exited 1) := by
  obtain ⟨exits, ends⟩ :=
    status_polling_outcome DiscoveryPolling.isFinished none refusedDiscovery _ rfl
  obtain ⟨before, event, after, split, last, -⟩ := ends (.exited 1) rfl
  exact ⟨_, rfl, exits.mpr ⟨[.statusAnswered (some .running), .delayElapsed], _, [], rfl, rfl,
    .inl rfl⟩, before, event, after, split, last⟩

end Abortable

end BrightCli.Guarantees.PollingOutcome
