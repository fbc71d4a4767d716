import BrightCli.Lib.StoppableLoop
import BrightCli.Source.AbortablePolling

/-!
# Requests of a polling that was told to stop

The flag of `BasePolling` is read at the head of its loop only, and the abort
signal of the other two pollings reaches their delay and the head of the loop.
Neither reaches `Backoff`, which goes on to retry. So a polling that was told to
stop starts one request for a delay or a pause it was in, and one more for each
failure that is retried afterwards: at most one request is started after the
signal exactly when these are one at most, a retry still pending not counted.
-/
namespace BrightCli.Guarantees.PollingStop
open BrightCli.Lib BrightCli.Lib.StoppableLoop BrightCli.Source
open BrightCli.Source.Scan (ApiError shouldRetry defaultReconnectTimes)

/-- `Backoff` retries a request that failed. -/
def retried (depth : Nat) (err : ApiError) : Bool :=
  shouldRetry err && depth < defaultReconnectTimes

section
open Scan

def scanStage : Phase → Stage
  | .delaying => .waiting
  | .requesting _ => .requesting
  | .backingOff _ => .pausing
  | .settled _ => .done

def scanRetries (polling : BasePolling) (event : PollEvent) : Bool :=
  match event, polling.phase with
  | .statusFailed err, .requesting depth => retried depth err
  | _, _ => false

def scanSignal : PollEvent → Bool
  | .timeoutFired => true
  | .stopCalled => true
  | _ => false

def scanLoop (breakpoint : OnSeverity) : Loop BasePolling PollEvent where
  step := BasePolling.step breakpoint
  stage polling := scanStage polling.phase
  stopped polling := !polling.active
  signal := scanSignal
  retries := scanRetries

/-- With the flag cleared every answer ends the polling. -/
theorem answered_stopped (breakpoint : OnSeverity) (polling : BasePolling) (state : ScanState)
    (stopped : polling.active = false) :
    ∃ outcome, BasePolling.answered breakpoint polling state = polling.settle outcome := by
  unfold BasePolling.answered
  split
  · exact ⟨_, rfl⟩
  · split
    · exact ⟨_, rfl⟩
    · refine ⟨.resolved, ?_⟩
      simp [BasePolling.loop, stopped]

theorem failed_cases (polling : BasePolling) (depth : Nat) (err : ApiError) :
    (retried depth err = true ∧
      BasePolling.failed polling depth err = { polling with phase := .backingOff depth }) ∨
    (retried depth err = false ∧
      BasePolling.failed polling depth err = polling.settle (.rejected (.api err))) := by
  unfold BasePolling.failed retried
  cases shouldRetry err && decide (depth < defaultReconnectTimes) with
  | true => exact Or.inl ⟨rfl, rfl⟩
  | false => exact Or.inr ⟨rfl, rfl⟩

/-- One step of a stopped polling, event by event. -/
theorem scanLoop_step (breakpoint : OnSeverity) (polling next : BasePolling) (event : PollEvent)
    (stopped : polling.active = false)
    (stepped : BasePolling.step breakpoint polling event = some next) :
    next.active = false ∧ (scanLoop breakpoint).Winds polling event next := by
  obtain ⟨active, timer, phase⟩ := polling
  cases stopped
  cases event with
  | timeoutFired =>
    cases timer with
    | true =>
      cases stepped
      exact ⟨rfl, .stays rfl rfl⟩
    | false => cases stepped
  | stopCalled =>
    cases stepped
    exact ⟨rfl, .stays rfl rfl⟩
  | delayElapsed =>
    cases phase with
    | delaying =>
      cases stepped
      exact ⟨rfl, .sends rfl rfl rfl⟩
    | settled outcome =>
      cases stepped
      exact ⟨rfl, .stays rfl rfl⟩
    | _ => cases stepped
  | statusAnswered state =>
    cases phase with
    | requesting depth =>
      cases stepped
      obtain ⟨outcome, settled⟩ :=
        answered_stopped breakpoint ⟨false, timer, .requesting depth⟩ state rfl
      rw [settled]
      exact ⟨rfl, .ends rfl rfl rfl⟩
    | settled outcome =>
      cases stepped
      exact ⟨rfl, .stays rfl rfl⟩
    | _ => cases stepped
  | statusFailed err =>
    cases phase with
    | requesting depth =>
      cases stepped
      rcases failed_cases ⟨false, timer, .requesting depth⟩ depth err with
        ⟨retry, paused⟩ | ⟨final, settled⟩
      · rw [paused]
        exact ⟨rfl, .again rfl rfl retry⟩
      · rw [settled]
        exact ⟨rfl, .ends rfl rfl final⟩
    | settled outcome =>
      cases stepped
      exact ⟨rfl, .stays rfl rfl⟩
    | _ => cases stepped
  | retryElapsed =>
    cases phase with
    | backingOff depth =>
      cases stepped
      exact ⟨rfl, .sends rfl rfl rfl⟩
    | settled outcome =>
      cases stepped
      exact ⟨rfl, .stays rfl rfl⟩
    | _ => cases stepped

theorem scanLoop_obeys (breakpoint : OnSeverity) (polling next : BasePolling) (event : PollEvent)
    (stepped : BasePolling.step breakpoint polling event = some next)
    (signal : scanSignal event = true) : next.active = false := by
  cases event with
  | timeoutFired =>
    simp only [BasePolling.step] at stepped
    split at stepped
    · cases stepped
      rfl
    · cases stepped
  | stopCalled =>
    cases stepped
    rfl
  | _ => cases signal

theorem scanLoop_stoppable (breakpoint : OnSeverity) : (scanLoop breakpoint).Stoppable where
  obeys polling event next stepped signal := by
    have cleared := scanLoop_obeys breakpoint polling next event stepped signal
    simp [scanLoop, cleared]
  remains polling event next stopped stepped := by
    have inactive : polling.active = false := by simpa [scanLoop] using stopped
    have cleared := (scanLoop_step breakpoint polling next event inactive stepped).1
    simp [scanLoop, cleared]
  winds polling event next stopped stepped := by
    have inactive : polling.active = false := by simpa [scanLoop] using stopped
    exact (scanLoop_step breakpoint polling next event inactive stepped).2

end

section
open Polling

def abortStage : Phase → Stage
  | .delaying => .waiting
  | .requesting _ => .requesting
  | .backingOff _ => .pausing
  | .settled _ => .done

variable {ν : Type}

def abortRetries (polling : AbortablePolling) (event : Event ν) : Bool :=
  match event, polling.phase with
  | .statusFailed err, .requesting depth => retried depth err
  | _, _ => false

def abortSignal : Event ν → Bool
  | .timeoutFired => true
  | .stopCalled => true
  | _ => false

/-- An aborted polling is not in its delay: the abort ends it. -/
def abortLoop (step : AbortablePolling → Event ν → Option AbortablePolling) :
    Loop AbortablePolling (Event ν) where
  step := step
  stage polling := abortStage polling.phase
  stopped polling := polling.aborted && polling.phase ≠ .delaying
  signal := abortSignal
  retries := abortRetries

theorem abort_stopped (polling : AbortablePolling) :
    polling.abort.aborted = true ∧ polling.abort.phase ≠ .delaying := by
  unfold AbortablePolling.abort
  dsimp only
  split
  · exact ⟨rfl, by simp [AbortablePolling.handleError, AbortablePolling.settle]⟩
  · rename_i elsewhere
    exact ⟨rfl, elsewhere⟩

theorem abort_failed_cases (polling : AbortablePolling) (depth : Nat) (err : ApiError) :
    (retried depth err = true ∧
      AbortablePolling.failed polling depth err = { polling with phase := .backingOff depth }) ∨
    (retried depth err = false ∧
      AbortablePolling.failed polling depth err = polling.handleError) := by
  unfold AbortablePolling.failed retried
  cases shouldRetry err && decide (depth < defaultReconnectTimes) with
  | true => exact Or.inl ⟨rfl, rfl⟩
  | false => exact Or.inr ⟨rfl, rfl⟩

variable (isFinished : ν → Bool)

theorem abort_answered_stopped (polling : AbortablePolling) (view : Option ν)
    (stopped : polling.aborted = true) :
    AbortablePolling.answered isFinished polling view = polling.settle .resolved := by
  unfold AbortablePolling.answered AbortablePolling.delay AbortablePolling.handleError
  simp [stopped]

/-- One step of an aborted polling, event by event. -/
theorem abortLoop_step (polling next : AbortablePolling) (event : Event ν)
    (aborted : polling.aborted = true) (elsewhere : polling.phase ≠ .delaying)
    (stepped : AbortablePolling.step isFinished polling event = some next) :
    (next.aborted = true ∧ next.phase ≠ .delaying) ∧
      (abortLoop (AbortablePolling.step isFinished)).Winds polling event next := by
  obtain ⟨flag, timer, phase⟩ := polling
  cases aborted
  have again : AbortablePolling.abort ⟨true, timer, phase⟩ = ⟨true, timer, phase⟩ := if_neg elsewhere
  cases event with
  | timeoutFired =>
    cases timer with
    | true =>
      cases stepped
      rw [again]
      exact ⟨⟨rfl, elsewhere⟩, .stays rfl rfl⟩
    | false => cases stepped
  | stopCalled =>
    cases stepped
    rw [AbortablePolling.stop, again]
    exact ⟨⟨rfl, elsewhere⟩, .stays rfl rfl⟩
  | delayElapsed =>
    cases phase with
    | delaying => exact absurd rfl elsewhere
    | _ => cases stepped
  | statusAnswered view =>
    cases phase with
    | requesting depth =>
      cases stepped
      rw [abort_answered_stopped isFinished ⟨true, timer, .requesting depth⟩ view rfl]
      exact ⟨⟨rfl, nofun⟩, .ends rfl rfl rfl⟩
    | _ => cases stepped
  | statusFailed err =>
    cases phase with
    | requesting depth =>
      cases stepped
      rcases abort_failed_cases ⟨true, timer, .requesting depth⟩ depth err with
        ⟨retry, paused⟩ | ⟨final, settled⟩
      · rw [paused]
        exact ⟨⟨rfl, nofun⟩, .again rfl rfl retry⟩
      · rw [settled]
        exact ⟨⟨rfl, nofun⟩, .ends rfl rfl final⟩
    | _ => cases stepped
  | retryElapsed =>
    cases phase with
    | backingOff depth =>
      cases stepped
      exact ⟨⟨rfl, nofun⟩, .sends rfl rfl rfl⟩
    | _ => cases stepped

theorem abortLoop_obeys (polling next : AbortablePolling) (event : Event ν)
    (stepped : AbortablePolling.step isFinished polling event = some next)
    (signal : abortSignal event = true) : next.aborted = true ∧ next.phase ≠ .delaying := by
  cases event with
  | timeoutFired =>
    simp only [AbortablePolling.step] at stepped
    split at stepped
    · cases stepped
      exact abort_stopped polling
    · cases stepped
  | stopCalled =>
    cases stepped
    exact abort_stopped polling
  | _ => cases signal

theorem abortLoop_stoppable : (abortLoop (AbortablePolling.step isFinished)).Stoppable where
  obeys polling event next stepped signal := by
    simpa [abortLoop] using abortLoop_obeys isFinished polling next event stepped signal
  remains polling event next stopped stepped := by
    obtain ⟨aborted, elsewhere⟩ : polling.aborted = true ∧ polling.phase ≠ .delaying := by
      simpa [abortLoop] using stopped
    simpa [abortLoop] using
      (abortLoop_step isFinished polling next event aborted elsewhere stepped).1
  winds polling event next stopped stepped := by
    obtain ⟨aborted, elsewhere⟩ : polling.aborted = true ∧ polling.phase ≠ .delaying := by
      simpa [abortLoop] using stopped
    exact (abortLoop_step isFinished polling next event aborted elsewhere stepped).2

end

/-- The three pollings: after any signal, at any moment of any run, at most one
request is started exactly when what was due at the signal and the failures
retried since are one at most, apart from a retry that is still pending. -/
theorem pollings_stop_iff (breakpoint : Scan.OnSeverity) (timeout : Option Nat) :
    (scanLoop breakpoint).StopsWithin (Scan.BasePolling.start timeout) ∧
    (abortLoop Polling.DiscoveryPolling.step).StopsWithin (Polling.AbortablePolling.start timeout) ∧
    (abortLoop Polling.HostUpdateJobStatusPolling.step).StopsWithin
      (Polling.AbortablePolling.start timeout) := by
  refine ⟨?_, ?_, ?_⟩
  · exact stopsWithin (scanLoop_stoppable breakpoint) _
  · exact stopsWithin (abortLoop_stoppable Polling.DiscoveryPolling.isFinished) _
  · exact stopsWithin (abortLoop_stoppable Polling.HostUpdateJobStatusPolling.isFinished) _

def connectionReset : ApiError := { axios := true, status := none, code := some "ECONNRESET" }

/-- What the API answers after the signal: nothing but failures worth a retry. -/
def outage (ν : Type) : List (Polling.Event ν) :=
  [.statusFailed connectionReset, .retryElapsed, .statusFailed connectionReset, .retryElapsed]

/-- `stop` is called while a request is under way and the API is unreachable from
then on: each of the pollings starts two more requests. -/
theorem requests_go_on_after_stop :
    ¬ (scanLoop (Scan.create .any)).StopsPromptly (Scan.BasePolling.start none) ∧
    ¬ (abortLoop Polling.DiscoveryPolling.step).StopsPromptly
      (Polling.AbortablePolling.start none) ∧
    ¬ (abortLoop Polling.HostUpdateJobStatusPolling.step).StopsPromptly
      (Polling.AbortablePolling.start none) := by
  refine ⟨fun prompt => ?_, fun prompt => ?_, fun prompt => ?_⟩
  · have bound := prompt [.delayElapsed] .stopCalled
      [.statusFailed connectionReset, .retryElapsed, .statusFailed connectionReset, .retryElapsed]
      _ _ _ rfl rfl rfl rfl
    revert bound
    decide
  · have bound := prompt [] .stopCalled (outage _) _ _ _ rfl rfl rfl rfl
    revert bound
    decide
  · have bound := prompt [] .stopCalled (outage _) _ _ _ rfl rfl rfl rfl
    revert bound
    decide

end BrightCli.Guarantees.PollingStop
