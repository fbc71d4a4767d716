import BrightCli.Source.Scan.BasePolling

/-!
# The verdict of `scan:polling`

A scan that ends reports a list of running states and then one terminal state.
`verdict_of_reports` computes what `start` makes of every such list: the
breakpoint sees the running states only, because `poll` leaves its loop on the
terminal state before yielding it. `verdict_correct_iff` draws the consequence
for the promise that a finding fails the build: it is kept on exactly the
reports whose terminal state shows nothing that no running state showed.
The sibling pollings yield every state and look at its status afterwards.
-/
namespace BrightCli.Guarantees.ScanVerdict
open BrightCli.Source.Scan
open BrightCli.Lib.Trace

/-- The promise: `start` rejects with the breakpoint exactly when some reported
state, the last included, shows an issue at or above the breakpoint's severity,
and resolves otherwise; the exit codes follow. -/
structure VerdictCorrect (type : BreakpointType) (timeout : Option Nat)
    (states : List ScanState) : Prop where
  rejects_iff : (∃ exception, verdict type timeout states =
      some (.rejected (.breakpoint exception))) ↔
    ∃ state ∈ states, Shows (create type).severity state
  resolves : (¬ ∃ state ∈ states, Shows (create type).severity state) →
    verdict type timeout states = some .resolved
  exit_code : ∀ outcome, verdict type timeout states = some outcome →
    (exitCode outcome = 50 ↔ ∃ state ∈ states, Shows (create type).severity state) ∧
    (exitCode outcome = 0 ↔ ¬ ∃ state ∈ states, Shows (create type).severity state)

theorem settled_ignores_reports (breakpoint : OnSeverity) (polling : BasePolling)
    (outcome : Outcome) (settled : polling.phase = .settled outcome) (states : List ScanState) :
    run (BasePolling.step breakpoint) polling (reports states) = some polling := by
  induction states with
  | nil => rfl
  | cons state rest ih =>
    have step_delay : BasePolling.step breakpoint polling .delayElapsed = some polling := by
      simp [BasePolling.step, settled]
    have step_answer :
        BasePolling.step breakpoint polling (.statusAnswered state) = some polling := by
      simp [BasePolling.step, settled]
    change run _ polling (.delayElapsed :: .statusAnswered state :: reports rest) = _
    rw [run_cons, step_delay, Option.bind_some, run_cons, step_answer, Option.bind_some, ih]

/-- One iteration of the generator and of the loop body. -/
theorem run_reports_cons (breakpoint : OnSeverity) (timer : Bool) (state : ScanState)
    (rest : List ScanState) :
    run (BasePolling.step breakpoint) ⟨true, timer, .delaying⟩ (reports (state :: rest)) =
      run (BasePolling.step breakpoint)
        (BasePolling.answered breakpoint ⟨true, timer, .requesting 0⟩ state) (reports rest) := by
  change run _ _ (.delayElapsed :: .statusAnswered state :: reports rest) = _
  rw [run_cons]
  change run _ _ (.statusAnswered state :: reports rest) = _
  rw [run_cons]
  rfl

/-- The generator over a complete report. The induction is on the running
states; a state that trips the breakpoint settles the run, any other returns it
to the head of the loop. -/
theorem run_reports (breakpoint : OnSeverity) (timer : Bool) (running : List ScanState)
    (last : ScanState) (going : ∀ state ∈ running, isRedundant state.status = false)
    (ended : isRedundant last.status = true) :
    run (BasePolling.step breakpoint) ⟨true, timer, .delaying⟩ (reports (running ++ [last])) =
      some ⟨false, false, .settled
        (if running.any breakpoint.isExcepted then .rejected (.breakpoint breakpoint.breakOn)
          else .resolved)⟩ := by
  induction running with
  | nil =>
    rw [List.nil_append, run_reports_cons]
    simp [BasePolling.answered, ended, BasePolling.settle, BasePolling.stop, reports]
  | cons state rest ih =>
    have alive : isRedundant state.status = false := going state (by simp)
    rw [List.cons_append, run_reports_cons]
    cases hit : breakpoint.isExcepted state with
    | true =>
      have stops : BasePolling.answered breakpoint ⟨true, timer, .requesting 0⟩ state =
          ⟨false, false, .settled (.rejected (.breakpoint breakpoint.breakOn))⟩ := by
        simp [BasePolling.answered, alive, OnSeverity.execute, hit, BasePolling.settle,
          BasePolling.stop]
      rw [stops, settled_ignores_reports breakpoint _ _ rfl]
      simp [hit]
    | false =>
      have continues : BasePolling.answered breakpoint ⟨true, timer, .requesting 0⟩ state =
          ⟨true, timer, .delaying⟩ := by
        simp [BasePolling.answered, alive, OnSeverity.execute, hit, BasePolling.loop]
      rw [continues, ih fun other member => going other (by simp [member])]
      simp [hit]

theorem verdict_of_reports (type : BreakpointType) (timeout : Option Nat)
    (running : List ScanState) (last : ScanState)
    (going : ∀ state ∈ running, isRedundant state.status = false)
    (ended : isRedundant last.status = true) :
    verdict type timeout (running ++ [last]) =
      some (if running.any (create type).isExcepted then
        .rejected (.breakpoint (create type).breakOn) else .resolved) := by
  have begun : BasePolling.start timeout = ⟨true, timeout.getD 0 ≠ 0, .delaying⟩ := rfl
  rw [verdict, begun, run_reports _ _ running last going ended]
  rfl

theorem any_excepted_iff (type : BreakpointType) (states : List ScanState) :
    states.any (create type).isExcepted = true ↔
      ∃ state ∈ states, Shows (create type).severity state := by
  simp only [List.any_eq_true, create_isExcepted_iff]

/-- A verdict that follows a test for the finding is correct. -/
theorem correct_of_test (type : BreakpointType) (timeout : Option Nat) (states : List ScanState)
    (test : Bool) (exact_test : test = true ↔ ∃ state ∈ states, Shows (create type).severity state)
    (computed : verdict type timeout states =
      some (if test then .rejected (.breakpoint (create type).breakOn) else .resolved)) :
    VerdictCorrect type timeout states := by
  cases test with
  | true =>
    have found := exact_test.mp rfl
    refine ⟨⟨fun _ => found, fun _ => ⟨_, computed⟩⟩, fun nothing => absurd found nothing, ?_⟩
    intro outcome reached
    rw [computed] at reached
    cases reached
    exact ⟨by simp [exitCode, found], by simp [exitCode, found]⟩
  | false =>
    have nothing : ¬ ∃ state ∈ states, Shows (create type).severity state :=
      fun found => by cases exact_test.mpr found
    refine ⟨⟨?_, fun found => absurd found nothing⟩, fun _ => computed, ?_⟩
    · rintro ⟨exception, rejected⟩
      rw [computed] at rejected
      cases rejected
    · intro outcome reached
      rw [computed] at reached
      cases reached
      exact ⟨by simpa [exitCode] using nothing, by simpa [exitCode] using nothing⟩

/-- The verdict is right on a complete report exactly when the terminal state
shows no finding that every running state lacks. -/
theorem verdict_correct_iff (type : BreakpointType) (timeout : Option Nat)
    (running : List ScanState) (last : ScanState)
    (going : ∀ state ∈ running, isRedundant state.status = false)
    (ended : isRedundant last.status = true) :
    VerdictCorrect type timeout (running ++ [last]) ↔
      (Shows (create type).severity last →
        ∃ state ∈ running, Shows (create type).severity state) := by
  have computed := verdict_of_reports type timeout running last going ended
  have member : (∃ state ∈ running ++ [last], Shows (create type).severity state) ↔
      (∃ state ∈ running, Shows (create type).severity state) ∨
        Shows (create type).severity last := by
    simp only [List.mem_append, List.mem_singleton, or_and_right, exists_or, exists_eq_left]
  constructor
  · intro correct shown
    obtain ⟨exception, rejected⟩ := correct.rejects_iff.mpr (member.mpr (Or.inr shown))
    rw [computed] at rejected
    rw [← any_excepted_iff]
    by_contra missed
    simp [missed] at rejected
  · intro covered
    refine correct_of_test type timeout _ _ ?_ computed
    rw [any_excepted_iff, member]
    exact ⟨Or.inl, fun either => either.elim id covered⟩

/-- A running state without issues and the terminal state that follows it. -/
def quietRun (issues : Int) (status : ScanStatus) : ScanState :=
  { numberOfLowSeverityIssues := issues, numberOfMediumSeverityIssues := 0,
    numberOfHighSeverityIssues := 0, numberOfCriticalSeverityIssues := 0, status }

theorem verdict_correct_when_seen_running :
    isRedundant (quietRun 1 .running).status = false ∧ isRedundant (quietRun 1 .done).status = true ∧
      VerdictCorrect .any none ([quietRun 1 .running] ++ [quietRun 1 .done]) :=
  ⟨rfl, rfl, (verdict_correct_iff .any none [quietRun 1 .running] (quietRun 1 .done)
    (by intro state member; cases List.mem_singleton.mp member; rfl) rfl).mpr
    fun _ => ⟨quietRun 1 .running, by simp, .low, by decide, by decide⟩⟩

/-- One issue that first shows in the answer that also says `done`. -/
theorem verdict_misses_terminal_finding :
    ¬ VerdictCorrect .any none [quietRun 0 .running, quietRun 1 .done] := by
  intro correct
  obtain ⟨exception, rejected⟩ := correct.rejects_iff.mpr
    ⟨quietRun 1 .done, by simp, .low, by decide, by decide⟩
  have resolved : verdict .any none [quietRun 0 .running, quietRun 1 .done] = some .resolved := by
    decide
  rw [resolved] at rejected
  cases rejected

end BrightCli.Guarantees.ScanVerdict
