import BrightCli.Guarantees.RepeaterLife

/-!
# The exit code of a repeater

The code is written at four places: by a signal, by a critical error, by a
reconnection that failed, and when the first connection fails. The last three close
the connection, which leaves no handler behind, and the command runs its launcher
once; so at most one of them ever writes. A signal overwrites the code of an earlier
failure, and none of the four writes after it. What can still come is an uncaught
exception: closing clears the last reconnection timer only, an earlier one fires and
finds no socket, and the process ends with code one whatever was written before.
-/
namespace BrightCli.Guarantees.RepeaterExit
open BrightCli.Lib BrightCli.Source.Repeater BrightCli.Source.Repeater.Life
open BrightCli.Guarantees.RepeaterLife

/-- The process after the command has run the launcher. -/
def started : Life := run init

/-- The step makes the launcher, or the command, give up. -/
def Fails (s : Life) : Event → Prop
  | .socket _ (.error data) => closes data = true ∨ s.connecting = true
  | .socket _ (.connectError (some data)) =>
    Connection.suppressConnectionError data = true ∧ closes data = true
  | .manager _ .reconnectFailed => s.socket ≠ none
  | _ => False

/-- The step runs a scheduled callback that finds no socket. -/
def Crashes (s : Life) : Event → Prop
  | .timerFires _ => s.socket = none
  | .tickFires => s.socket = none
  | _ => False

theorem started_wired : Wired started := wired_run wired_init

theorem exitCode_scheduleReconnection {s : Life} (wired : Wired s) :
    (scheduleReconnection s).exitCode = s.exitCode ∧
      (scheduleReconnection s).socket = s.socket ∧
      (scheduleReconnection s).crashed = s.crashed := by
  cases opened : s.socket with
  | none =>
    rw [scheduleReconnection_closed (empty_of_closed wired opened)]
    exact ⟨rfl, opened, rfl⟩
  | some socket =>
    rw [scheduleReconnection_open (registered_of_open wired opened)]
    exact ⟨rfl, opened, rfl⟩

theorem exitCode_handleConnectionError {s : Life} {socket : Nat} (wired : Wired s)
    (opened : s.socket = some socket) (data : Option ErrorData) :
    (Fails s (.socket socket (.connectError data)) →
      (handleConnectionError s data).exitCode = some 1 ∧
        (handleConnectionError s data).socket = none) ∧
    (¬ Fails s (.socket socket (.connectError data)) →
      (handleConnectionError s data).exitCode = s.exitCode) ∧
    (handleConnectionError s data).crashed = s.crashed := by
  rw [handleConnectionError_open (registered_of_open wired opened)]
  cases data with
  | none =>
    have after := exitCode_scheduleReconnection wired
    exact ⟨False.elim, fun _ => after.1, after.2.2⟩
  | some data =>
    simp only [Fails]
    split
    · rename_i suppressed
      split
      · rename_i closing
        have after := exitCode_scheduleReconnection (wired_failed (called s .error .handleError))
        exact ⟨fun _ => ⟨after.1, after.2.1⟩, fun stays => absurd ⟨suppressed, closing⟩ stays,
          after.2.2⟩
      · rename_i open_
        have after := exitCode_scheduleReconnection (wired_called wired .error .handleError)
        exact ⟨fun fails => absurd fails.2 open_, fun _ => after.1, after.2.2⟩
    · rename_i other
      have after := exitCode_scheduleReconnection wired
      exact ⟨fun fails => absurd fails.1 other, fun _ => after.1, after.2.2⟩

/-- What a callback that reads the socket does to the exit code. -/
theorem exitCode_useSocket (s : Life) :
    (s.socket = none → (useSocket s).exitCode = some 1 ∧ (useSocket s).crashed = true) ∧
    (s.socket ≠ none → useSocket s = s) ∧ (useSocket s).socket = s.socket := by
  unfold useSocket
  cases opened : s.socket with
  | none => exact ⟨fun _ => ⟨rfl, rfl⟩, fun present => absurd rfl present, rfl⟩
  | some socket => exact ⟨by simp, fun _ => rfl, opened⟩

/-- What one step of a running process does to the exit code. -/
theorem exitCode_step {s next : Life} {e : Event} (wired : Wired s) (stepped : step s e = some next) :
    (e = .signal → next.exitCode = some 0 ∧ next.socket = none) ∧
    (Fails s e → next.exitCode = some 1 ∧ next.socket = none) ∧
    (Crashes s e → next.exitCode = some 1 ∧ next.crashed = true) ∧
    (e ≠ .signal → ¬ Fails s e → ¬ Crashes s e → next.exitCode = s.exitCode) ∧
    (¬ Crashes s e → next.crashed = s.crashed) := by
  cases step_taken wired stepped with
  | signal =>
    exact ⟨fun _ => ⟨rfl, rfl⟩, False.elim, False.elim, fun other => absurd rfl other, fun _ => rfl⟩
  | run =>
    have kept : (run s).exitCode = s.exitCode ∧ (run s).crashed = s.crashed := by
      unfold run
      split <;> exact ⟨rfl, rfl⟩
    exact ⟨by simp, False.elim, False.elim, fun _ _ _ => kept.1, fun _ => kept.2⟩
  | socket socket event opened =>
    cases event with
    | connectError data =>
      obtain ⟨fails, stays, runs⟩ := exitCode_handleConnectionError wired opened data
      exact ⟨by simp, fails, False.elim, fun _ unfailed _ => stays unfailed, fun _ => runs⟩
    | error data =>
      simp only [effect, Fails, Bool.or_eq_true]
      split
      · rename_i fails
        exact ⟨by simp, fun _ => ⟨rfl, rfl⟩, False.elim, fun _ stays => absurd fails stays,
          fun _ => rfl⟩
      · rename_i stays
        exact ⟨by simp, fun fails => absurd fails stays, False.elim, fun _ _ _ => rfl, fun _ => rfl⟩
    | _ => exact ⟨by simp, False.elim, False.elim, fun _ _ _ => rfl, fun _ => rfl⟩
  | manager socket current event opened =>
    cases event with
    | reconnectFailed =>
      refine ⟨by simp, fun _ => ⟨rfl, rfl⟩, False.elim, fun _ stays => absurd ?_ stays, fun _ => rfl⟩
      simp [Fails, opened]
    | _ => exact ⟨by simp, False.elim, False.elim, fun _ _ _ => rfl, fun _ => rfl⟩
  | unheard socket event closed =>
    cases event with
    | reconnectFailed =>
      exact ⟨by simp, fun fails => absurd closed fails, False.elim, fun _ _ _ => rfl, fun _ => rfl⟩
    | _ => exact ⟨by simp, False.elim, False.elim, fun _ _ _ => rfl, fun _ => rfl⟩
  | timerFires timer =>
    obtain ⟨crashes, runs, -⟩ := exitCode_useSocket { s with pending := s.pending.erase timer }
    refine ⟨by simp, False.elim, crashes, fun _ _ present => ?_, fun present => ?_⟩
    · rw [runs present]
    · rw [runs present]
  | tickFires =>
    obtain ⟨crashes, runs, -⟩ := exitCode_useSocket { s with ticks := s.ticks - 1 }
    refine ⟨by simp, False.elim, crashes, fun _ _ present => ?_, fun present => ?_⟩
    · rw [runs present]
    · rw [runs present]
  | close => exact ⟨by simp, False.elim, False.elim, fun _ _ _ => rfl, fun _ => rfl⟩
  | deploymentTimesOut i => exact ⟨by simp, False.elim, False.elim, fun _ _ _ => rfl, fun _ => rfl⟩

/-- Without a socket nothing fails, and only `run` opens one. -/
theorem closed_step {s next : Life} {e : Event} (wired : Wired s) (closed : s.socket = none)
    (other : e ≠ .run) (stepped : step s e = some next) : next.socket = none ∧ ¬ Fails s e := by
  cases step_taken wired stepped with
  | run => exact absurd rfl other
  | close => exact ⟨rfl, id⟩
  | signal => exact ⟨rfl, id⟩
  | socket socket event opened =>
    rw [closed] at opened
    cases opened
  | manager socket current event opened =>
    rw [closed] at opened
    cases opened
  | unheard socket event =>
    refine ⟨closed, ?_⟩
    cases event with
    | reconnectFailed => exact fun fails => fails closed
    | _ => exact id
  | timerFires timer => exact ⟨(exitCode_useSocket _).2.2.trans closed, id⟩
  | tickFires => exact ⟨(exitCode_useSocket _).2.2.trans closed, id⟩
  | deploymentTimesOut i => exact ⟨closed, id⟩

/-- Some step of the run is such a one. -/
def Happened (P : Life → Event → Prop) (events : List Event) : Prop :=
  ∃ front e mid, front ++ [e] <+: events ∧ Trace.run step started front = some mid ∧ P mid e

theorem happened_snoc {P : Life → Event → Prop} {front : List Event} {e : Event} {s : Life}
    (reached : Trace.run step started front = some s) :
    Happened P (front ++ [e]) ↔ Happened P front ∨ P s e := by
  constructor
  · intro happened
    obtain ⟨early, last, mid, pre, arrived, holds⟩ := happened
    rcases List.prefix_concat_iff.mp pre with whole | shorter
    · obtain ⟨rfl, same⟩ := List.append_inj' whole rfl
      cases same
      rw [reached] at arrived
      cases arrived
      exact Or.inr holds
    · exact Or.inl ⟨early, last, mid, shorter, arrived, holds⟩
  · intro happened
    rcases happened with ⟨early, last, mid, pre, arrived, holds⟩ | holds
    · exact ⟨early, last, mid, pre.trans (List.prefix_append front [e]), arrived, holds⟩
    · exact ⟨front, e, s, List.prefix_refl _, reached, holds⟩

theorem not_happened_nil (P : Life → Event → Prop) : ¬ Happened P [] := by
  rintro ⟨front, e, mid, pre, -⟩
  simp at pre

/-- The exit code as the events so far determine it. -/
inductive CodeOf (events : List Event) : Option Nat → Prop
  | crashed (uncaught : Happened Crashes events) : CodeOf events (some 1)
  | signalled (fine : ¬ Happened Crashes events) (signal : Event.signal ∈ events) :
      CodeOf events (some 0)
  | failed (fine : ¬ Happened Crashes events) (unsignalled : Event.signal ∉ events)
      (failed : Happened Fails events) : CodeOf events (some 1)
  | unwritten (fine : ¬ Happened Crashes events) (unsignalled : Event.signal ∉ events)
      (unfailed : ¬ Happened Fails events) : CodeOf events none

/-- A step that is no signal, failure or crash decides nothing. -/
theorem CodeOf.snoc {front : List Event} {code : Option Nat} (known : CodeOf front code) {s : Life}
    {e : Event} (reached : Trace.run step started front = some s) (fine : ¬ Happened Crashes front)
    (runs : ¬ Crashes s e) (signal : e ≠ .signal) (fails : ¬ Fails s e) :
    CodeOf (front ++ [e]) code := by
  have fine_after : ¬ Happened Crashes (front ++ [e]) := by
    rw [happened_snoc reached]
    exact not_or.mpr ⟨fine, runs⟩
  have member_iff : Event.signal ∈ front ++ [e] ↔ Event.signal ∈ front := by
    simp [Ne.symm signal]
  have failed_iff : Happened Fails (front ++ [e]) ↔ Happened Fails front := by
    simp [happened_snoc reached, fails]
  cases known with
  | crashed uncaught => exact absurd uncaught fine
  | signalled _ member => exact .signalled fine_after (member_iff.mpr member)
  | failed _ absent failed =>
    exact .failed fine_after (member_iff.not.mpr absent) (failed_iff.mpr failed)
  | unwritten _ absent unfailed =>
    exact .unwritten fine_after (member_iff.not.mpr absent) (failed_iff.not.mpr unfailed)

theorem socket_of_crashes {s : Life} {e : Event} (crashes : Crashes s e) : s.socket = none := by
  cases e with
  | timerFires timer => exact crashes
  | tickFires => exact crashes
  | _ => exact crashes.elim

/-- What a run keeps: a failure or a signal leaves no socket behind. -/
structure Ended (events : List Event) (s : Life) : Prop where
  wired : Wired s
  uncaught : s.crashed = true ↔ Happened Crashes events
  code : CodeOf events s.exitCode
  closed : s.exitCode ≠ none → s.socket = none

theorem ended_step {front : List Event} {s next : Life} {e : Event} (other : e ≠ .run)
    (reached : Trace.run step started front = some s) (ended : Ended front s)
    (stepped : step s e = some next) : Ended (front ++ [e]) next := by
  have running := (callback_of_step stepped).1
  have fine : ¬ Happened Crashes front := by
    rw [← ended.uncaught, running]
    exact Bool.false_ne_true
  obtain ⟨signalled, failing, crashing, kept, runs⟩ := exitCode_step ended.wired stepped
  have closed_after := fun closed => (closed_step ended.wired closed other stepped).1
  by_cases crashes : Crashes s e
  · have uncaught : Happened Crashes (front ++ [e]) := (happened_snoc reached).mpr (Or.inr crashes)
    obtain ⟨one, crashed⟩ := crashing crashes
    exact ⟨wired_step ended.wired stepped, by simp [crashed, uncaught], one ▸ .crashed uncaught,
      fun _ => closed_after (socket_of_crashes crashes)⟩
  · have fine_after : ¬ Happened Crashes (front ++ [e]) := by
      rw [happened_snoc reached]
      exact not_or.mpr ⟨fine, crashes⟩
    have uncaught : next.crashed = true ↔ Happened Crashes (front ++ [e]) := by
      simp [runs crashes, running, fine_after]
    by_cases signal : e = .signal
    · obtain ⟨zero, closed⟩ := signalled signal
      have member : Event.signal ∈ front ++ [e] := by simp [signal]
      exact ⟨wired_step ended.wired stepped, uncaught, zero ▸ .signalled fine_after member,
        fun _ => closed⟩
    · by_cases fails : Fails s e
      · -- A failing step finds a socket, so nothing has written the code before.
        obtain ⟨one, closed⟩ := failing fails
        have unwritten : s.exitCode = none := by
          by_contra written
          exact (closed_step ended.wired (ended.closed written) other stepped).2 fails
        have unsignalled : Event.signal ∉ front := by
          have code := ended.code
          rw [unwritten] at code
          cases code
          assumption
        have absent : Event.signal ∉ front ++ [e] := by simp [unsignalled, Ne.symm signal]
        exact ⟨wired_step ended.wired stepped, uncaught,
          one ▸ .failed fine_after absent ((happened_snoc reached).mpr (Or.inr fails)),
          fun _ => closed⟩
      · have same := kept signal fails crashes
        exact ⟨wired_step ended.wired stepped, uncaught,
          same ▸ ended.code.snoc reached fine crashes signal fails,
          fun written => closed_after (ended.closed (same ▸ written))⟩

/-- The induction is on the run; a process runs its launcher once. -/
theorem ended_run {events : List Event} {s : Life} (once : Event.run ∉ events)
    (ran : Trace.run step started events = some s) : Ended events s := by
  refine Trace.run_induction (P := fun events s => Event.run ∉ events → Ended events s) ?_ ?_ ran once
  · intro _
    refine ⟨started_wired, ?_, ?_, fun written => absurd rfl written⟩
    · simp [started, run, init, connect, subscribeToEvents, not_happened_nil]
    · exact .unwritten (not_happened_nil _) (by simp) (not_happened_nil _)
  · intro front before e next reached ih stepped once
    simp only [List.mem_append, List.mem_singleton, not_or] at once
    exact ended_step (fun same => once.2 same.symm) reached (ih once.1) stepped

/-- The exit code of a process whose command runs the launcher once. An uncaught exception
makes it one. Otherwise it is zero as soon as a signal has come, also when the repeater had
failed before; one when it failed and no signal came; and no code if neither happened. -/
theorem exit_code_of_process (events : List Event) (s : Life) (once : Event.run ∉ events)
    (ran : Trace.run step started events = some s) :
    (s.exitCode = some 0 ↔ ¬ Happened Crashes events ∧ Event.signal ∈ events) ∧
    (s.exitCode = some 1 ↔
      Happened Crashes events ∨ Event.signal ∉ events ∧ Happened Fails events) ∧
    (s.exitCode = none ↔
      ¬ Happened Crashes events ∧ Event.signal ∉ events ∧ ¬ Happened Fails events) := by
  have code := (ended_run once ran).code
  generalize s.exitCode = written at code
  cases code with
  | crashed uncaught => simp [uncaught]
  | signalled fine member => simp [fine, member]
  | failed fine absent failed => simp [fine, absent, failed]
  | unwritten fine absent unfailed => simp [fine, absent, unfailed]

/-- Two attempts fail before a signal comes. Closing stops the second timer only. -/
def signalledTooLate : List Event :=
  [.socket 0 (.connectError none), .socket 0 (.connectError none), .signal, .timerFires 0]

theorem signal_then_crash :
    ∃ s, Trace.run step started signalledTooLate = some s ∧ Event.signal ∈ signalledTooLate ∧
      s.exitCode = some 1 :=
  ⟨_, rfl, by decide, (exit_code_of_process signalledTooLate _ (by decide) rfl).2.1.mpr
    (Or.inl ⟨signalledTooLate.dropLast, .timerFires 0, _, List.prefix_refl _, rfl, rfl⟩)⟩

end BrightCli.Guarantees.RepeaterExit
