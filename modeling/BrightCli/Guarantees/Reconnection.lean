import BrightCli.Source.Repeater.Connection

/-!
# No scheduled callback without a socket

`disconnect` clears the one timer it has a handle for. It leaves timers behind
when several connection errors have each armed one, and the handler of a
connection error arms a new one after the launcher has closed the connection in
the middle of it. In every run the connection is left clean exactly when each
step is admissible: a closing step finds no other timer than the stored one and
no scheduled emission, and no connection error closes the connection.
-/
namespace BrightCli.Guarantees.Reconnection
open BrightCli.Lib BrightCli.Source.Repeater BrightCli.Source.Repeater.Connection

/-- Nothing is scheduled while there is no socket. -/
def Clean (s : Connection) : Prop :=
  s.socket = false → s.pending = [] ∧ s.ticks = 0

/-- Closing leaves nothing behind. -/
def ClearsAll (s : Connection) : Prop :=
  (∀ timer ∈ s.pending, s.connectionTimer = some timer) ∧ s.ticks = 0

/-- The launcher closes the connection on this error. -/
def Closes (data : ErrorData) : Prop :=
  data.texts = true ∧ isCriticalError data.code = true

def Admissible (s : Connection) : Event → Prop
  | .close => ClearsAll s
  | .disconnect => ClearsAll s
  | .serverError data => Closes data → ClearsAll s
  | .reconnectFailed => s.socket = true → ClearsAll s
  | .connectError (some data) => ¬ (suppressConnectionError data = true ∧ data.texts = true)
  | _ => True

theorem clean_disconnect_iff (s : Connection) : Clean (disconnect s) ↔ ClearsAll s := by
  unfold Clean disconnect clearConnectionTimer ClearsAll
  simp only [forall_const, List.filter_eq_nil_iff, decide_eq_true_eq, not_not]
  constructor
  · intro clean
    exact ⟨fun timer member => (clean.1 timer member).symm, clean.2⟩
  · intro clears
    exact ⟨fun timer member => (clears.1 timer member).symm, clears.2⟩

theorem clean_close_iff (s : Connection) : Clean (close s) ↔ ClearsAll s :=
  clean_disconnect_iff { s with repeaterRunning := false }

/-- With a socket there is nothing to show. -/
theorem clean_of_socket {s : Connection} (connected : s.socket = true) : Clean s := by
  intro closed
  rw [connected] at closed
  cases closed

/-- The errors that `handleConnectionError` passes on are critical ones. -/
theorem critical_of_suppressed (data : ErrorData)
    (suppressed : suppressConnectionError data = true) : isCriticalError data.code = true := by
  unfold suppressConnectionError at suppressed
  unfold isCriticalError
  simp only [List.mem_cons, List.not_mem_nil, or_false, decide_eq_true_eq] at suppressed ⊢
  rcases suppressed with code | code <;> simp [code]

/-- A timer armed after the connection was closed. -/
theorem not_clean_of_scheduled {s : Connection} (closed : s.socket = false) :
    ¬ Clean (scheduleReconnection s) := by
  intro clean
  have empty := (clean closed).1
  simp [scheduleReconnection] at empty

theorem connectError_exact (s : Connection) (data : Option ErrorData) (connected : s.socket = true) :
    Clean (handleConnectionError s data) ↔ Admissible s (.connectError data) := by
  cases data with
  | none => exact iff_of_true (clean_of_socket connected) trivial
  | some data =>
    by_cases suppressed : suppressConnectionError data = true
    · cases texts : data.texts with
      | true =>
        -- The launcher closes in the middle of the handler, which then arms a timer.
        have armed : handleConnectionError s (some data) = scheduleReconnection (close s) := by
          simp [handleConnectionError, suppressed, handleError, texts,
            critical_of_suppressed data suppressed]
        rw [armed]
        exact iff_of_false (not_clean_of_scheduled rfl) fun admissible =>
          admissible ⟨suppressed, texts⟩
      | false =>
        have armed : handleConnectionError s (some data) = scheduleReconnection s := by
          simp [handleConnectionError, suppressed, handleError, texts]
        rw [armed]
        refine iff_of_true (clean_of_socket connected) ?_
        intro closes
        rw [texts] at closes
        cases closes.2
    · have armed : handleConnectionError s (some data) = scheduleReconnection s := by
        simp [handleConnectionError, suppressed]
      rw [armed]
      exact iff_of_true (clean_of_socket connected) fun closes => suppressed closes.1

theorem serverError_exact (s : Connection) (data : ErrorData) (connected : s.socket = true) :
    Clean (handleError s data) ↔ Admissible s (.serverError data) := by
  unfold handleError Admissible Closes
  by_cases closes : data.texts = true ∧ isCriticalError data.code = true
  · simp [closes, clean_close_iff]
  · have ignored : (data.texts && isCriticalError data.code) = false := by simpa using closes
    simp only [ignored, Bool.false_eq_true, ↓reduceIte, closes, false_imp_iff, iff_true]
    exact clean_of_socket connected

/-- One step from a clean state leads to a clean state exactly when it is admissible. -/
theorem step_exact (s : Connection) (e : Event) (next : Connection) (clean : Clean s)
    (stepped : step s e = some next) : Clean next ↔ Admissible s e := by
  cases e with
  | run =>
    simp only [step] at stepped
    split at stepped
    · cases stepped
      exact iff_of_true clean trivial
    · cases stepped
      exact iff_of_true (clean_of_socket rfl) trivial
  | close =>
    cases stepped
    exact clean_close_iff s
  | disconnect =>
    cases stepped
    exact clean_disconnect_iff s
  | connected =>
    simp only [step] at stepped
    split at stepped
    · rename_i connected
      cases stepped
      exact iff_of_true (clean_of_socket connected) trivial
    · cases stepped
  | connectError data =>
    simp only [step] at stepped
    split at stepped
    · rename_i connected
      cases stepped
      exact connectError_exact s data connected
    · cases stepped
  | disconnected reason =>
    simp only [step] at stepped
    split at stepped
    · cases stepped
      exact iff_of_true clean trivial
    · cases stepped
  | serverError data =>
    simp only [step] at stepped
    split at stepped
    · rename_i connected
      cases stepped
      exact serverError_exact s data connected
    · cases stepped
  | reconnectFailed =>
    simp only [step] at stepped
    split at stepped
    · rename_i connected
      cases stepped
      simp [clean_close_iff, Admissible, connected]
    · rename_i closed
      cases stepped
      simp [clean, Admissible, closed]
  | timerFires timer =>
    simp only [step] at stepped
    split at stepped
    · cases stepped
      refine iff_of_true ?_ trivial
      intro closed
      obtain ⟨none_pending, no_tick⟩ := clean closed
      simp [none_pending, no_tick]
    · cases stepped
  | tickFires =>
    simp only [step] at stepped
    split at stepped
    · cases stepped
      refine iff_of_true ?_ trivial
      intro closed
      obtain ⟨none_pending, no_tick⟩ := clean closed
      simp [none_pending, no_tick]
    · cases stepped

/-- In a clean state no scheduled callback can find the socket missing. -/
theorem socket_of_clean (s : Connection) (e : Event) (next : Connection) (clean : Clean s)
    (stepped : step s e = some next) : ¬ Unsocketed s e := by
  intro unsocketed
  cases e with
  | timerFires timer =>
    have none_pending := (clean unsocketed).1
    simp [step, none_pending] at stepped
  | tickFires =>
    have no_tick := (clean unsocketed).2
    simp [step, no_tick] at stepped
  | _ => exact unsocketed

/-- Along every run, nothing is scheduled while there is no socket exactly when
every step is admissible, and then no scheduled callback runs without one. -/
theorem callbacks_find_socket_iff (events : List Event) (last : Connection)
    (legal : Trace.run step init events = some last) :
    (Trace.Always step init Clean events ↔ Trace.EachStep step init Admissible events) ∧
    (Trace.Always step init Clean events →
      Trace.EachStep step init (fun s e => ¬ Unsocketed s e) events) := by
  constructor
  · refine Trace.always_iff_eachStep (I := fun _ => True) trivial ?_ ?_ ?_ legal
    · intro _
      exact ⟨rfl, rfl⟩
    · intro _ _ _ _ _ _
      trivial
    · intro s e next _ clean stepped
      exact step_exact s e next clean stepped
  · intro always seen e s pre reached
    obtain ⟨next, stepped⟩ := Trace.step_of_prefix legal pre reached
    exact socket_of_clean s e next
      (always seen s ((List.prefix_append seen [e]).trans pre) reached) stepped

/-- A run that closes with one timer pending, the stored one. -/
theorem close_after_one_error :
    Trace.EachStep step init (fun s e => ¬ Unsocketed s e) [.run, .connectError none, .close] := by
  have runs := callbacks_find_socket_iff [.run, .connectError none, .close] _ rfl
  have admissible : Trace.EachStep step init Admissible [.run, .connectError none, .close] := by
    rw [Trace.eachStep_cons rfl, Trace.eachStep_cons rfl, Trace.eachStep_cons rfl]
    exact ⟨trivial, trivial, ⟨by decide, rfl⟩, Trace.eachStep_nil _ _⟩
  exact runs.2 (runs.1.mpr admissible)

/-- The server refuses the repeater when it connects: the launcher closes the
connection, the handler goes on to arm a timer, and the timer finds no socket. -/
theorem refused_repeater_timer_unsocketed :
    ∃ s, Trace.run step init
        [.run, .connectError (some { code := .repeaterUnauthorized, texts := true })] = some s ∧
      s.pending = [0] ∧ Unsocketed s (.timerFires 0) ∧ (step s (.timerFires 0)).isSome :=
  ⟨_, rfl, rfl, rfl, rfl⟩

end BrightCli.Guarantees.Reconnection
