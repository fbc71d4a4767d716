import BrightCli.Lib.Trace

/-!
# Loops that send requests until they are told to stop

A loop waits, sends a request, and sends it again after a pause when it failed
in a way worth retrying. Once it was told to stop it begins no new round, but a
round that has begun goes on. `count_balance` says what that costs: after the
signal, the requests started are the rounds and retries that were due when it
came, and one more for each failure that is retried.
-/
namespace BrightCli.Lib.StoppableLoop

inductive Stage where
  | waiting
  | requesting
  | pausing
  | done
  deriving DecidableEq, Repr

/-- A request is due when this stage ends. -/
def Stage.due : Stage → Nat
  | .waiting => 1
  | .pausing => 1
  | _ => 0

@[simp] theorem due_requesting : Stage.requesting.due = 0 := rfl

@[simp] theorem due_pausing : Stage.pausing.due = 1 := rfl

@[simp] theorem due_done : Stage.done.due = 0 := rfl

structure Loop (σ ε : Type) where
  step : σ → ε → Option σ
  stage : σ → Stage
  stopped : σ → Bool
  /-- The event tells the loop to stop. -/
  signal : ε → Bool
  /-- The event is the failure of a request that will be sent again. -/
  retries : σ → ε → Bool

variable {σ ε : Type}

/-- The step starts a request. -/
def Loop.starts (loop : Loop σ ε) (s : σ) (e : ε) : Bool :=
  match loop.step s e with
  | some next => decide (loop.stage s ≠ .requesting ∧ loop.stage next = .requesting)
  | none => false

/-- What a step of a stopped loop can do: leave the stage, start the request that
is due, end, or pause before it tries again. -/
inductive Loop.Winds (loop : Loop σ ε) (s : σ) (e : ε) (next : σ) : Prop where
  | stays (same : loop.stage next = loop.stage s) (plain : loop.retries s e = false)
  | sends (due : (loop.stage s).due = 1) (sent : loop.stage next = .requesting)
      (plain : loop.retries s e = false)
  | ends (asked : loop.stage s = .requesting) (ended : loop.stage next = .done)
      (plain : loop.retries s e = false)
  | again (asked : loop.stage s = .requesting) (paused : loop.stage next = .pausing)
      (retried : loop.retries s e = true)

structure Loop.Stoppable (loop : Loop σ ε) : Prop where
  obeys : ∀ s e next, loop.step s e = some next → loop.signal e = true → loop.stopped next = true
  remains : ∀ s e next, loop.stopped s = true → loop.step s e = some next →
    loop.stopped next = true
  winds : ∀ s e next, loop.stopped s = true → loop.step s e = some next → loop.Winds s e next

/-- At most one request is started after any signal. -/
def Loop.StopsPromptly (loop : Loop σ ε) (s₀ : σ) : Prop :=
  ∀ before signal after s next last, Trace.run loop.step s₀ before = some s →
    loop.signal signal = true → loop.step s signal = some next →
    Trace.run loop.step next after = some last → Trace.count loop.step loop.starts next after ≤ 1

/-- At most one request is started from any signal to the end exactly when the requests
due at the signal and the failures retried since are one at most. Before the end a
request that is still due is not counted. -/
def Loop.StopsWithin (loop : Loop σ ε) (s₀ : σ) : Prop :=
  ∀ before signal after s next last, Trace.run loop.step s₀ before = some s →
    loop.signal signal = true → loop.step s signal = some next →
    Trace.run loop.step next after = some last →
    (loop.stage last = .done →
      (Trace.count loop.step loop.starts next after ≤ 1 ↔
        (loop.stage next).due + Trace.count loop.step loop.retries next after ≤ 1)) ∧
    (Trace.count loop.step loop.starts next after ≤ 1 ↔
      (loop.stage next).due + Trace.count loop.step loop.retries next after ≤
        1 + (loop.stage last).due)

/-- The balance of one step of a stopped loop. -/
theorem step_balance {loop : Loop σ ε} {s next : σ} {e : ε} (stepped : loop.step s e = some next)
    (winds : loop.Winds s e next) :
    (loop.starts s e).toNat + (loop.stage next).due =
      (loop.stage s).due + (loop.retries s e).toNat := by
  unfold Loop.starts
  rw [stepped]
  cases winds with
  | stays same plain => simp [same, plain]
  | sends due sent plain =>
    have idle : loop.stage s ≠ .requesting := by
      intro asked
      rw [asked] at due
      cases due
    simp [idle, sent, plain, due]
  | ends asked ended plain => simp [asked, ended, plain]
  | again asked paused retried => simp [asked, paused, retried]

/-- By induction on the run: what was due and what is retried is what is started,
or still due. -/
theorem count_balance {loop : Loop σ ε} (stoppable : loop.Stoppable) {s last : σ}
    {events : List ε} (stopped : loop.stopped s = true)
    (ran : Trace.run loop.step s events = some last) :
    Trace.count loop.step loop.starts s events + (loop.stage last).due =
      (loop.stage s).due + Trace.count loop.step loop.retries s events := by
  induction events generalizing s with
  | nil =>
    cases ran
    exact Nat.add_comm _ _
  | cons e rest ih =>
    rw [Trace.run_cons] at ran
    obtain ⟨next, stepped, ran⟩ := Option.bind_eq_some_iff.mp ran
    have here := step_balance stepped (stoppable.winds s e next stopped stepped)
    have later := ih (stoppable.remains s e next stopped stepped) ran
    rw [Trace.count_cons stepped, Trace.count_cons stepped]
    omega

theorem stopsWithin {loop : Loop σ ε} (stoppable : loop.Stoppable) (s₀ : σ) :
    loop.StopsWithin s₀ := by
  intro before signal after s next last _ signalled stepped ran
  have balance := count_balance stoppable (stoppable.obeys s signal next stepped signalled) ran
  constructor
  · intro ended
    rw [ended, due_done] at balance
    omega
  · omega

end BrightCli.Lib.StoppableLoop
