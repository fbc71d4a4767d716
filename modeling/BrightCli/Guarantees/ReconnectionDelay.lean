import Mathlib.Tactic.GCongr
import Mathlib.Tactic.Linarith
import Mathlib.Tactic.Ring
import BrightCli.Source.Repeater.Connection

/-!
# The delay before a reconnection

The delay doubles with each failed attempt, is lengthened by up to three tenths and
cut off at `maxReconnectionDelay`. The formula backs off as it should exactly when
its lower constant does not exceed the upper one (`backsOff_iff`). The code has them
the other way round, so the cut takes every delay.
-/
namespace BrightCli.Guarantees.ReconnectionDelay
open BrightCli.Lib BrightCli.Source.Repeater BrightCli.Source.Repeater.Connection

/-- The delay without the upper bound. -/
def growth (low : ℚ) (n : Nat) (random : Jitter) : ℚ := low * 2 ^ n * (1 + 3 / 10 * random.val)

/-- Within the bounds, at least as long as after fewer failures, and not cut off
before the upper bound is reached. -/
def BacksOff (low high : ℚ) (n : Nat) (random : Jitter) : Prop :=
  (low ≤ delayWithin low high n random ∧ delayWithin low high n random ≤ high) ∧
  (∀ m, m ≤ n → delayWithin low high m random ≤ delayWithin low high n random) ∧
  (growth low n random ≤ high → delayWithin low high n random = growth low n random)

section
variable {low : ℚ} (positive : 0 < low) (high : ℚ) (random : Jitter)
include positive

theorem delayWithin_eq (n : Nat) : delayWithin low high n random = min (growth low n random) high := by
  have power : (1 : ℚ) ≤ 2 ^ n := one_le_pow₀ (by norm_num)
  have larger : low ≤ low * 2 ^ n := le_mul_of_one_le_right positive.le power
  unfold delayWithin growth
  rw [max_eq_left larger]
  dsimp only
  congr 1
  ring

theorem growth_mono {m n : Nat} (le : m ≤ n) : growth low m random ≤ growth low n random := by
  have factor : 0 ≤ 1 + 3 / 10 * random.val := by
    have lower := random.property.1
    linarith
  have power : (2 : ℚ) ^ m ≤ 2 ^ n := pow_le_pow_right₀ (by norm_num) le
  unfold growth
  gcongr

theorem low_le_growth (n : Nat) : low ≤ growth low n random := by
  have first : low ≤ growth low 0 random := by
    have lower := random.property.1
    unfold growth
    rw [pow_zero, mul_one]
    nlinarith
  exact first.trans (growth_mono positive random (Nat.zero_le n))

/-- Whatever the number of failures and the jitter, only the constants matter. -/
theorem backsOff_iff (n : Nat) : BacksOff low high n random ↔ low ≤ high := by
  unfold BacksOff
  simp only [delayWithin_eq positive]
  constructor
  · intro backs
    exact backs.1.1.trans backs.1.2
  · intro le
    refine ⟨⟨le_min (low_le_growth positive random n) le, min_le_right _ _⟩, ?_, min_eq_left⟩
    intro m earlier
    exact min_le_min_right high (growth_mono positive random earlier)

end

/-- Connection failures since the last connection, after one more event. -/
def countFailure (n : Nat) : Event → Nat
  | .connected => 0
  | .connectError _ => n + 1
  | _ => n

def failures (events : List Event) : Nat := events.foldl countFailure 0

theorem attempts_handleError (s : Connection) (data : ErrorData) :
    (handleError s data).connectionAttempts = s.connectionAttempts := by
  unfold handleError
  split <;> rfl

theorem attempts_handleConnectionError (s : Connection) (data : Option ErrorData) :
    (handleConnectionError s data).connectionAttempts = s.connectionAttempts + 1 := by
  unfold handleConnectionError
  split
  · split
    · exact congrArg (· + 1) (attempts_handleError s _)
    · rfl
  · rfl

theorem attempts_step {s next : Connection} {event : Event} (stepped : step s event = some next) :
    next.connectionAttempts = countFailure s.connectionAttempts event := by
  cases event with
  | run =>
    simp only [step] at stepped
    split at stepped <;> cases stepped <;> rfl
  | close | disconnect =>
    cases stepped
    rfl
  | connected =>
    simp only [step] at stepped
    split at stepped <;> cases stepped
    rfl
  | connectError data =>
    simp only [step] at stepped
    split at stepped
    · cases stepped
      exact attempts_handleConnectionError s data
    · cases stepped
  | disconnected _ =>
    simp only [step] at stepped
    split at stepped <;> cases stepped
    rfl
  | serverError data =>
    simp only [step] at stepped
    split at stepped
    · cases stepped
      exact attempts_handleError s data
    · cases stepped
  | reconnectFailed =>
    simp only [step] at stepped
    split at stepped <;> cases stepped <;> rfl
  | timerFires timer =>
    simp only [step] at stepped
    split at stepped <;> cases stepped
    rfl
  | tickFires =>
    simp only [step] at stepped
    split at stepped <;> cases stepped
    rfl

/-- In every run the exponent is the number of failures since the last connection. -/
theorem attempts_eq_failures {events : List Event} {s : Connection}
    (reached : Trace.run step init events = some s) : s.connectionAttempts = failures events := by
  refine Trace.run_induction (P := fun seen s => s.connectionAttempts = failures seen) rfl ?_
    reached
  intro seen before event next _ ih stepped
  rw [attempts_step stepped, ih, failures, failures, List.foldl_append]
  rfl

/-- After any number of failures and with any jitter the delay is the upper constant,
which is below the lower one. -/
theorem reconnection_never_backs_off (s : Connection) (n : Nat) (random : Jitter) :
    reconnectionDelay { s with connectionAttempts := n } random = maxReconnectionDelay ∧
      ¬ BacksOff minReconnectionDelay maxReconnectionDelay n random := by
  have positive : 0 < minReconnectionDelay := by decide
  have swapped : maxReconnectionDelay < minReconnectionDelay := by decide
  refine ⟨?_, ?_⟩
  · change delayWithin minReconnectionDelay maxReconnectionDelay n random = maxReconnectionDelay
    rw [delayWithin_eq positive]
    exact min_eq_right (swapped.le.trans (low_le_growth positive random n))
  · rw [backsOff_iff positive]
    exact not_le.mpr swapped

/-- The first reconnection comes after one second, not five. -/
theorem first_reconnection_early :
    reconnectionDelay init ⟨0, le_refl 0, one_pos⟩ = 1000 ∧
      ¬ BacksOff minReconnectionDelay maxReconnectionDelay 0 ⟨0, le_refl 0, one_pos⟩ := by
  have early : delayWithin minReconnectionDelay maxReconnectionDelay 0 ⟨0, le_refl 0, one_pos⟩ =
      1000 := by
    norm_num [delayWithin, minReconnectionDelay, maxReconnectionDelay]
  refine ⟨early, ?_⟩
  intro backs
  have lower := backs.1.1
  rw [early] at lower
  exact absurd lower (by decide)

end BrightCli.Guarantees.ReconnectionDelay
