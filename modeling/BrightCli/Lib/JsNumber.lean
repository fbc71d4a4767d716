import Mathlib.Algebra.Order.Ring.Rat
import Mathlib.Data.Nat.Cast.Order.Basic

/-!
# ECMAScript numbers

A number is finite, one of the two infinities, or not a number at all. Every finite
one is rational, and comparing numbers rounds nothing, so the rationals are what a
comparison needs. Nothing compares with `nan`, which is why `≤` is no order here.
-/
namespace BrightCli.Lib.Js

inductive Number where
  | nan
  | negativeInfinity
  | infinity
  | finite (value : ℚ)
  deriving DecidableEq, Repr

namespace Number

instance : NatCast Number := ⟨fun n => .finite n⟩

/-- `a <= b`. -/
protected def le : Number → Number → Bool
  | .nan, _ => false
  | _, .nan => false
  | .finite a, .finite b => a ≤ b
  | .negativeInfinity, _ => true
  | _, .infinity => true
  | _, _ => false

/-- `a < b`. -/
protected def lt : Number → Number → Bool
  | .nan, _ => false
  | _, .nan => false
  | .finite a, .finite b => a < b
  | .infinity, _ => false
  | _, .negativeInfinity => false
  | _, _ => true

instance : LE Number := ⟨fun a b => Number.le a b = true⟩

instance : LT Number := ⟨fun a b => Number.lt a b = true⟩

instance (a b : Number) : Decidable (a ≤ b) := inferInstanceAs (Decidable (Number.le a b = true))

instance (a b : Number) : Decidable (a < b) := inferInstanceAs (Decidable (Number.lt a b = true))

def truthy (n : Number) : Bool := n ≠ .nan && n ≠ .finite 0

@[simp] theorem finite_le_finite (a b : ℚ) : Number.finite a ≤ .finite b ↔ a ≤ b :=
  decide_eq_true_iff

@[simp] theorem finite_lt_finite (a b : ℚ) : Number.finite a < .finite b ↔ a < b :=
  decide_eq_true_iff

theorem natCast_eq_finite (n : Nat) : (n : Number) = .finite n := rfl

@[simp] theorem natCast_le_natCast (m n : Nat) : (m : Number) ≤ n ↔ m ≤ n := by
  rw [natCast_eq_finite, natCast_eq_finite, finite_le_finite, Nat.cast_le]

@[simp] theorem natCast_inj (m n : Nat) : (m : Number) = n ↔ m = n := by
  rw [natCast_eq_finite, natCast_eq_finite, finite.injEq, Nat.cast_inj]

/-- Where both are numbers the comparisons exclude each other. -/
theorem le_of_not_lt {a b : Number} (left : a ≠ .nan) (right : b ≠ .nan) (larger : ¬ a < b) :
    b ≤ a := by
  cases a with
  | nan => exact absurd rfl left
  | finite a =>
    cases b with
    | nan => exact absurd rfl right
    | finite b =>
      rw [finite_lt_finite] at larger
      exact (finite_le_finite b a).mpr (not_lt.mp larger)
    | negativeInfinity => rfl
    | infinity => exact absurd rfl larger
  | negativeInfinity =>
    cases b with
    | nan => exact absurd rfl right
    | negativeInfinity => rfl
    | finite b => exact absurd rfl larger
    | infinity => exact absurd rfl larger
  | infinity =>
    cases b with
    | nan => exact absurd rfl right
    | negativeInfinity | infinity | finite => rfl

end Number

end BrightCli.Lib.Js
