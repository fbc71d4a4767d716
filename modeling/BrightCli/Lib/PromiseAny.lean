import Mathlib.Data.List.Induction

/-!
# `Promise.any`

The promise fulfils with the first of its promises that does, and rejects when all
of them have. A settlement is `none` for a rejection, whose reason is not kept.
-/
namespace BrightCli.Lib

structure PromiseAny (α : Type) where
  unsettled : Nat
  /-- `none` while the promise is pending. -/
  outcome : Option (Option α)
  deriving DecidableEq, Repr

namespace PromiseAny

variable {α : Type}

/-- `Promise.any` of this many pending promises. -/
def of (count : Nat) : PromiseAny α :=
  { unsettled := count, outcome := if count = 0 then some none else none }

def settle (promise : PromiseAny α) (result : Option α) : PromiseAny α :=
  { unsettled := promise.unsettled - 1
    outcome :=
      match promise.outcome, result with
      | some settled, _ => some settled
      | none, some value => some (some value)
      | none, none => if promise.unsettled = 1 then some none else none }

/-- The outcome after some promises have settled, in the order in which they did. -/
def outcomeOf (count : Nat) (results : List (Option α)) : Option (Option α) :=
  match results.findSome? id with
  | some value => some (some value)
  | none => if results.length = count then some none else none

theorem outcomeOf_snoc_of_found {count : Nat} {results : List (Option α)} {value : α}
    (found : results.findSome? id = some value) (result : Option α) :
    outcomeOf count (results ++ [result]) = some (some value) := by
  simp [outcomeOf, List.findSome?_append, found]

/-- The induction is on the settlements, from the last one. -/
theorem settled {count : Nat} {results : List (Option α)} (few : results.length ≤ count) :
    (results.foldl settle (of count)).unsettled = count - results.length ∧
      (results.foldl settle (of count)).outcome = outcomeOf count results := by
  induction results using List.reverseRecOn with
  | nil =>
    refine ⟨rfl, ?_⟩
    cases count <;> simp [of, outcomeOf]
  | append_singleton results result ih =>
    rw [List.length_append, List.length_singleton] at few
    obtain ⟨left, outcome⟩ := ih (by omega)
    rw [List.foldl_append, List.foldl_cons, List.foldl_nil]
    generalize results.foldl settle (of count) = promise at left outcome
    refine ⟨?_, ?_⟩
    · show promise.unsettled - 1 = _
      rw [left, List.length_append, List.length_singleton]
      omega
    · unfold settle
      rw [left, outcome]
      cases found : results.findSome? id with
      | some value =>
        rw [outcomeOf_snoc_of_found found]
        simp [outcomeOf, found]
      | none =>
        have pending : outcomeOf count results = none := by
          have some_left : results.length ≠ count := by omega
          simp [outcomeOf, found, some_left]
        rw [pending]
        cases result with
        | some value => simp [outcomeOf, List.findSome?_append, found]
        | none =>
          have last : count - results.length = 1 ↔ results.length + 1 = count := by omega
          simp [outcomeOf, List.findSome?_append, found, last]

end PromiseAny

end BrightCli.Lib
