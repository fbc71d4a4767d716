import Mathlib.Data.List.Basic

/-!
# The weight of a list

The sum of what its members weigh, as a measure of the work that is left when every
member is one task. A member that is replaced changes the total by the difference.
-/
namespace BrightCli.Lib

variable {α : Type}

def weight (weigh : α → Nat) : List α → Nat
  | [] => 0
  | x :: rest => weigh x + weight weigh rest

theorem weight_set (weigh : α → Nat) {tasks : List α} {i : Nat} {old : α}
    (there : tasks[i]? = some old) (new : α) :
    weight weigh (tasks.set i new) + weigh old = weight weigh tasks + weigh new := by
  induction tasks generalizing i with
  | nil => cases there
  | cons x rest ih =>
    cases i with
    | zero =>
      cases there
      simp only [List.set_cons_zero, weight]
      omega
    | succ i =>
      have later := ih there
      simp only [List.set_cons_succ, weight]
      omega

theorem weight_map_le (weigh : α → Nat) (update : α → α) (lighter : ∀ x, weigh (update x) ≤ weigh x)
    (tasks : List α) : weight weigh (tasks.map update) ≤ weight weigh tasks := by
  induction tasks with
  | nil => exact Nat.le_refl 0
  | cons x rest ih =>
    have own := lighter x
    simp only [List.map_cons, weight]
    omega

end BrightCli.Lib
