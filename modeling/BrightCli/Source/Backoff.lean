import Mathlib.Algebra.Group.Nat.Defs
import BrightCli.Lib.Trace

/-!
# Retries with a growing pause

Source: `src/Utils/Backoff.ts`.

One instance may serve several calls of `execute`. A step is a call of `execute` up
to its first `await`, the settlement of a call of the task with everything that
follows synchronously, or the end of a pause. The field `depth` belongs to the
instance: it is compared when a call of the task fails and raised when the pause is
over. What the task does is a parameter: `task i j` is the outcome of the `j`-th call
of the task that the `i`-th call of `execute` makes. The log line is left out.
-/
namespace BrightCli.Source

structure Backoff (ε : Type) where
  maxDepth : Nat
  shouldRetry : Option (ε → Bool)

namespace Backoff

inductive Phase (ε α : Type) where
  | calling
  | pausing (delay : Nat)
  | settled (result : Except ε α)

/-- A call of `execute`, with the number of times it has called the task. -/
structure Call (ε α : Type) where
  made : Nat
  phase : Phase ε α

structure State (ε α : Type) where
  depth : Nat
  calls : List (Call ε α)

inductive Event where
  | execute
  | taskSettles (i : Nat)
  | delayElapses (i : Nat)
  deriving DecidableEq, Repr

variable {ε α : Type}

def State.init : State ε α := { depth := 0, calls := [] }

/-- A predicate that is missing accepts nothing. -/
def accepts (backoff : Backoff ε) (e : ε) : Bool :=
  match backoff.shouldRetry with
  | some shouldRetry => shouldRetry e
  | none => false

def delay (depth : Nat) : Nat := max (2 ^ depth * 100) 1000

/-- What `execute` comes to when the task has settled: it returns, it calls `retry`,
which pauses, or it throws. -/
def afterTask (backoff : Backoff ε) (depth : Nat) : Except ε α → Phase ε α
  | .ok value => .settled (.ok value)
  | .error e =>
    if backoff.accepts e && depth < backoff.maxDepth then .pausing (delay depth)
    else .settled (.error e)

/-- The end of a pause raises the depth and executes the task again. -/
def step (backoff : Backoff ε) (task : Nat → Nat → Except ε α) (s : State ε α) :
    Event → Option (State ε α)
  | .execute => some { s with calls := s.calls ++ [{ made := 1, phase := .calling }] }
  | .taskSettles i =>
    match s.calls[i]? with
    | some { made, phase := .calling } =>
      let phase := backoff.afterTask s.depth (task i (made - 1))
      some { s with calls := s.calls.set i { made, phase } }
    | _ => none
  | .delayElapses i =>
    match s.calls[i]? with
    | some { made, phase := .pausing _ } =>
      some { depth := s.depth + 1, calls := s.calls.set i { made := made + 1, phase := .calling } }
    | _ => none

end Backoff

end BrightCli.Source
