import Mathlib.Data.List.Basic
import BrightCli.Lib.Trace

/-!
# The bounded pool

Source: `pool` of `src/Utils/Helpers.ts`.

A step is one pass of the loop, the fulfilment of a promise of the iterator, a
callback that was registered with `then`, or the continuation of an `await`. The
loop runs to its next `await` without a callback in between, while a promise may
fulfil at any moment, also inside a call of the iterator. The iterator neither
throws nor rejects here. The `i`th member of the pool is the promise that `then`
returns for the promise of the `i`th call; it settles when its callback has run.
-/
namespace BrightCli.Source

/-- A promise of the iterator. -/
inductive Settlement (R : Type) where
  | pending
  /-- The callback that removes the member from the pool is due. -/
  | fulfilled (value : R)
  /-- The callback has run, so that the member has settled too. -/
  | removed (value : R)
  deriving DecidableEq, Repr

namespace Settlement

variable {R : Type}

def value? : Settlement R → Option R
  | .pending => none
  | .fulfilled value => some value
  | .removed value => some value

def isPending : Settlement R → Bool
  | .pending => true
  | _ => false

/-- The member of the pool has not settled. -/
def memberPending : Settlement R → Bool
  | .removed _ => false
  | _ => true

end Settlement

inductive PoolPhase (R : Type) where
  | looping
  /-- `await Promise.race(poolPromises)`, with the members it was given. -/
  | racing (members : List Nat)
  /-- `Promise.all(promises)` -/
  | collecting
  | resolved (values : List R)
  deriving DecidableEq, Repr

/-- `items` are those the loop has not come to, `called` those it has. -/
structure Pool (T R : Type) where
  items : List T
  called : List T
  promises : List (Settlement R)
  poolPromises : List Nat
  phase : PoolPhase R
  deriving DecidableEq, Repr

namespace Pool

variable {T R : Type}

def start (items : List T) : Pool T R :=
  { items, called := [], promises := [], poolPromises := [], phase := .looping }

/-- `poolPromises.splice(poolPromises.indexOf(poolMember), 1)`; the index `-1` stands
for the last element. -/
def splice (poolPromises : List Nat) (poolMember : Nat) : List Nat :=
  if poolMember ∈ poolPromises then poolPromises.eraseIdx (poolPromises.idxOf poolMember)
  else poolPromises.dropLast

/-- One pass of the loop. -/
def takeItem (poolLimit : Nat) (s : Pool T R) (item : T) (rest : List T) : Pool T R :=
  let poolPromises := s.poolPromises ++ [s.promises.length]
  { items := rest
    called := s.called ++ [item]
    promises := s.promises ++ [.pending]
    poolPromises
    phase := if poolPromises.length ≥ poolLimit then .racing poolPromises else .looping }

inductive Event (R : Type) where
  /-- The loop comes to the next item, or ends. -/
  | next
  | fulfil (i : Nat) (value : R)
  | callback (i : Nat)
  /-- The race is over and the loop goes on. -/
  | resume
  /-- `Promise.all` resolves. -/
  | resolve
  deriving DecidableEq, Repr

/-- The member is among those that have settled. -/
def memberSettled (s : Pool T R) (i : Nat) : Bool :=
  match s.promises[i]? with
  | some promise => !promise.memberPending
  | none => false

def step (poolLimit : Nat) (s : Pool T R) : Event R → Option (Pool T R)
  | .next =>
    match s.phase, s.items with
    | .looping, item :: rest => some (s.takeItem poolLimit item rest)
    | .looping, [] => some { s with phase := .collecting }
    | _, _ => none
  | .fulfil i value =>
    match s.promises[i]? with
    | some .pending => some { s with promises := s.promises.set i (.fulfilled value) }
    | _ => none
  | .callback i =>
    match s.phase, s.promises[i]? with
    | .looping, _ => none
    | _, some (.fulfilled value) =>
      some { s with
        promises := s.promises.set i (.removed value)
        poolPromises := splice s.poolPromises i }
    | _, _ => none
  | .resume =>
    match s.phase with
    | .racing members =>
      if members.any s.memberSettled then some { s with phase := .looping } else none
    | _ => none
  | .resolve =>
    match s.phase, s.promises.mapM Settlement.value? with
    | .collecting, some values => some { s with phase := .resolved values }
    | _, _ => none

end Pool

end BrightCli.Source
