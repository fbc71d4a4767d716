import Mathlib.Data.List.Flatten

/-!
# Pipes

Between two processes. A write goes through as its bytes. A read takes some of the bytes
that have arrived, at most as many as the buffer of the reader holds, so several writes
may be read as one chunk and a write may be cut. A read that takes all there is cuts
nothing (`read_whole`).
-/
namespace BrightCli.Lib

structure Pipe (α β : Type) where
  /-- The writes that arrived between one read and the next. -/
  arrivals : List (List α)
  /-- Arrived, and left by the last read. -/
  rest : List β
  /-- Written and not arrived. -/
  pending : List α
  deriving DecidableEq, Repr

namespace Pipe

variable {α β : Type}

def holding (items : List α) : Pipe α β := { arrivals := [], rest := [], pending := items }

def write (pipe : Pipe α β) (items : List α) : Pipe α β :=
  { pipe with pending := pipe.pending ++ items }

section
variable (limit : Nat) (bytes : α → List β)

/-- What is there for a read when this many more writes have arrived. -/
def available (pipe : Pipe α β) (count : Nat) : List β :=
  pipe.rest ++ (pipe.pending.take count).flatMap bytes

def read (pipe : Pipe α β) (count size : Nat) : Option (List β × Pipe α β) :=
  if count ≤ pipe.pending.length ∧ 0 < size ∧ size ≤ limit ∧
      size ≤ (pipe.available bytes count).length then
    some ((pipe.available bytes count).take size,
      { arrivals := pipe.arrivals ++ [pipe.pending.take count]
        rest := (pipe.available bytes count).drop size
        pending := pipe.pending.drop count })
  else none

end

/-- All that was ever written. -/
def written (pipe : Pipe α β) : List α := pipe.arrivals.flatten ++ pipe.pending

@[simp] theorem written_holding (items : List α) : (holding items : Pipe α β).written = items := by
  simp [holding, written]

/-- A read of all that has arrived is one of whole writes. -/
theorem read_whole {limit : Nat} {bytes : α → List β} {pipe next : Pipe α β} {count size : Nat}
    {chunk : List β} (taken : pipe.read limit bytes count size = some (chunk, next))
    (clear : pipe.rest = []) (all : (pipe.available bytes count).length = size) :
    ∃ arrived, pipe.pending = arrived ++ next.pending ∧ next.arrivals = pipe.arrivals ++ [arrived] ∧
      chunk = arrived.flatMap bytes ∧ arrived ≠ [] ∧ next.rest = [] ∧
      next.written = pipe.written := by
  unfold read at taken
  split at taken
  · rename_i bounds
    cases taken
    have whole := List.take_append_drop count pipe.pending
    have some_bytes := bounds.2.1
    refine ⟨pipe.pending.take count, whole.symm, rfl, ?_, ?_,
      List.drop_eq_nil_of_le (Nat.le_of_eq all), ?_⟩
    · rw [List.take_of_length_le (Nat.le_of_eq all), available, clear, List.nil_append]
    · intro none_arrived
      rw [← all, available, clear, none_arrived] at some_bytes
      exact Nat.lt_irrefl 0 some_bytes
    · simp [written, whole]
  · cases taken

/-- The next write can be read whole, if the buffer holds it. -/
theorem read_one {limit : Nat} {bytes : α → List β} {pipe : Pipe α β} (clear : pipe.rest = [])
    {first : α} {others : List α} (waiting : pipe.pending = first :: others)
    (some_bytes : bytes first ≠ []) (short : (bytes first).length ≤ limit) :
    (pipe.read limit bytes 1 (pipe.available bytes 1).length).isSome = true := by
  have positive := List.length_pos_iff.mpr some_bytes
  have there : pipe.available bytes 1 = bytes first := by simp [available, clear, waiting]
  have bounds : 1 ≤ pipe.pending.length ∧ 0 < (bytes first).length ∧ (bytes first).length ≤ limit ∧
      (bytes first).length ≤ (bytes first).length :=
    ⟨by simp [waiting], positive, short, Nat.le_refl _⟩
  rw [there, read, there, if_pos bounds]
  rfl

end Pipe

end BrightCli.Lib
