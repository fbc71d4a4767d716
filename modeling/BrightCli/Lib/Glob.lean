import Mathlib.Data.List.Basic

/-!
# Glob patterns

`weave p₀ [(w₁, p₁), …, (wₖ, pₖ)]` is the text `p₀ w₁ p₁ … wₖ pₖ`. A glob pattern
is such a text whose gaps are runs of one wildcard, and it matches the texts that
have the same pieces with anything in the gaps. The pieces are literal: nothing
but the wildcard has a meaning.
-/
namespace BrightCli.Lib.Glob

variable {α : Type}

def weave : List α → List (List α × List α) → List α
  | first, [] => first
  | first, (gap, piece) :: rest => first ++ gap ++ weave piece rest

/-- The text has these pieces, in this order, with some gaps between them. -/
def Matches (first : List α) (pieces : List (List α)) (text : List α) : Prop :=
  ∃ parts, parts.map Prod.snd = pieces ∧ text = weave first parts

/-- The pieces of a pattern between its maximal runs of the wildcard. -/
structure PiecesOf (star : α) (pattern first : List α) (pieces : List (List α)) : Prop where
  runs : ∃ parts, parts.map Prod.snd = pieces ∧ pattern = weave first parts ∧
    ∀ part ∈ parts, part.1 ≠ [] ∧ ∀ c ∈ part.1, c = star
  literal : ∀ piece ∈ first :: pieces, star ∉ piece
  maximal : ∀ piece ∈ pieces.dropLast, piece ≠ []

theorem weave_append (front first : List α) (parts : List (List α × List α)) :
    weave (front ++ first) parts = front ++ weave first parts := by
  cases parts with
  | nil => rfl
  | cons part rest => simp [weave]

theorem matches_alone_iff (first text : List α) : Matches first [] text ↔ text = first := by
  constructor
  · rintro ⟨parts, none, woven⟩
    rw [List.map_eq_nil_iff.mp none] at woven
    exact woven
  · rintro rfl
    exact ⟨[], rfl, rfl⟩

/-- A pattern whose first piece is empty starts with the wildcard or is empty. -/
theorem head_of_empty_piece {star : α} {parts : List (List α × List α)}
    (runs : ∀ part ∈ parts, part.1 ≠ [] ∧ ∀ c ∈ part.1, c = star) (some_run : parts ≠ []) :
    (weave [] parts).head? = some star := by
  obtain ⟨⟨gap, piece⟩, rest, rfl⟩ := List.exists_cons_of_ne_nil some_run
  obtain ⟨nonempty, stars⟩ := runs (gap, piece) (by simp)
  obtain ⟨c, more, rfl⟩ := List.exists_cons_of_ne_nil nonempty
  have same : c = star := stars c (by simp)
  simp [weave, same]

/-- A pattern whose first piece is not empty does not start with the wildcard. -/
theorem head_of_piece {star : α} {first : List α} (parts : List (List α × List α))
    (literal : star ∉ first) (nonempty : first ≠ []) : (weave first parts).head? ≠ some star := by
  obtain ⟨c, more, rfl⟩ := List.exists_cons_of_ne_nil nonempty
  have different : c ≠ star := by
    intro same
    apply literal
    simp [same]
  cases parts with
  | nil => simpa [weave] using different
  | cons part rest => simpa [weave] using different

namespace PiecesOf

variable {star : α} {pattern first : List α} {pieces : List (List α)}

theorem nil : PiecesOf star ([] : List α) [] [] :=
  ⟨⟨[], rfl, rfl, by simp⟩, by simp, by simp⟩

/-- Another character of the first piece. -/
theorem cons_literal (of : PiecesOf star pattern first pieces) {c : α} (other : c ≠ star) :
    PiecesOf star (c :: pattern) (c :: first) pieces := by
  obtain ⟨⟨parts, own, woven, runs⟩, literal, maximal⟩ := of
  have longer : c :: pattern = weave (c :: first) parts := by
    rw [woven]
    exact (weave_append [c] first parts).symm
  refine ⟨⟨parts, own, longer, runs⟩, ?_, maximal⟩
  intro piece member
  rcases List.mem_cons.mp member with rfl | later
  · have free := literal first (by simp)
    simpa [Ne.symm other] using free
  · exact literal piece (by simp [later])

/-- Another wildcard of the run that the pattern starts with. -/
theorem cons_run (of : PiecesOf star pattern first pieces) (more : pattern.head? = some star) :
    PiecesOf star (star :: pattern) first pieces := by
  obtain ⟨⟨parts, own, woven, runs⟩, literal, maximal⟩ := of
  have empty : first = [] := by
    by_contra nonempty
    rw [woven] at more
    exact head_of_piece parts (literal first (by simp)) nonempty more
  subst empty
  cases parts with
  | nil => simp [woven, weave] at more
  | cons part others =>
    obtain ⟨gap, piece⟩ := part
    refine ⟨⟨(star :: gap, piece) :: others, own, by simp [woven, weave], ?_⟩, literal, maximal⟩
    intro part member
    rcases List.mem_cons.mp member with rfl | later
    · have stars := (runs (gap, piece) (by simp)).2
      simpa using stars
    · exact runs part (by simp [later])

/-- A run of its own, before a pattern that does not start with one. -/
theorem cons_star (of : PiecesOf star pattern first pieces) (fresh : pattern.head? ≠ some star) :
    PiecesOf star (star :: pattern) [] (first :: pieces) := by
  obtain ⟨⟨parts, own, woven, runs⟩, literal, maximal⟩ := of
  refine ⟨⟨([star], first) :: parts, by simp [own], by simp [woven, weave], ?_⟩, ?_, ?_⟩
  · intro part member
    rcases List.mem_cons.mp member with rfl | later
    · simp
    · exact runs part later
  · intro piece member
    rcases List.mem_cons.mp member with rfl | later
    · simp
    · exact literal piece later
  · intro piece member empty
    cases pieces with
    | nil => simp at member
    | cons other others =>
      rw [List.dropLast_cons_cons] at member
      rcases List.mem_cons.mp member with rfl | later
      · -- An empty piece before another run would have been part of this run.
        rw [woven, empty] at fresh
        exact fresh (head_of_empty_piece runs (by rintro rfl; simp at own))
      · exact maximal piece later empty

end PiecesOf

end BrightCli.Lib.Glob
