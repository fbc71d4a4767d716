import Mathlib.Algebra.GroupWithZero.Nat
import Mathlib.Data.List.Basic

/-!
# Text

Texts are lists of characters. `split` is `String.prototype.split` by a separator
of any positive length: occurrences are taken from the left and do not overlap.
Splitting by one character is `List.splitOn`.
-/
namespace BrightCli.Lib.Text

/-- Length of a string in the code units JavaScript counts. -/
def utf16Length (text : List Char) : Nat :=
  (text.map fun c => if c.toNat < 0x10000 then 1 else 2).sum

/-- The pieces of a text; `skip` characters still belong to the separator that
was found last. -/
def splitFrom (separator : List Char) : Nat → List Char → List (List Char)
  | _, [] => [[]]
  | skip + 1, _ :: rest => splitFrom separator skip rest
  | 0, c :: rest =>
    if separator.isPrefixOf (c :: rest) then
      [] :: splitFrom separator (separator.length - 1) rest
    else (splitFrom separator 0 rest).modifyHead (c :: ·)

def split (separator text : List Char) : List (List Char) := splitFrom separator 0 text

example : split "ab".toList "xababy".toList = ["x".toList, [], "y".toList] := by decide

section Literals
variable {c : Char}

-- A literal is the string of its characters by definition, which is much faster to
-- find out than to decode it.

theorem mem_literal {chars : List Char} (own : c ∈ chars) : c ∈ (String.ofList chars).toList := by
  rwa [String.toList_ofList]

theorem not_mem_literal {chars : List Char} (absent : c ∉ chars) :
    c ∉ (String.ofList chars).toList := by
  rwa [String.toList_ofList]

theorem length_literal_le {chars : List Char} {n : Nat} (few : chars.length ≤ n) :
    (String.ofList chars).length ≤ n := by
  rwa [String.length_ofList]

theorem length_append_le {front back : String} {m n : Nat} (first : front.length ≤ m)
    (second : back.length ≤ n) : (front ++ back).length ≤ m + n := by
  rw [String.length_append]
  omega

theorem not_mem_append {front back : String} (first : c ∉ front.toList) (second : c ∉ back.toList) :
    c ∉ (front ++ back).toList := by
  rw [String.toList_append, List.mem_append, not_or]
  exact ⟨first, second⟩

end Literals

/-- What starts with a character that is missing in front is found behind it. -/
theorem infix_behind {α : Type} {x : α} {needle front back : List α} (absent : x ∉ front)
    (inside : x :: needle <:+: front ++ back) : x :: needle <:+: back := by
  induction front with
  | nil => exact inside
  | cons first rest ih =>
    rw [List.mem_cons, not_or] at absent
    rw [List.cons_append, List.infix_cons_iff] at inside
    rcases inside with start | later
    · exact absurd (List.cons_prefix_cons.mp start).1 absent.1
    · exact ih absent.2 later

section Pieces
variable {α : Type} [DecidableEq α] {sep : α}

theorem splitOn_cons_of_ne {x : α} (different : x ≠ sep) (xs : List α) :
    ∃ piece pieces, xs.splitOn sep = piece :: pieces ∧
      (x :: xs).splitOn sep = (x :: piece) :: pieces := by
  obtain ⟨piece, pieces, shape⟩ := List.exists_cons_of_ne_nil (List.splitOn_ne_nil sep xs)
  refine ⟨piece, pieces, shape, ?_⟩
  rw [List.splitOn_cons_eq_if_modifyHead, if_neg (by simpa using different), shape]
  rfl

theorem splitOn_cons_self (xs : List α) : (sep :: xs).splitOn sep = [] :: xs.splitOn sep := by
  rw [List.splitOn_cons_eq_if_modifyHead, if_pos (by simp)]

theorem not_mem_of_mem_splitOn {piece : List α} (xs : List α) (member : piece ∈ xs.splitOn sep) :
    sep ∉ piece := by
  induction xs generalizing piece with
  | nil => simp_all [List.splitOn_nil]
  | cons x xs ih =>
    by_cases same : x = sep
    · rw [same, splitOn_cons_self] at member
      rcases List.mem_cons.mp member with rfl | later
      · simp
      · exact ih later
    · obtain ⟨first, pieces, shape, longer⟩ := splitOn_cons_of_ne same xs
      rw [longer] at member
      rcases List.mem_cons.mp member with rfl | later
      · have free : sep ∉ first := ih (by simp [shape])
        simp [Ne.symm same, free]
      · exact ih (by simp [shape, later])

theorem flatten_splitOn (xs : List α) : (xs.splitOn sep).flatten = xs.filter (· ≠ sep) := by
  induction xs with
  | nil => simp [List.splitOn_nil]
  | cons x xs ih =>
    by_cases same : x = sep
    · rw [same, splitOn_cons_self, List.flatten_cons, ih]
      simp
    · obtain ⟨first, pieces, shape, longer⟩ := splitOn_cons_of_ne same xs
      rw [shape] at ih
      rw [longer, List.flatten_cons, List.cons_append, ← List.flatten_cons, ih]
      simp [same]

theorem prefix_of_first_piece {piece : List α} {pieces : List (List α)} (xs : List α)
    (shape : xs.splitOn sep = piece :: pieces) : piece <+: xs := by
  induction xs generalizing piece pieces with
  | nil =>
    cases shape
    exact List.nil_prefix
  | cons x xs ih =>
    by_cases same : x = sep
    · rw [same, splitOn_cons_self] at shape
      cases shape
      exact List.nil_prefix
    · obtain ⟨first, more, shorter, longer⟩ := splitOn_cons_of_ne same xs
      rw [longer] at shape
      cases shape
      exact List.cons_prefix_cons.mpr ⟨rfl, ih shorter⟩

theorem infix_of_mem_splitOn {piece : List α} (xs : List α) (member : piece ∈ xs.splitOn sep) :
    piece <:+: xs := by
  induction xs with
  | nil => simp_all [List.splitOn_nil]
  | cons x xs ih =>
    obtain ⟨first, pieces, shape⟩ := List.exists_cons_of_ne_nil (List.splitOn_ne_nil sep (x :: xs))
    rw [shape] at member
    rcases List.mem_cons.mp member with rfl | later
    · exact (prefix_of_first_piece _ shape).isInfix
    · refine List.infix_cons (ih ?_)
      by_cases same : x = sep
      · rw [same, splitOn_cons_self] at shape
        cases shape
        exact later
      · obtain ⟨start, more, shorter, longer⟩ := splitOn_cons_of_ne same xs
        rw [longer] at shape
        cases shape
        simp [shorter, later]

/-- What has no separator in it starts in the first piece or not at all. -/
theorem prefix_first_piece {needle piece : List α} {pieces : List (List α)} (xs : List α)
    (free : sep ∉ needle) (shape : xs.splitOn sep = piece :: pieces) (found : needle <+: xs) :
    needle <+: piece := by
  induction xs generalizing needle piece pieces with
  | nil =>
    rw [List.prefix_nil.mp found]
    exact List.nil_prefix
  | cons x xs ih =>
    cases needle with
    | nil => exact List.nil_prefix
    | cons c needle =>
      obtain ⟨rfl, tail⟩ := List.cons_prefix_cons.mp found
      have different : c ≠ sep := fun same => free (by simp [same])
      obtain ⟨first, more, shorter, longer⟩ := splitOn_cons_of_ne different xs
      rw [longer] at shape
      cases shape
      exact List.cons_prefix_cons.mpr ⟨rfl, ih (fun member => free (by simp [member])) shorter tail⟩

/-- What has no separator in it occurs inside a piece or not at all. -/
theorem infix_piece {needle : List α} (xs : List α) (free : sep ∉ needle) (found : needle <:+: xs) :
    ∃ piece ∈ xs.splitOn sep, needle <:+: piece := by
  induction xs with
  | nil =>
    rw [List.infix_nil.mp found]
    exact ⟨[], by simp [List.splitOn_nil], List.infix_refl _⟩
  | cons x xs ih =>
    rcases List.infix_cons_iff.mp found with start | later
    · obtain ⟨piece, pieces, shape⟩ :=
        List.exists_cons_of_ne_nil (List.splitOn_ne_nil sep (x :: xs))
      exact ⟨piece, by simp [shape], (prefix_first_piece _ free shape start).isInfix⟩
    · obtain ⟨piece, member, inside⟩ := ih later
      by_cases same : x = sep
      · exact ⟨piece, by rw [same, splitOn_cons_self]; simp [member], inside⟩
      · obtain ⟨first, pieces, shape, longer⟩ := splitOn_cons_of_ne same xs
        rw [shape] at member
        rcases List.mem_cons.mp member with rfl | other
        · exact ⟨x :: piece, by simp [longer], List.infix_cons inside⟩
        · exact ⟨piece, by simp [longer, other], inside⟩

/-- Joining separator-free pieces uses the separator once between any two. -/
theorem count_intercalate (pieces : List (List α)) (free : ∀ piece ∈ pieces, sep ∉ piece) :
    (List.intercalate [sep] pieces).count sep = pieces.length - 1 := by
  induction pieces with
  | nil => simp
  | cons piece pieces ih =>
    have own : piece.count sep = 0 := List.count_eq_zero.mpr (free piece (by simp))
    cases pieces with
    | nil => simp [own]
    | cons next pieces =>
      have rest := ih fun other member => free other (by simp [member])
      rw [List.intercalate_cons_cons, List.count_append, List.count_append, rest, own]
      simp only [List.count_singleton_self, List.length_cons]
      omega

end Pieces

end BrightCli.Lib.Text
