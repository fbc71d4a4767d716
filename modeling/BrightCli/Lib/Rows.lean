import Mathlib.Data.List.DropRight
import BrightCli.Lib.Text

/-!
# Rows

The rows of a text are its lines that are not empty. Where a text is put together
from pieces, every row begins with a character that begins a row of some piece.
-/
namespace BrightCli.Lib.Rows

def rows (text : List Char) : List (List Char) := (text.splitOn '\n').filter (· ≠ [])

/-- The characters with which the rows begin, of a text that begins a line or goes on
with one. -/
def starts : Bool → List Char → List Char
  | _, [] => []
  | fresh, c :: rest =>
    if c = '\n' then starts true rest
    else if fresh then c :: starts false rest
    else starts false rest

example : starts true "ab\n\ncd".toList = ['a', 'c'] := by decide

@[simp] theorem starts_newline (fresh : Bool) (rest : List Char) :
    starts fresh ('\n' :: rest) = starts true rest := if_pos rfl

theorem starts_fresh {c : Char} (printed : c ≠ '\n') (rest : List Char) :
    starts true (c :: rest) = c :: starts false rest := by
  simp [starts, printed]

theorem starts_within {c : Char} (printed : c ≠ '\n') (rest : List Char) :
    starts false (c :: rest) = starts false rest := by
  simp [starts, printed]

/-- The first piece of the text is the end of a line that has begun before it, unless
the text is fresh. -/
theorem heads_splitOn (text : List Char) :
    ((text.splitOn '\n').tail.filter (· ≠ [])).map List.head? = (starts false text).map some ∧
      (rows text).map List.head? = (starts true text).map some := by
  induction text with
  | nil => simp [rows, starts, List.splitOn_nil]
  | cons c rest ih =>
    obtain ⟨within, fresh⟩ := ih
    by_cases newline : c = '\n'
    · subst newline
      rw [starts_newline, starts_newline, rows, Text.splitOn_cons_self]
      exact ⟨fresh, by simpa [rows] using fresh⟩
    · obtain ⟨piece, pieces, shape, longer⟩ := Text.splitOn_cons_of_ne newline rest
      rw [shape] at within
      rw [starts_within newline, starts_fresh newline, rows, longer]
      refine ⟨within, ?_⟩
      simpa using within

theorem heads_rows (text : List Char) :
    (rows text).map List.head? = (starts true text).map some := (heads_splitOn text).2

theorem mem_of_mem_starts {fresh : Bool} {text : List Char} {c : Char}
    (member : c ∈ starts fresh text) : c ∈ text := by
  induction text generalizing fresh with
  | nil => simp [starts] at member
  | cons first rest ih =>
    by_cases newline : first = '\n'
    · subst newline
      rw [starts_newline] at member
      exact List.mem_cons_of_mem _ (ih member)
    · cases fresh with
      | false =>
        rw [starts_within newline] at member
        exact List.mem_cons_of_mem _ (ih member)
      | true =>
        rw [starts_fresh newline] at member
        rcases List.mem_cons.mp member with rfl | later
        · exact List.mem_cons_self
        · exact List.mem_cons_of_mem _ (ih later)

theorem starts_false_sublist (text : List Char) :
    (starts false text).Sublist (starts true text) := by
  cases text with
  | nil => exact List.Sublist.refl _
  | cons c rest =>
    by_cases newline : c = '\n'
    · simp [newline]
    · rw [starts_within newline, starts_fresh newline]
      exact List.sublist_cons_self c _

theorem starts_append (fresh : Bool) (front back : List Char) :
    ∃ again, starts fresh (front ++ back) = starts fresh front ++ starts again back ∧
      (starts true front = [] → fresh = true → again = true) := by
  induction front generalizing fresh with
  | nil => exact ⟨fresh, rfl, fun _ is_fresh => is_fresh⟩
  | cons c rest ih =>
    by_cases newline : c = '\n'
    · subst newline
      obtain ⟨again, whole, kept⟩ := ih true
      refine ⟨again, by simpa using whole, fun empty _ => kept (by simpa using empty) rfl⟩
    · obtain ⟨again, whole, kept⟩ := ih false
      refine ⟨again, ?_, fun empty => by simp [starts_fresh newline] at empty⟩
      cases fresh with
      | false => rw [List.cons_append, starts_within newline, starts_within newline, whole]
      | true => rw [List.cons_append, starts_fresh newline, starts_fresh newline, whole, List.cons_append]

theorem mem_starts_append {front back : List Char} {c : Char}
    (member : c ∈ starts true (front ++ back)) : c ∈ starts true front ∨ c ∈ starts true back := by
  obtain ⟨again, whole, -⟩ := starts_append true front back
  rw [whole, List.mem_append] at member
  refine member.imp_right fun later => ?_
  cases again with
  | false => exact (starts_false_sublist back).subset later
  | true => exact later

/-- The first row of two texts in a row is the first that either of them has. -/
theorem head_starts_append (front back : List Char) :
    (starts true (front ++ back)).head? = (starts true front ++ starts true back).head? := by
  obtain ⟨again, whole, kept⟩ := starts_append true front back
  rw [whole]
  cases empty : starts true front with
  | nil =>
    rw [kept empty rfl]
  | cons c rest => rfl

/-- What stands before a place on the same line. -/
def lineBefore (front : List Char) : List Char := front.rtakeWhile (· ≠ '\n')

theorem newline_not_mem_lineBefore (front : List Char) : '\n' ∉ lineBefore front := by
  intro member
  have printed := List.mem_rtakeWhile_imp member
  simp at printed

theorem last_piece (front : List Char) {line : List Char} (free : '\n' ∉ line) :
    ∃ pieces, (front ++ line).splitOn '\n' = pieces ++ [lineBefore front ++ line] := by
  have parts : front.rdropWhile (· ≠ '\n') ++ lineBefore front = front :=
    List.rdropWhile_append_rtakeWhile
  have single : (lineBefore front ++ line).splitOn '\n' = [lineBefore front ++ line] := by
    apply List.splitOn_eq_singleton
    simp [newline_not_mem_lineBefore, free]
  rcases List.eq_nil_or_concat (front.rdropWhile (· ≠ '\n')) with none_left | ⟨others, last, shape⟩
  · rw [none_left, List.nil_append] at parts
    refine ⟨[], ?_⟩
    rw [parts] at single ⊢
    exact single
  · rw [List.concat_eq_append] at shape
    have some_left : front.rdropWhile (· ≠ '\n') ≠ [] := by
      rw [shape]
      simp
    have newline : last = '\n' := by
      have not_printed := List.rdropWhile_last_not (· ≠ '\n') front some_left
      simpa only [shape, List.getLast_append_singleton, decide_eq_true_eq, not_not] using not_printed
    refine ⟨others.splitOn '\n', ?_⟩
    conv_lhs => rw [← parts, shape, newline]
    rw [List.append_assoc, List.append_assoc, List.singleton_append, List.splitOn_append_cons_self,
      single]

/-- A line inside a text is the end of a row. -/
theorem rows_cut (front : List Char) {line : List Char} (free : '\n' ∉ line) (some_char : line ≠ [])
    (back : List Char) :
    ∃ before, rows (front ++ (line ++ '\n' :: back)) =
      before ++ (lineBefore front ++ line) :: rows back := by
  obtain ⟨pieces, shape⟩ := last_piece front free
  refine ⟨pieces.filter (· ≠ []), ?_⟩
  rw [rows, ← List.append_assoc, List.splitOn_append_cons_self, shape]
  simp [rows, some_char]

end BrightCli.Lib.Rows
