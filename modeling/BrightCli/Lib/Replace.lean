import Mathlib.Data.List.Infix
import BrightCli.Lib.Text

/-!
# Replacing all occurrences

`text.split(needle).join(marker)` replaces the occurrences of a needle that are found
from the left and do not overlap. The marker is enclosed in two characters that occur
in no needle. Then a needle occurs after a replacement only where it has occurred
before (`infix_of_infix_replaceAll`), the one that was replaced occurs nowhere
(`not_infix_replaceAll`), and a replacement on both sides of a cut that no occurrence
crosses is a replacement in the whole (`replaceAll_append`).
-/
namespace BrightCli.Lib.Text

def replaceAll (marker needle text : List Char) : List Char :=
  List.intercalate marker (split needle text)

/-- The replacement where `skip` characters still belong to the last occurrence. -/
def replaceFrom (marker needle : List Char) (skip : Nat) (text : List Char) : List Char :=
  List.intercalate marker (splitFrom needle skip text)

def OccursAt (needle text : List Char) (i : Nat) : Prop := needle <+: text.drop i

/-- No occurrence of the needle lies across the cut between the two parts. -/
def Uncut (needle front back : List Char) : Prop :=
  ∀ i, OccursAt needle (front ++ back) i → i + needle.length ≤ front.length ∨ front.length ≤ i

/-- No occurrence of the needle overlaps the middle part. -/
def Clear (needle front text back : List Char) : Prop :=
  ∀ i, OccursAt needle (front ++ (text ++ back)) i →
    i + needle.length ≤ front.length ∨ front.length + text.length ≤ i

section
variable {needle : List Char}

theorem splitFrom_ne_nil (skip : Nat) (text : List Char) : splitFrom needle skip text ≠ [] := by
  induction text generalizing skip with
  | nil => cases skip <;> simp [splitFrom]
  | cons c rest ih =>
    cases skip with
    | succ skip => exact ih skip
    | zero =>
      rw [splitFrom]
      split
      · exact List.cons_ne_nil _ _
      · simpa using ih 0

/-- A character outside every occurrence goes to the first piece. -/
theorem splitFrom_cons_of_not {c : Char} {rest : List Char} (other : ¬ needle <+: c :: rest) :
    ∃ piece pieces, splitFrom needle 0 rest = piece :: pieces ∧
      splitFrom needle 0 (c :: rest) = (c :: piece) :: pieces := by
  have nonempty : splitFrom needle 0 rest ≠ [] := splitFrom_ne_nil 0 rest
  obtain ⟨piece, pieces, shape⟩ := List.exists_cons_of_ne_nil nonempty
  refine ⟨piece, pieces, shape, ?_⟩
  rw [splitFrom, if_neg (by rwa [List.isPrefixOf_iff_prefix]), shape]
  rfl

theorem splitFrom_cons_of_found {c : Char} {rest : List Char} (found : needle <+: c :: rest) :
    splitFrom needle 0 (c :: rest) = [] :: splitFrom needle (needle.length - 1) rest := by
  rw [splitFrom, if_pos (by rwa [List.isPrefixOf_iff_prefix])]

theorem prefix_of_splitFrom {text piece : List Char} {pieces : List (List Char)}
    (shape : splitFrom needle 0 text = piece :: pieces) : piece <+: text := by
  induction text generalizing piece pieces with
  | nil =>
    cases shape
    exact List.nil_prefix
  | cons c rest ih =>
    by_cases found : needle <+: c :: rest
    · rw [splitFrom_cons_of_found found] at shape
      cases shape
      exact List.nil_prefix
    · obtain ⟨first, others, shorter, longer⟩ := splitFrom_cons_of_not found
      rw [longer] at shape
      cases shape
      exact List.cons_prefix_cons.mpr ⟨rfl, ih shorter⟩

theorem infix_of_mem_splitFrom (skip : Nat) {text piece : List Char}
    (member : piece ∈ splitFrom needle skip text) : piece <:+: text := by
  induction text generalizing skip piece with
  | nil =>
    have empty : piece = [] := by cases skip <;> simpa [splitFrom] using member
    subst empty
    exact List.nil_infix
  | cons c rest ih =>
    cases skip with
    | succ skip => exact List.infix_cons (ih skip member)
    | zero =>
      by_cases found : needle <+: c :: rest
      · rw [splitFrom_cons_of_found found] at member
        rcases List.mem_cons.mp member with rfl | later
        · exact List.nil_infix
        · exact List.infix_cons (ih _ later)
      · obtain ⟨first, others, shorter, longer⟩ := splitFrom_cons_of_not found
        rw [longer] at member
        rcases List.mem_cons.mp member with rfl | later
        · have start := prefix_of_splitFrom shorter
          exact (List.cons_prefix_cons.mpr ⟨rfl, start⟩).isInfix
        · exact List.infix_cons (ih 0 (by simp [shorter, later]))

/-- The occurrences were found from the left, so the pieces have none. -/
theorem not_infix_of_mem_splitFrom (some_char : needle ≠ []) (skip : Nat) {text piece : List Char}
    (member : piece ∈ splitFrom needle skip text) : ¬ needle <:+: piece := by
  have not_nil : ¬ needle <:+: [] := by
    intro inside
    exact some_char (List.infix_nil.mp inside)
  induction text generalizing skip piece with
  | nil =>
    have empty : piece = [] := by cases skip <;> simpa [splitFrom] using member
    rwa [empty]
  | cons c rest ih =>
    cases skip with
    | succ skip => exact ih skip member
    | zero =>
      by_cases found : needle <+: c :: rest
      · rw [splitFrom_cons_of_found found] at member
        rcases List.mem_cons.mp member with rfl | later
        · exact not_nil
        · exact ih _ later
      · obtain ⟨first, others, shorter, longer⟩ := splitFrom_cons_of_not found
        rw [longer] at member
        rcases List.mem_cons.mp member with rfl | later
        · intro inside
          rcases List.infix_cons_iff.mp inside with start | tail
          · have whole : c :: first <+: c :: rest :=
              List.cons_prefix_cons.mpr ⟨rfl, prefix_of_splitFrom shorter⟩
            exact found (start.trans whole)
          · exact ih 0 (by simp [shorter]) tail
        · exact ih 0 (by simp [shorter, later])

end

section
variable {marker needle : List Char}

theorem replaceFrom_nil (skip : Nat) : replaceFrom marker needle skip [] = [] := by
  cases skip <;> rfl

theorem replaceFrom_of_found {c : Char} {rest : List Char} (found : needle <+: c :: rest) :
    replaceFrom marker needle 0 (c :: rest) =
      marker ++ replaceFrom marker needle (needle.length - 1) rest := by
  have nonempty : splitFrom needle (needle.length - 1) rest ≠ [] := splitFrom_ne_nil _ rest
  obtain ⟨piece, pieces, shape⟩ := List.exists_cons_of_ne_nil nonempty
  rw [replaceFrom, replaceFrom, splitFrom_cons_of_found found, shape, List.intercalate_cons_cons]
  rfl

theorem replaceFrom_of_not {c : Char} {rest : List Char} (other : ¬ needle <+: c :: rest) :
    replaceFrom marker needle 0 (c :: rest) = c :: replaceFrom marker needle 0 rest := by
  obtain ⟨piece, pieces, shorter, longer⟩ := splitFrom_cons_of_not other
  rw [replaceFrom, replaceFrom, shorter, longer]
  cases pieces with
  | nil => simp
  | cons next pieces => simp [List.intercalate_cons_cons]

theorem Uncut.tail {c : Char} {front back : List Char} (uncut : Uncut needle (c :: front) back) :
    Uncut needle front back := by
  intro i occurs
  have longer := uncut (i + 1) occurs
  simp only [List.length_cons] at longer
  omega

/-- The induction is on the part before the cut. -/
theorem replaceFrom_append (skip : Nat) {front : List Char} (back : List Char)
    (inside : skip ≤ front.length) (uncut : Uncut needle front back) :
    replaceFrom marker needle skip (front ++ back) =
      replaceFrom marker needle skip front ++ replaceFrom marker needle 0 back := by
  induction front generalizing skip with
  | nil =>
    cases Nat.le_zero.mp inside
    rfl
  | cons c front ih =>
    cases skip with
    | succ skip => exact ih skip (Nat.le_of_succ_le_succ inside) uncut.tail
    | zero =>
      rw [List.cons_append]
      by_cases found : needle <+: c :: (front ++ back)
      · -- The occurrence starts before the cut, so it ends there.
        have fits := uncut 0 found
        simp only [List.length_cons] at fits
        have start : needle <+: c :: front := by
          apply List.prefix_of_prefix_length_le found (List.prefix_append (c :: front) back)
          simp only [List.length_cons]
          omega
        rw [replaceFrom_of_found found, replaceFrom_of_found start, ih _ (by omega) uncut.tail,
          List.append_assoc]
      · have other : ¬ needle <+: c :: front := by
          intro start
          exact found (start.trans (List.prefix_append (c :: front) back))
        rw [replaceFrom_of_not found, replaceFrom_of_not other, ih 0 (Nat.zero_le _) uncut.tail]
        rfl

theorem replaceAll_append {front back : List Char} (uncut : Uncut needle front back) :
    replaceAll marker needle (front ++ back) =
      replaceAll marker needle front ++ replaceAll marker needle back :=
  replaceFrom_append 0 back (Nat.zero_le _) uncut

theorem replaceAll_of_absent {text : List Char} (absent : ¬ needle <:+: text) :
    replaceAll marker needle text = text := by
  induction text with
  | nil => rfl
  | cons c rest ih =>
    have other : ¬ needle <+: c :: rest := fun start => absent start.isInfix
    have later : ¬ needle <:+: rest := fun inside => absent (List.infix_cons inside)
    have kept : replaceFrom marker needle 0 rest = rest := ih later
    exact (replaceFrom_of_not other).trans (by rw [kept])

end

/-- What has no separator in it occurs on one side of the separator or not at all. -/
theorem infix_of_infix_append_cons {sep : Char} {needle front back : List Char}
    (free : sep ∉ needle) (found : needle <:+: front ++ sep :: back) :
    needle <:+: front ∨ needle <:+: back := by
  obtain ⟨piece, member, inside⟩ := infix_piece _ free found
  rw [List.splitOn_append_cons_self] at member
  rcases List.mem_append.mp member with left | right
  · exact .inl (inside.trans (infix_of_mem_splitOn front left))
  · exact .inr (inside.trans (infix_of_mem_splitOn back right))

/-- A marker that begins and ends with characters of its own. -/
def enclosed (opening closing : Char) (inner : List Char) : List Char :=
  opening :: (inner ++ [closing])

/-- A needle that neither touches the ends of the marker nor occurs between them. -/
structure Apart (opening closing : Char) (inner needle : List Char) : Prop where
  some_char : needle ≠ []
  no_opening : opening ∉ needle
  no_closing : closing ∉ needle
  not_inner : ¬ needle <:+: inner

section
variable {opening closing : Char} {inner needle other : List Char}

theorem enclosed_append (opening closing : Char) (inner back : List Char) :
    enclosed opening closing inner ++ back = opening :: (inner ++ closing :: back) := by
  simp [enclosed]

/-- An occurrence among joined pieces lies in one of them. -/
theorem infix_of_infix_intercalate (apart : Apart opening closing inner needle)
    (pieces : List (List Char))
    (found : needle <:+: List.intercalate (enclosed opening closing inner) pieces) :
    ∃ piece ∈ pieces, needle <:+: piece := by
  induction pieces with
  | nil => exact absurd (List.infix_nil.mp found) apart.some_char
  | cons piece pieces ih =>
    cases pieces with
    | nil => exact ⟨piece, List.mem_singleton_self _, by simpa using found⟩
    | cons next pieces =>
      rw [List.intercalate_cons_cons, List.append_assoc, enclosed_append] at found
      rcases infix_of_infix_append_cons apart.no_opening found with own | behind
      · exact ⟨piece, List.mem_cons_self, own⟩
      · rcases infix_of_infix_append_cons apart.no_closing behind with marked | later
        · exact absurd marked apart.not_inner
        · obtain ⟨holder, member, inside⟩ := ih later
          exact ⟨holder, List.mem_cons_of_mem _ member, inside⟩

/-- A replacement brings no new occurrence about. -/
theorem infix_of_infix_replaceAll (apart : Apart opening closing inner other) {text : List Char}
    (found : other <:+: replaceAll (enclosed opening closing inner) needle text) :
    other <:+: text := by
  obtain ⟨piece, member, inside⟩ := infix_of_infix_intercalate apart _ found
  exact inside.trans (infix_of_mem_splitFrom 0 member)

theorem not_infix_replaceAll (apart : Apart opening closing inner needle) (text : List Char) :
    ¬ needle <:+: replaceAll (enclosed opening closing inner) needle text := by
  intro found
  obtain ⟨piece, member, inside⟩ := infix_of_infix_intercalate apart _ found
  exact not_infix_of_mem_splitFrom apart.some_char 0 member inside

/-- The end of a replacement is an end of the text, behind the last marker. -/
theorem replaceFrom_end (skip : Nat) (text : List Char) :
    ∃ marked cut kept, replaceFrom (enclosed opening closing inner) needle skip text =
        marked ++ kept ∧ text = cut ++ kept ∧
      (marked.getLast? = some closing ∨ marked = [] ∧ cut.length ≤ skip) := by
  induction text generalizing skip with
  | nil => exact ⟨[], [], [], replaceFrom_nil skip, rfl, .inr ⟨rfl, Nat.zero_le _⟩⟩
  | cons c rest ih =>
    cases skip with
    | succ skip =>
      obtain ⟨marked, cut, kept, shape, split, last⟩ := ih skip
      refine ⟨marked, c :: cut, kept, shape, by simp [split], last.imp_right ?_⟩
      intro both
      exact ⟨both.1, Nat.succ_le_succ both.2⟩
    | zero =>
      by_cases found : needle <+: c :: rest
      · obtain ⟨marked, cut, kept, shape, split, last⟩ := ih (needle.length - 1)
        refine ⟨enclosed opening closing inner ++ marked, c :: cut, kept, ?_, by simp [split],
          .inl ?_⟩
        · rw [replaceFrom_of_found found, shape, List.append_assoc]
        · rw [List.getLast?_append]
          rcases last with ends | both
          · rw [ends]
            rfl
          · rw [both.1]
            simp [enclosed, List.getLast?_cons]
      · obtain ⟨marked, cut, kept, shape, split, last⟩ := ih 0
        rw [replaceFrom_of_not found, shape]
        rcases last with ends | both
        · refine ⟨c :: marked, c :: cut, kept, rfl, by simp [split], .inl ?_⟩
          rw [List.getLast?_cons, ends]
          rfl
        · have uncut : cut = [] := List.length_eq_zero_iff.mp (Nat.le_zero.mp both.2)
          exact ⟨[], [], c :: kept, by simp [both.1], by simp [split, uncut],
            .inr ⟨rfl, Nat.le_refl 0⟩⟩

/-- The start of a replacement is a start of the text, before the first marker. -/
theorem replaceAll_start (text : List Char) :
    ∃ kept marked cut, replaceAll (enclosed opening closing inner) needle text = kept ++ marked ∧
      text = kept ++ cut ∧ (marked.head? = some opening ∨ marked = []) := by
  induction text with
  | nil => exact ⟨[], [], [], rfl, rfl, .inr rfl⟩
  | cons c rest ih =>
    by_cases found : needle <+: c :: rest
    · exact ⟨[], _, c :: rest, replaceFrom_of_found found, rfl, .inl rfl⟩
    · obtain ⟨kept, marked, cut, shape, split, start⟩ := ih
      refine ⟨c :: kept, marked, cut, ?_, by simp [split], start⟩
      exact (replaceFrom_of_not found).trans (congrArg (c :: ·) shape)

/-- An occurrence contains what stands between its ends. -/
theorem mem_of_occursAt {text : List Char} {c : Char} {i j : Nat} (occurs : OccursAt needle text i)
    (there : text[j]? = some c) (start : i ≤ j) (stop : j < i + needle.length) : c ∈ needle := by
  obtain ⟨rest, shape⟩ := occurs
  have behind : (text.drop i)[j - i]? = some c := by
    rw [List.getElem?_drop, Nat.add_sub_cancel' start]
    exact there
  rw [← shape, List.getElem?_append_left (by omega)] at behind
  exact List.mem_of_getElem? behind

/-- What stands before does not matter to an occurrence behind it. -/
theorem occursAt_append_left (front : List Char) {back : List Char} {i : Nat} :
    OccursAt needle (front ++ back) (front.length + i) ↔ OccursAt needle back i := by
  unfold OccursAt
  rw [List.drop_length_add_append]

/-- What stands behind does not matter to an occurrence that ends before it. -/
theorem occursAt_append_right {front : List Char} (back : List Char) {i : Nat}
    (fits : i + needle.length ≤ front.length) :
    OccursAt needle (front ++ back) i ↔ OccursAt needle front i := by
  unfold OccursAt
  rw [List.drop_append_of_le_length (by omega)]
  constructor
  · intro found
    apply List.prefix_of_prefix_length_le found (List.prefix_append _ back)
    rw [List.length_drop]
    omega
  · intro found
    exact found.trans (List.prefix_append _ back)

theorem length_of_occursAt {text : List Char} {i : Nat} (some_char : needle ≠ [])
    (occurs : OccursAt needle text i) : i + needle.length ≤ text.length := by
  have positive := List.length_pos_of_ne_nil some_char
  have fits := List.IsPrefix.length_le occurs
  rw [List.length_drop] at fits
  omega

end

section
variable {needle front text back : List Char} (clear : Clear needle front text back)
include clear

theorem Clear.uncut_front : Uncut needle front (text ++ back) := by
  intro i occurs
  have apart := clear i occurs
  omega

theorem Clear.behind (some_char : needle ≠ []) {i : Nat} (occurs : OccursAt needle (text ++ back) i) :
    text.length ≤ i := by
  have positive := List.length_pos_of_ne_nil some_char
  have apart := clear _ ((occursAt_append_left front).mpr occurs)
  omega

theorem Clear.uncut_back (some_char : needle ≠ []) : Uncut needle text back := by
  intro i occurs
  exact .inr (clear.behind some_char occurs)

theorem Clear.absent (some_char : needle ≠ []) : ¬ needle <:+: text := by
  rintro ⟨before, after, shape⟩
  have positive := List.length_pos_of_ne_nil some_char
  have occurs : OccursAt needle (text ++ back) before.length := by
    unfold OccursAt
    rw [← shape, List.append_assoc, List.append_assoc, List.drop_left]
    exact List.prefix_append _ _
  have beyond := clear.behind some_char occurs
  rw [← shape] at beyond
  simp only [List.length_append] at beyond
  omega

/-- A replacement leaves the part that no occurrence overlaps. -/
theorem Clear.replaceAll_eq (some_char : needle ≠ []) (marker : List Char) :
    replaceAll marker needle (front ++ (text ++ back)) =
      replaceAll marker needle front ++ (text ++ replaceAll marker needle back) := by
  rw [replaceAll_append clear.uncut_front, replaceAll_append (clear.uncut_back some_char),
    replaceAll_of_absent (clear.absent some_char)]

end

/-- An occurrence that reaches behind a closing character it does not have starts there. -/
theorem OccursAt.starts_behind {needle marked rest : List Char} {closing : Char} {i : Nat}
    (occurs : OccursAt needle (marked ++ rest) i) (free : closing ∉ needle)
    (last : marked.getLast? = some closing ∨ marked = [])
    (reaches : marked.length < i + needle.length) : marked.length ≤ i := by
  by_contra before
  rcases last with ends | none_marked
  · have there : (marked ++ rest)[marked.length - 1]? = some closing := by
      rw [List.getElem?_append_left (by omega), ← List.getLast?_eq_getElem?]
      exact ends
    exact free (mem_of_occursAt occurs there (by omega) (by omega))
  · rw [none_marked] at before
    exact before (Nat.zero_le i)

/-- An occurrence that starts before an opening character it does not have ends there. -/
theorem OccursAt.ends_before {needle front later : List Char} {opening : Char} {i : Nat}
    (occurs : OccursAt needle (front ++ later) i) (free : opening ∉ needle)
    (some_char : needle ≠ []) (first : later.head? = some opening ∨ later = [])
    (starts : i ≤ front.length) : i + needle.length ≤ front.length := by
  by_contra beyond
  rcases first with begins | none_marked
  · have there : (front ++ later)[front.length]? = some opening := by
      rw [List.getElem?_append_right (Nat.le_refl _), Nat.sub_self, ← List.head?_eq_getElem?]
      exact begins
    exact free (mem_of_occursAt occurs there starts (by omega))
  · rw [none_marked, List.append_nil] at occurs
    exact beyond (length_of_occursAt some_char occurs)

/-- A replacement around a part brings no occurrence that overlaps it about: such an
occurrence reaches neither of the markers next to the part, so it lies in the text. -/
theorem clear_replaceAll {opening closing : Char} {inner needle other front text back : List Char}
    (apart : Apart opening closing inner other) (clear : Clear other front text back) :
    Clear other (replaceAll (enclosed opening closing inner) needle front) text
      (replaceAll (enclosed opening closing inner) needle back) := by
  obtain ⟨marked, cut, kept, frontShape, frontSplit, last⟩ :
    ∃ marked cut kept, replaceAll (enclosed opening closing inner) needle front = marked ++ kept ∧
      front = cut ++ kept ∧ (marked.getLast? = some closing ∨ marked = [] ∧ cut.length ≤ 0) :=
    replaceFrom_end 0 front
  obtain ⟨start, later, dropped, backShape, backSplit, first⟩ :
    ∃ start later dropped, replaceAll (enclosed opening closing inner) needle back =
      start ++ later ∧ back = start ++ dropped ∧ (later.head? = some opening ∨ later = []) :=
    replaceAll_start back
  intro i occurs
  rw [frontShape, backShape] at occurs
  rw [frontShape, List.length_append]
  by_contra overlaps
  have whole : marked ++ kept ++ (text ++ (start ++ later)) =
      marked ++ ((kept ++ (text ++ start)) ++ later) := by simp
  have lengths : (kept ++ (text ++ start)).length =
      kept.length + (text.length + start.length) := by simp
  rw [whole] at occurs
  have behind := occurs.starts_behind apart.no_closing (last.imp_right And.left) (by omega)
  obtain ⟨j, rfl⟩ := Nat.exists_eq_add_of_le behind
  rw [occursAt_append_left] at occurs
  have inside := occurs.ends_before apart.no_opening apart.some_char first (by omega)
  rw [occursAt_append_right _ inside] at occurs
  -- The same occurrence in the text before the replacement.
  have original : OccursAt other (front ++ (text ++ back)) (cut.length + j) := by
    have shape : front ++ (text ++ back) = cut ++ ((kept ++ (text ++ start)) ++ dropped) := by
      rw [frontSplit, backSplit]
      simp
    rw [shape, occursAt_append_left, occursAt_append_right _ inside]
    exact occurs
  have sides := clear _ original
  rw [frontSplit, List.length_append] at sides
  omega

end BrightCli.Lib.Text
