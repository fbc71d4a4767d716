import Mathlib.Data.List.Count
import BrightCli.Guarantees.PingDialogue
import BrightCli.Lib.Rows

/-!
# The report of a ping

Which lines the parent collects depends on the chunks: where several writes of the
child come in one chunk, the announcements of other probes stand before a result on
the same line. A result is kept all the same. It ends its row, the row after it is
not the bare control code, because that follows an announcement, and the row does
not begin with the question, because the question ended its chunk.
-/
namespace BrightCli.Guarantees.PingReport
open BrightCli.Lib BrightCli.Lib.Rows BrightCli.Source BrightCli.Source.NetworkTest
open BrightCli.Source.Wizard BrightCli.Source.NetworkTest.ReadlinePlatform
open BrightCli.Source.Repeater BrightCli.Guarantees.PingDialogue

def escape : Char := '\x1b'

theorem linesOf_eq (text : String) : linesOf text = (rows text.toList).map String.ofList := by
  unfold linesOf rows
  rw [List.filter_map]
  congr 1
  apply List.filter_congr
  intro row _
  simp [List.length_pos_iff]

/-! ## The texts -/

/-- The rows of a text begin neither as a question nor with a control code. -/
def Plain (text : List Char) : Prop :=
  (starts true text).all (fun c => c ≠ 'P' && c ≠ escape) = true

instance (text : List Char) : Decidable (Plain text) := inferInstanceAs (Decidable (_ = true))

theorem plain_literal {chars : List Char} (plain : Plain chars) :
    Plain (String.ofList chars).toList := by
  rwa [String.toList_ofList]

theorem plain_append {front back : String} (first : Plain front.toList) (second : Plain back.toList) :
    Plain (front ++ back).toList := by
  rw [String.toList_append]
  refine List.all_eq_true.mpr fun c member => ?_
  rcases mem_starts_append member with own | other
  · exact List.all_eq_true.mp first c own
  · exact List.all_eq_true.mp second c other

theorem plain_eol (eol : Eol) : Plain eol.text.toList := by
  cases eol with
  | posix => exact plain_literal (by decide)
  | windows => exact plain_literal (by decide)

/-- A text on one line begins one row. -/
theorem starts_line {line : List Char} (free : '\n' ∉ line) : starts false line = [] := by
  induction line with
  | nil => rfl
  | cons c rest ih =>
    rw [List.mem_cons, not_or] at free
    rw [starts_within (Ne.symm free.1), ih free.2]

theorem number_char {c : Char} {n : Nat} (member : c ∈ (toString n).toList) : c.isDigit = true := by
  rw [Nat.toString_eq_repr, Nat.toList_repr] at member
  exact Nat.isDigit_of_mem_toDigits (by decide) (by decide) member

theorem integer_char {c : Char} {n : Int} (member : c ∈ (toString n).toList) :
    c = '-' ∨ c.isDigit = true := by
  cases n with
  | ofNat n => exact Or.inr (number_char member)
  | negSucc n =>
    change c ∈ ("-" ++ Nat.repr (n + 1)).toList at member
    rw [String.toList_append, List.mem_append] at member
    rcases member with sign | digit
    · exact Or.inl (by simpa using sign)
    · exact Or.inr (number_char digit)

theorem plain_of_chars {text : List Char} (chars : ∀ c ∈ text, c ≠ 'P' ∧ c ≠ escape) : Plain text := by
  refine List.all_eq_true.mpr fun c member => ?_
  have other := chars c (mem_of_mem_starts member)
  simp [other]

theorem not_digit {c : Char} (digit : c.isDigit = true) : c ≠ 'P' ∧ c ≠ escape ∧ c ≠ '\n' := by
  refine ⟨?_, ?_, ?_⟩ <;>
  · rintro rfl
    revert digit
    decide

theorem integer_plain {c : Char} {n : Int} (member : c ∈ (toString n).toList) :
    c ≠ 'P' ∧ c ≠ escape ∧ c ≠ '\n' := by
  rcases integer_char member with rfl | digit
  · decide
  · exact not_digit digit

theorem plain_summaryText (unreached : Int) (total : Nat) :
    Plain (Print.summaryText unreached total).toList := by
  have first : Plain (toString unreached).toList :=
    plain_of_chars fun c member => ⟨(integer_plain member).1, (integer_plain member).2.1⟩
  have second : Plain (toString total).toList :=
    plain_of_chars fun c member =>
      ⟨(not_digit (number_char member)).1, (not_digit (number_char member)).2.1⟩
  exact plain_append (plain_append (plain_append first (plain_literal (by decide))) second)
    (plain_literal (by decide))

section
variable {eol : Eol} {input : List String}

/-- URLs on one line each. -/
def OneLine (input : List String) : Prop := ∀ url ∈ input, '\n' ∉ url.toList

theorem oneLine_of_plain (plain : ∀ url ∈ input, ∀ c ∈ url.toList, PingUrls.separates c = false) :
    OneLine input := by
  intro url listed member
  have separates := plain url listed '\n' member
  revert separates
  decide

theorem newline_not_mem_tryingText {url : String} (free : '\n' ∉ url.toList) :
    '\n' ∉ (Wizard.ReadlinePlatform.tryingText url).toList :=
  Text.not_mem_append (Text.not_mem_literal (by decide)) free

theorem newline_not_mem_resultText {url : String} (free : '\n' ∉ url.toList) (result : Bool) :
    '\n' ∉ (Print.resultText url result).toList := by
  refine Text.not_mem_append (Text.not_mem_append (newline_not_mem_tryingText free)
    (Text.not_mem_literal (by decide))) ?_
  cases result with
  | true => exact Text.not_mem_literal (by decide)
  | false => exact Text.not_mem_literal (by decide)

theorem newline_not_mem_summaryText (unreached : Int) (total : Nat) :
    '\n' ∉ (Print.summaryText unreached total).toList := by
  have first : '\n' ∉ (toString unreached).toList := fun member => (integer_plain member).2.2 rfl
  have second : '\n' ∉ (toString total).toList :=
    fun member => (not_digit (number_char member)).2.2 rfl
  exact Text.not_mem_append (Text.not_mem_append (Text.not_mem_append first
    (Text.not_mem_literal (by decide))) second) (Text.not_mem_literal (by decide))

theorem tryingText_shape (url : String) :
    ∃ rest, (Wizard.ReadlinePlatform.tryingText url).toList = 'T' :: rest := by
  obtain ⟨rest, shape⟩ : ∃ rest, "Trying to reach ".toList = 'T' :: rest := ⟨_, String.toList_ofList⟩
  have whole : (Wizard.ReadlinePlatform.tryingText url).toList =
      "Trying to reach ".toList ++ url.toList := String.toList_append
  exact ⟨rest ++ url.toList, whole.trans (congrArg (· ++ url.toList) shape)⟩

/-- A text that begins as an announcement and stays on its line. -/
theorem plain_trying {url more : String}
    (free : '\n' ∉ (Wizard.ReadlinePlatform.tryingText url ++ more).toList) :
    Plain (Wizard.ReadlinePlatform.tryingText url ++ more).toList := by
  obtain ⟨rest, shape⟩ := tryingText_shape url
  rw [String.toList_append, shape, List.cons_append, List.mem_cons, not_or] at free
  rw [String.toList_append, shape, List.cons_append, Plain, starts_fresh (by decide),
    starts_line free.2]
  decide

theorem plain_resultText {url : String} (free : '\n' ∉ url.toList) (result : Bool) :
    Plain (Print.resultText url result).toList := by
  have shape : Print.resultText url result = Wizard.ReadlinePlatform.tryingText url ++
      ("... " ++ if result then "Success" else "Failed") := String.append_assoc
  have whole := newline_not_mem_resultText free result
  rw [shape] at whole ⊢
  exact plain_trying whole

/-- Every write but the question and the control code is plain. -/
theorem plain_text (oneLine : OneLine input) {print : Print} (belongs : Belongs input print)
    (other : print ≠ .cursor) : Plain (print.text eol).toList := by
  cases print with
  | introduction | question => cases belongs
  | cursor => exact absurd rfl other
  | delimiter =>
    exact plain_append (plain_append (plain_append (plain_eol eol) (plain_literal (by decide)))
      (plain_eol eol)) (plain_literal (by decide))
  | internalDiagnostic =>
    exact plain_append (plain_append (plain_literal (by decide)) (plain_eol eol))
      (plain_literal (by decide))
  | trying url =>
    exact plain_trying (Text.not_mem_append (newline_not_mem_tryingText (oneLine url belongs))
      (Text.not_mem_literal (by decide)))
  | tried url result =>
    exact plain_append (plain_resultText (oneLine url belongs) result) (plain_literal (by decide))
  | lineEnd => exact plain_eol eol
  | completed => exact plain_append (plain_literal (by decide)) (plain_literal (by decide))
  | summary unreached total =>
    exact plain_append (plain_summaryText unreached total) (plain_literal (by decide))
  | done => exact plain_append (plain_literal (by decide)) (plain_literal (by decide))

/-! ## The rows of the chunks -/

theorem chunkText_toList (chunk : List Print) :
    (chunkText eol chunk).toList = chunk.flatMap fun print => (print.text eol).toList := by
  induction chunk with
  | nil => rfl
  | cons print rest ih => rw [chunkText_cons, String.toList_append, ih, List.flatMap_cons]

/-- The rows of a chunk do not begin as a question. -/
theorem row_not_question (oneLine : OneLine input) {chunk : List Print}
    (belongs : ∀ print ∈ chunk, Belongs input print) {c : Char}
    (member : c ∈ starts true (chunkText eol chunk).toList) : c ≠ 'P' := by
  rw [chunkText_toList] at member
  induction chunk with
  | nil => simp [starts] at member
  | cons print rest ih =>
    rw [List.flatMap_cons] at member
    rcases mem_starts_append member with own | other
    · by_cases control : print = .cursor
      · subst control
        have only : starts true (Print.text eol .cursor).toList = ['\x1b'] := by
          change starts true (String.ofList ['\x1b', '[', '1', 'G']).toList = _
          rw [String.toList_ofList]
          decide
        rw [only, List.mem_singleton] at own
        subst own
        decide
      · have plain : Plain (print.text eol).toList :=
          plain_text oneLine (belongs print List.mem_cons_self) control
        have both := List.all_eq_true.mp plain c own
        simp only [Bool.and_eq_true, decide_eq_true_eq] at both
        exact both.1
    · exact ih (fun print inside => belongs print (List.mem_cons_of_mem _ inside)) other

theorem head_starts_flatMap {α : Type} (text : α → List Char) (parts : List α) :
    (starts true (parts.flatMap text)).head? = (parts.flatMap fun part => starts true (text part)).head? := by
  induction parts with
  | nil => rfl
  | cons part rest ih =>
    rw [List.flatMap_cons, List.flatMap_cons, head_starts_append, List.head?_append,
      List.head?_append, ih]

/-- What is printed next after anything but an announcement does not begin with the
control code. -/
theorem first_row_plain (oneLine : OneLine input) {before : Print} {rest : List Print}
    (chain : (before :: rest).IsChain Follows) (announced : ∀ url, before ≠ .trying url)
    (belongs : ∀ print ∈ rest, Belongs input print) :
    (starts true (chunkText eol rest).toList).head? ≠ some escape := by
  rw [chunkText_toList, head_starts_flatMap]
  induction rest generalizing before with
  | nil => simp
  | cons print rest ih =>
    rw [List.isChain_cons_cons] at chain
    have other : print ≠ .cursor := by
      rintro rfl
      obtain ⟨url, same⟩ := chain.1
      exact announced url same
    have plain : Plain (print.text eol).toList :=
      plain_text oneLine (belongs print List.mem_cons_self) other
    rw [List.flatMap_cons, List.head?_append]
    cases own : starts true (print.text eol).toList with
    | nil =>
      -- The write is a mere end of a line.
      refine ih chain.2 ?_ fun print inside => belongs print (List.mem_cons_of_mem _ inside)
      rintro url rfl
      obtain ⟨more, shape⟩ := tryingText_shape url
      have text : Print.text eol (.trying url) = Wizard.ReadlinePlatform.tryingText url ++ "..." := rfl
      rw [text, String.toList_append, shape, List.cons_append, starts_fresh (by decide)] at own
      cases own
    | cons c others =>
      rw [Plain, own, List.all_cons] at plain
      intro same
      cases same
      simp at plain

/-! ## What is kept -/

theorem mem_dropRetyped {before after : List String} {line : String}
    (own : endsWith line retype = false) (next : after.head? ≠ some retype) :
    line ∈ dropRetyped (before ++ line :: after) := by
  induction before with
  | nil => simp [dropRetyped, own, next]
  | cons first rest ih =>
    rw [List.cons_append, dropRetyped]
    split
    · exact ih
    · exact List.mem_cons_of_mem _ ih

/-- The lines of the report, as it is split again. -/
def reportLines (report : String) : List String := (report.toList.splitOn '\n').map String.ofList

theorem mem_reportLines {lines : List String} (free : ∀ line ∈ lines, '\n' ∉ line.toList)
    {line : String} (kept : line ∈ dropRetyped lines) (asks : startsWith line urlsQuestion = false) :
    line ∈ reportLines (processOutput lines) := by
  have listed : line ∈ (dropRetyped lines).filter fun x => !startsWith x urlsQuestion :=
    List.mem_filter.mpr ⟨kept, by simp [asks]⟩
  have pieces : (processOutput lines).toList.splitOn '\n' =
      ((dropRetyped lines).filter fun x => !startsWith x urlsQuestion).map String.toList := by
    rw [processOutput, String.toList_intercalate]
    refine List.splitOn_intercalate '\n' ?_ ?_
    · intro piece member
      obtain ⟨own, inside, rfl⟩ := List.mem_map.mp member
      exact free own ((ChunkIndependence.dropRetyped_sublist lines).subset (List.mem_filter.mp inside).1)
    · intro empty
      rw [List.map_eq_nil_iff] at empty
      rw [empty] at listed
      cases listed
  rw [reportLines, pieces, List.map_map]
  refine List.mem_map.mpr ⟨line, listed, ?_⟩
  simp

/-- What the parent has collected from these chunks. -/
def collected (eol : Eol) (chunks : List (List Print)) : List String :=
  chunks.flatMap fun chunk => linesOf (chunkText eol chunk)

theorem collected_free {chunks : List (List Print)} {line : String}
    (member : line ∈ collected eol chunks) : '\n' ∉ line.toList := by
  obtain ⟨chunk, -, inside⟩ := List.mem_flatMap.mp member
  rw [linesOf_eq] at inside
  obtain ⟨row, own, rfl⟩ := List.mem_map.mp inside
  rw [String.toList_ofList]
  exact Text.not_mem_of_mem_splitOn _ (List.mem_filter.mp own).1

theorem collected_append (front back : List (List Print)) :
    collected eol (front ++ back) = collected eol front ++ collected eol back :=
  List.flatMap_append

theorem chunkText_flatten (chunks : List (List Print)) :
    (chunkText eol chunks.flatten).toList =
      chunks.flatMap fun chunk => (chunkText eol chunk).toList := by
  induction chunks with
  | nil => rfl
  | cons chunk rest ih =>
    rw [List.flatten_cons, chunkText_append, String.toList_append, ih, List.flatMap_cons]

/-- The first line begins with what begins the first row of the whole text. -/
theorem head_collected (chunks : List (List Print)) {line : String}
    (first : (collected eol chunks).head? = some line) :
    line.toList.head? = (starts true (chunkText eol chunks.flatten).toList).head? := by
  have heads : ((collected eol chunks).map fun line => line.toList.head?) =
      (chunks.flatMap fun chunk => starts true (chunkText eol chunk).toList).map some := by
    rw [collected, List.map_flatMap, List.map_flatMap]
    congr 1
    funext chunk
    rw [linesOf_eq, List.map_map, ← heads_rows]
    exact List.map_congr_left fun row _ => by simp
  have same := congrArg List.head? heads
  rw [List.head?_map, first, Option.map_some, List.head?_map] at same
  rw [chunkText_flatten, head_starts_flatMap]
  obtain ⟨c, found, own⟩ := Option.map_eq_some_iff.mp same.symm
  rw [found, ← own]

theorem row_of_line (before after : List Print) {print : Print} {line : String}
    (text : print.text eol = line ++ "\n") (free : '\n' ∉ line.toList) (some_char : line.toList ≠ []) :
    ∃ front, rows (chunkText eol (before ++ print :: after)).toList =
      front ++ (lineBefore (chunkText eol before).toList ++ line.toList) ::
        rows (chunkText eol after).toList := by
  have newline : "\n".toList = ['\n'] := String.toList_ofList
  have whole : (chunkText eol (before ++ print :: after)).toList =
      (chunkText eol before).toList ++
        (line.toList ++ '\n' :: (chunkText eol after).toList) := by
    rw [chunkText_append, chunkText_cons, text, String.toList_append, String.toList_append,
      String.toList_append, newline, List.append_assoc, List.singleton_append]
  rw [whole]
  exact rows_cut _ free some_char _

theorem not_endsWith_retype {row : List Char} (front : List Char) {c : Char} (shape : row = front ++ [c])
    (other : c ≠ 'G') : endsWith (String.ofList row) retype = false := by
  have code : retype.toList = ['\x1b', '[', '1'] ++ ['G'] := String.toList_ofList
  simp only [endsWith, decide_eq_false_iff_not, String.toList_ofList, code, shape]
  intro ends
  obtain ⟨more, whole⟩ := ends
  rw [← List.append_assoc] at whole
  have last := List.append_inj_right' whole rfl
  cases last
  exact other rfl

/-- A line that is printed after the answer, and is no announcement, is in the report, with
what came before it on the same line of its chunk. -/
theorem kept_line (oneLine : OneLine input) (early : List (List Print)) {later front back : List (List Print)}
    {before after : List Print} {print : Print} {line : String} {start : List Char} {c : Char}
    (belongs : ∀ print ∈ later.flatten, Belongs input print)
    (chain : later.flatten.IsChain Follows) (place : later = front ++ (before ++ print :: after) :: back)
    (announced : ∀ url, print ≠ .trying url) (text : print.text eol = line ++ "\n")
    (free : '\n' ∉ line.toList) (shape : line.toList = start ++ [c]) (other : c ≠ 'G') :
    String.ofList (lineBefore (chunkText eol before).toList ++ line.toList) ∈
      reportLines (processOutput (collected eol (early ++ later))) := by
  have flat : later.flatten = front.flatten ++ before ++ print :: (after ++ back.flatten) := by
    simp [place]
  have rest_chain : (print :: (after ++ back.flatten)).IsChain Follows := by
    rw [flat] at chain
    exact chain.right_of_append
  have chunk_belongs : ∀ other ∈ before ++ print :: after, Belongs input other := by
    intro own inside
    apply belongs
    rw [flat]
    simp only [List.mem_append, List.mem_cons] at inside ⊢
    tauto
  obtain ⟨rows_before, cut⟩ := row_of_line before after text free (by simp [shape])
  have lines : ∃ lines_before, collected eol (early ++ later) = lines_before ++
      String.ofList (lineBefore (chunkText eol before).toList ++ line.toList) ::
        collected eol (after :: back) := by
    refine ⟨collected eol (early ++ front) ++ rows_before.map String.ofList, ?_⟩
    have own : collected eol ((before ++ print :: after) :: back) =
        linesOf (chunkText eol (before ++ print :: after)) ++ collected eol back :=
      List.flatMap_cons
    have behind : collected eol (after :: back) =
        linesOf (chunkText eol after) ++ collected eol back := List.flatMap_cons
    rw [place, ← List.append_assoc, collected_append, own, behind, linesOf_eq, linesOf_eq, cut]
    simp
  obtain ⟨lines_before, whole⟩ := lines
  refine mem_reportLines (fun line member => collected_free member) ?_ ?_
  · rw [whole]
    refine mem_dropRetyped (not_endsWith_retype (_ ++ start) (by rw [shape, List.append_assoc]) other) ?_
    intro bare
    have head := head_collected (after :: back) bare
    have code : retype.toList.head? = some escape := congrArg List.head? String.toList_ofList
    rw [code, List.flatten_cons] at head
    refine first_row_plain oneLine rest_chain announced ?_ head.symm
    intro own inside
    apply belongs
    rw [flat]
    exact List.mem_append_right _ (List.mem_cons_of_mem _ inside)
  · simp only [startsWith, decide_eq_false_iff_not, String.toList_ofList]
    intro asks
    obtain ⟨words, question⟩ : ∃ words, urlsQuestion.toList = 'P' :: words := ⟨_, String.toList_ofList⟩
    rw [question] at asks
    obtain ⟨tail, row⟩ := asks
    have listed : some 'P' ∈ (rows (chunkText eol (before ++ print :: after)).toList).map
        List.head? := by
      rw [cut, ← row]
      simp
    rw [heads_rows] at listed
    obtain ⟨capital, member, same⟩ := List.mem_map.mp listed
    cases same
    exact row_not_question oneLine chunk_belongs member rfl

theorem resultText_last (url : String) (result : Bool) :
    ∃ start c, (Print.resultText url result).toList = start ++ [c] ∧ c ≠ 'G' := by
  have word : ∃ start c, (if result then "Success" else "Failed").toList = start ++ [c] ∧ c ≠ 'G' := by
    cases result with
    | true => exact ⟨['S', 'u', 'c', 'c', 'e', 's'], 's', String.toList_ofList, by decide⟩
    | false => exact ⟨['F', 'a', 'i', 'l', 'e'], 'd', String.toList_ofList, by decide⟩
  obtain ⟨start, c, shape, other⟩ := word
  refine ⟨(Wizard.ReadlinePlatform.tryingText url ++ "... ").toList ++ start, c, ?_, other⟩
  rw [List.append_assoc, ← shape]
  exact String.toList_append

theorem summaryText_last (unreached : Int) (total : Nat) :
    ∃ start, (Print.summaryText unreached total).toList = start ++ ['.'] := by
  obtain ⟨start, shape⟩ : ∃ start, " URLs could not be reached.".toList = start ++ ['.'] :=
    ⟨" URLs could not be reached".toList, by decide⟩
  refine ⟨(toString unreached ++ " out of " ++ toString total).toList ++ start, ?_⟩
  rw [List.append_assoc, ← shape]
  exact String.toList_append

/-- The place of a print in the chunks. -/
theorem place_of_mem {print : Print} {chunks : List (List Print)} (member : print ∈ chunks.flatten) :
    ∃ front before after back, chunks = front ++ (before ++ print :: after) :: back := by
  obtain ⟨chunk, listed, inside⟩ := List.mem_flatten.mp member
  obtain ⟨front, back, rfl⟩ := List.append_of_mem listed
  obtain ⟨before, after, rfl⟩ := List.append_of_mem inside
  exact ⟨front, before, after, back, rfl⟩

/-- Nothing stands before the summary on its line: it follows a whole line, or begins
its chunk. -/
theorem lineBefore_summary {before after : List Print} {unreached : Int} {total : Nat}
    (chain : (before ++ .summary unreached total :: after).IsChain Follows) :
    lineBefore (chunkText eol before).toList = [] := by
  rcases List.eq_nil_or_concat before with rfl | ⟨others, last, rfl⟩
  · rfl
  · rw [List.concat_eq_append, List.append_assoc] at chain
    have follows : Follows last (.summary unreached total) := by
      have pair := chain.right_of_append
      rw [List.singleton_append, List.isChain_cons_cons] at pair
      exact pair.1
    cases follows
    have newline : "\n".toList = ['\n'] := String.toList_ofList
    have text : Print.text eol .completed = "INTERNAL communication diagnostics completed." ++ "\n" := rfl
    rw [List.concat_eq_append, chunkText_append, chunkText_single, text, String.toList_append,
      String.toList_append, newline, ← List.append_assoc]
    exact List.rtakeWhile_concat_neg _ _ _ (by simp)

end

theorem results_of_returned {handlers : List (Option Bool)} (returned : none ∉ handlers) :
    ∃ results : List Bool, handlers = results.map some := by
  induction handlers with
  | nil => exact ⟨[], rfl⟩
  | cons first rest ih =>
    rw [List.mem_cons, not_or] at returned
    obtain ⟨results, rfl⟩ := ih returned.2
    cases first with
    | none => exact absurd rfl returned.1
    | some result => exact ⟨result :: results, rfl⟩

/-- A collection with a kept line is not empty. -/
theorem verdict_of_kept {lines : List String} {line : String} {start : List Char} {c : Char}
    (kept : line ∈ reportLines (processOutput lines)) (shape : line.toList = start ++ [c]) :
    ChunkIndependence.verdict lines = .resolved (processOutput lines) := by
  apply ChunkIndependence.verdict_of_ne_nil
  rintro rfl
  have empty : reportLines (processOutput []) = [""] := by decide
  rw [empty, List.mem_singleton] at kept
  subst kept
  simp at shape

section
variable {early later : List (List Print)} (oneLine : OneLine input)
  (belongs : ∀ print ∈ later.flatten, Belongs input print) (chain : later.flatten.IsChain Follows)
include oneLine belongs chain

/-- The result of a probe ends a line of the report. -/
theorem result_line {url : String} {result : Bool} (printed : .tried url result ∈ later.flatten) :
    ∃ before, before ++ Print.resultText url result ∈
      reportLines (processOutput (collected eol (early ++ later))) := by
  obtain ⟨front, before, after, back, place⟩ := place_of_mem printed
  obtain ⟨start, c, shape, other⟩ := resultText_last url result
  refine ⟨String.ofList (lineBefore (chunkText eol before).toList), ?_⟩
  have kept : String.ofList (lineBefore (chunkText eol before).toList ++
      (Print.resultText url result).toList) ∈
        reportLines (processOutput (collected eol (early ++ later))) :=
    kept_line oneLine early belongs chain place (by simp) rfl
      (newline_not_mem_resultText (oneLine url (belongs _ printed)) result) shape other
  rwa [String.ofList_append, String.ofList_toList] at kept

/-- The summary is a line of the report. -/
theorem summary_line {unreached : Int} {total : Nat}
    (printed : .summary unreached total ∈ later.flatten) :
    Print.summaryText unreached total ∈
      reportLines (processOutput (collected eol (early ++ later))) := by
  obtain ⟨front, before, after, back, place⟩ := place_of_mem printed
  obtain ⟨start, shape⟩ := summaryText_last unreached total
  have kept : String.ofList (lineBefore (chunkText eol before).toList ++
      (Print.summaryText unreached total).toList) ∈
        reportLines (processOutput (collected eol (early ++ later))) :=
    kept_line oneLine early belongs chain place (by simp) rfl (newline_not_mem_summaryText _ _)
      shape (by decide)
  have alone : lineBefore (chunkText eol before).toList = [] := by
    have inside : before ++ .summary unreached total :: after <:+: later.flatten :=
      ⟨front.flatten, back.flatten, by simp [place]⟩
    exact lineBefore_summary ( List.IsChain.infix chain inside)
  rwa [alone, List.nil_append, String.ofList_toList] at kept

end

/-- When a dialogue in which no write was cut is closed, every URL has been probed, the report has
a line that ends with the result of its probe, and one that gives the number of those that were
not reached. -/
theorem report_complete (platform : Platform) (eol : Eol) (input : List String)
    (sendable : Sendable platform input) (events : List Diagnostics.Event) {s : Diagnostics}
    (ran : Trace.run (Diagnostics.step platform eol input) .start events = some s)
    (uncut : Trace.EachStep (Diagnostics.step platform eol input) .start (Uncut eol) events)
    (closed : s.session.closed = true) :
    ∃ (report : String) (results : List Bool),
      s.session.outcome = .resolved report ∧ results.length = input.length ∧
      (∀ i result, results[i]? = some result ↔
        ∃ returned, .child (.returned i returned) ∈ events ∧ returned.getD false = result) ∧
      (∀ (i : Nat) url result, input[i]? = some url → results[i]? = some result →
        ∃ before, before ++ Print.resultText url result ∈ reportLines report) ∧
      Print.summaryText (results.count false) input.length ∈ reportLines report := by
  have held := held_run sendable ran uncut
  obtain ⟨exited, read, outcome⟩ := held.ended closed
  have oneLine := oneLine_of_plain sendable.plain
  have known := resultOf_run ran
  have stage := held.stage
  cases child : s.child with
  | asking =>
    rw [child] at stage
    rw [stage.2.1] at exited
    cases exited
  | probing p =>
    rw [child] at stage
    obtain ⟨log, early, later, probed, ⟨chunks, -, printed⟩, -, resolves⟩ := stage
    obtain ⟨values, phase⟩ := resolves exited
    rw [read, List.append_nil] at printed
    have settled := not_pending_of_resolved probed.kept phase
    have called := (BoundedPool.results_of_resolved probed.kept phase).1
    have returned := handlers_of_resolved probed settled
    -- Every handler has returned, so the results are those of all of them.
    obtain ⟨results, handlers⟩ := results_of_returned returned
    have belongs : ∀ print ∈ later.flatten, Belongs input print := by
      rw [printed]
      exact probed.printed_belongs
    have chain : later.flatten.IsChain Follows := by
      rw [printed, List.isChain_cons_cons]
      exact ⟨trivial, probed.chain⟩
    have lines : s.session.stdout = collected eol (early ++ later) := by
      rw [held.lines, chunks]
      rfl
    have summary : Print.summaryText (p.handlers.count (some false)) input.length ∈
        reportLines (processOutput (collected eol (early ++ later))) :=
      summary_line oneLine belongs chain (by simp [printed, probed.summed values phase])
    obtain ⟨start, shape⟩ := summaryText_last (p.handlers.count (some false)) input.length
    have count : p.handlers.count (some false) = results.count false := by
      rw [handlers]
      exact List.count_map_of_injective results some (fun _ _ same => Option.some.inj same) false
    refine ⟨processOutput (collected eol (early ++ later)), results, ?_, ?_, ?_, ?_, ?_⟩
    · rw [outcome, lines, verdict_of_kept summary shape]
    · have length := congrArg List.length handlers
      rw [List.length_map, probed.made, called] at length
      exact length.symm
    · intro i result
      rw [← known i result, resultOf, child]
      simp only [handlers, List.getElem?_map]
      cases results[i]? <;> simp
    · intro i url result listed found
      rw [← called] at listed
      obtain ⟨own, ended, member⟩ := probed.reported i url listed (settled i)
      have same : own = result := by
        rw [handlers, List.getElem?_map, found] at ended
        simpa using ended.symm
      subst same
      exact result_line oneLine belongs chain (by simp [printed, member])
    · rwa [count] at summary

theorem two_hosts_reported : ∃ events s report,
    Trace.run (Diagnostics.step .ascii .windows twoHosts) .start events = some s ∧
      s.session.outcome = .resolved report ∧
      ∃ before result, before ++ Print.resultText "http://b.test" result ∈ reportLines report := by
  obtain ⟨events, s, ran, uncut, closed⟩ :=
    dialogue_closes twoHosts_sendable (twoHosts_short .windows)
  obtain ⟨report, results, outcome, length, -, told, -⟩ :=
    report_complete .ascii .windows twoHosts twoHosts_sendable events ran uncut closed
  obtain ⟨result, found⟩ : ∃ result, results[1]? = some result :=
    ⟨_, List.getElem?_eq_getElem (by rw [length]; decide)⟩
  obtain ⟨before, line⟩ := told 1 "http://b.test" result rfl found
  exact ⟨events, s, report, ran, outcome, before, result, line⟩

end BrightCli.Guarantees.PingReport
