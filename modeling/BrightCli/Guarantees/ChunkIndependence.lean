import BrightCli.Lib.Text
import BrightCli.Source.NetworkTest

/-!
# The dialogue and the cuts of a pipe

The handler decodes, splits and searches each chunk on its own, and every cut
inside a line makes two lines of it. So the text does not depend on the cuts for
exactly those streams whose lines cannot be cut, being one byte long at most;
there no prompt can occur. Cuts next to a newline do no harm to the text: the
lines are then those of the whole stream (`stdout_of_aligned`).
-/
namespace BrightCli.Guarantees.ChunkIndependence
open BrightCli.Lib BrightCli.Source BrightCli.Source.NetworkTest
open BrightCli.Source.NetworkTest.ReadlinePlatform

def newline : UInt8 := 10

/-- `data` events carry at least one byte. -/
structure Chunking (stream : Utf8.Bytes) (chunks : List Utf8.Bytes) : Prop where
  whole : chunks.flatten = stream
  nonempty : ∀ chunk ∈ chunks, chunk ≠ []

inductive Prompt where
  | urls
  | hostOrIp
  deriving DecidableEq, Repr

def Prompt.text : Prompt → String
  | .urls => urlsQuestion
  | .hostOrIp => hostOrIpQuestion

/-- The prompts in a text, one for each place where one starts. -/
def prompts : List Char → List Prompt
  | [] => []
  | c :: rest =>
    ([Prompt.urls, .hostOrIp].filter fun prompt => prompt.text.toList <+: c :: rest) ++ prompts rest

section
variable (platform : Platform) (eol : Eol) (input : List String)

def answerTo : Prompt → Option String
  | .urls => some (urlsAnswer eol input)
  | .hostOrIp => hostAnswer platform eol input

/-- However the stream is cut, each prompt in it gets one answer, and the outcome
is the same. -/
def CutIndependent (stream : Utf8.Bytes) : Prop :=
  ∃ outcome, ∀ chunks, Chunking stream chunks →
    ∃ session, testNetwork platform eol input chunks = some session ∧
      session.answers.map some = (prompts (Utf8.decode stream).toList).map (answerTo platform eol input) ∧
      session.outcome = outcome

end

/-- The lines of a stream that are not empty, as bytes. -/
def rows (bytes : Utf8.Bytes) : List Utf8.Bytes := (bytes.splitOn newline).filter (· ≠ [])

theorem encode_newline : String.utf8EncodeChar '\n' = [newline] := by decide

theorem decode_append_newline (front back : Utf8.Bytes) :
    (Utf8.decode (front ++ newline :: back)).toList =
      (Utf8.decode front).toList ++ '\n' :: (Utf8.decode back).toList := by
  have whole := Utf8.decode_append_encodeChar front '\n' back
  rwa [encode_newline, List.append_assoc] at whole

theorem no_newline_decoded {bytes : Utf8.Bytes} (absent : newline ∉ bytes) :
    '\n' ∉ (Utf8.decode bytes).toList := by
  intro member
  have inside := Utf8.infix_of_mem_decode (by decide) bytes member
  rw [encode_newline] at inside
  exact absent (inside.subset (by simp))

/-- Splitting into lines and decoding commute. -/
theorem splitOn_decode (bytes : Utf8.Bytes) :
    (Utf8.decode bytes).toList.splitOn '\n' =
      (bytes.splitOn newline).map fun row => (Utf8.decode row).toList := by
  induction length : bytes.length using Nat.strongRecOn generalizing bytes with
  | ind n ih =>
    by_cases present : newline ∈ bytes
    · obtain ⟨front, back, shape⟩ := List.append_of_mem present
      have size : bytes.length = front.length + (back.length + 1) := by simp [shape]
      rw [shape, decode_append_newline, List.splitOn_append_cons_self, List.splitOn_append_cons_self,
        ih front.length (by omega) front rfl, ih back.length (by omega) back rfl, List.map_append]
    · rw [List.splitOn_eq_singleton present, List.splitOn_eq_singleton (no_newline_decoded present)]
      rfl

theorem linesOf_decode (bytes : Utf8.Bytes) :
    linesOf (Utf8.decode bytes) = (rows bytes).map Utf8.decode := by
  unfold linesOf rows
  have decoded : (String.ofList ∘ fun row => (Utf8.decode row).toList) = Utf8.decode := by
    funext row
    simp
  rw [splitOn_decode, List.map_map, decoded, List.filter_map]
  congr 1
  apply List.filter_congr
  intro row _
  simp [Nat.pos_iff_ne_zero, Utf8.decode_eq_empty_iff]

theorem rows_flatten (bytes : Utf8.Bytes) : (rows bytes).flatten = bytes.filter (· ≠ newline) := by
  rw [← Text.flatten_splitOn, rows, List.flatten_filter_ne_nil]

theorem mem_rows {row bytes : Utf8.Bytes} (member : row ∈ rows bytes) :
    row ≠ [] ∧ newline ∉ row ∧ row <:+: bytes := by
  obtain ⟨piece, nonempty⟩ := List.mem_filter.mp member
  exact ⟨by simpa using nonempty, Text.not_mem_of_mem_splitOn bytes piece,
    Text.infix_of_mem_splitOn bytes piece⟩

/-- No line has two bytes. -/
def ShortLines (bytes : Utf8.Bytes) : Prop := ∀ row ∈ bytes.splitOn newline, row.length ≤ 1

theorem shortLines_part {part bytes : Utf8.Bytes} (short : ShortLines bytes) (inside : part <:+: bytes) :
    ShortLines part := by
  intro row member
  have free := Text.not_mem_of_mem_splitOn part member
  obtain ⟨whole, belongs, within⟩ :=
    Text.infix_piece bytes free ((Text.infix_of_mem_splitOn part member).trans inside)
  exact within.length_le.trans (short whole belongs)

section Rows

theorem map_singleton_flatten (lists : List Utf8.Bytes) (single : ∀ row ∈ lists, row.length = 1) :
    lists.flatten.map (fun b => [b]) = lists := by
  induction lists with
  | nil => rfl
  | cons row rest ih =>
    obtain ⟨b, rfl⟩ := List.length_eq_one_iff.mp (single row (by simp))
    have tail := ih fun other member => single other (by simp [member])
    rw [List.flatten_cons, List.map_append, tail]
    rfl

theorem length_le_flatten (lists : List Utf8.Bytes) (nonempty : ∀ row ∈ lists, row ≠ []) :
    lists.length ≤ lists.flatten.length := by
  induction lists with
  | nil => simp
  | cons row rest ih =>
    have tail := ih fun other member => nonempty other (by simp [member])
    have head := List.length_pos_of_ne_nil (nonempty row (by simp))
    simp only [List.length_cons, List.flatten_cons, List.length_append]
    omega

theorem length_lt_flatten (lists : List Utf8.Bytes) (nonempty : ∀ row ∈ lists, row ≠ [])
    (long : ∃ row ∈ lists, 1 < row.length) : lists.length < lists.flatten.length := by
  obtain ⟨row, member, two⟩ := long
  obtain ⟨front, back, rfl⟩ := List.append_of_mem member
  have before := length_le_flatten front fun other inside => nonempty other (by simp [inside])
  have after := length_le_flatten back fun other inside => nonempty other (by simp [inside])
  simp only [List.length_append, List.length_cons, List.flatten_append, List.flatten_cons]
  omega

end Rows

/-- Every byte as a line. -/
def byteLines (bytes : Utf8.Bytes) : List String :=
  (bytes.filter (· ≠ newline)).map fun b => Utf8.decode [b]

theorem linesOf_short {bytes : Utf8.Bytes} (short : ShortLines bytes) :
    linesOf (Utf8.decode bytes) = byteLines bytes := by
  have single : ∀ row ∈ rows bytes, row.length = 1 := by
    intro row member
    have positive := List.length_pos_of_ne_nil (mem_rows member).1
    have bounded := short row (List.mem_filter.mp member).1
    omega
  rw [linesOf_decode, byteLines, ← rows_flatten]
  nth_rewrite 1 [← map_singleton_flatten (rows bytes) single]
  rw [List.map_map]
  rfl

theorem shortLines_single (b : UInt8) : ShortLines [b] := by
  intro row member
  exact (Text.infix_of_mem_splitOn [b] member).length_le

/-- Nothing of two characters or more in one line occurs where the lines are short. -/
theorem not_infix_of_short {bytes : Utf8.Bytes} (short : ShortLines bytes) {needle : List Char}
    (free : '\n' ∉ needle) (long : 1 < needle.length) :
    ¬ needle <:+: (Utf8.decode bytes).toList := by
  intro found
  obtain ⟨piece, member, inside⟩ := Text.infix_piece _ free found
  rw [splitOn_decode] at member
  obtain ⟨row, belongs, rfl⟩ := List.mem_map.mp member
  have row_short := short row belongs
  have decoded_short := Utf8.length_decode_le row
  have := inside.length_le
  omega

/-- The handler finds nothing to react to in the chunk. -/
structure Quiet (chunk : Utf8.Bytes) : Prop where
  urls : includes (Utf8.decode chunk) urlsQuestion = false
  host : includes (Utf8.decode chunk) hostOrIpQuestion = false
  done : includes (Utf8.decode chunk) compeledMessage = false

/-- The texts that the handler looks for are longer than a character and of one line. -/
theorem phrase_shape {text : String}
    (phrase : text ∈ [urlsQuestion, hostOrIpQuestion, compeledMessage]) :
    '\n' ∉ text.toList ∧ 46 ≤ text.toList.length := by
  simp only [List.mem_cons, List.not_mem_nil, or_false] at phrase
  rcases phrase with rfl | rfl | rfl
  · decide +kernel
  · decide +kernel
  · decide +kernel

theorem quiet_of_absent {bytes : Utf8.Bytes}
    (absent : ∀ text ∈ [urlsQuestion, hostOrIpQuestion, compeledMessage],
      ¬ text.toList <:+: (Utf8.decode bytes).toList) : Quiet bytes := by
  constructor
  · exact decide_eq_false (absent _ (by simp))
  · exact decide_eq_false (absent _ (by simp))
  · exact decide_eq_false (absent _ (by simp))

theorem phrase_absent {bytes : Utf8.Bytes} (short : ShortLines bytes) {text : String}
    (phrase : text ∈ [urlsQuestion, hostOrIpQuestion, compeledMessage]) :
    ¬ text.toList <:+: (Utf8.decode bytes).toList := by
  obtain ⟨free, long⟩ := phrase_shape phrase
  exact not_infix_of_short short free (by omega)

theorem prompts_of_absent (text : List Char) (absent : ∀ prompt : Prompt, ¬ prompt.text.toList <:+: text) :
    prompts text = [] := by
  induction text with
  | nil => rfl
  | cons c rest ih =>
    have later := ih fun prompt inside => absent prompt (List.infix_cons inside)
    have here : ∀ prompt : Prompt, ¬ prompt.text.toList <+: c :: rest :=
      fun prompt start => absent prompt start.isInfix
    simp [prompts, later, here]

theorem prompts_of_short {bytes : Utf8.Bytes} (short : ShortLines bytes) :
    prompts (Utf8.decode bytes).toList = [] := by
  apply prompts_of_absent
  intro prompt
  cases prompt with
  | urls => exact phrase_absent short (by simp [Prompt.text])
  | hostOrIp => exact phrase_absent short (by simp [Prompt.text])

/-- A prompt at the start of a text is found. -/
theorem mem_prompts {prompt : Prompt} {text : List Char} (nonempty : text ≠ [])
    (start : prompt.text.toList <+: text) : prompt ∈ prompts text := by
  obtain ⟨c, rest, rfl⟩ := List.exists_cons_of_ne_nil nonempty
  rw [prompts, List.mem_append, List.mem_filter]
  refine Or.inl ⟨?_, decide_eq_true start⟩
  cases prompt <;> simp

/-- All lines that the handler collects from the chunks. -/
def collected (chunks : List Utf8.Bytes) : List String :=
  chunks.flatMap fun chunk => linesOf (Utf8.decode chunk)

theorem collected_short {chunks : List Utf8.Bytes} (short : ∀ chunk ∈ chunks, ShortLines chunk) :
    collected chunks = byteLines chunks.flatten := by
  induction chunks with
  | nil => rfl
  | cons chunk rest ih =>
    have tail := ih fun other member => short other (by simp [member])
    unfold collected at tail ⊢
    rw [List.flatMap_cons, tail, linesOf_short (short chunk (by simp)), List.flatten_cons]
    simp [byteLines]

/-- The outcome that the collected lines lead to. -/
def verdict (lines : List String) : Outcome :=
  (Session.onClose { Session.new with stdout := lines } (some 0)).outcome

section
variable (platform : Platform) (eol : Eol) (input : List String)

/-- What a chunk does in any case. -/
theorem onData_effect (s : Session) (chunk : Utf8.Bytes) :
    (s.onData platform eol input chunk).stdout = s.stdout ++ linesOf (Utf8.decode chunk) ∧
      (s.onData platform eol input chunk).closed = s.closed ∧
      ((s.onData platform eol input chunk).outcome = s.outcome ∨
        (s.onData platform eol input chunk).outcome = .crashed) := by
  unfold Session.onData Session.put
  dsimp only
  split
  · split
    · split <;> split <;> exact ⟨rfl, rfl, Or.inl rfl⟩
    · split <;> exact ⟨rfl, rfl, Or.inr rfl⟩
  · split <;> split <;> exact ⟨rfl, rfl, Or.inl rfl⟩

theorem onData_quiet (s : Session) {chunk : Utf8.Bytes} (quiet : Quiet chunk) :
    s.onData platform eol input chunk =
      { s with stdout := s.stdout ++ linesOf (Utf8.decode chunk) } := by
  simp [Session.onData, quiet.urls, quiet.host, quiet.done]

/-- The chunks one after the other: each step appends its lines. -/
theorem run_data (chunks : List Utf8.Bytes) (s last : Session)
    (reached : Trace.run (Session.step platform eol input) s (chunks.map .data) = some last) :
    last.stdout = s.stdout ++ collected chunks ∧ last.closed = s.closed ∧
      (last.outcome = s.outcome ∨ last.outcome = .crashed) := by
  induction chunks generalizing s with
  | nil =>
    cases reached
    simp [collected]
  | cons chunk rest ih =>
    rw [List.map_cons, Trace.run_cons] at reached
    obtain ⟨next, stepped, reached⟩ := Option.bind_eq_some_iff.mp reached
    simp only [Session.step] at stepped
    split at stepped
    · cases stepped
    · rename_i going
      cases stepped
      obtain ⟨lines, closed, outcome⟩ := onData_effect platform eol input s chunk
      obtain ⟨rest_lines, rest_closed, rest_outcome⟩ := ih _ reached
      refine ⟨?_, rest_closed.trans closed, ?_⟩
      · rw [rest_lines, lines, List.append_assoc]
        rfl
      · rcases rest_outcome with same | crashed
        · rw [same]
          exact outcome
        · exact Or.inr crashed

/-- The outcome of a session depends on the chunks through their lines only. -/
theorem outcome_eq {chunks : List Utf8.Bytes} {session : Session}
    (tested : testNetwork platform eol input chunks = some session) :
    session.outcome = verdict (collected chunks) := by
  unfold testNetwork at tested
  rw [Trace.run_append] at tested
  obtain ⟨mid, reached, closing⟩ := Option.bind_eq_some_iff.mp tested
  obtain ⟨lines, -, outcome⟩ := run_data platform eol input chunks .new mid reached
  rw [Trace.run_cons] at closing
  obtain ⟨last, stepped, same⟩ := Option.bind_eq_some_iff.mp closing
  cases same
  simp only [Session.step] at stepped
  split at stepped
  · cases stepped
  · rename_i going
    cases stepped
    have pending : mid.outcome = .pending := by
      rcases outcome with kept | crashed
      · exact kept
      · simp [crashed] at going
    have stdout : mid.stdout = collected chunks := by simpa [Session.new] using lines
    simp only [verdict, Session.onClose, Session.settle, stdout, pending, Session.new]
    split <;> rfl

theorem run_quiet (chunks : List Utf8.Bytes) (quiet : ∀ chunk ∈ chunks, Quiet chunk)
    (s : Session) (going : s.closed = false) (alive : s.outcome ≠ .crashed) :
    Trace.run (Session.step platform eol input) s (chunks.map .data) =
      some { s with stdout := s.stdout ++ collected chunks } := by
  induction chunks generalizing s with
  | nil => simp [collected]
  | cons chunk rest ih =>
    have stepped : Session.step platform eol input s (.data chunk) =
        some { s with stdout := s.stdout ++ linesOf (Utf8.decode chunk) } := by
      simp [Session.step, going, alive, onData_quiet platform eol input s (quiet chunk (by simp))]
    rw [List.map_cons, Trace.run_cons, stepped, Option.bind_some]
    have others := ih (fun other member => quiet other (by simp [member]))
      { s with stdout := s.stdout ++ linesOf (Utf8.decode chunk) } going alive
    simpa [collected] using others

/-- Quiet chunks get no answer. -/
theorem testNetwork_quiet {chunks : List Utf8.Bytes} (quiet : ∀ chunk ∈ chunks, Quiet chunk) :
    ∃ session, testNetwork platform eol input chunks = some session ∧ session.answers = [] := by
  unfold testNetwork
  rw [Trace.run_append, run_quiet platform eol input chunks quiet .new rfl (by decide),
    Option.bind_some]
  refine ⟨_, rfl, ?_⟩
  simp only [Session.onClose, Session.settle, Session.new]
  split <;> rfl

end

theorem dropRetyped_sublist (elements : List String) : (dropRetyped elements).Sublist elements := by
  induction elements with
  | nil => exact List.Sublist.refl _
  | cons element rest ih =>
    rw [dropRetyped]
    split
    · exact ih.cons element
    · exact ih.cons_cons element

/-- The text has fewer line breaks than there are lines. -/
theorem count_processOutput_le (elements : List String)
    (free : ∀ element ∈ elements, '\n' ∉ element.toList) :
    (processOutput elements).toList.count '\n' ≤ elements.length - 1 := by
  unfold processOutput
  generalize kept : (dropRetyped elements).filter (fun x => !startsWith x urlsQuestion) = lines
  have sublist : lines.Sublist elements := by
    rw [← kept]
    exact List.filter_sublist.trans (dropRetyped_sublist elements)
  have lines_free : ∀ piece ∈ lines.map String.toList, '\n' ∉ piece := by
    intro piece member
    obtain ⟨line, belongs, rfl⟩ := List.mem_map.mp member
    exact free line (sublist.subset belongs)
  have fewer := sublist.length_le
  rw [String.toList_intercalate, show "\n".toList = ['\n'] from rfl,
    Text.count_intercalate _ lines_free, List.length_map]
  omega

/-- Single characters are neither control codes nor prompts. -/
theorem processOutput_short (elements : List String)
    (short : ∀ element ∈ elements, element.length ≤ 1) :
    processOutput elements = String.intercalate "\n" elements := by
  have kept : dropRetyped elements = elements := by
    induction elements with
    | nil => rfl
    | cons element rest ih =>
      have own : endsWith element retype = false := by
        refine decide_eq_false fun ending => ?_
        have := ending.length_le
        have := short element (by simp)
        simp only [String.length_toList] at *
        have : retype.length = 4 := by decide
        omega
      have next : rest.head? ≠ some retype := by
        intro same
        have single := short retype (List.mem_cons_of_mem _ (List.mem_of_mem_head? same))
        revert single
        decide
      rw [dropRetyped, if_neg (by simp [own, next]), ih fun other member => short other (by simp [member])]
  have unprompted : ∀ element ∈ elements, (!startsWith element urlsQuestion) = true := by
    intro element member
    have : startsWith element urlsQuestion = false := by
      refine decide_eq_false fun start => ?_
      have := start.length_le
      have := short element member
      have := (phrase_shape (List.mem_cons_self (a := urlsQuestion))).2
      simp only [String.length_toList] at *
      omega
    rw [this]
    rfl
  rw [processOutput, kept, List.filter_eq_self.mpr unprompted]

/-- The session resolves as soon as there is a line. -/
theorem verdict_of_ne_nil {lines : List String} (some_line : lines ≠ []) :
    verdict lines = .resolved (processOutput lines) := by
  simp [verdict, Session.onClose, Session.settle, Session.new, some_line]

theorem count_byteLines (bytes : Utf8.Bytes) :
    (processOutput (byteLines bytes)).toList.count '\n' = (byteLines bytes).length - 1 := by
  have members : ∀ element ∈ byteLines bytes, ∃ b, b ≠ newline ∧ element = Utf8.decode [b] := by
    intro element member
    obtain ⟨b, kept, rfl⟩ := List.mem_map.mp member
    exact ⟨b, by simpa using (List.mem_filter.mp kept).2, rfl⟩
  have short : ∀ element ∈ byteLines bytes, element.length ≤ 1 := by
    intro element member
    obtain ⟨b, -, rfl⟩ := members element member
    exact String.length_toList ▸ Utf8.length_decode_le [b]
  have free : ∀ piece ∈ (byteLines bytes).map String.toList, '\n' ∉ piece := by
    intro piece member
    obtain ⟨element, belongs, rfl⟩ := List.mem_map.mp member
    obtain ⟨b, other, rfl⟩ := members element belongs
    exact no_newline_decoded (by simpa using Ne.symm other)
  rw [processOutput_short _ short, String.toList_intercalate, show "\n".toList = ['\n'] from rfl,
    Text.count_intercalate _ free, List.length_map]

/-- With a long line, the stream byte by byte and the stream in one chunk lead to
different texts: a text has fewer line breaks than lines. -/
theorem verdicts_differ {stream : Utf8.Bytes} (long : ¬ ShortLines stream) :
    verdict (byteLines stream) ≠ verdict ((rows stream).map Utf8.decode) := by
  obtain ⟨row, belongs, two⟩ : ∃ row ∈ stream.splitOn newline, 1 < row.length := by
    simpa [ShortLines] using long
  have kept : row ∈ rows stream :=
    List.mem_filter.mpr ⟨belongs, by simpa using List.ne_nil_of_length_pos (by omega)⟩
  have some_row := List.length_pos_of_mem kept
  have more : (rows stream).length < (byteLines stream).length := by
    rw [byteLines, List.length_map, ← rows_flatten]
    exact length_lt_flatten _ (fun _ member => (mem_rows member).1) ⟨row, kept, two⟩
  rw [verdict_of_ne_nil (List.ne_nil_of_length_pos (by omega)),
    verdict_of_ne_nil (by simpa using List.ne_nil_of_length_pos some_row)]
  intro same
  injection same with text
  have free : ∀ element ∈ (rows stream).map Utf8.decode, '\n' ∉ element.toList := by
    intro element member
    obtain ⟨line, inside, rfl⟩ := List.mem_map.mp member
    exact no_newline_decoded (mem_rows inside).2.1
  have fewer := count_processOutput_le _ free
  rw [← text, count_byteLines, List.length_map] at fewer
  omega

theorem flatten_singletons (stream : Utf8.Bytes) : (stream.map fun b => [b]).flatten = stream := by
  rw [← List.flatMap_def, List.flatMap_singleton']

/-- The dialogue does not depend on how its bytes are cut into chunks exactly
when no line has two bytes. -/
theorem cut_independent_iff (platform : Platform) (eol : Eol) (input : List String)
    (stream : Utf8.Bytes) :
    CutIndependent platform eol input stream ↔ ShortLines stream := by
  constructor
  · rintro ⟨outcome, independent⟩
    by_contra long
    have nonempty : stream ≠ [] := by
      rintro rfl
      exact long (by simp [ShortLines, List.splitOn_nil])
    obtain ⟨cut, cut_tested, -, cut_outcome⟩ :=
      independent (stream.map fun b => [b]) ⟨flatten_singletons stream, by simp⟩
    obtain ⟨one, one_tested, -, one_outcome⟩ := independent [stream] ⟨by simp, by simpa⟩
    have bytes : collected (stream.map fun b => [b]) = byteLines stream := by
      rw [collected_short (by simpa using fun b _ => shortLines_single b), flatten_singletons]
    have lines : collected [stream] = (rows stream).map Utf8.decode := by
      simp [collected, linesOf_decode]
    rw [outcome_eq platform eol input cut_tested, bytes] at cut_outcome
    rw [outcome_eq platform eol input one_tested, lines] at one_outcome
    exact verdicts_differ long (cut_outcome.trans one_outcome.symm)
  · intro short
    refine ⟨verdict (byteLines stream), ?_⟩
    intro chunks chunking
    have each : ∀ chunk ∈ chunks, ShortLines chunk := by
      intro chunk member
      refine shortLines_part short ?_
      rw [← chunking.whole]
      exact List.infix_of_mem_flatten member
    obtain ⟨session, tested, silent⟩ :=
      testNetwork_quiet platform eol input fun chunk member =>
        quiet_of_absent fun _ phrase => phrase_absent (each chunk member) phrase
    refine ⟨session, tested, by simp [silent, prompts_of_short short], ?_⟩
    rw [outcome_eq platform eol input tested, collected_short each, chunking.whole]

/-- A prompt that arrives in two halves is not answered. -/
theorem cut_prompt_unanswered :
    ¬ CutIndependent Platform.ascii .posix ["http://a.test"] (Utf8.encode urlsQuestion) := by
  rintro ⟨outcome, independent⟩
  have halves : urlsQuestion = "Please enter the target URLs " ++ "to test (separated by commas)" := by
    decide
  have cut : Chunking (Utf8.encode urlsQuestion) [Utf8.encode "Please enter the target URLs ",
      Utf8.encode "to test (separated by commas)"] := by
    constructor
    · rw [halves, Utf8.encode_append]
      simp
    · simp [Utf8.encode_eq_nil_iff]
  -- Each half is shorter than everything that the handler looks for.
  have quiet : ∀ text : String, text.toList.length = 29 → Quiet (Utf8.encode text) := by
    intro text length
    apply quiet_of_absent
    intro phrase member inside
    rw [Utf8.decode_encode] at inside
    have := (phrase_shape member).2
    have := inside.length_le
    omega
  obtain ⟨session, tested, answered, -⟩ := independent _ cut
  have front := quiet "Please enter the target URLs " (by decide)
  have back := quiet "to test (separated by commas)" (by decide)
  obtain ⟨same, tested', silent⟩ := testNetwork_quiet Platform.ascii .posix ["http://a.test"]
    (List.forall_mem_cons.mpr ⟨front, List.forall_mem_singleton.mpr back⟩)
  rw [tested] at tested'
  cases tested'
  rw [silent, Utf8.decode_encode] at answered
  have found : Prompt.urls ∈ prompts urlsQuestion.toList :=
    mem_prompts (by decide) (List.prefix_refl _)
  have none_found : prompts urlsQuestion.toList = [] := by simpa using answered
  rw [none_found] at found
  cases found

/-- The cut between two chunks is next to a newline. -/
def CutAtLine (front back : Utf8.Bytes) : Prop :=
  front.getLast? = some newline ∨ back.head? = some newline

theorem rows_cut (front back : Utf8.Bytes) :
    rows (front ++ newline :: back) = rows front ++ rows back := by
  unfold rows
  rw [List.splitOn_append_cons_self, List.filter_append]

theorem rows_append {front back : Utf8.Bytes} (cut : CutAtLine front back) :
    rows (front ++ back) = rows front ++ rows back := by
  have empty : rows [] = [] := rfl
  rcases cut with last | first
  · obtain ⟨start, rfl⟩ := List.getLast?_eq_some_iff.mp last
    rw [List.append_assoc, List.singleton_append, rows_cut, rows_cut, empty, List.append_nil]
  · obtain ⟨rest, rfl⟩ := List.head?_eq_some_iff.mp first
    have alone : rows (newline :: rest) = rows rest := rows_cut [] rest
    rw [rows_cut, alone]

/-- Chunks that are cut at lines give the lines of the stream. -/
theorem stdout_of_aligned (chunks : List Utf8.Bytes) (nonempty : ∀ chunk ∈ chunks, chunk ≠ [])
    (aligned : chunks.IsChain CutAtLine) :
    collected chunks = linesOf (Utf8.decode chunks.flatten) := by
  induction chunks with
  | nil => rfl
  | cons chunk rest ih =>
    have tail := ih (fun other member => nonempty other (by simp [member])) (List.IsChain.of_cons aligned)
    have split : collected (chunk :: rest) = linesOf (Utf8.decode chunk) ++ collected rest := by
      simp [collected]
    have cut : rest = [] ∨ CutAtLine chunk rest.flatten := by
      cases rest with
      | nil => exact Or.inl rfl
      | cons next more =>
        obtain ⟨first, others, rfl⟩ := List.exists_cons_of_ne_nil (nonempty next (by simp))
        have between := (List.isChain_cons_cons.mp aligned).1
        exact Or.inr (by simpa [CutAtLine] using between)
    rw [split, tail, linesOf_decode, linesOf_decode, linesOf_decode, List.flatten_cons]
    rcases cut with rfl | cut
    · simp [rows, List.splitOn_nil]
    · rw [rows_append cut, List.map_append]

/-- Two ways of cutting a stream at its lines have the same outcome, if both
sessions come to their end. -/
theorem outcome_of_aligned (platform : Platform) (eol : Eol) (input : List String)
    (stream : Utf8.Bytes) (first second : List Utf8.Bytes) (one other : Session)
    (first_cut : Chunking stream first) (second_cut : Chunking stream second)
    (first_aligned : first.IsChain CutAtLine) (second_aligned : second.IsChain CutAtLine)
    (first_tested : testNetwork platform eol input first = some one)
    (second_tested : testNetwork platform eol input second = some other) :
    one.outcome = other.outcome := by
  rw [outcome_eq platform eol input first_tested, outcome_eq platform eol input second_tested,
    stdout_of_aligned first first_cut.nonempty first_aligned,
    stdout_of_aligned second second_cut.nonempty second_aligned, first_cut.whole, second_cut.whole]

end BrightCli.Guarantees.ChunkIndependence
