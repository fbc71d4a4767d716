import BrightCli.Lib.Text
import BrightCli.Source.NetworkTest

/-!
# The URLs on their way to the child process

The parent joins the URLs by commas and writes them as one line; the child takes
the first line and splits it at the commas. Both are legal inside a URL: a comma
in a path or a query, and a line ending, which the parser of URLs drops or
encodes. Every list of URLs without them arrives as it was sent, and no other.
-/
namespace BrightCli.Guarantees.PingUrls
open BrightCli.Lib BrightCli.Source BrightCli.Source.NetworkTest
open BrightCli.Source.NetworkTest.ReadlinePlatform

/-- URLs as they come in a network-test event. -/
structure Valid (platform : Platform) (urls : List String) : Prop where
  some_url : urls ≠ []
  parses : ∀ url ∈ urls, (platform.parseUrl url).isSome = true
  trimmed : ∀ url ∈ urls, trim url = url

/-- A character that survives neither in a line nor between commas. -/
def separates (c : Char) : Bool := c = ',' || isLineEnding c

/-- The URLs as the child reads them. -/
def joined (urls : List String) : List Char := List.intercalate [','] (urls.map String.toList)

theorem edged_joined (urls : List String) (some_url : urls ≠ [])
    (edged : ∀ url ∈ urls, Edged url.toList) : Edged (joined urls) := by
  unfold joined
  induction urls with
  | nil => exact absurd rfl some_url
  | cons url rest ih =>
    cases rest with
    | nil => simpa using edged url (by simp)
    | cons next more =>
      have tail := ih (by simp) fun other member => edged other (by simp [member])
      rw [List.map_cons, List.map_cons, List.intercalate_cons_cons]
      exact (edged url (by simp)).around tail [',']

theorem mem_joined {c : Char} {urls : List String} (member : c ∈ joined urls) :
    c = ',' ∨ ∃ url ∈ urls, c ∈ url.toList := by
  unfold joined at member
  induction urls with
  | nil => simp at member
  | cons url rest ih =>
    cases rest with
    | nil => exact Or.inr ⟨url, by simp, by simpa using member⟩
    | cons next more =>
      rw [List.map_cons, List.map_cons, List.intercalate_cons_cons, List.mem_append,
        List.mem_append, List.mem_singleton] at member
      rcases member with (own | comma) | later
      · exact Or.inr ⟨url, by simp, own⟩
      · exact Or.inl comma
      · rcases ih later with comma | ⟨other, inside, found⟩
        · exact Or.inl comma
        · exact Or.inr ⟨other, by simp [inside], found⟩

theorem takeWhile_eol (eol : Eol) :
    eol.text.toList.takeWhile (fun c => !isLineEnding c) = [] := by
  cases eol with
  | posix => decide
  | windows => decide

/-- The answer is all that was written, up to the first line ending. -/
theorem question_eq (eol : Eol) (urls : List String) :
    question (Utf8.encode (urlsAnswer eol urls)) =
      String.ofList ((joined urls ++ eol.text.toList).takeWhile fun c => !isLineEnding c) := by
  unfold question urlsAnswer joined
  rw [Utf8.decode_encode, String.toList_append, String.toList_intercalate]
  rfl

theorem question_of_plain (eol : Eol) {urls : List String}
    (plain : ∀ url ∈ urls, ∀ c ∈ url.toList, separates c = false) :
    question (Utf8.encode (urlsAnswer eol urls)) = String.ofList (joined urls) := by
  have unbroken : ∀ c ∈ joined urls, (!isLineEnding c) = true := by
    intro c member
    rcases mem_joined member with rfl | ⟨url, inside, found⟩
    · decide
    · have := plain url inside c found
      simp_all [separates]
  rw [question_eq, List.takeWhile_append_of_pos unbroken, takeWhile_eol, List.append_nil]

/-- Neither commas nor line endings come through. -/
theorem separates_of_mem {eol : Eol} {urls : List String} {url : String} {c : Char}
    (member : url ∈ processPing (Utf8.encode (urlsAnswer eol urls))) (inside : c ∈ url.toList) :
    separates c = false := by
  unfold processPing getDelimitedInput at member
  dsimp only at member
  split at member
  · cases member
  · obtain ⟨trimmed, belongs, rfl⟩ := List.mem_map.mp (List.mem_filter.mp member).1
    obtain ⟨piece, split, rfl⟩ := List.mem_map.mp belongs
    have in_piece : c ∈ piece := by simpa using (trim_isInfix _).subset inside
    have no_comma := Text.not_mem_of_mem_splitOn _ split
    have in_line : c ∈ (question (Utf8.encode (urlsAnswer eol urls))).toList :=
      (trim_isInfix _).subset ((Text.infix_of_mem_splitOn _ split).subset in_piece)
    rw [question_eq, String.toList_ofList] at in_line
    have unbroken := List.mem_takeWhile_imp in_line
    have different : c ≠ ',' := by
      rintro rfl
      exact no_comma in_piece
    simp_all [separates]

theorem splitOn_joined {urls : List String} (some_url : urls ≠ [])
    (plain : ∀ url ∈ urls, ∀ c ∈ url.toList, separates c = false) :
    (joined urls).splitOn ',' = urls.map String.toList := by
  refine List.splitOn_intercalate ',' ?_ (by simpa using some_url)
  intro piece member comma
  obtain ⟨url, belongs, rfl⟩ := List.mem_map.mp member
  have absent := plain url belongs ',' comma
  revert absent
  decide

/-- Trimming takes nothing off the line or off a piece of it. -/
theorem getDelimitedInput_joined {urls : List String} (some_url : urls ≠ [])
    (edged : ∀ url ∈ urls, url ≠ "" ∧ trim url = url)
    (plain : ∀ url ∈ urls, ∀ c ∈ url.toList, separates c = false) :
    getDelimitedInput (String.ofList (joined urls)) ',' = urls := by
  have joined_edged := edged_joined urls some_url fun url member =>
    (trim_eq_self_iff (by simpa using (edged url member).1)).mp (edged url member).2
  have some_text : joined urls ≠ [] := by
    obtain ⟨c, head, -⟩ := joined_edged.first
    intro empty
    simp [empty] at head
  have whole : trim (String.ofList (joined urls)) = String.ofList (joined urls) :=
    (trim_eq_self_iff (by simpa using some_text)).mpr (by simpa using joined_edged)
  have each : ∀ url ∈ urls, ((trim ∘ String.ofList) ∘ String.toList) url = url := by
    intro url member
    simpa using (edged url member).2
  unfold getDelimitedInput
  dsimp only
  rw [whole, if_neg (by simpa using some_text), String.toList_ofList, splitOn_joined some_url plain,
    List.map_map, List.map_map, List.map_congr_left each, List.map_id', List.filter_eq_self.mpr]
  intro url member
  simpa using (edged url member).1

/-- The list of URLs arrives as it was sent exactly when no URL contains a comma
or a line ending. -/
theorem urls_arrive_iff (platform : Platform) (rejects_empty : platform.parseUrl "" = none) (eol : Eol)
    (urls : List String) (valid : Valid platform urls) :
    processPing (Utf8.encode (urlsAnswer eol urls)) = urls ↔
      ∀ url ∈ urls, ∀ c ∈ url.toList, separates c = false := by
  constructor
  · intro same url member c inside
    rw [← same] at member
    exact separates_of_mem member inside
  · intro plain
    have edged : ∀ url ∈ urls, url ≠ "" ∧ trim url = url := by
      intro url member
      refine ⟨?_, valid.trimmed url member⟩
      rintro rfl
      have accepted := valid.parses "" member
      simp [rejects_empty] at accepted
    rw [processPing, question_of_plain eol plain]
    exact getDelimitedInput_joined valid.some_url edged plain

theorem hosts_arrive :
    processPing (Utf8.encode (urlsAnswer .windows ["http://a.test", "http://b.test/x?y=1"])) =
      ["http://a.test", "http://b.test/x?y=1"] := by
  refine (urls_arrive_iff Platform.ascii (by decide) .windows _
    ⟨by decide, by decide, by decide⟩).mpr ?_
  have plain : (["http://a.test", "http://b.test/x?y=1"].all fun url =>
      url.toList.all fun c => !separates c) = true := by decide
  intro url member c inside
  simpa using List.all_eq_true.mp (List.all_eq_true.mp plain url member) c inside

/-- A query with a comma in it arrives as two URLs. -/
theorem comma_splits_url :
    Valid Platform.ascii ["http://a.test/?b=1,2"] ∧
      processPing (Utf8.encode (urlsAnswer .posix ["http://a.test/?b=1,2"])) =
        ["http://a.test/?b=1", "2"] := by
  refine ⟨⟨by decide, by decide, by decide⟩, ?_⟩
  unfold processPing
  rw [question_eq]
  decide

end BrightCli.Guarantees.PingUrls
