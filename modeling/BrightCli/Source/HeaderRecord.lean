import BrightCli.Source.Http.Executor

/-!
# Header maps of texts

`Record<string, string | string[]>`, the type that requests and options declare
for their headers, with `null` where a message may have it. On such maps the
merge of `setHeaders` and the lines of `buildCurlHeaders` have a closed form:
neither throws, and both can be said with texts instead of values
(`mergeHeaders_toHeaders`, `headerLines_toHeaders`).
-/
namespace BrightCli.Source
open BrightCli.Lib BrightCli.Lib.Js BrightCli.Source.Http

/-- A header value of the declared type. -/
inductive HeaderValue where
  | one (text : Option String)
  | many (texts : List (Option String))
  deriving DecidableEq, Repr

namespace HeaderValue

def textValue : Option String → Value
  | some text => .str text
  | none => .null

def toValue : HeaderValue → Value
  | .one text => textValue text
  | .many texts => .arr (texts.map textValue)

/-- What stands after the colon, line by line. -/
def texts : HeaderValue → List String
  | .one text => [text.getD ""]
  | .many texts => texts.map (·.getD "")

/-- `normalizeHeader` on texts. -/
def normalize (platform : Platform) (field : String) : HeaderValue → HeaderValue
  | .one text => .one text
  | .many texts =>
    if toLowerCase platform field ∈ singleValueHeaders then
      .one (some (String.intercalate ", " (texts.map (·.getD ""))))
    else .many texts

theorem elementTexts_map (texts : List (Option String)) :
    Value.elementTexts (texts.map textValue) = .ok (texts.map (·.getD "")) := by
  induction texts with
  | nil => rfl
  | cons head rest ih =>
    cases head <;> rw [List.map_cons, textValue, Value.elementTexts, ih] <;> first | rfl | simp

theorem normalizeHeader_toValue (platform : Platform) (field : String) (value : HeaderValue) :
    Request.normalizeHeader platform field value.toValue =
      .ok (value.normalize platform field).toValue := by
  cases value with
  | one text => cases text <;> rfl
  | many texts =>
    rw [toValue, Request.normalizeHeader, normalize]
    split
    · rw [Value.join, elementTexts_map]
      rfl
    · rfl

theorem normalize_idem (platform : Platform) (field : String) (value : HeaderValue) :
    (value.normalize platform field).normalize platform field = value.normalize platform field := by
  cases value with
  | one text => rfl
  | many texts =>
    rw [normalize]
    split
    · rfl
    · rename_i several
      rw [normalize, if_neg several]

/-- A single-value header has one text after normalisation. -/
theorem length_texts_normalize {platform : Platform} {field : String} (value : HeaderValue)
    (single : toLowerCase platform field ∈ singleValueHeaders) :
    (value.normalize platform field).texts.length = 1 := by
  cases value with
  | one text => rfl
  | many texts =>
    rw [normalize, if_pos single]
    rfl

theorem toValue_plain (value : HeaderValue) : value.toValue.plain = true := by
  cases value with
  | one text => cases text <;> rfl
  | many texts =>
    rw [toValue, Value.plain, Value.plainItems_iff]
    intro item member
    obtain ⟨text, -, rfl⟩ := List.mem_map.mp member
    cases text <;> rfl

theorem textValue_injective : Function.Injective textValue := by
  intro first second same
  cases first <;> cases second <;> cases same <;> rfl

theorem toValue_injective : Function.Injective toValue := by
  intro first second same
  cases first with
  | one text =>
    cases second with
    | one text' => exact congrArg one (textValue_injective same)
    | many texts => cases text <;> cases same
  | many texts =>
    cases second with
    | one text => cases text <;> cases same
    | many texts' =>
      rw [toValue, toValue, Value.arr.injEq] at same
      exact congrArg many (textValue_injective.list_map same)

end HeaderValue

abbrev HeaderRecord := PropertyMap HeaderValue

namespace HeaderRecord

def toHeaders (record : HeaderRecord) : Headers := record.map HeaderValue.toValue

theorem toHeaders_injective : Function.Injective toHeaders :=
  PropertyMap.map_injective HeaderValue.toValue_injective

theorem toHeaders_plain (record : HeaderRecord) :
    ∀ entry ∈ record.toHeaders.entries, entry.2.plain = true := by
  intro entry member
  obtain ⟨source, -, rfl⟩ := List.mem_map.mp member
  exact source.2.toValue_plain

/-- The object literal with these headers. -/
def toObject (record : HeaderRecord) : Value := .obj record.toHeaders.entries [] none

def normalEntry (platform : Platform) (entry : String × HeaderValue) : String × HeaderValue :=
  (entry.1, entry.2.normalize platform entry.1)

/-- `mergeHeaders` on texts. -/
def merge (platform : Platform) (current added : HeaderRecord) : HeaderRecord :=
  (((current.spread added.entries).entries.map (normalEntry platform)).foldl
    (fun acc entry => acc.assign entry.1 entry.2) PropertyMap.empty)

/-- Names and texts of the lines, in their order. -/
def pairs (record : HeaderRecord) : List (String × String) :=
  record.entries.flatMap fun entry =>
    if entry.1 = "" then [] else entry.2.texts.map fun text => (entry.1, text)

def line (pair : String × String) : String := pair.1 ++ ": " ++ pair.2

theorem collectHeaders_map (platform : Platform) (entries : List (String × HeaderValue))
    (result : HeaderRecord) :
    Request.collectHeaders platform (entries.map fun entry => (entry.1, entry.2.toValue))
        result.toHeaders =
      .ok (toHeaders ((entries.map (normalEntry platform)).foldl
        (fun acc entry => acc.assign entry.1 entry.2) result)) := by
  induction entries generalizing result with
  | nil => rfl
  | cons head rest ih =>
    rw [List.map_cons, Request.collectHeaders, HeaderValue.normalizeHeader_toValue]
    have stored : result.toHeaders.assign head.1 (head.2.normalize platform head.1).toValue =
        toHeaders (result.assign head.1 (head.2.normalize platform head.1)) :=
      (PropertyMap.map_assign _ _ _ _).symm
    change Request.collectHeaders platform _ (result.toHeaders.assign head.1 _) = _
    rw [stored, ih]
    rfl

theorem mergeHeaders_toHeaders (platform : Platform) (current added : HeaderRecord) :
    Request.mergeHeaders platform current.toHeaders added.toObject =
      .ok (merge platform current added).toHeaders := by
  change Request.collectHeaders platform
    ((PropertyMap.ofEntries current.toHeaders.entries).spread added.toHeaders.entries).entries
      .empty = _
  have spread : current.toHeaders.spread added.toHeaders.entries =
      toHeaders (current.spread added.entries) := (PropertyMap.map_spread _ _ _).symm
  rw [PropertyMap.ofEntries_entries, spread]
  exact collectHeaders_map platform _ .empty

theorem headerLine_textValue (key : String) (text : Option String) :
    headerLine key (HeaderValue.textValue text) = .ok (line (key, text.getD "")) := by
  cases text <;> rfl

theorem mapM_headerLine (key : String) (texts : List (Option String)) :
    (texts.map HeaderValue.textValue).mapM (headerLine key) =
      .ok (texts.map fun text => line (key, text.getD "")) := by
  induction texts with
  | nil => rfl
  | cons head rest ih =>
    rw [List.map_cons, List.mapM_cons, headerLine_textValue, ih]
    rfl

theorem mapM_headerValues (key : String) (value : HeaderValue) :
    (headerValues value.toValue).mapM (headerLine key) =
      .ok (value.texts.map fun text => line (key, text)) := by
  cases value with
  | one text =>
    have single : headerValues (HeaderValue.textValue text) = [text].map HeaderValue.textValue := by
      cases text <;> rfl
    rw [HeaderValue.toValue, single, mapM_headerLine]
    rfl
  | many texts =>
    rw [HeaderValue.toValue, headerValues, mapM_headerLine, HeaderValue.texts, List.map_map]
    rfl

theorem headerLines_map (entries : List (String × HeaderValue)) :
    headerLines (entries.map fun entry => (entry.1, entry.2.toValue)) =
      .ok ((entries.flatMap fun entry =>
        if entry.1 = "" then [] else entry.2.texts.map fun text => (entry.1, text)).map line) := by
  induction entries with
  | nil => rfl
  | cons head rest ih =>
    rw [List.map_cons, headerLines, List.flatMap_cons, ih]
    split
    · rfl
    · rw [mapM_headerValues, List.map_append, List.map_map]
      rfl

theorem headerLines_toHeaders (record : HeaderRecord) :
    headerLines record.toHeaders.entries = .ok (record.pairs.map line) :=
  headerLines_map record.entries

theorem get?_merge (platform : Platform) (current added : HeaderRecord) (key : String) :
    (merge platform current added).get? key =
      if key = "__proto__" then none
      else ((added.get? key).or (current.get? key)).map (·.normalize platform key) := by
  unfold merge
  split
  · rename_i accessor
    rw [accessor, PropertyMap.get?_foldl_assign_proto]
    rfl
  · rename_i ownKey
    have renamed : ((current.spread added.entries).entries.map (normalEntry platform)).filter
        (·.1 = key) =
        ((current.spread added.entries).entries.filter (·.1 = key)).map (normalEntry platform) := by
      rw [List.filter_map]
      rfl
    rw [PropertyMap.get?_foldl_assign _ _ _ ownKey, renamed, List.getLast?_map,
      ← PropertyMap.get?_spread, ← PropertyMap.getLast?_filter_key (current.spread added.entries)]
    cases last : ((current.spread added.entries).entries.filter (·.1 = key)).getLast? with
    | none => rfl
    | some entry =>
      have same := (List.mem_filter.mp (List.mem_of_getLast? last)).2
      rw [← of_decide_eq_true same]
      rfl

end HeaderRecord

end BrightCli.Source
