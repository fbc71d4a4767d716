import Mathlib.Data.Finset.Max
import BrightCli.Source.Headers

/-!
# Headers of `scan:run` and of `discovery:run`

`scan:run` parses its header arguments; `discovery:run` hands the array on, and
the REST client, which expects an object, takes the indices for the names and
the arguments for the values. A parsed value is shorter than the argument it was
taken from (`parseHeader_shorter`), so the longest argument is a value that
`discovery:run` posts and `scan:run` does not: the two agree on the empty list
only. Without the option one posts an empty array and the other none.
-/
namespace BrightCli.Guarantees.HeaderAgreement
open BrightCli.Lib BrightCli.Lib.Js BrightCli.Source BrightCli.Source.Headers

theorem decoded_length {item text : String} (ok : decoded item = .ok text) :
    text.toList.length ≤ item.toList.length := by
  unfold decoded at ok
  split at ok
  · rename_i result done
    cases ok
    exact Nat.le_trans (Uri.decodeURIComponent_length done) (trim_isInfix item).length_le
  · cases ok

/-- The first colon and what precedes it are not part of the value. -/
theorem headerValue_shorter {header : String} (nonempty : header ≠ "") :
    (headerValue header).toList.length < header.toList.length := by
  have whole : List.intercalate [':'] (header.toList.splitOn ':') = header.toList :=
    List.intercalate_splitOn ':'
  have some_char : header.toList ≠ [] := by simpa using nonempty
  rw [headerValue, String.toList_ofList]
  revert whole
  generalize header.toList.splitOn ':' = pieces
  intro whole
  match pieces with
  | [] => exact absurd whole.symm some_char
  | [name] => simpa using List.length_pos_iff.mpr some_char
  | name :: value :: rest =>
    rw [List.intercalate_cons_cons] at whole
    rw [← whole, List.tail_cons]
    simp only [List.length_append, List.length_singleton]
    omega

theorem parseHeader_shorter {header name value : String}
    (ok : parseHeader header = .ok (name, value)) :
    value.toList.length < header.toList.length := by
  unfold parseHeader at ok
  split at ok
  · cases ok
  · rename_i nonempty
    obtain ⟨key, _, rest⟩ := bind_eq_ok_iff.mp ok
    obtain ⟨text, decodes, done⟩ := bind_eq_ok_iff.mp rest
    cases done
    exact Nat.lt_of_le_of_lt (decoded_length decodes) (headerValue_shorter nonempty)

/-- The value was taken from one of the arguments. -/
def Taken (headers : List String) (entry : String × String) : Prop :=
  ∃ header ∈ headers, ∃ name, parseHeader header = .ok (name, entry.2)

theorem foldlM_addHeader_taken {headers rest : List String} {acc result : PropertyMap String}
    (within : rest ⊆ headers) (taken : ∀ entry ∈ acc.entries, Taken headers entry)
    (ok : rest.foldlM addHeader acc = .ok result) :
    ∀ entry ∈ result.entries, Taken headers entry := by
  induction rest generalizing acc with
  | nil =>
    cases ok
    exact taken
  | cons header rest ih =>
    rw [List.foldlM_cons] at ok
    obtain ⟨next, added, ok⟩ := bind_eq_ok_iff.mp ok
    obtain ⟨parsed, parses, set⟩ := bind_eq_ok_iff.mp added
    cases set
    refine ih (List.subset_of_cons_subset within) ?_ ok
    intro entry member
    rcases PropertyMap.mem_set member with rfl | old
    · exact ⟨header, within List.mem_cons_self, parsed.1, parses⟩
    · exact taken entry old

theorem parseHeaders_taken {headers : List String} {parsed : PropertyMap String}
    (ok : parseHeaders headers = .ok parsed) : ∀ entry ∈ parsed.entries, Taken headers entry :=
  foldlM_addHeader_taken (List.Subset.refl _) (by simp [PropertyMap.empty]) ok

/-- The headers that `scan:run` posts have values shorter than some argument. -/
theorem scan_values_shorter {headers : List String} {parsed : PropertyMap String}
    (ok : parseHeaders headers = .ok parsed) {posted : List Header}
    (sent : RunScan.handler (some headers) = .ok (some posted)) :
    ∀ header ∈ posted, ∃ argument ∈ headers,
      header.value.toList.length < argument.toList.length := by
  have exact_posted : posted = parsed.entries.map fun entry =>
      { name := entry.1, value := entry.2, mergeStrategy := "replace" } := by
    simpa [RunScan.handler, ok, RestScans.prepareScanConfig, headersOf, eq_comm] using sent
  intro header member
  rw [exact_posted] at member
  obtain ⟨entry, belongs, rfl⟩ := List.mem_map.mp member
  obtain ⟨argument, given, name, parses⟩ := parseHeaders_taken ok entry belongs
  exact ⟨argument, given, parseHeader_shorter parses⟩

/-- The headers that `discovery:run` posts have the arguments as values. -/
theorem discovery_values {headers : List String} {argument : String} (given : argument ∈ headers) :
    ∃ posted, RunDiscovery.handler (some headers) = .ok (some posted) ∧
      ∃ header ∈ posted, header.value = argument := by
  refine ⟨_, rfl, ?_⟩
  obtain ⟨i, at_i⟩ := List.mem_iff_getElem?.mp given
  have indexed : (argument, i) ∈ headers.zipIdx := List.mem_zipIdx_iff_getElem?.mpr at_i
  exact ⟨_, List.mem_map_of_mem (List.mem_map_of_mem indexed), rfl⟩

/-- Both commands post the same headers exactly when the option is given and has no arguments. -/
theorem headers_agree_iff (option : Option (List String)) (parsed : PropertyMap String)
    (accepted : parseHeaders (option.getD []) = .ok parsed) :
    RunDiscovery.handler option = RunScan.handler option ↔ option = some [] := by
  cases option with
  | none => decide
  | some headers =>
    rw [Option.some_inj]
    constructor
    · intro agree
      by_contra some_header
      -- The longest argument is posted by one command and too long for the other.
      obtain ⟨longest, given, maximal⟩ := headers.toFinset.exists_max_image
        (fun header => header.toList.length) (List.toFinset_nonempty_iff headers |>.mpr some_header)
      rw [List.mem_toFinset] at given
      obtain ⟨posted, sent, header, member, value⟩ := discovery_values given
      obtain ⟨argument, other, shorter⟩ :=
        scan_values_shorter accepted (agree.symm.trans sent) header member
      rw [value] at shorter
      exact absurd (maximal argument (List.mem_toFinset.mpr other)) (Nat.not_le_of_lt shorter)
    · rintro rfl
      rfl

theorem no_headers_agree :
    RunDiscovery.handler (some []) = RunScan.handler (some []) :=
  (headers_agree_iff (some []) .empty rfl).mpr rfl

/-- `-H "accept: text/html"`. -/
theorem index_posted_as_name :
    RunScan.handler (some ["accept: text/html"]) =
      .ok (some [{ name := "accept", value := "text/html", mergeStrategy := "replace" }]) ∧
    RunDiscovery.handler (some ["accept: text/html"]) =
      .ok (some [{ name := "0", value := "accept: text/html", mergeStrategy := "replace" }]) := by
  decide

end BrightCli.Guarantees.HeaderAgreement
