import BrightCli.Lib.JsValue
import BrightCli.Lib.Text
import BrightCli.Source.Headers

/-!
# Header arguments parse back

An argument is cut at its first colon, which an encoded name does not contain, so
the value may contain any number of them. Both parts are trimmed before they are
decoded: blanks that belong to a value survive only when they are escaped.
-/
namespace BrightCli.Guarantees.HeaderArguments
open BrightCli.Lib BrightCli.Lib.Js BrightCli.Source BrightCli.Source.Headers

/-- The argument is written for the header: the encoded name, a colon, blanks, and
the value, encoded or as it is. -/
def Writes (header : String × String) (argument : String) : Prop :=
  ∃ (blanks : List Char) (written : String), (∀ c ∈ blanks, isWhiteSpace c = true) ∧
    argument = String.ofList
      ((Uri.encodeURIComponent header.1).toList ++ ':' :: (blanks ++ written.toList)) ∧
    (written = Uri.encodeURIComponent header.2 ∨
      written = header.2 ∧ '%' ∉ header.2.toList ∧ trim header.2 = header.2)

/-- Nothing that encoding leaves is a colon or white space. -/
theorem solid_of_encoded {text : String} {c : Char}
    (member : c ∈ (Uri.encodeURIComponent text).toList) : c ≠ ':' ∧ isWhiteSpace c = false := by
  have kind := Uri.mem_encodeURIComponent member
  have small : c.toNat < 128 := by
    rcases kind with free | rfl
    · exact Uri.ascii_of_unreserved free
    · decide
  have all : ∀ n : Fin 128, Uri.unreserved (Char.ofNat n) = true ∨ Char.ofNat n = '%' →
      Char.ofNat n ≠ ':' ∧ isWhiteSpace (Char.ofNat n) = false := by decide +kernel
  have own := all ⟨c.toNat, small⟩
  simp only [Char.ofNat_toNat] at own
  exact own kind

theorem trim_of_solid {text : String} (solid : ∀ c ∈ text.toList, isWhiteSpace c = false) :
    trim text = text := by
  have front : text.toList.dropWhile isWhiteSpace = text.toList := by
    rw [List.dropWhile_eq_self_iff]
    intro inside
    simp [solid _ (List.getElem_mem inside)]
  have back : text.toList.rdropWhile isWhiteSpace = text.toList := by
    rw [List.rdropWhile_eq_self_iff]
    intro nonempty
    simp [solid _ (List.getLast_mem nonempty)]
  rw [trim, front, back, String.ofList_toList]

theorem trim_blanks {blanks : List Char} (blank : ∀ c ∈ blanks, isWhiteSpace c = true)
    (text : String) : trim (String.ofList (blanks ++ text.toList)) = trim text := by
  unfold trim
  rw [String.toList_ofList, List.dropWhile_append_of_pos blank]

theorem decoded_of_trimmed {item text : String} (solid : trim item = item)
    (decodes : Uri.decodeURIComponent item = some text) : decoded item = .ok text := by
  unfold decoded
  rw [solid, decodes]

theorem decoded_encoded (text : String) : decoded (Uri.encodeURIComponent text) = .ok text := by
  apply decoded_of_trimmed _ (Uri.decode_encode text)
  apply trim_of_solid
  intro c member
  exact (solid_of_encoded member).2

theorem decoded_blanks {blanks : List Char} (blank : ∀ c ∈ blanks, isWhiteSpace c = true)
    (text : String) : decoded (String.ofList (blanks ++ text.toList)) = decoded text := by
  unfold decoded
  rw [trim_blanks blank]

/-- The cut is at the first colon. -/
theorem parts_of_colon {name : List Char} (plain : ':' ∉ name) (rest : List Char) :
    headerName (String.ofList (name ++ ':' :: rest)) = String.ofList name ∧
      headerValue (String.ofList (name ++ ':' :: rest)) = String.ofList rest := by
  unfold headerName headerValue
  rw [String.toList_ofList, List.splitOn_append_cons_self_of_not_mem plain]
  refine ⟨rfl, ?_⟩
  rw [List.tail_cons, List.intercalate_splitOn]

theorem parseHeader_written {header : String × String} {argument : String}
    (writes : Writes header argument) : parseHeader argument = .ok header := by
  obtain ⟨blanks, written, blank, rfl, value⟩ := writes
  have plain : ':' ∉ (Uri.encodeURIComponent header.1).toList := by
    intro colon
    exact (solid_of_encoded colon).1 rfl
  obtain ⟨name, rest⟩ := parts_of_colon plain (blanks ++ written.toList)
  have decodes : decoded written = .ok header.2 := by
    rcases value with rfl | ⟨rfl, free, trimmed⟩
    · exact decoded_encoded header.2
    · exact decoded_of_trimmed trimmed (Uri.decode_of_not_mem free)
  have nonempty : String.ofList
      ((Uri.encodeURIComponent header.1).toList ++ ':' :: (blanks ++ written.toList)) ≠ "" := by
    intro empty
    have none_left := congrArg String.toList empty
    simp at none_left
  unfold parseHeader
  rw [if_neg nonempty, name, rest, String.ofList_toList, decoded_encoded, decoded_blanks blank,
    decodes]
  rfl

theorem foldlM_addHeader_written {headers : List (String × String)} {arguments : List String}
    (writes : List.Forall₂ Writes headers arguments) (acc : PropertyMap String) :
    arguments.foldlM addHeader acc = .ok (acc.spread headers) := by
  induction writes generalizing acc with
  | nil => rfl
  | @cons header argument headers arguments written _ ih =>
    have added : addHeader acc argument = .ok (acc.set header.1 header.2) := by
      unfold addHeader
      rw [parseHeader_written written]
      rfl
    rw [List.foldlM_cons, added, ok_bind, ih]
    rfl

/-- The arguments written for a list of headers parse to the map that has for each
name the value of its last occurrence. -/
theorem header_arguments_parse_back (headers : List (String × String)) (arguments : List String)
    (writes : List.Forall₂ Writes headers arguments) :
    ∃ parsed, parseHeaders arguments = .ok parsed ∧
      ∀ name, parsed.get? name = (headers.filter (·.1 = name)).getLast?.map Prod.snd := by
  refine ⟨.ofEntries headers, foldlM_addHeader_written writes .empty, ?_⟩
  intro name
  exact PropertyMap.get?_ofEntries headers name

/-- A name given twice, with a value as it is and then an encoded one. -/
theorem repeated_header_parses_back :
    ∃ parsed, parseHeaders ["x%20y: a:b", "x%20y:%20c%3A"] = .ok parsed ∧
      ∀ name, parsed.get? name =
        (([("x y", "a:b"), ("x y", " c:")].filter (·.1 = name)).getLast?.map Prod.snd) := by
  apply header_arguments_parse_back
  refine .cons ⟨[' '], "a:b", ?_, by decide, .inr ⟨rfl, by decide, by decide⟩⟩
    (.cons ⟨[], "%20c%3A", ?_, by decide, .inl (by decide)⟩ .nil)
  · exact List.forall_mem_singleton.mpr (by decide)
  · exact List.forall_mem_nil _

end BrightCli.Guarantees.HeaderArguments
