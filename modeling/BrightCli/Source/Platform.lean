import Mathlib.Data.List.DropRight
import BrightCli.Lib.JsValue
import BrightCli.Source.Helpers

/-!
# What the runtime and the packages provide

The URL parsers of Node, the acceptance test of the `RegExp` constructor, the
Unicode case conversions, `Buffer.from` of what is neither text nor a buffer,
`iconv-lite`, and the parser of content types are not part of this repository.
They are the fields of `Platform`, and results hold for all of them. The case
conversions carry the facts the code relies on: the upper-case table maps to
itself what it yields, and the capital letters of ASCII; lower-casing, which for
some letters looks at the text around them, is the ordinary one on ASCII text.
Functions that take a value of unknown type read and convert it in their own way:
they throw errors of their own or what that value throws, hence `Except Value`.
-/
namespace BrightCli.Source
open BrightCli.Lib BrightCli.Lib.Js

/-- What `url.parse` returns, restricted to the members that are read. -/
structure LegacyUrl where
  protocol : String
  host : String
  hostname : String
  auth : Option String
  deriving DecidableEq, Repr

structure ContentType where
  type : String
  charset : Option String
  deriving DecidableEq, Repr

structure Platform where
  parseUrl : String → Option Helpers.Url
  acceptsPattern : String → Bool
  upperChar : Char → List Char
  upper_stable : ∀ c, ∀ d ∈ upperChar c, upperChar d = [d]
  upper_capital : ∀ c, c.isUpper = true → upperChar c = [c]
  lowerCase : String → String
  lower_ascii : ∀ s : String, s.toList.all (·.toNat < 128) = true →
    lowerCase s = String.ofList (s.toList.map Char.toLower)
  bufferFromOther : Value → Except Value Utf8.Bytes
  bufferFromOther_throws : ∀ v, ThrowsOnly v.ThrownOf (bufferFromOther v)
  iconvEncode : String → Value → Except Value Utf8.Bytes
  iconvEncode_throws : ∀ text encoding, ThrowsOnly encoding.ThrownOf (iconvEncode text encoding)
  iconvDecode : Utf8.Bytes → Value → Except Value String
  iconvDecode_throws : ∀ bytes encoding, ThrowsOnly encoding.ThrownOf (iconvDecode bytes encoding)
  encodingExists : String → Bool
  safeParse : Value → ContentType
  legacyParseUrl : String → Except JsError LegacyUrl
  numberOfText : String → Option Int

theorem toUpper_not_lower (c : Char) (lower : c.isLower = true) : c.toUpper.isLower = false := by
  delta Char.isLower Char.toUpper at *
  simp only [Bool.and_eq_true, decide_eq_true_eq] at *
  grind

theorem not_lower_of_upper (c : Char) (upper : c.isUpper = true) : c.isLower = false := by
  delta Char.isLower Char.isUpper at *
  grind

/-- A platform to evaluate the model with: URLs of the form
`scheme://host[:port][/path]`, the case conversions of ASCII, every pattern
accepted, no encoder and no buffer but of text. -/
def Platform.ascii : Platform where
  parseUrl text :=
    match text.toList.dropWhile (· ≠ ':') with
    | ':' :: '/' :: '/' :: rest =>
      let host := rest.takeWhile fun c => c ≠ ':' ∧ c ≠ '/'
      let port := ((rest.dropWhile fun c => c ≠ ':' ∧ c ≠ '/').takeWhile (· ≠ '/')).filter Char.isDigit
      if host = [] then none
      else some
        { protocol := String.ofList (text.toList.takeWhile (· ≠ ':')) ++ ":"
          hostname := String.ofList host
          port := String.ofList port }
    | _ => none
  acceptsPattern _ := true
  upperChar c := if c.isLower then [c.toUpper] else [c]
  upper_stable := by
    intro c d member
    split at member
    · rename_i lower
      rw [List.mem_singleton] at member
      rw [member, toUpper_not_lower c lower]
      rfl
    · rename_i other
      rw [List.mem_singleton] at member
      rw [member, if_neg other]
  upper_capital := by
    intro c capital
    rw [not_lower_of_upper c capital]
    rfl
  lowerCase s := String.ofList (s.toList.map Char.toLower)
  lower_ascii _ _ := rfl
  bufferFromOther _ := .error (typeError "The first argument must be of type string")
  bufferFromOther_throws _ := .error (Or.inl ⟨_, rfl⟩)
  iconvEncode _ _ := .error (plainError "Encoding not recognized")
  iconvEncode_throws _ _ := .error (Or.inl ⟨_, rfl⟩)
  iconvDecode bytes _ := .ok (Utf8.decode bytes)
  iconvDecode_throws bytes _ := .ok (Utf8.decode bytes)
  encodingExists name := name = "utf-8"
  safeParse
    | .str type => { type, charset := none }
    | _ => { type := "", charset := none }
  legacyParseUrl text := .ok { protocol := "http:", host := text, hostname := text, auth := none }
  numberOfText _ := none

/-- White space and line terminators, as `String.prototype.trim` knows them. -/
def isWhiteSpace (c : Char) : Bool :=
  c = '\t' || c = '\n' || c = '\x0b' || c = '\x0c' || c = '\r' || c = ' ' || c = '\u00a0' ||
    c = '\u1680' || ('\u2000' ≤ c && c ≤ '\u200a') || c = '\u2028' || c = '\u2029' ||
    c = '\u202f' || c = '\u205f' || c = '\u3000' || c = '\ufeff'

def trim (s : String) : String :=
  String.ofList ((s.toList.dropWhile isWhiteSpace).rdropWhile isWhiteSpace)

def toUpperCase (platform : Platform) (s : String) : String :=
  String.ofList (s.toList.flatMap platform.upperChar)

def toLowerCase (platform : Platform) (s : String) : String := platform.lowerCase s

theorem toUpperCase_idem (platform : Platform) (s : String) :
    toUpperCase platform (toUpperCase platform s) = toUpperCase platform s := by
  unfold toUpperCase
  rw [String.toList_ofList, List.flatMap_assoc]
  congr 1
  apply List.flatMap_congr
  intro c _
  calc (platform.upperChar c).flatMap platform.upperChar
      = (platform.upperChar c).flatMap fun d => [d] :=
        List.flatMap_congr fun d member => platform.upper_stable c d member
    _ = platform.upperChar c := List.flatMap_singleton' _

theorem trim_idem (s : String) : trim (trim s) = trim s := by
  unfold trim
  rw [String.toList_ofList]
  congr 1
  generalize kept : s.toList.dropWhile isWhiteSpace = rest
  -- What remains after the back was trimmed still starts with what it started with.
  have front : (rest.rdropWhile isWhiteSpace).dropWhile isWhiteSpace =
      rest.rdropWhile isWhiteSpace := by
    rw [List.dropWhile_eq_self_iff]
    intro nonempty
    have pre := List.rdropWhile_prefix isWhiteSpace rest
    have same := pre.getElem nonempty
    have start : rest.dropWhile isWhiteSpace = rest := by
      rw [← kept, List.dropWhile_idempotent]
    rw [List.dropWhile_eq_self_iff] at start
    rw [same]
    exact start (Nat.lt_of_lt_of_le nonempty pre.length_le)
  rw [front, List.rdropWhile_idempotent]

theorem trim_isInfix (s : String) : (trim s).toList <:+: s.toList := by
  rw [trim, String.toList_ofList]
  exact (List.rdropWhile_prefix _ _).isInfix.trans (List.dropWhile_suffix _).isInfix

/-- The text starts and ends with something other than white space. -/
structure Edged (text : List Char) : Prop where
  first : ∃ c, text.head? = some c ∧ isWhiteSpace c = false
  last : ∃ c, text.getLast? = some c ∧ isWhiteSpace c = false

/-- A text that is not empty is left alone by `trim` exactly when it is edged. -/
theorem trim_eq_self_iff {s : String} (nonempty : s.toList ≠ []) : trim s = s ↔ Edged s.toList := by
  constructor
  · intro same
    have chars : (s.toList.dropWhile isWhiteSpace).rdropWhile isWhiteSpace = s.toList := by
      rw [← String.toList_inj, trim, String.toList_ofList] at same
      exact same
    have back := List.rdropWhile_prefix isWhiteSpace (s.toList.dropWhile isWhiteSpace)
    have front : s.toList.dropWhile isWhiteSpace = s.toList := by
      rw [chars] at back
      exact (List.dropWhile_suffix _).eq_of_length_le back.length_le
    rw [front] at chars
    rw [List.dropWhile_eq_self_iff] at front
    rw [List.rdropWhile_eq_self_iff] at chars
    refine ⟨⟨s.toList.head nonempty, List.head?_eq_some_head nonempty, ?_⟩,
      ⟨s.toList.getLast nonempty, List.getLast?_eq_some_getLast nonempty, ?_⟩⟩
    · have := front (List.length_pos_of_ne_nil nonempty)
      rw [List.head_eq_getElem]
      simpa using this
    · simpa using chars nonempty
  · rintro ⟨⟨c, head, solid⟩, ⟨d, last, solid'⟩⟩
    have front : s.toList.dropWhile isWhiteSpace = s.toList := by
      rw [List.dropWhile_eq_self_iff]
      intro positive
      obtain ⟨rest, shape⟩ := List.head?_eq_some_iff.mp head
      simp [shape, solid]
    have back : s.toList.rdropWhile isWhiteSpace = s.toList := by
      rw [List.rdropWhile_eq_self_iff]
      intro _
      obtain ⟨start, shape⟩ := List.getLast?_eq_some_iff.mp last
      simp [shape, solid']
    rw [trim, front, back, String.ofList_toList]

theorem Edged.around {front back : List Char} (left : Edged front) (right : Edged back)
    (middle : List Char) : Edged (front ++ middle ++ back) := by
  obtain ⟨c, head, solid⟩ := left.first
  obtain ⟨d, last, solid'⟩ := right.last
  refine ⟨⟨c, ?_, solid⟩, ⟨d, ?_, solid'⟩⟩
  · simp [List.head?_append, head]
  · simp [List.getLast?_append, last]

end BrightCli.Source
