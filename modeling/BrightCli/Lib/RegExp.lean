import Mathlib.Data.List.Basic
import BrightCli.Lib.Glob

/-!
# Anchored patterns of literals and `.*`

The fragment of the ECMAScript pattern grammar that a program gets when it
escapes text and joins it with `.*` between `^` and `$`. `parse` reads the
pattern text as the `RegExp` constructor does, with no flags: an escaped syntax
character stands for itself, an unescaped one has no meaning in the fragment
and is refused. `accepts` is whole-string matching, where the dot stops at line
terminators and `.*` may take any number of characters.
-/
namespace BrightCli.Lib.RegExp

inductive Token where
  | lit (c : Char)
  | dotStar
  deriving DecidableEq, Repr

def syntaxCharacters : List Char :=
  ['^', '$', '\\', '.', '*', '+', '?', '(', ')', '[', ']', '\x7b', '\x7d', '|']

def isLineTerminator (c : Char) : Bool :=
  c = '\n' || c = '\r' || c = '\u2028' || c = '\u2029'

def parseBody : List Char → Option (List Token)
  | [] => none
  | [c] => if c = '$' then some [] else none
  | c :: d :: rest =>
    if c = '\\' then
      if d ∈ syntaxCharacters then (parseBody rest).map (.lit d :: ·) else none
    else if c = '.' ∧ d = '*' then (parseBody rest).map (.dotStar :: ·)
    else if c ∈ syntaxCharacters then none
    else (parseBody (d :: rest)).map (.lit c :: ·)

def parse : List Char → Option (List Token)
  | '^' :: body => parseBody body
  | _ => none

/-- Some way of skipping characters the dot takes leads to a suffix `p` accepts. -/
def skips (p : List Char → Bool) : List Char → Bool
  | [] => p []
  | c :: rest => p (c :: rest) || (!isLineTerminator c && skips p rest)

def accepts : List Token → List Char → Bool
  | [], text => text.isEmpty
  | .lit _ :: _, [] => false
  | .lit c :: tokens, d :: text => c = d && accepts tokens text
  | .dotStar :: tokens, text => skips (accepts tokens) text

/-- `new RegExp(pattern).test(text)`; a pattern outside the fragment tests false. -/
def test (pattern text : List Char) : Bool :=
  match parse pattern with
  | some tokens => accepts tokens text
  | none => false

/-- Replacement of every syntax character `c` by `\c`. -/
def escape (text : List Char) : List Char :=
  text.flatMap fun c => if c ∈ syntaxCharacters then ['\\', c] else [c]

theorem parseBody_escape (text rest : List Char) (more : rest ≠ []) :
    parseBody (escape text ++ rest) = (parseBody rest).map (text.map .lit ++ ·) := by
  induction text with
  | nil => simp [escape]
  | cons c tail ih =>
    have unfolded : escape (c :: tail) ++ rest =
        (if c ∈ syntaxCharacters then ['\\', c] else [c]) ++ (escape tail ++ rest) := by
      simp [escape]
    rw [unfolded]
    by_cases special : c ∈ syntaxCharacters
    · rw [if_pos special, List.cons_append, List.singleton_append, parseBody, if_pos rfl,
        if_pos special, ih, Option.map_map]
      rfl
    · have ordinary : c ≠ '\\' ∧ c ≠ '.' := by
        constructor <;> rintro rfl <;> exact special (by decide)
      obtain ⟨d, following, shape⟩ := List.exists_cons_of_ne_nil
        (show escape tail ++ rest ≠ [] by simp [more])
      rw [if_neg special, List.singleton_append, shape, parseBody, if_neg ordinary.1,
        if_neg (fun dot => ordinary.2 dot.1), if_neg special, ← shape, ih, Option.map_map]
      rfl

theorem parseBody_dotStar (rest : List Char) :
    parseBody ('.' :: '*' :: rest) = (parseBody rest).map (.dotStar :: ·) := by
  rw [parseBody, if_neg (by decide), if_pos ⟨rfl, rfl⟩]

/-- Escaped pieces joined with `.*` between the anchors denote their literals
with a gap between each two, whatever characters the pieces contain. -/
theorem parse_joined (piece : List Char) (pieces : List (List Char)) :
    parse ('^' :: ((List.intercalate ['.', '*'] ((piece :: pieces).map escape)) ++ ['$'])) =
      some (List.intercalate [.dotStar] ((piece :: pieces).map (·.map .lit))) := by
  rw [parse]
  induction pieces generalizing piece with
  | nil =>
    simp only [List.map_cons, List.map_nil, List.intercalate_singleton]
    rw [parseBody_escape piece ['$'] (by simp)]
    simp [parseBody]
  | cons next others ih =>
    simp only [List.map_cons, List.intercalate_cons_cons, List.append_assoc] at ih ⊢
    rw [parseBody_escape piece _ (by simp), List.cons_append, List.singleton_append,
      parseBody_dotStar, ih]
    simp

theorem accepts_literal (piece : List Char) (tokens : List Token) (text : List Char) :
    accepts (piece.map .lit ++ tokens) text = true ↔
      ∃ rest, text = piece ++ rest ∧ accepts tokens rest = true := by
  induction piece generalizing text with
  | nil => simp
  | cons c tail ih =>
    cases text with
    | nil => simp [accepts]
    | cons d text =>
      simp only [List.map_cons, List.cons_append, accepts, Bool.and_eq_true, decide_eq_true_eq, ih,
        List.cons.injEq]
      constructor
      · rintro ⟨rfl, rest, rfl, accepted⟩
        exact ⟨rest, ⟨rfl, rfl⟩, accepted⟩
      · rintro ⟨rest, ⟨rfl, rfl⟩, accepted⟩
        exact ⟨rfl, rest, rfl, accepted⟩

theorem skips_iff (p : List Char → Bool) (text : List Char) :
    skips p text = true ↔
      ∃ gap rest, text = gap ++ rest ∧ (∀ c ∈ gap, isLineTerminator c = false) ∧ p rest = true := by
  induction text with
  | nil =>
    constructor
    · intro accepted
      exact ⟨[], [], rfl, by simp, accepted⟩
    · rintro ⟨gap, rest, split, -, accepted⟩
      obtain ⟨rfl, rfl⟩ := List.append_eq_nil_iff.mp split.symm
      exact accepted
  | cons c tail ih =>
    simp only [skips, Bool.or_eq_true, Bool.and_eq_true, Bool.not_eq_true', ih]
    constructor
    · rintro (accepted | ⟨plain, gap, rest, rfl, skipped, accepted⟩)
      · exact ⟨[], c :: tail, rfl, by simp, accepted⟩
      · exact ⟨c :: gap, rest, rfl, by simpa using ⟨plain, skipped⟩, accepted⟩
    · rintro ⟨gap, rest, split, skipped, accepted⟩
      cases gap with
      | nil =>
        cases split
        exact Or.inl accepted
      | cons d gap =>
        cases split
        exact Or.inr ⟨skipped _ (by simp), gap, rest, rfl, fun e member => skipped e (by simp [member]),
          accepted⟩

/-- Literals with a gap between each two accept the texts with these pieces, the
gaps being what the dot takes. -/
theorem accepts_joined_iff (first : List Char) (pieces : List (List Char)) (text : List Char) :
    accepts (List.intercalate [.dotStar] ((first :: pieces).map (·.map .lit))) text = true ↔
      ∃ parts, parts.map Prod.snd = pieces ∧ text = Glob.weave first parts ∧
        ∀ part ∈ parts, ∀ c ∈ part.1, isLineTerminator c = false := by
  induction pieces generalizing first text with
  | nil =>
    have whole := accepts_literal first [] text
    simp only [List.append_nil, accepts, List.isEmpty_iff] at whole
    rw [List.map_singleton, List.intercalate_singleton, whole]
    constructor
    · rintro ⟨rest, rfl, rfl⟩
      exact ⟨[], rfl, by simp [Glob.weave], by simp⟩
    · rintro ⟨parts, none, woven, -⟩
      rw [List.map_eq_nil_iff.mp none] at woven
      exact ⟨[], by simp [woven, Glob.weave], rfl⟩
  | cons piece pieces ih =>
    have joined : List.intercalate [Token.dotStar] ((first :: piece :: pieces).map (·.map .lit)) =
        first.map .lit ++ .dotStar ::
          List.intercalate [.dotStar] ((piece :: pieces).map (·.map .lit)) := by
      simp [List.intercalate_cons_cons]
    rw [joined, accepts_literal]
    simp only [accepts, skips_iff, ih]
    constructor
    · rintro ⟨_, rfl, gap, _, rfl, dotted, parts, own, rfl, others⟩
      refine ⟨(gap, piece) :: parts, by simp [own], by simp [Glob.weave], ?_⟩
      intro part member
      rcases List.mem_cons.mp member with rfl | later
      · exact dotted
      · exact others part later
    · rintro ⟨parts, own, woven, dotted⟩
      obtain ⟨⟨gap, piece⟩, parts, rfl, rfl, rfl⟩ := List.map_eq_cons_iff.mp own
      refine ⟨gap ++ Glob.weave piece parts, by simpa [Glob.weave] using woven, gap,
        Glob.weave piece parts, rfl, dotted (gap, piece) (by simp), parts, rfl, rfl, ?_⟩
      intro part member
      exact dotted part (by simp [member])

end BrightCli.Lib.RegExp
