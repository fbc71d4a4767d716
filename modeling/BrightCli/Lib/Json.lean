import Mathlib.Data.List.TakeWhile

/-!
# JSON

`write` is `JSON.stringify` of plain data, with the white space of its third argument,
and `parse` is `JSON.parse`. Numbers are whole: a text with a fraction or an exponent
is not read. Of two fields with one name the last one counts (`field?`). A character is
a Unicode scalar value, so the escape of half a surrogate pair is not read either.
-/
namespace BrightCli.Lib

inductive Json where
  | null
  | bool (b : Bool)
  | num (n : Int)
  | str (s : String)
  | arr (items : List Json)
  | obj (fields : List (String × Json))
  deriving Repr

namespace Json

/-- A field of an object. -/
def field? (key : String) : Json → Option Json
  | .obj fields => (fields.reverse.find? (·.1 = key)).map Prod.snd
  | _ => none

/-! ## Writing -/

def hexDigit (n : Nat) : Char := n.digitChar

/-- What stands for a character between the quotes. -/
def escapeChar (c : Char) : List Char :=
  if c = '"' then ['\\', '"']
  else if c = '\\' then ['\\', '\\']
  else if c = '\x08' then ['\\', 'b']
  else if c = '\x0c' then ['\\', 'f']
  else if c = '\n' then ['\\', 'n']
  else if c = '\r' then ['\\', 'r']
  else if c = '\t' then ['\\', 't']
  else if c.toNat < 0x20 then ['\\', 'u', '0', '0', hexDigit (c.toNat / 16), hexDigit (c.toNat % 16)]
  else [c]

def quote (s : String) : List Char := '"' :: (s.toList.flatMap escapeChar ++ ['"'])

/-- The line break before a token at this depth; none without a gap. -/
def newline (gap : List Char) (level : Nat) : List Char :=
  if gap = [] then [] else '\n' :: (List.replicate level gap).flatten

def colon (gap : List Char) : List Char := if gap = [] then [':'] else [':', ' ']

mutual

def write (gap : List Char) (level : Nat) : Json → List Char
  | .null => ['n', 'u', 'l', 'l']
  | .bool true => ['t', 'r', 'u', 'e']
  | .bool false => ['f', 'a', 'l', 's', 'e']
  | .num n => (toString n).toList
  | .str s => quote s
  | .arr [] => ['[', ']']
  | .arr (item :: items) =>
    '[' :: (newline gap (level + 1) ++ (write gap (level + 1) item ++ writeItems gap level items))
  | .obj [] => ['{', '}']
  | .obj ((key, value) :: fields) =>
    '{' :: (newline gap (level + 1) ++ (quote key ++ (colon gap ++ (write gap (level + 1) value ++
      writeFields gap level fields))))

/-- The items after the first one, and the end of the array. -/
def writeItems (gap : List Char) (level : Nat) : List Json → List Char
  | [] => newline gap level ++ [']']
  | item :: items =>
    ',' :: (newline gap (level + 1) ++ (write gap (level + 1) item ++ writeItems gap level items))

def writeFields (gap : List Char) (level : Nat) : List (String × Json) → List Char
  | [] => newline gap level ++ ['}']
  | (key, value) :: fields =>
    ',' :: (newline gap (level + 1) ++ (quote key ++ (colon gap ++ (write gap (level + 1) value ++
      writeFields gap level fields))))

end

/-- `JSON.stringify(value)`. -/
def compact (value : Json) : String := String.ofList (write [] 0 value)

/-- `JSON.stringify(value, null, 2)`. -/
def pretty (value : Json) : String := String.ofList (write [' ', ' '] 0 value)

/-! ## Reading -/

def isSpace (c : Char) : Bool := c = ' ' || c = '\n' || c = '\r' || c = '\t'

def skip (text : List Char) : List Char := text.dropWhile isSpace

def hexValue? (c : Char) : Option Nat :=
  if '0' ≤ c ∧ c ≤ '9' then some (c.toNat - '0'.toNat)
  else if 'a' ≤ c ∧ c ≤ 'f' then some (c.toNat - 'a'.toNat + 10)
  else if 'A' ≤ c ∧ c ≤ 'F' then some (c.toNat - 'A'.toNat + 10)
  else none

/-- The code unit of `\u` and four digits. -/
def codeUnit? (a b c d : Char) : Option Nat := do
  let a ← hexValue? a
  let b ← hexValue? b
  let c ← hexValue? c
  let d ← hexValue? d
  some (((a * 16 + b) * 16 + c) * 16 + d)

/-- The character of two code units that are a surrogate pair. -/
def surrogates? (high low : Nat) : Option Char :=
  if 0xD800 ≤ high ∧ high < 0xDC00 ∧ 0xDC00 ≤ low ∧ low < 0xE000 then
    some (Char.ofNat (0x10000 + (high - 0xD800) * 0x400 + (low - 0xDC00)))
  else none

/-- The character of a code unit that is one by itself. -/
def character? (unit : Nat) : Option Char :=
  if 0xD800 ≤ unit ∧ unit < 0xE000 then none else some (Char.ofNat unit)

/-- The letters after a backslash. -/
def escapes : List (Char × Char) :=
  [('"', '"'), ('\\', '\\'), ('/', '/'), ('b', '\x08'), ('f', '\x0c'), ('n', '\n'), ('r', '\r'),
    ('t', '\t')]

/-- The escape after `\u`. -/
def readUnicode : List Char → Option (Char × List Char)
  | a :: b :: c :: d :: rest => do
    let unit ← codeUnit? a b c d
    match character? unit with
    | some char => some (char, rest)
    | none =>
      match rest with
      | backslash :: u :: e :: f :: g :: h :: rest =>
        if backslash = '\\' ∧ u = 'u' then do
          let low ← codeUnit? e f g h
          let char ← surrogates? unit low
          some (char, rest)
        else none
      | _ => none
  | _ => none

/-- The next character of a string; `none` for the closing quote. -/
def readChar : List Char → Option (Option Char × List Char)
  | [] => none
  | c :: rest =>
    if c = '"' then some (none, rest)
    else if c = '\\' then
      match rest with
      | [] => none
      | letter :: rest =>
        if letter = 'u' then (readUnicode rest).map fun (char, rest) => (some char, rest)
        else (escapes.lookup letter).map fun char => (some char, rest)
    else if c.toNat < 0x20 then none
    else some (some c, rest)

/-- The characters up to the closing quote, and what follows it. -/
def stringBody : Nat → List Char → Option (List Char × List Char)
  | 0, _ => none
  | fuel + 1, text => do
    match ← readChar text with
    | (none, rest) => some ([], rest)
    | (some char, rest) => do
      let (chars, rest) ← stringBody fuel rest
      some (char :: chars, rest)

/-- A string after its opening quote. -/
def readString (text : List Char) : Option (String × List Char) :=
  (stringBody (text.length + 1) text).map fun (chars, rest) => (String.ofList chars, rest)

/-- No digits, a zero before others, and what would make the number another one are refused. -/
def readDigits (text : List Char) : Option (Nat × List Char) :=
  let digits := text.takeWhile Char.isDigit
  let rest := text.dropWhile Char.isDigit
  if digits = [] ∨ (digits.head? = some '0' ∧ 1 < digits.length) ∨
      rest.head? ∈ [some '.', some 'e', some 'E'] then none
  else some (Nat.ofDigitChars 10 digits 0, rest)

def readNumber : List Char → Option (Json × List Char)
  | [] => none
  | c :: rest =>
    if c = '-' then (readDigits rest).map fun (n, rest) => (.num (-n), rest)
    else (readDigits (c :: rest)).map fun (n, rest) => (.num n, rest)

/-- A value that is neither a string nor a collection. -/
def readAtom (text : List Char) : Option (Json × List Char) :=
  if ['n', 'u', 'l', 'l'].isPrefixOf text then some (.null, text.drop 4)
  else if ['t', 'r', 'u', 'e'].isPrefixOf text then some (.bool true, text.drop 4)
  else if ['f', 'a', 'l', 's', 'e'].isPrefixOf text then some (.bool false, text.drop 5)
  else readNumber text

/-- The next token is this character. -/
def next? (c : Char) (text : List Char) : Option (List Char) :=
  match skip text with
  | first :: rest => if first = c then some rest else none
  | [] => none

mutual

/-- A value and what follows it. -/
def readValue : Nat → List Char → Option (Json × List Char)
  | 0, _ => none
  | fuel + 1, text =>
    match next? '"' text, next? '[' text, next? '{' text with
    | some rest, _, _ => (readString rest).map fun (s, rest) => (.str s, rest)
    | _, some rest, _ =>
      match next? ']' rest with
      | some rest => some (.arr [], rest)
      | none => do
        let (item, rest) ← readValue fuel rest
        let (items, rest) ← readItems fuel rest
        some (.arr (item :: items), rest)
    | _, _, some rest =>
      match next? '}' rest with
      | some rest => some (.obj [], rest)
      | none => do
        let (field, rest) ← readField fuel rest
        let (fields, rest) ← readFields fuel rest
        some (.obj (field :: fields), rest)
    | none, none, none => readAtom (skip text)

def readItems : Nat → List Char → Option (List Json × List Char)
  | 0, _ => none
  | fuel + 1, text =>
    match next? ']' text, next? ',' text with
    | some rest, _ => some ([], rest)
    | none, some rest => do
      let (item, rest) ← readValue fuel rest
      let (items, rest) ← readItems fuel rest
      some (item :: items, rest)
    | none, none => none

def readField : Nat → List Char → Option ((String × Json) × List Char)
  | 0, _ => none
  | fuel + 1, text => do
    let rest ← next? '"' text
    let (key, rest) ← readString rest
    let rest ← next? ':' rest
    let (value, rest) ← readValue fuel rest
    some ((key, value), rest)

def readFields : Nat → List Char → Option (List (String × Json) × List Char)
  | 0, _ => none
  | fuel + 1, text =>
    match next? '}' text, next? ',' text with
    | some rest, _ => some ([], rest)
    | none, some rest => do
      let (field, rest) ← readField fuel rest
      let (fields, rest) ← readFields fuel rest
      some (field :: fields, rest)
    | none, none => none

end

/-- `JSON.parse`; `none` where it throws. Every level of a value takes a character at least. -/
def parse (text : String) : Option Json :=
  match readValue (2 * text.toList.length + 2) text.toList with
  | some (value, rest) => if skip rest = [] then some value else none
  | none => none

/-! ## Reading what was written -/

theorem skip_blank {blank : List Char} (space : ∀ c ∈ blank, isSpace c = true) (text : List Char) :
    skip (blank ++ text) = skip text :=
  List.dropWhile_append_of_pos space

theorem skip_cons {c : Char} (printed : isSpace c = false) (rest : List Char) :
    skip (c :: rest) = c :: rest := by
  simp [skip, printed]

theorem next?_blank {blank : List Char} (space : ∀ c ∈ blank, isSpace c = true) (c : Char)
    (text : List Char) : next? c (blank ++ text) = next? c text := by
  rw [next?, next?, skip_blank space]

theorem next?_cons {first : Char} (printed : isSpace first = false) (c : Char) (rest : List Char) :
    next? c (first :: rest) = if first = c then some rest else none := by
  rw [next?, skip_cons printed]

theorem newline_blank {gap : List Char} (space : ∀ c ∈ gap, isSpace c = true) (level : Nat) :
    ∀ c ∈ newline gap level, isSpace c = true := by
  intro c member
  rw [newline] at member
  split at member
  · cases member
  · rcases List.mem_cons.mp member with rfl | inside
    · rfl
    · obtain ⟨part, listed, own⟩ := List.mem_flatten.mp inside
      exact space c (List.eq_of_mem_replicate listed ▸ own)

/-! ### Strings -/

theorem hexValue?_hexDigit : ∀ n, n < 16 → hexValue? (hexDigit n) = some n := by decide

theorem readChar_escapeChar (c : Char) (rest : List Char) :
    readChar (escapeChar c ++ rest) = some (some c, rest) := by
  unfold escapeChar
  iterate 7
    split
    case isTrue same =>
      subst same
      rfl
  split
  · rename_i control
    have high := hexValue?_hexDigit (c.toNat / 16) (by omega)
    have low := hexValue?_hexDigit (c.toNat % 16) (by omega)
    have zero : hexValue? '0' = some 0 := by decide
    have unit : codeUnit? '0' '0' (hexDigit (c.toNat / 16)) (hexDigit (c.toNat % 16)) =
        some c.toNat := by
      simp only [codeUnit?, zero, high, low, Option.bind_eq_bind, Option.bind_some]
      congr 1
      omega
    have char : character? c.toNat = some c := by
      rw [character?, if_neg (by omega), Char.ofNat_toNat]
    simp [readChar, readUnicode, unit, char]
  · rename_i quotation backslash _ _ _ _ _ control
    simp [readChar, quotation, backslash, control]

theorem stringBody_escaped (chars rest : List Char) {fuel : Nat} (enough : chars.length < fuel) :
    stringBody fuel (chars.flatMap escapeChar ++ '"' :: rest) = some (chars, rest) := by
  induction chars generalizing fuel with
  | nil =>
    obtain ⟨fuel, rfl⟩ := Nat.exists_eq_add_one.mpr enough
    rfl
  | cons c chars ih =>
    obtain ⟨fuel, rfl⟩ := Nat.exists_eq_add_one.mpr (Nat.zero_lt_of_lt enough)
    have later := ih (Nat.lt_of_succ_lt_succ enough)
    rw [List.flatMap_cons, List.append_assoc, stringBody, readChar_escapeChar]
    simp [later]

theorem length_escapeChar_pos (c : Char) : 1 ≤ (escapeChar c).length := by
  unfold escapeChar
  repeat' split
  all_goals simp

theorem length_le_escaped (chars : List Char) : chars.length ≤ (chars.flatMap escapeChar).length := by
  induction chars with
  | nil => exact Nat.le_refl 0
  | cons c chars ih =>
    have own := length_escapeChar_pos c
    rw [List.flatMap_cons, List.length_append, List.length_cons]
    omega

theorem readString_quoted (s : String) (rest : List Char) :
    readString (s.toList.flatMap escapeChar ++ '"' :: rest) = some (s, rest) := by
  have enough : s.toList.length < (s.toList.flatMap escapeChar ++ '"' :: rest).length + 1 := by
    have longer := length_le_escaped s.toList
    rw [List.length_append]
    omega
  rw [readString, stringBody_escaped _ _ enough]
  simp

/-! ### Numbers -/

/-- What may follow a number without being part of it. -/
def Ends (rest : List Char) : Prop :=
  ∀ c, rest.head? = some c → c.isDigit = false ∧ c ≠ '.' ∧ c ≠ 'e' ∧ c ≠ 'E'

theorem ends_cons {c : Char} (other : c.isDigit = false ∧ c ≠ '.' ∧ c ≠ 'e' ∧ c ≠ 'E')
    (rest : List Char) : Ends (c :: rest) := by
  intro first head
  cases head
  exact other

/-- Only zero is written with a leading zero. -/
theorem head_toDigits {n : Nat} (positive : 0 < n) : (Nat.toDigits 10 n).head? ≠ some '0' := by
  induction n using Nat.strongRecOn with
  | ind n ih =>
    by_cases small : n < 10
    · rw [Nat.toDigits_of_lt_base small]
      simp
      omega
    · rw [Nat.toDigits_of_base_le (by decide) (by omega)]
      have front := ih (n / 10) (by omega) (by omega)
      cases shape : Nat.toDigits 10 (n / 10) with
      | nil => exact absurd shape Nat.toDigits_ne_nil
      | cons first rest =>
        rw [shape] at front
        simpa using front

theorem readDigits_written (n : Nat) {rest : List Char} (ends : Ends rest) :
    readDigits (Nat.toDigits 10 n ++ rest) = some (n, rest) := by
  have digits : ∀ c ∈ Nat.toDigits 10 n, c.isDigit = true := fun c member =>
    Nat.isDigit_of_mem_toDigits (by decide) (by decide) member
  have stop : rest.takeWhile Char.isDigit = [] ∧ rest.dropWhile Char.isDigit = rest := by
    cases rest with
    | nil => exact ⟨rfl, rfl⟩
    | cons c rest =>
      have other := (ends c rfl).1
      simp [other]
  have taken : (Nat.toDigits 10 n ++ rest).takeWhile Char.isDigit = Nat.toDigits 10 n := by
    rw [List.takeWhile_append_of_pos digits, stop.1, List.append_nil]
  have left : (Nat.toDigits 10 n ++ rest).dropWhile Char.isDigit = rest := by
    rw [List.dropWhile_append_of_pos digits, stop.2]
  have canonical : ¬ ((Nat.toDigits 10 n).head? = some '0' ∧ 1 < (Nat.toDigits 10 n).length) := by
    rintro ⟨zero, long⟩
    by_cases positive : 0 < n
    · exact head_toDigits positive zero
    · have same : n = 0 := by omega
      subst same
      simp at long
  have whole : rest.head? ∉ [some '.', some 'e', some 'E'] := by
    intro member
    simp only [List.mem_cons, List.not_mem_nil, or_false] at member
    rcases member with point | small | capital
    · exact (ends _ point).2.1 rfl
    · exact (ends _ small).2.2.1 rfl
    · exact (ends _ capital).2.2.2 rfl
  simp only [readDigits, taken, left]
  rw [if_neg (by simp only [Nat.toDigits_ne_nil, canonical, whole, or_self, not_false_eq_true]),
    Nat.ofDigitChars_ten_toDigits]

/-- How a number begins. -/
theorem integer_shape (n : Int) :
    (0 ≤ n ∧ (toString n).toList = Nat.toDigits 10 n.toNat) ∨
      (n < 0 ∧ (toString n).toList = '-' :: Nat.toDigits 10 (-n).toNat) := by
  cases n with
  | ofNat n =>
    refine Or.inl ⟨Int.natCast_nonneg n, ?_⟩
    exact Nat.toList_repr
  | negSucc n =>
    refine Or.inr ⟨Int.negSucc_lt_zero n, ?_⟩
    have text : toString (Int.negSucc n) = "-" ++ Nat.repr (n + 1) := rfl
    have sign : "-".toList = ['-'] := String.toList_ofList
    rw [text, String.toList_append, sign, Nat.toList_repr]
    rfl

theorem not_mem_of_digit {c : Char} (digit : c.isDigit = true) {others : List Char}
    (free : others.all (fun d => !d.isDigit) = true) : c ∉ others := by
  intro member
  have other := List.all_eq_true.mp free c member
  rw [digit] at other
  exact Bool.false_ne_true other

theorem isSpace_digit {c : Char} (digit : c.isDigit = true) : isSpace c = false := by
  have other : c ∉ [' ', '\n', '\r', '\t'] := not_mem_of_digit digit (by decide)
  simp only [List.mem_cons, List.not_mem_nil, or_false, not_or] at other
  simp [isSpace, other]

/-- The digits of a number begin with a digit. -/
theorem digits_cons (n : Nat) :
    ∃ first others, Nat.toDigits 10 n = first :: others ∧ first.isDigit = true := by
  cases digits : Nat.toDigits 10 n with
  | nil => exact absurd digits Nat.toDigits_ne_nil
  | cons first others =>
    have member : first ∈ Nat.toDigits 10 n := by simp [digits]
    exact ⟨first, others, rfl, Nat.isDigit_of_mem_toDigits (by decide) (by decide) member⟩

theorem readNumber_written (n : Int) {rest : List Char} (ends : Ends rest) :
    readNumber ((toString n).toList ++ rest) = some (.num n, rest) := by
  rcases integer_shape n with ⟨sign, shape⟩ | ⟨sign, shape⟩
  · have read := readDigits_written n.toNat ends
    rw [shape]
    obtain ⟨first, others, digits, digit⟩ := digits_cons n.toNat
    have unsigned : first ≠ '-' := by
      have other : first ∉ ['-'] := not_mem_of_digit digit (by decide)
      simpa using other
    rw [digits] at read
    rw [digits, List.cons_append] at *
    rw [readNumber, if_neg unsigned, read]
    simp only [Option.map_some, Int.toNat_of_nonneg sign]
  · have read := readDigits_written (-n).toNat ends
    rw [shape, List.cons_append, readNumber, if_pos rfl, read]
    have back : -((-n).toNat : Int) = n := by omega
    simp only [Option.map_some, back]

/-! ### Values -/

/-- The first character of a value, which tells it from a bracket, a comma and a colon. -/
structure Opens (c : Char) : Prop where
  printed : isSpace c = false
  value : c ∉ [']', '}', ',', ':']

theorem write_opens (gap : List Char) (level : Nat) (value : Json) :
    ∃ c rest, write gap level value = c :: rest ∧ Opens c := by
  cases value with
  | null => exact ⟨'n', _, by rw [write], by decide, by decide⟩
  | bool b =>
    cases b with
    | true => exact ⟨'t', _, by rw [write], by decide, by decide⟩
    | false => exact ⟨'f', _, by rw [write], by decide, by decide⟩
  | num n =>
    rw [write]
    rcases integer_shape n with ⟨-, shape⟩ | ⟨-, shape⟩
    · obtain ⟨first, others, digits, digit⟩ := digits_cons n.toNat
      exact ⟨first, others, by rw [shape, digits], isSpace_digit digit,
        not_mem_of_digit digit (by decide)⟩
    · exact ⟨'-', _, shape, by decide, by decide⟩
  | str s => exact ⟨'"', _, by rw [write, quote], by decide, by decide⟩
  | arr items =>
    cases items with
    | nil => exact ⟨'[', _, by rw [write], by decide, by decide⟩
    | cons item items => exact ⟨'[', _, by rw [write], by decide, by decide⟩
  | obj fields =>
    cases fields with
    | nil => exact ⟨'{', _, by rw [write], by decide, by decide⟩
    | cons field fields =>
      obtain ⟨key, value⟩ := field
      exact ⟨'{', _, by rw [write], by decide, by decide⟩

theorem next?_self (c : Char) (printed : isSpace c = false) (rest : List Char) :
    next? c (c :: rest) = some rest := by
  rw [next?_cons printed, if_pos rfl]

theorem next?_other (first c : Char) (printed : isSpace first = false) (other : first ≠ c)
    (rest : List Char) : next? c (first :: rest) = none := by
  rw [next?_cons printed, if_neg other]

/-- A value is none of the marks between values. -/
theorem next?_write (gap : List Char) (level : Nat) (value : Json) {c : Char}
    (mark : c ∈ [']', '}', ',', ':']) (rest : List Char) :
    next? c (write gap level value ++ rest) = none := by
  obtain ⟨first, tail, shape, opens⟩ := write_opens gap level value
  rw [shape, List.cons_append]
  exact next?_other first c opens.printed (fun same => opens.value (same ▸ mark)) _

theorem readValue_blank {blank : List Char} (space : ∀ c ∈ blank, isSpace c = true) (fuel : Nat)
    (text : List Char) : readValue fuel (blank ++ text) = readValue fuel text := by
  cases fuel with
  | zero => rfl
  | succ fuel =>
    simp only [readValue, next?_blank space, skip_blank space]

theorem readField_blank {blank : List Char} (space : ∀ c ∈ blank, isSpace c = true) (fuel : Nat)
    (text : List Char) : readField fuel (blank ++ text) = readField fuel text := by
  cases fuel with
  | zero => rfl
  | succ fuel => simp only [readField, next?_blank space]

theorem readValue_string (fuel : Nat) (rest : List Char) :
    readValue (fuel + 1) ('"' :: rest) = (readString rest).map fun (s, rest) => (.str s, rest) := by
  simp only [readValue, next?_self '"' (by decide)]

theorem readValue_atom {first : Char} (printed : isSpace first = false)
    (plain : first ∉ ['"', '[', '{']) (fuel : Nat) (rest : List Char) :
    readValue (fuel + 1) (first :: rest) = readAtom (first :: rest) := by
  simp only [List.mem_cons, List.not_mem_nil, or_false, not_or] at plain
  simp only [readValue, next?_other first _ printed plain.1, next?_other first _ printed plain.2.1,
    next?_other first _ printed plain.2.2, skip_cons printed]

theorem readValue_array {fuel : Nat} {text left rest : List Char} {item : Json} {items : List Json}
    (more : next? ']' text = none) (first : readValue fuel text = some (item, left))
    (others : readItems fuel left = some (items, rest)) :
    readValue (fuel + 1) ('[' :: text) = some (.arr (item :: items), rest) := by
  simp only [readValue, next?_other '[' '"' (by decide) (by decide),
    next?_self '[' (by decide), more, first, others, Option.bind_eq_bind, Option.bind_some]

theorem readValue_object {fuel : Nat} {text left rest : List Char} {field : String × Json}
    {fields : List (String × Json)} (more : next? '}' text = none)
    (first : readField fuel text = some (field, left))
    (others : readFields fuel left = some (fields, rest)) :
    readValue (fuel + 1) ('{' :: text) = some (.obj (field :: fields), rest) := by
  simp only [readValue, next?_other '{' '"' (by decide) (by decide),
    next?_other '{' '[' (by decide) (by decide),
    next?_self '{' (by decide), more, first, others, Option.bind_eq_bind, Option.bind_some]

theorem readItems_more {fuel : Nat} {text left rest : List Char} {item : Json} {items : List Json}
    (first : readValue fuel text = some (item, left))
    (others : readItems fuel left = some (items, rest)) :
    readItems (fuel + 1) (',' :: text) = some (item :: items, rest) := by
  simp only [readItems, next?_other ',' ']' (by decide) (by decide), next?_self ',' (by decide),
    first, others, Option.bind_eq_bind, Option.bind_some]

theorem readFields_more {fuel : Nat} {text left rest : List Char} {field : String × Json}
    {fields : List (String × Json)} (first : readField fuel text = some (field, left))
    (others : readFields fuel left = some (fields, rest)) :
    readFields (fuel + 1) (',' :: text) = some (field :: fields, rest) := by
  simp only [readFields, next?_other ',' '}' (by decide) (by decide), next?_self ',' (by decide),
    first, others, Option.bind_eq_bind, Option.bind_some]

theorem ends_newline (gap : List Char) (level : Nat) {c : Char} (mark : c ∈ [']', '}', ',']) (rest : List Char) :
    Ends (newline gap level ++ c :: rest) := by
  have closes : c.isDigit = false ∧ c ≠ '.' ∧ c ≠ 'e' ∧ c ≠ 'E' := by
    simp only [List.mem_cons, List.not_mem_nil, or_false] at mark
    rcases mark with rfl | rfl | rfl <;> decide
  rw [newline]
  split
  · exact ends_cons closes rest
  · exact ends_cons (by decide) _

theorem ends_writeItems (gap : List Char) (level : Nat) (items : List Json) (rest : List Char) :
    Ends (writeItems gap level items ++ rest) := by
  cases items with
  | nil =>
    rw [writeItems, List.append_assoc]
    exact ends_newline gap level (by decide) rest
  | cons item items =>
    rw [writeItems]
    exact ends_cons (by decide) _

theorem ends_writeFields (gap : List Char) (level : Nat) (fields : List (String × Json)) (rest : List Char) :
    Ends (writeFields gap level fields ++ rest) := by
  cases fields with
  | nil =>
    rw [writeFields, List.append_assoc]
    exact ends_newline gap level (by decide) rest
  | cons field fields =>
    rw [writeFields]
    exact ends_cons (by decide) _

theorem readValue_number (n : Int) {rest : List Char} (ends : Ends rest)
    (fuel : Nat) :
    readValue (fuel + 1) ((toString n).toList ++ rest) = some (.num n, rest) := by
  obtain ⟨first, tail, shape, printed, plain, letters⟩ : ∃ first tail, (toString n).toList = first :: tail ∧
      isSpace first = false ∧ first ∉ ['"', '[', '{'] ∧ first ∉ ['n', 't', 'f'] := by
    rcases integer_shape n with ⟨-, shape⟩ | ⟨-, shape⟩
    · obtain ⟨first, others, digits, digit⟩ := digits_cons n.toNat
      exact ⟨first, others, by rw [shape, digits], isSpace_digit digit,
        not_mem_of_digit digit (by decide), not_mem_of_digit digit (by decide)⟩
    · exact ⟨'-', _, shape, by decide, by decide, by decide⟩
  have read := readNumber_written n ends
  simp only [List.mem_cons, List.not_mem_nil, or_false, not_or] at letters
  have notNull : ('n' == first) = false := beq_eq_false_iff_ne.mpr (Ne.symm letters.1)
  have notTrue : ('t' == first) = false := beq_eq_false_iff_ne.mpr (Ne.symm letters.2.1)
  have notFalse : ('f' == first) = false := beq_eq_false_iff_ne.mpr (Ne.symm letters.2.2)
  rw [shape, List.cons_append] at read ⊢
  rw [readValue_atom printed plain]
  simp only [readAtom, List.isPrefixOf, notNull, notTrue, notFalse, Bool.false_and, Bool.false_eq_true,
    if_false]
  exact read

section RoundTrip

variable {gap : List Char} (space : ∀ c ∈ gap, isSpace c = true)

include space

theorem readItems_end (level fuel : Nat) (rest : List Char) :
    readItems (fuel + 1) (newline gap level ++ [']'] ++ rest) = some ([], rest) := by
  rw [List.append_assoc]
  simp only [readItems, next?_blank (newline_blank space level), List.singleton_append,
    next?_self ']' (by decide)]

theorem readFields_end (level fuel : Nat) (rest : List Char) :
    readFields (fuel + 1) (newline gap level ++ ['}'] ++ rest) = some ([], rest) := by
  rw [List.append_assoc]
  simp only [readFields, next?_blank (newline_blank space level), List.singleton_append,
    next?_self '}' (by decide)]

/-- A field is read when its value is. -/
theorem readField_written {fuel : Nat} {key : String} {value : Json} {text rest : List Char}
    (read : readValue fuel text = some (value, rest)) (level : Nat) :
    readField (fuel + 1) (newline gap level ++ (quote key ++ (colon gap ++ text))) =
      some ((key, value), rest) := by
  have after : next? ':' (colon gap ++ text) = some (colon gap ++ text).tail := by
    unfold colon
    split <;> exact next?_self ':' (by decide) _
  have inner : readValue fuel (colon gap ++ text).tail = some (value, rest) := by
    unfold colon
    split
    · exact read
    · exact (readValue_blank (List.all_eq_true.mp (rfl : [' '].all isSpace = true)) fuel text).trans read
  have shape : quote key ++ (colon gap ++ text) =
      '"' :: (key.toList.flatMap escapeChar ++ '"' :: (colon gap ++ text)) := by
    simp [quote]
  rw [readField_blank (newline_blank space level), shape]
  simp only [readField, next?_self '"' (by decide), readString_quoted, after, inner,
    Option.bind_eq_bind, Option.bind_some]

mutual

/-- Reading a value that was written gives it back, with what follows it. -/
theorem readValue_write (value : Json) (level : Nat) {fuel : Nat} {rest : List Char}
    (enough : 2 * (write gap level value).length ≤ fuel) (ends : Ends rest) :
    readValue fuel (write gap level value ++ rest) = some (value, rest) := by
  have some_fuel : 0 < fuel := by
    obtain ⟨first, tail, shape, -⟩ := write_opens gap level value
    rw [shape, List.length_cons] at enough
    omega
  obtain ⟨fuel, rfl⟩ := Nat.exists_eq_add_one.mpr some_fuel
  match value with
  | .null => exact readValue_atom (by decide) (by decide) fuel _
  | .bool true => exact readValue_atom (by decide) (by decide) fuel _
  | .bool false => exact readValue_atom (by decide) (by decide) fuel _
  | .num n => exact readValue_number n ends fuel
  | .str s =>
    simp only [write, quote, List.cons_append, List.append_assoc, List.nil_append]
    rw [readValue_string, readString_quoted]
    rfl
  | .arr [] =>
    simp only [write, List.cons_append, List.nil_append]
    simp only [readValue, next?_other '[' '"' (by decide) (by decide), next?_self '[' (by decide),
      next?_self ']' (by decide)]
  | .arr (item :: items) =>
    rw [write] at enough ⊢
    simp only [List.length_cons, List.length_append] at enough
    have read := @readValue_write item (level + 1) fuel _ (by omega)
      (ends_writeItems gap level items rest)
    rw [← readValue_blank (newline_blank space (level + 1))] at read
    simp only [List.cons_append, List.append_assoc]
    refine readValue_array ?_ read (readItems_write items level (by omega))
    rw [next?_blank (newline_blank space _)]
    exact next?_write gap _ item (by decide) _
  | .obj [] =>
    simp only [write, List.cons_append, List.nil_append]
    simp only [readValue, next?_other '{' '"' (by decide) (by decide),
      next?_other '{' '[' (by decide) (by decide), next?_self '{' (by decide),
      next?_self '}' (by decide)]
  | .obj ((key, value) :: fields) =>
    rw [write] at enough ⊢
    simp only [List.length_cons, List.length_append, quote] at enough
    obtain ⟨fuel, rfl⟩ := Nat.exists_eq_add_one.mpr (show 0 < fuel by omega)
    have read := @readValue_write value (level + 1) fuel _ (by omega)
      (ends_writeFields gap level fields rest)
    simp only [List.cons_append, List.append_assoc]
    refine readValue_object ?_ (readField_written space read (level + 1))
      (readFields_write fields level (by omega))
    rw [next?_blank (newline_blank space _)]
    exact next?_other '"' '}' (by decide) (by decide) _

theorem readItems_write (items : List Json) (level : Nat) {fuel : Nat} {rest : List Char}
    (enough : 2 * (writeItems gap level items).length ≤ fuel) :
    readItems fuel (writeItems gap level items ++ rest) = some (items, rest) := by
  match items, fuel with
  | [], 0 => simp [writeItems] at enough
  | [], fuel + 1 =>
    rw [writeItems]
    exact readItems_end space level fuel rest
  | _ :: _, 0 => simp [writeItems] at enough
  | item :: items, fuel + 1 =>
    rw [writeItems] at enough ⊢
    simp only [List.length_cons, List.length_append] at enough
    have read := @readValue_write item (level + 1) fuel _ (by omega)
      (ends_writeItems gap level items rest)
    rw [← readValue_blank (newline_blank space (level + 1))] at read
    simp only [List.cons_append, List.append_assoc]
    exact readItems_more read (readItems_write items level (by omega))

theorem readFields_write (fields : List (String × Json)) (level : Nat) {fuel : Nat}
    {rest : List Char} (enough : 2 * (writeFields gap level fields).length ≤ fuel) :
    readFields fuel (writeFields gap level fields ++ rest) = some (fields, rest) := by
  match fields, fuel with
  | [], 0 => simp [writeFields] at enough
  | [], fuel + 1 =>
    rw [writeFields]
    exact readFields_end space level fuel rest
  | _ :: _, 0 => simp [writeFields] at enough
  | (key, value) :: fields, fuel + 1 =>
    rw [writeFields] at enough ⊢
    simp only [List.length_cons, List.length_append, quote] at enough
    obtain ⟨fuel, rfl⟩ := Nat.exists_eq_add_one.mpr (show 0 < fuel by omega)
    have read := @readValue_write value (level + 1) fuel _ (by omega)
      (ends_writeFields gap level fields rest)
    simp only [List.cons_append, List.append_assoc]
    exact readFields_more (readField_written space read (level + 1))
      (readFields_write fields level (by omega))

end

end RoundTrip

/-- `JSON.parse` of any text of a value is the value. -/
theorem parse_write {gap : List Char} (space : ∀ c ∈ gap, isSpace c = true) (value : Json) :
    parse (String.ofList (write gap 0 value)) = some value := by
  have read := @readValue_write gap space value 0 (2 * (write gap 0 value).length + 2) []
    (by omega) (fun c head => by cases head)
  rw [List.append_nil] at read
  simp only [parse, String.toList_ofList, read]
  rfl

theorem parse_compact (value : Json) : parse (compact value) = some value :=
  parse_write (by simp) value

theorem parse_pretty (value : Json) : parse (pretty value) = some value :=
  parse_write (List.all_eq_true.mp (rfl : [' ', ' '].all isSpace = true)) value

end Json

end BrightCli.Lib
