import BrightCli.Lib.Utf8

/-!
# Percent-encoding

`decodeURIComponent` of ECMAScript. A `%` must begin an escaped octet, and an
octet that is not ASCII must begin a run of as many octets as its leading bits
announce, which together encode one character; `none` stands for the `URIError`
thrown otherwise. `encodeURIComponent` escapes the octets of every character that is
not unreserved, and decoding inverts it (`decode_encode`).
-/
namespace BrightCli.Lib.Uri
open BrightCli.Lib

def hexValue (c : Char) : Option Nat :=
  if '0' ≤ c ∧ c ≤ '9' then some (c.toNat - '0'.toNat)
  else if 'a' ≤ c ∧ c ≤ 'f' then some (c.toNat - 'a'.toNat + 10)
  else if 'A' ≤ c ∧ c ≤ 'F' then some (c.toNat - 'A'.toNat + 10)
  else none

/-- The octet whose two digits the text starts with. -/
def octet? : List Char → Option UInt8
  | high :: low :: _ => do
    let high ← hexValue high
    let low ← hexValue low
    some (UInt8.ofNat (high * 16 + low))
  | _ => none

/-- How many octets follow a first one, by its leading bits. -/
def following? (first : UInt8) : Option Nat :=
  if first < 0x80 then some 0
  else if first < 0xC0 then none
  else if first < 0xE0 then some 1
  else if first < 0xF0 then some 2
  else if first < 0xF8 then some 3
  else none

/-- The character that the octets encode, all of them. -/
def character? (octets : Utf8.Bytes) : Option Char :=
  match Utf8.decodeHead? octets with
  | some c => if c.utf8Size = octets.length then some c else none
  | none => none

/-- How many octets are still missing after this one. -/
def remaining? (missing : Nat) (octet : UInt8) : Option Nat :=
  if missing = 0 then following? octet else some (missing - 1)

/-- `skip` digits of the last octet are still to be passed, and the run of octets
that has begun misses `missing` more. -/
def decodeFrom : Nat → Utf8.Bytes → Nat → List Char → Option (List Char)
  | _, _, missing, [] => if missing = 0 then some [] else none
  | skip + 1, octets, missing, _ :: rest => decodeFrom skip octets missing rest
  | 0, octets, missing, c :: rest =>
    if c = '%' then
      match octet? rest with
      | none => none
      | some octet =>
        match remaining? missing octet with
        | none => none
        | some 0 =>
          match character? (octets ++ [octet]) with
          | none => none
          | some decoded => (decodeFrom 2 [] 0 rest).map (decoded :: ·)
        | some (more + 1) => decodeFrom 2 (octets ++ [octet]) (more + 1) rest
    else if missing = 0 then (decodeFrom 0 [] 0 rest).map (c :: ·)
    else none

def decodeURIComponent (text : String) : Option String :=
  (decodeFrom 0 [] 0 text.toList).map String.ofList

example : decodeURIComponent "a%20%c3%A9" = some "a é" := by decide

example : decodeURIComponent "100%" = none := by decide

theorem decodeFrom_length {text decoded : List Char} (skip : Nat) (octets : Utf8.Bytes)
    (missing : Nat) (ok : decodeFrom skip octets missing text = some decoded) :
    decoded.length ≤ text.length := by
  induction text generalizing skip octets missing decoded with
  | nil =>
    rw [decodeFrom] at ok
    split at ok
    · cases ok
      exact Nat.le_refl _
    · cases ok
  | cons c rest ih =>
    -- Every character of the text adds one character at most.
    have one : ∀ skip octets missing (first : Char) tail,
        (decodeFrom skip octets missing rest).map (first :: ·) = some tail →
        tail.length ≤ rest.length + 1 := by
      intro skip octets missing first tail mapped
      obtain ⟨inner, done, rfl⟩ := Option.map_eq_some_iff.mp mapped
      exact Nat.succ_le_succ (ih skip octets missing done)
    cases skip with
    | succ skip => exact Nat.le_succ_of_le (ih skip octets missing ok)
    | zero =>
      rw [decodeFrom] at ok
      split at ok
      · split at ok
        · cases ok
        · split at ok
          · cases ok
          · split at ok
            · cases ok
            · exact one _ _ _ _ _ ok
          · exact Nat.le_succ_of_le (ih _ _ _ ok)
      · split at ok
        · exact one _ _ _ _ _ ok
        · cases ok

theorem decodeURIComponent_length {text decoded : String}
    (ok : decodeURIComponent text = some decoded) : decoded.toList.length ≤ text.toList.length := by
  obtain ⟨chars, done, rfl⟩ := Option.map_eq_some_iff.mp ok
  rw [String.toList_ofList]
  exact decodeFrom_length 0 [] 0 done

def hexDigit (n : Nat) : Char := if n < 10 then Char.ofNat (48 + n) else Char.ofNat (55 + n)

def escape (octet : UInt8) : List Char :=
  ['%', hexDigit (octet.toNat / 16), hexDigit (octet.toNat % 16)]

def unreserved (c : Char) : Bool :=
  ('A' ≤ c && c ≤ 'Z') || ('a' ≤ c && c ≤ 'z') || ('0' ≤ c && c ≤ '9') ||
    c ∈ "-_.!~*'()".toList

def encodeChar (c : Char) : List Char :=
  if unreserved c then [c] else (String.utf8EncodeChar c).flatMap escape

def encodeURIComponent (text : String) : String := String.ofList (text.toList.flatMap encodeChar)

example : encodeURIComponent "a é" = "a%20%C3%A9" := by decide

theorem hexValue_hexDigit {n : Nat} (small : n < 16) : hexValue (hexDigit n) = some n := by
  have all : ∀ n : Fin 16, hexValue (hexDigit n) = some n.val := by decide
  exact all ⟨n, small⟩

theorem octet?_escaped (octet : UInt8) (rest : List Char) :
    octet? (hexDigit (octet.toNat / 16) :: hexDigit (octet.toNat % 16) :: rest) = some octet := by
  have bound := octet.toNat_lt
  have whole : octet.toNat / 16 * 16 + octet.toNat % 16 = octet.toNat := by omega
  simp only [octet?, hexValue_hexDigit (show octet.toNat / 16 < 16 by omega),
    hexValue_hexDigit (show octet.toNat % 16 < 16 by omega), Option.bind_eq_bind,
    Option.bind_some, whole, UInt8.ofNat_toNat]

section
variable {octets : Utf8.Bytes} {missing : Nat} {octet : UInt8} (rest : List Char)

/-- The last octet of a run completes its character. -/
theorem decodeFrom_last {decoded : Char} (last : remaining? missing octet = some 0)
    (complete : character? (octets ++ [octet]) = some decoded) :
    decodeFrom 0 octets missing (escape octet ++ rest) =
      (decodeFrom 0 [] 0 rest).map (decoded :: ·) := by
  simp only [escape, List.cons_append, List.nil_append, decodeFrom, if_true, octet?_escaped, last,
    complete]

theorem decodeFrom_more {more : Nat} (further : remaining? missing octet = some (more + 1)) :
    decodeFrom 0 octets missing (escape octet ++ rest) =
      decodeFrom 0 (octets ++ [octet]) (more + 1) rest := by
  simp only [escape, List.cons_append, List.nil_append, decodeFrom, if_true, octet?_escaped, further]

end

/-- The octets of a run that has begun. The induction is on those still missing. -/
theorem decodeFrom_octets {decoded : Char} (others : Utf8.Bytes) (octets : Utf8.Bytes)
    (some_octet : others ≠ []) (complete : character? (octets ++ others) = some decoded)
    (rest : List Char) :
    decodeFrom 0 octets others.length (others.flatMap escape ++ rest) =
      (decodeFrom 0 [] 0 rest).map (decoded :: ·) := by
  induction others generalizing octets with
  | nil => exact absurd rfl some_octet
  | cons octet others ih =>
    rw [List.flatMap_cons, List.append_assoc]
    cases others with
    | nil => exact decodeFrom_last rest rfl complete
    | cons next others =>
      have further : remaining? (octet :: next :: others).length octet = some (others.length + 1) :=
        rfl
      rw [decodeFrom_more _ further]
      apply ih
      · exact List.cons_ne_nil next others
      · rwa [List.append_assoc]

theorem following?_lead (octet : UInt8) :
    following? (octet &&& 0x1f ||| 0xc0) = some 1 ∧ following? (octet &&& 0x0f ||| 0xe0) = some 2 ∧
      following? (octet &&& 0x07 ||| 0xf0) = some 3 := by
  have all : ∀ n : Fin 256, following? (UInt8.ofNat n &&& 0x1f ||| 0xc0) = some 1 ∧
      following? (UInt8.ofNat n &&& 0x0f ||| 0xe0) = some 2 ∧
      following? (UInt8.ofNat n &&& 0x07 ||| 0xf0) = some 3 := by decide +kernel
  have own := all ⟨octet.toNat, octet.toNat_lt⟩
  simpa using own

/-- The leading bits of an encoded character announce the octets that follow. -/
theorem following?_utf8EncodeChar (c : Char) :
    ∃ lead others, String.utf8EncodeChar c = lead :: others ∧
      following? lead = some others.length := by
  rcases c.utf8Size_eq with size | size | size | size
  · refine ⟨_, _, String.utf8EncodeChar_eq_singleton size, ?_⟩
    have ascii : c.val.toNat ≤ 127 := UInt32.le_iff_toNat_le.mp (Char.utf8Size_eq_one_iff.mp size)
    have below : c.val.toUInt8 < 0x80 := by
      rw [UInt8.lt_iff_toNat_lt, UInt32.toNat_toUInt8]
      change c.val.toNat % 256 < 128
      omega
    exact if_pos below
  · exact ⟨_, _, String.utf8EncodeChar_eq_cons_cons size, (following?_lead _).1⟩
  · exact ⟨_, _, String.utf8EncodeChar_eq_cons_cons_cons size, (following?_lead _).2.1⟩
  · exact ⟨_, _, String.utf8EncodeChar_eq_cons_cons_cons_cons size, (following?_lead _).2.2⟩

theorem character?_utf8EncodeChar (c : Char) : character? (String.utf8EncodeChar c) = some c := by
  have head := Utf8.decodeHead?_encodeChar c []
  rw [List.append_nil] at head
  simp only [character?, head, String.length_utf8EncodeChar, if_true]

theorem decodeFrom_plain {c : Char} (other : c ≠ '%') (rest : List Char) :
    decodeFrom 0 [] 0 (c :: rest) = (decodeFrom 0 [] 0 rest).map (c :: ·) := by
  rw [decodeFrom, if_neg other, if_pos rfl]

theorem decodeFrom_encodeChar (c : Char) (rest : List Char) :
    decodeFrom 0 [] 0 (encodeChar c ++ rest) = (decodeFrom 0 [] 0 rest).map (c :: ·) := by
  unfold encodeChar
  split
  · next free =>
    apply decodeFrom_plain
    rintro rfl
    exact absurd free (by decide)
  · obtain ⟨lead, others, shape, announced⟩ := following?_utf8EncodeChar c
    have complete := character?_utf8EncodeChar c
    rw [shape] at complete ⊢
    rw [List.flatMap_cons, List.append_assoc]
    have further : remaining? 0 lead = some others.length := announced
    cases others with
    | nil => exact decodeFrom_last rest further complete
    | cons next others =>
      rw [decodeFrom_more _ further]
      exact decodeFrom_octets (next :: others) [lead] (List.cons_ne_nil _ _) complete rest

/-- Decoding inverts encoding. -/
theorem decode_encode (text : String) :
    decodeURIComponent (encodeURIComponent text) = some text := by
  have chars : ∀ chars : List Char, decodeFrom 0 [] 0 (chars.flatMap encodeChar) = some chars := by
    intro chars
    induction chars with
    | nil => rfl
    | cons c rest ih =>
      rw [List.flatMap_cons, decodeFrom_encodeChar, ih]
      rfl
  rw [decodeURIComponent, encodeURIComponent, String.toList_ofList, chars]
  simp

/-- Decoding leaves text without escapes as it is. -/
theorem decode_of_not_mem {text : String} (free : '%' ∉ text.toList) :
    decodeURIComponent text = some text := by
  have chars : ∀ chars : List Char, '%' ∉ chars → decodeFrom 0 [] 0 chars = some chars := by
    intro chars absent
    induction chars with
    | nil => rfl
    | cons c rest ih =>
      obtain ⟨other, absent⟩ := not_or.mp (mt List.mem_cons.mpr absent)
      rw [decodeFrom_plain (Ne.symm other), ih absent]
      rfl
  rw [decodeURIComponent, chars _ free]
  simp

theorem ascii_of_unreserved {c : Char} (free : unreserved c = true) : c.toNat < 128 := by
  have bound : ∀ d : Char, c ≤ d → c.toNat ≤ d.toNat := by
    intro d le
    exact UInt32.le_iff_toNat_le.mp (Char.le_def.mp le)
  simp only [unreserved, Bool.or_eq_true, Bool.and_eq_true, decide_eq_true_eq] at free
  rcases free with ((⟨_, upper⟩ | ⟨_, upper⟩) | ⟨_, upper⟩) | sign
  · exact Nat.lt_of_le_of_lt (bound _ upper) (by decide)
  · exact Nat.lt_of_le_of_lt (bound _ upper) (by decide)
  · exact Nat.lt_of_le_of_lt (bound _ upper) (by decide)
  · have all : ("-_.!~*'()".toList.all fun c => c.toNat < 128) = true := by decide
    simpa using List.all_eq_true.mp all c sign

theorem unreserved_hexDigit {n : Nat} (small : n < 16) : unreserved (hexDigit n) = true := by
  have all : ∀ n : Fin 16, unreserved (hexDigit n) = true := by decide
  exact all ⟨n, small⟩

/-- Encoded text has only unreserved characters and the signs of its escapes. -/
theorem mem_encodeURIComponent {text : String} {c : Char}
    (member : c ∈ (encodeURIComponent text).toList) : unreserved c = true ∨ c = '%' := by
  rw [encodeURIComponent, String.toList_ofList] at member
  obtain ⟨original, _, inside⟩ := List.mem_flatMap.mp member
  unfold encodeChar at inside
  split at inside
  · next free =>
    rw [List.mem_singleton.mp inside]
    exact .inl free
  · obtain ⟨octet, _, digit⟩ := List.mem_flatMap.mp inside
    have bound := octet.toNat_lt
    simp only [escape, List.mem_cons, List.not_mem_nil, or_false] at digit
    rcases digit with rfl | rfl | rfl
    · exact .inr rfl
    · exact .inl (unreserved_hexDigit (by omega))
    · exact .inl (unreserved_hexDigit (by omega))

end BrightCli.Lib.Uri
