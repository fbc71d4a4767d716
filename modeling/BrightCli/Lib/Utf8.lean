import Mathlib.Data.List.Basic

/-!
# UTF-8 with replacement characters

Encoding is the core library's. `decode` is the decoder of the Encoding
Standard, which never fails: an ill-formed sequence gives one U+FFFD and the
decoder goes on after the longest prefix of it that some well-formed sequence
has. Text survives encoding and decoding; bytes survive decoding and encoding
exactly when they are the encoding of some text.
-/
namespace BrightCli.Lib.Utf8

abbrev Bytes := List UInt8

def encodeChars (chars : List Char) : Bytes := chars.flatMap String.utf8EncodeChar

def encode (text : String) : Bytes := encodeChars text.toList

/-- The scalar value whose encoding the bytes start with. -/
def decodeHead? (bytes : Bytes) : Option Char := bytes.toByteArray.utf8DecodeChar? 0

/-- Bounds of the second byte that a lead byte of a longer sequence allows. -/
def secondRange (lead : UInt8) : UInt8 × UInt8 :=
  if lead = 0xE0 then (0xA0, 0xBF)
  else if lead = 0xED then (0x80, 0x9F)
  else if lead = 0xF0 then (0x90, 0xBF)
  else if lead = 0xF4 then (0x80, 0x8F)
  else (0x80, 0xBF)

def within (range : UInt8 × UInt8) (b : UInt8) : Bool := range.1 ≤ b && b ≤ range.2

/-- Number of continuation bytes a lead byte asks for; zero for no lead byte. -/
def continuations (lead : UInt8) : Nat :=
  if within (0xC2, 0xDF) lead then 1
  else if within (0xE0, 0xEF) lead then 2
  else if within (0xF0, 0xF4) lead then 3
  else 0

/-- Length of the ill-formed prefix that one replacement character stands for. -/
def illFormedLength : Bytes → Nat
  | [] => 0
  | lead :: rest =>
    match continuations lead, rest with
    | 0, _ => 1
    | _, [] => 1
    | n + 1, second :: others =>
      if within (secondRange lead) second then
        2 + ((others.take n).takeWhile (within (0x80, 0xBF))).length
      else 1

def decodeFuel : Nat → Bytes → List Char
  | 0, _ => []
  | _ + 1, [] => []
  | fuel + 1, bytes =>
    match decodeHead? bytes with
    | some c => c :: decodeFuel fuel (bytes.drop c.utf8Size)
    | none => '\ufffd' :: decodeFuel fuel (bytes.drop (illFormedLength bytes))

def decode (bytes : Bytes) : String := String.ofList (decodeFuel bytes.length bytes)

/-- The bytes are the encoding of some text. -/
def Valid (bytes : Bytes) : Prop := ∃ text, encode text = bytes

theorem encodeChars_cons (c : Char) (rest : List Char) :
    encodeChars (c :: rest) = String.utf8EncodeChar c ++ encodeChars rest := by
  simp [encodeChars]

theorem encode_append (first second : String) :
    encode (first ++ second) = encode first ++ encode second := by
  simp [encode, encodeChars]

theorem decodeHead?_encodeChar (c : Char) (rest : Bytes) :
    decodeHead? (String.utf8EncodeChar c ++ rest) = some c := by
  rw [decodeHead?, List.toByteArray_append]
  exact ByteArray.utf8DecodeChar?_utf8EncodeChar_append

theorem decodeFuel_encodeChars (chars : List Char) (fuel : Nat)
    (enough : (encodeChars chars).length ≤ fuel) : decodeFuel fuel (encodeChars chars) = chars := by
  induction chars generalizing fuel with
  | nil => cases fuel <;> rfl
  | cons c rest ih =>
    have positive : 0 < c.utf8Size := c.utf8Size_pos
    rw [encodeChars_cons, List.length_append, String.length_utf8EncodeChar] at enough
    cases fuel with
    | zero => omega
    | succ fuel =>
      have nonempty : String.utf8EncodeChar c ++ encodeChars rest ≠ [] := by
        intro nil
        have := congrArg List.length nil
        simp only [List.length_append, String.length_utf8EncodeChar, List.length_nil] at this
        omega
      rw [encodeChars_cons]
      obtain ⟨head, tail, shape⟩ := List.exists_cons_of_ne_nil nonempty
      have step : decodeFuel (fuel + 1) (String.utf8EncodeChar c ++ encodeChars rest) =
          c :: decodeFuel fuel ((String.utf8EncodeChar c ++ encodeChars rest).drop c.utf8Size) := by
        rw [shape, decodeFuel, ← shape, decodeHead?_encodeChar]
        simp
      rw [step, List.drop_left' (String.length_utf8EncodeChar c), ih fuel (by omega)]

theorem decode_encode (text : String) : decode (encode text) = text := by
  rw [decode, encode, decodeFuel_encodeChars _ _ (Nat.le_refl _), String.ofList_toList]

/-- Decoding loses nothing exactly on well-formed bytes. -/
theorem encode_decode_iff (bytes : Bytes) : encode (decode bytes) = bytes ↔ Valid bytes := by
  constructor
  · intro same
    exact ⟨decode bytes, same⟩
  · rintro ⟨text, rfl⟩
    rw [decode_encode]

theorem decodeHead?_eq_some_iff {bytes : Bytes} {c : Char} :
    decodeHead? bytes = some c ↔ ∃ rest, bytes = String.utf8EncodeChar c ++ rest := by
  constructor
  · intro decoded
    obtain ⟨rest, shape⟩ := ByteArray.exists_of_utf8DecodeChar?_eq_some decoded
    refine ⟨rest.data.toList, ?_⟩
    have lists := congrArg (fun array : ByteArray => array.data.toList) shape
    simpa using lists
  · rintro ⟨rest, rfl⟩
    exact decodeHead?_encodeChar c rest

/-- The character that decoding starts with. -/
def headChar (bytes : Bytes) : Char := (decodeHead? bytes).getD '\ufffd'

/-- The number of bytes it stands for. -/
def headLength (bytes : Bytes) : Nat :=
  match decodeHead? bytes with
  | some c => c.utf8Size
  | none => illFormedLength bytes

theorem illFormedLength_bounds {bytes : Bytes} (nonempty : bytes ≠ []) :
    0 < illFormedLength bytes ∧ illFormedLength bytes ≤ bytes.length := by
  cases bytes with
  | nil => exact absurd rfl nonempty
  | cons lead rest =>
    simp only [illFormedLength]
    split
    · simp
    · simp
    · rename_i n second others _
      split
      · have taken := (List.takeWhile_prefix (within (0x80, 0xBF)) (l := others.take n)).length_le
        have available := List.length_take_le' n others
        simp only [List.length_cons]
        omega
      · simp

theorem headLength_bounds {bytes : Bytes} (nonempty : bytes ≠ []) :
    0 < headLength bytes ∧ headLength bytes ≤ bytes.length := by
  unfold headLength
  cases decoded : decodeHead? bytes with
  | none => exact illFormedLength_bounds nonempty
  | some c =>
    obtain ⟨rest, rfl⟩ := decodeHead?_eq_some_iff.mp decoded
    have positive := c.utf8Size_pos
    simp only [List.length_append, String.length_utf8EncodeChar]
    omega

theorem decodeFuel_succ (fuel : Nat) {bytes : Bytes} (nonempty : bytes ≠ []) :
    decodeFuel (fuel + 1) bytes =
      headChar bytes :: decodeFuel fuel (bytes.drop (headLength bytes)) := by
  obtain ⟨head, tail, rfl⟩ := List.exists_cons_of_ne_nil nonempty
  unfold headChar headLength
  rw [decodeFuel]
  · cases decodeHead? (head :: tail) with
    | none => rfl
    | some c => rfl
  · simp

/-- More fuel than bytes changes nothing. -/
theorem decodeFuel_of_le (fuel : Nat) (bytes : Bytes) (enough : bytes.length ≤ fuel) :
    decodeFuel fuel bytes = (decode bytes).toList := by
  rw [decode, String.toList_ofList]
  induction fuel using Nat.strongRecOn generalizing bytes with
  | ind fuel ih =>
    cases bytes with
    | nil => cases fuel <;> rfl
    | cons head tail =>
      obtain ⟨positive, bounded⟩ := headLength_bounds (List.cons_ne_nil head tail)
      simp only [List.length_cons] at enough bounded
      obtain ⟨fuel, rfl⟩ : ∃ less, fuel = less + 1 := ⟨fuel - 1, by omega⟩
      rw [List.length_cons, decodeFuel_succ fuel (List.cons_ne_nil head tail),
        decodeFuel_succ tail.length (List.cons_ne_nil head tail),
        ih fuel (by omega) _ (by simp only [List.length_drop, List.length_cons]; omega)]
      rcases Nat.lt_or_ge tail.length (fuel + 1) with smaller | same
      · rw [ih tail.length smaller _ (by simp only [List.length_drop, List.length_cons]; omega)]
      · omega

@[simp] theorem decode_nil : decode [] = "" := rfl

/-- Induction along the characters that the bytes are decoded to. -/
theorem decode_induction {P : Bytes → Prop} (nil : P [])
    (step : ∀ bytes, bytes ≠ [] → P (bytes.drop (headLength bytes)) → P bytes) (bytes : Bytes) :
    P bytes := by
  induction length : bytes.length using Nat.strongRecOn generalizing bytes with
  | ind n ih =>
    by_cases empty : bytes = []
    · rw [empty]
      exact nil
    · obtain ⟨positive, bounded⟩ := headLength_bounds empty
      exact step bytes empty (ih (bytes.length - headLength bytes) (by omega) _ List.length_drop)

theorem toList_decode {bytes : Bytes} (nonempty : bytes ≠ []) :
    (decode bytes).toList =
      headChar bytes :: (decode (bytes.drop (headLength bytes))).toList := by
  have bounds := headLength_bounds nonempty
  rw [← decodeFuel_of_le bytes.length bytes (Nat.le_refl _)]
  obtain ⟨length, positive⟩ : ∃ length, bytes.length = length + 1 := ⟨bytes.length - 1, by omega⟩
  rw [positive, decodeFuel_succ length nonempty,
    decodeFuel_of_le length _ (by rw [List.length_drop]; omega)]

theorem decode_eq_empty_iff (bytes : Bytes) : decode bytes = "" ↔ bytes = [] := by
  constructor
  · intro empty
    by_contra nonempty
    have chars := toList_decode nonempty
    rw [empty] at chars
    simp at chars
  · rintro rfl
    rfl

theorem not_within_of_first {lead : UInt8} (first : lead.IsUTF8FirstByte) :
    within (0x80, 0xBF) lead = false := by
  have all : ∀ n : Fin 256, (UInt8.ofNat n).IsUTF8FirstByte →
      within (0x80, 0xBF) (UInt8.ofNat n) = false := by decide +kernel
  simpa [first] using all ⟨lead.toNat, lead.toNat_lt⟩

theorem within_of_secondRange {lead second : UInt8} (inside : within (secondRange lead) second = true) :
    within (0x80, 0xBF) second = true := by
  unfold secondRange at inside
  simp only [within, Bool.and_eq_true, decide_eq_true_eq, UInt8.le_iff_toNat_le] at inside ⊢
  split_ifs at inside <;> simp at inside ⊢ <;> omega

section
variable {front : Bytes} {lead : UInt8} (first : lead.IsUTF8FirstByte) (rest : Bytes)
include first

theorem takeWhile_take_append (n : Nat) (others : Bytes) :
    ((others ++ lead :: rest).take n).takeWhile (within (0x80, 0xBF)) =
      (others.take n).takeWhile (within (0x80, 0xBF)) := by
  induction others generalizing n with
  | nil =>
    cases n with
    | zero => rfl
    | succ n => simp [not_within_of_first first]
  | cons head tail ih =>
    cases n with
    | zero => rfl
    | succ n => simp only [List.cons_append, List.take_succ_cons, List.takeWhile_cons, ih]

/-- An ill-formed sequence ends where a character starts. -/
theorem illFormedLength_append (nonempty : front ≠ []) :
    illFormedLength (front ++ lead :: rest) = illFormedLength front := by
  have stops : ∀ other, within (secondRange other) lead = false := by
    intro other
    by_contra inside
    have := within_of_secondRange (by simpa using inside)
    rw [not_within_of_first first] at this
    cases this
  match front with
  | [other] =>
    simp only [List.singleton_append, illFormedLength]
    cases continuations other with
    | zero => rfl
    | succ n => simp [stops]
  | other :: second :: others =>
    simp only [List.cons_append, illFormedLength]
    cases continuations other with
    | zero => rfl
    | succ n => simp only [takeWhile_take_append first]

theorem decodeHead?_append (nonempty : front ≠ []) :
    decodeHead? (front ++ lead :: rest) = decodeHead? front := by
  cases own : decodeHead? front with
  | some c =>
    obtain ⟨tail, rfl⟩ := decodeHead?_eq_some_iff.mp own
    exact decodeHead?_eq_some_iff.mpr ⟨tail ++ lead :: rest, by simp⟩
  | none =>
    cases joint : decodeHead? (front ++ lead :: rest) with
    | none => rfl
    | some c =>
      exfalso
      obtain ⟨tail, shape⟩ := decodeHead?_eq_some_iff.mp joint
      rcases List.append_eq_append_iff.mp shape with ⟨more, encoded, split⟩ | ⟨more, shorter, -⟩
      · cases more with
        | nil =>
          have whole : decodeHead? front = some c :=
            decodeHead?_eq_some_iff.mpr ⟨[], by simpa using encoded.symm⟩
          rw [own] at whole
          cases whole
        | cons head more =>
          -- The character would contain a first byte that is not its own first one.
          obtain ⟨rfl, -⟩ := List.cons.inj split
          have inside : front.length < (String.utf8EncodeChar c).length := by
            rw [encoded]
            simp
          have at_lead : (String.utf8EncodeChar c)[front.length] = lead := by
            simp [encoded]
          have zero := UInt8.isUTF8FirstByte_getElem_utf8EncodeChar.mp (at_lead ▸ first)
          exact nonempty (List.length_eq_zero_iff.mp zero)
      · have whole : decodeHead? front = some c := decodeHead?_eq_some_iff.mpr ⟨more, shorter⟩
        rw [own] at whole
        cases whole

theorem headLength_append (nonempty : front ≠ []) :
    headLength (front ++ lead :: rest) = headLength front := by
  unfold headLength
  rw [decodeHead?_append first rest nonempty, illFormedLength_append first rest nonempty]

/-- Decoding does not look past the place where a character starts. -/
theorem decode_append_first (front : Bytes) :
    (decode (front ++ lead :: rest)).toList =
      (decode front).toList ++ (decode (lead :: rest)).toList := by
  induction front using decode_induction with
  | nil => simp
  | step front nonempty ih =>
    rw [toList_decode (by simp), headLength_append first rest nonempty,
      List.drop_append_of_le_length (headLength_bounds nonempty).2, ih, toList_decode nonempty]
    simp [headChar, decodeHead?_append first rest nonempty]

end

theorem decode_encodeChar_append (c : Char) (rest : Bytes) :
    (decode (String.utf8EncodeChar c ++ rest)).toList = c :: (decode rest).toList := by
  have head := decodeHead?_encodeChar c rest
  rw [toList_decode (by simp [String.utf8EncodeChar_ne_nil])]
  simp only [headChar, headLength, head, Option.getD_some]
  rw [List.drop_left' (String.length_utf8EncodeChar c)]

/-- A character that is whole among the bytes is decoded whatever surrounds it. -/
theorem decode_append_encodeChar (front : Bytes) (c : Char) (rest : Bytes) :
    (decode (front ++ String.utf8EncodeChar c ++ rest)).toList =
      (decode front).toList ++ c :: (decode rest).toList := by
  have whole := decode_encodeChar_append c rest
  obtain ⟨lead, tail, shape⟩ := List.exists_cons_of_ne_nil (String.utf8EncodeChar_ne_nil (c := c))
  have first : lead.IsUTF8FirstByte := by
    have := UInt8.isUTF8FirstByte_getElem_zero_utf8EncodeChar (c := c)
    simpa [shape] using this
  rw [List.append_assoc, ← whole, shape, List.cons_append]
  exact decode_append_first first (tail ++ rest) front

theorem length_decode_le (bytes : Bytes) : (decode bytes).toList.length ≤ bytes.length := by
  induction bytes using decode_induction with
  | nil => simp
  | step bytes nonempty ih =>
    have bounds := headLength_bounds nonempty
    rw [List.length_drop] at ih
    rw [toList_decode nonempty, List.length_cons]
    omega

/-- A decoded character other than the replacement character stands among the bytes. -/
theorem infix_of_mem_decode {c : Char} (genuine : c ≠ '\ufffd') (bytes : Bytes)
    (member : c ∈ (decode bytes).toList) : String.utf8EncodeChar c <:+: bytes := by
  induction bytes using decode_induction with
  | nil => simp at member
  | step bytes nonempty ih =>
    rw [toList_decode nonempty] at member
    rcases List.mem_cons.mp member with head | tail
    · cases decoded : decodeHead? bytes with
      | none => exact absurd (by rw [head, headChar, decoded]; rfl) genuine
      | some d =>
        have same : c = d := by rw [head, headChar, decoded]; rfl
        obtain ⟨rest, shape⟩ := decodeHead?_eq_some_iff.mp decoded
        rw [shape, same]
        exact (List.prefix_append _ _).isInfix
    · exact (ih tail).trans (List.drop_suffix _ _).isInfix

theorem length_encode_le (text : String) : (encode text).length ≤ 4 * text.length := by
  have chars : ∀ list : List Char, (encodeChars list).length ≤ 4 * list.length := by
    intro list
    induction list with
    | nil => simp [encodeChars]
    | cons c rest ih =>
      have size := c.utf8Size_le_four
      rw [encodeChars_cons, List.length_append, String.length_utf8EncodeChar, List.length_cons]
      omega
  rw [encode, ← String.length_toList]
  exact chars text.toList

theorem encode_eq_nil_iff (text : String) : encode text = [] ↔ text = "" := by
  constructor
  · intro nil
    rw [← decode_encode text, nil]
    rfl
  · rintro rfl
    rfl

example : decode [0xE2, 0x82, 0x28] = "\ufffd(" := by decide

end BrightCli.Lib.Utf8
