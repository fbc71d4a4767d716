import BrightCli.Source.Traceroute

/-!
# Probe ids in ICMP messages

`createPingRequest` writes the id of a probe into bytes 6 and 7 of the request, and
`parseIdFromIcmpMessage` reads it back, from the message itself or from the request
that an error message quotes. The reader is characterised for both kinds of message
on every input. The lengths are checked for error messages only, so a short message
of another kind makes the read throw.
-/
namespace BrightCli.Guarantees.IcmpMessages
open BrightCli.Lib BrightCli.Source.Traceroute

/-- Unreachable, source quench, redirect, time exceeded. -/
def ErrorType (type : UInt8) : Prop :=
  type.toNat = 3 ∨ type.toNat = 4 ∨ type.toNat = 5 ∨ type.toNat = 11

instance (type : UInt8) : Decidable (ErrorType type) :=
  inferInstanceAs (Decidable (_ ∨ _))

section
variable {msg : Utf8.Bytes}

theorem readUInt8_of_getElem? {offset : Nat} {byte : UInt8} (there : msg[offset]? = some byte) :
    readUInt8 msg offset = .ok byte.toNat := by
  simp [readUInt8, there]

theorem readUInt8_of_length_le {offset : Nat} (short : msg.length ≤ offset) :
    readUInt8 msg offset = .error .outOfRange := by
  simp [readUInt8, List.getElem?_eq_none short]

theorem readUInt16BE_of_getElem? {offset : Nat} {high low : UInt8}
    (first : msg[offset]? = some high) (second : msg[offset + 1]? = some low) :
    readUInt16BE msg offset = .ok (high.toNat * 256 + low.toNat) := by
  simp only [readUInt16BE, readUInt8_of_getElem? first, readUInt8_of_getElem? second]
  rfl

/-- A word is read exactly where both its bytes are in the buffer. -/
theorem readUInt16BE_ok_iff (msg : Utf8.Bytes) (offset : Nat) :
    (∃ word, readUInt16BE msg offset = .ok word) ↔ offset + 1 < msg.length := by
  constructor
  · rintro ⟨word, read⟩
    by_contra short
    have missing : readUInt8 msg (offset + 1) = .error .outOfRange :=
      readUInt8_of_length_le (by omega)
    unfold readUInt16BE at read
    rw [missing] at read
    cases first : readUInt8 msg offset with
    | error reason =>
      rw [first] at read
      cases read
    | ok high =>
      rw [first] at read
      cases read
  · intro inside
    exact ⟨_, readUInt16BE_of_getElem? (List.getElem?_eq_getElem (by omega))
      (List.getElem?_eq_getElem inside)⟩

/-- A message that is no error message holds its echo header itself. -/
theorem echoOffset_reply {type : UInt8} (at20 : msg[20]? = some type) (reply : ¬ ErrorType type) :
    echoOffset msg = .ok (some 20) := by
  unfold echoOffset
  rw [readUInt8_of_getElem? at20]
  exact if_neg reply

theorem echoOffset_short {type : UInt8} (at20 : msg[20]? = some type) (error : ErrorType type)
    (short : msg.length < 48) : echoOffset msg = .ok none := by
  unfold echoOffset
  rw [readUInt8_of_getElem? at20]
  change (if ErrorType type then _ else _) = _
  rw [if_pos error]
  exact if_pos short

/-- An error message that is long enough quotes the request after the header whose
length its first byte states. -/
theorem echoOffset_error {type first : UInt8} (at20 : msg[20]? = some type)
    (error : ErrorType type) (long : 48 ≤ msg.length) (at28 : msg[28]? = some first) :
    echoOffset msg = .ok
      (if first.toNat / 16 = 4 ∧ 36 + first.toNat % 16 * 4 ≤ msg.length then
        some (28 + first.toNat % 16 * 4)
      else none) := by
  unfold echoOffset
  rw [readUInt8_of_getElem? at20]
  change (if ErrorType type then _ else _) = _
  rw [if_pos error, if_neg (by omega), readUInt8_of_getElem? at28]
  change (if first.toNat / 16 ≠ 4 then _ else
    if msg.length < 28 + first.toNat % 16 * 4 + 8 then _ else _) = _
  by_cases version : first.toNat / 16 = 4
  · rw [if_neg (not_not_intro version)]
    by_cases quoted : 36 + first.toNat % 16 * 4 ≤ msg.length
    · rw [if_neg (by omega), if_pos ⟨version, quoted⟩]
    · rw [if_pos (by omega), if_neg (fun both => quoted both.2)]
  · rw [if_pos version, if_neg (fun both => version both.1)]

theorem parse_of_none (nowhere : echoOffset msg = .ok none) :
    parseIdFromIcmpMessage msg = .ok none := by
  unfold parseIdFromIcmpMessage
  rw [nowhere]
  rfl

theorem parse_of_offset {offset : Nat} (found : echoOffset msg = .ok (some offset)) :
    parseIdFromIcmpMessage msg = (readUInt16BE msg (offset + 6)).map some := by
  unfold parseIdFromIcmpMessage
  rw [found]
  change (readUInt16BE msg (offset + 6) >>= fun word => pure (some word)) = _
  cases readUInt16BE msg (offset + 6) <;> rfl

theorem parse_of_bytes {offset : Nat} {high low : UInt8}
    (found : echoOffset msg = .ok (some offset)) (first : msg[offset + 6]? = some high)
    (second : msg[offset + 7]? = some low) :
    parseIdFromIcmpMessage msg = .ok (some (high.toNat * 256 + low.toNat)) := by
  rw [parse_of_offset found, readUInt16BE_of_getElem? first second]
  rfl

theorem parse_fails_without_type (short : msg.length ≤ 20) :
    ¬ ∃ id, parseIdFromIcmpMessage msg = .ok id := by
  rintro ⟨id, parsed⟩
  unfold parseIdFromIcmpMessage echoOffset at parsed
  rw [readUInt8_of_length_le short] at parsed
  cases parsed

/-- All reads of an error message are behind a check of the length. -/
theorem parse_error_message {type : UInt8} (at20 : msg[20]? = some type) (error : ErrorType type) :
    ∃ id, parseIdFromIcmpMessage msg = .ok id := by
  by_cases short : msg.length < 48
  · exact ⟨none, parse_of_none (echoOffset_short at20 error short)⟩
  · have at28 : msg[28]? = some _ := List.getElem?_eq_getElem (by omega)
    have offset := echoOffset_error at20 error (by omega) at28
    split at offset
    · next quoted =>
      obtain ⟨word, read⟩ :=
        (readUInt16BE_ok_iff msg (28 + msg[28].toNat % 16 * 4 + 6)).mpr (by omega)
      exact ⟨some word, by rw [parse_of_offset offset, read]; rfl⟩
    · exact ⟨none, parse_of_none offset⟩

theorem parse_reply_iff {type : UInt8} (at20 : msg[20]? = some type) (reply : ¬ ErrorType type) :
    (∃ id, parseIdFromIcmpMessage msg = .ok id) ↔ 28 ≤ msg.length := by
  rw [parse_of_offset (echoOffset_reply at20 reply)]
  constructor
  · rintro ⟨id, parsed⟩
    cases word : readUInt16BE msg 26 with
    | error reason =>
      rw [word] at parsed
      cases parsed
    | ok value => exact (readUInt16BE_ok_iff msg 26).mp ⟨value, word⟩
  · intro long
    obtain ⟨word, read⟩ := (readUInt16BE_ok_iff msg 26).mpr (by omega)
    exact ⟨some word, by rw [read]; rfl⟩

end

/-- The reader fails where there is no type, and where a message that is no error
message ends before its id. -/
theorem malformed_message_rejected_iff (msg : Utf8.Bytes) :
    (∃ id, parseIdFromIcmpMessage msg = .ok id) ↔
      28 ≤ msg.length ∨ ∃ type, msg[20]? = some type ∧ ErrorType type := by
  cases at20 : msg[20]? with
  | none =>
    have short : msg.length ≤ 20 := List.getElem?_eq_none_iff.mp at20
    apply iff_of_false (parse_fails_without_type short)
    rintro (long | ⟨type, there, _⟩)
    · omega
    · cases there
  | some type =>
    by_cases error : ErrorType type
    · exact iff_of_true (parse_error_message at20 error) (.inr ⟨type, rfl, error⟩)
    · rw [parse_reply_iff at20 error]
      constructor
      · exact .inl
      · rintro (long | ⟨other, there, isError⟩)
        · exact long
        · cases there
          exact absurd isError error

/-- An echo reply that ends after its type. -/
theorem truncated_reply_throws :
    ¬ ∃ id, parseIdFromIcmpMessage (List.replicate 20 0 ++ [0]) = .ok id := by
  rintro ⟨id, parsed⟩
  cases parsed

section
variable {raw : RawSocket}

/-- A sequence number of two bytes is in bytes 6 and 7, the higher byte first. -/
theorem sequence_bytes {sequence : Nat} (small : sequence ≤ 65535)
    (type identifier packetSize : Nat) :
    ∃ high low : UInt8, high.toNat * 256 + low.toNat = sequence ∧
      (createPingRequest raw type identifier sequence packetSize)[6]? = some high ∧
      (createPingRequest raw type identifier sequence packetSize)[7]? = some low := by
  refine ⟨.ofNat (secondByte sequence), .ofNat (firstByte sequence), ?_, ?_, ?_⟩
  · rw [firstByte_eq, secondByte_eq]
    simp only [UInt8.toNat_ofNat']
    omega
  · exact raw.getElem?_writeChecksum _ 2 _ 6 (by decide) (by decide)
  · exact raw.getElem?_writeChecksum _ 2 _ 7 (by decide) (by decide)

theorem length_createPingRequest (type identifier sequence packetSize : Nat) :
    (createPingRequest raw type identifier sequence packetSize).length = 8 + packetSize := by
  unfold createPingRequest
  rw [raw.length_writeChecksum]
  simp
  omega

/-- Bytes behind a part of known length. -/
theorem getElem?_behind {front : Utf8.Bytes} {n : Nat} (length : front.length = n)
    (back : Utf8.Bytes) (i : Nat) : (front ++ back)[n + i]? = back[i]? := by
  rw [List.getElem?_append_right (by omega)]
  congr 1
  omega

end

section
variable {header icmp : Utf8.Bytes} {type : UInt8} (ipv4 : header.length = 20)
include ipv4

theorem echoOffset_echoed {p : Utf8.Bytes} (some_byte : 0 < p.length) (reply : ¬ ErrorType type) :
    echoOffset (header ++ p.set 0 type) = .ok (some 20) := by
  refine echoOffset_reply ?_ reply
  rw [getElem?_behind ipv4 _ 0]
  exact List.getElem?_set_self some_byte

variable (eight : icmp.length = 8) (at0 : icmp[0]? = some type) (error : ErrorType type)
include eight

theorem getElem?_quoted (back : Utf8.Bytes) (i : Nat) :
    (header ++ (icmp ++ back))[28 + i]? = back[i]? := by
  rw [← List.append_assoc]
  apply getElem?_behind
  simp [ipv4, eight]

include at0

theorem getElem?_type (back : Utf8.Bytes) : (header ++ (icmp ++ back))[20]? = some type := by
  rw [getElem?_behind ipv4 _ 0, List.getElem?_append_left (by omega)]
  exact at0

include error

/-- The offset is behind the header that the message quotes. -/
theorem echoOffset_quoted {inner : Utf8.Bytes} {first : UInt8} (start : inner[0]? = some first)
    (version : first.toNat / 16 = 4) (legal : 5 ≤ first.toNat % 16)
    (quoted : first.toNat % 16 * 4 + 8 ≤ inner.length) :
    echoOffset (header ++ (icmp ++ inner)) = .ok (some (28 + first.toNat % 16 * 4)) := by
  have length : (header ++ (icmp ++ inner)).length = 28 + inner.length := by
    simp only [List.length_append]
    omega
  have at28 : (header ++ (icmp ++ inner))[28]? = some first := by
    rw [getElem?_quoted ipv4 eight inner 0]
    exact start
  rw [echoOffset_error (getElem?_type ipv4 eight at0 inner) error (by omega) at28, length]
  exact congrArg Except.ok (if_pos ⟨version, by omega⟩)

theorem echoOffset_unquoted {inner : Utf8.Bytes}
    (nothing : ∀ first, inner[0]? = some first →
      first.toNat / 16 ≠ 4 ∨ inner.length < first.toNat % 16 * 4 + 8) :
    echoOffset (header ++ (icmp ++ inner)) = .ok none := by
  have length : (header ++ (icmp ++ inner)).length = 28 + inner.length := by
    simp only [List.length_append]
    omega
  have at20 := getElem?_type ipv4 eight at0 inner
  by_cases short : inner.length < 20
  · exact echoOffset_short at20 error (by omega)
  · obtain ⟨first, start⟩ : ∃ first, inner[0]? = some first :=
      ⟨_, List.getElem?_eq_getElem (by omega)⟩
    have at28 : (header ++ (icmp ++ inner))[28]? = some first := by
      rw [getElem?_quoted ipv4 eight inner 0]
      exact start
    rw [echoOffset_error at20 error (by omega) at28, length]
    apply congrArg Except.ok
    apply if_neg
    intro both
    rcases nothing first start with other | less
    · exact other both.1
    · omega

end

/-- The id of a probe comes back in the message that echoes the request under
another type, and in an error message that quotes at least its first eight bytes.
Whatever else an error message quotes, it carries no id when that is no IPv4 packet
or has not eight bytes behind its header. -/
theorem probe_id_survives (raw : RawSocket) (sequence packetSize : Nat)
    (small : sequence ≤ 65535) (header : Utf8.Bytes) (ipv4 : header.length = 20) :
    let p := createPingRequest raw 0 0 sequence packetSize
    (∀ type, ¬ ErrorType type →
      parseIdFromIcmpMessage (header ++ p.set 0 type) = .ok (some sequence)) ∧
    ∀ (icmp : Utf8.Bytes) (type : UInt8), icmp.length = 8 → icmp[0]? = some type → ErrorType type →
      (∀ (inner more : Utf8.Bytes) (first : UInt8), inner[0]? = some first → 0x45 ≤ first →
        first ≤ 0x4f → inner.length = first.toNat % 16 * 4 →
        parseIdFromIcmpMessage (header ++ (icmp ++ (inner ++ (p.take 8 ++ more)))) =
          .ok (some sequence)) ∧
      ∀ inner : Utf8.Bytes,
        (∀ first, inner[0]? = some first →
          first.toNat / 16 ≠ 4 ∨ inner.length < first.toNat % 16 * 4 + 8) →
        parseIdFromIcmpMessage (header ++ (icmp ++ inner)) = .ok none := by
  intro p
  obtain ⟨high, low, recombined, at6, at7⟩ : ∃ high low : UInt8,
    high.toNat * 256 + low.toNat = sequence ∧ p[6]? = some high ∧ p[7]? = some low :=
    sequence_bytes small 0 0 packetSize
  have long : p.length = 8 + packetSize := length_createPingRequest ..
  rw [← recombined]
  refine ⟨?_, fun icmp type eight at0 error => ⟨?_, ?_⟩⟩
  · intro type reply
    apply parse_of_bytes (echoOffset_echoed ipv4 (by omega) reply)
    · rw [getElem?_behind ipv4 _ 6, List.getElem?_set_ne (by decide)]
      exact at6
    · rw [getElem?_behind ipv4 _ 7, List.getElem?_set_ne (by decide)]
      exact at7
  · intro inner more first start above below legal
    have lower : 0x45 ≤ first.toNat := UInt8.le_iff_toNat_le.mp above
    have upper : first.toNat ≤ 0x4f := UInt8.le_iff_toNat_le.mp below
    have eight_quoted : (p.take 8).length = 8 := by
      rw [List.length_take]
      omega
    have start' : (inner ++ (p.take 8 ++ more))[0]? = some first := by
      rw [List.getElem?_append_left (by omega)]
      exact start
    have offset := echoOffset_quoted ipv4 eight at0 error start' (by omega) (by omega)
      (by simp only [List.length_append]; omega)
    have quoted : ∀ i, i < 8 → (header ++ (icmp ++ (inner ++ (p.take 8 ++ more))))[
        28 + first.toNat % 16 * 4 + i]? = p[i]? := by
      intro i inside
      rw [Nat.add_assoc, getElem?_quoted ipv4 eight, ← legal, getElem?_behind rfl,
        List.getElem?_append_left (by omega), List.getElem?_take_of_lt inside]
    apply parse_of_bytes offset
    · rw [quoted 6 (by decide)]
      exact at6
    · rw [quoted 7 (by decide)]
      exact at7
  · intro inner nothing
    exact parse_of_none (echoOffset_unquoted ipv4 eight at0 error nothing)

/-- One's complement sum of the 16-bit words. -/
def wordSum (sum : Nat) : Utf8.Bytes → Nat
  | high :: low :: rest => wordSum (carried (sum + high.toNat * 256 + low.toNat)) rest
  | [last] => carried (sum + last.toNat * 256)
  | [] => sum
where
  carried (sum : Nat) : Nat := if sum > 0xffff then sum - 0xffff else sum

/-- The package with the checksum of the internet protocols. -/
def internet : RawSocket where
  createChecksum buffer := 0xffff - wordSum 0 buffer
  writeChecksum buffer offset checksum :=
    (buffer.set offset (.ofNat (secondByte checksum))).set (offset + 1) (.ofNat (firstByte checksum))
  length_writeChecksum buffer offset checksum := by
    rw [List.length_set, List.length_set]
  getElem?_writeChecksum buffer offset checksum i first second := by
    rw [List.getElem?_set_ne (Ne.symm second), List.getElem?_set_ne (Ne.symm first)]

/-- The first probe of a run: its echo reply, the message of a hop that quotes it
behind a header without options, and one that quotes an IPv6 packet. -/
theorem first_probe_id_survives :
    parseIdFromIcmpMessage (List.replicate 20 0 ++
        (createPingRequest internet 0 0 33434 52).set 0 0) = .ok (some 33434) ∧
      parseIdFromIcmpMessage (List.replicate 20 0 ++ ((11 :: List.replicate 7 0) ++
        ((0x45 :: List.replicate 19 0) ++
          ((createPingRequest internet 0 0 33434 52).take 8 ++ [])))) = .ok (some 33434) ∧
      parseIdFromIcmpMessage (List.replicate 20 0 ++ ((11 :: List.replicate 7 0) ++
        (0x60 :: List.replicate 47 0))) = .ok none := by
  have both := probe_id_survives internet 33434 52 (by decide) (List.replicate 20 0) rfl
  have error := both.2 (11 :: List.replicate 7 0) 11 rfl rfl (by decide)
  refine ⟨both.1 0 (by decide), ?_, ?_⟩
  · exact error.1 (0x45 :: List.replicate 19 0) [] 0x45 rfl (by decide) (by decide) rfl
  · apply error.2
    intro first start
    cases start
    exact .inl (by decide)

end BrightCli.Guarantees.IcmpMessages
