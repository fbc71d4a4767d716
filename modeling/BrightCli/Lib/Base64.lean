import BrightCli.Lib.Utf8

/-!
# Base64

`encode` is the encoding of RFC 4648 with padding. Decoders agree on what it
yields and differ on other texts: whether foreign characters are skipped, where
padding ends a text, which second alphabet is read. A `Decoder` is any function
that inverts the encoding. `Decoder.skipping` is one: it stops at the padding and
skips what is not in the alphabet.
-/
namespace BrightCli.Lib.Base64
open BrightCli.Lib.Utf8 (Bytes)

def alphabet : List Char :=
  ['A', 'B', 'C', 'D', 'E', 'F', 'G', 'H', 'I', 'J', 'K', 'L', 'M',
    'N', 'O', 'P', 'Q', 'R', 'S', 'T', 'U', 'V', 'W', 'X', 'Y', 'Z',
    'a', 'b', 'c', 'd', 'e', 'f', 'g', 'h', 'i', 'j', 'k', 'l', 'm',
    'n', 'o', 'p', 'q', 'r', 's', 't', 'u', 'v', 'w', 'x', 'y', 'z',
    '0', '1', '2', '3', '4', '5', '6', '7', '8', '9', '+', '/']

def digit (n : Nat) : Char := alphabet.getD n '='

def value? (c : Char) : Option Nat := alphabet.idxOf? c

/-- Three bytes are four digits; one or two bytes at the end are padded. -/
def encodeBytes : Bytes → List Char
  | [] => []
  | [a] => [digit (a.toNat / 4), digit (a.toNat % 4 * 16), '=', '=']
  | [a, b] =>
    [digit (a.toNat / 4), digit (a.toNat % 4 * 16 + b.toNat / 16), digit (b.toNat % 16 * 4), '=']
  | a :: b :: c :: rest =>
    digit (a.toNat / 4) :: digit (a.toNat % 4 * 16 + b.toNat / 16) ::
      digit (b.toNat % 16 * 4 + c.toNat / 64) :: digit (c.toNat % 64) :: encodeBytes rest

def encode (bytes : Bytes) : String := String.ofList (encodeBytes bytes)

structure Decoder where
  decode : String → Bytes
  inverts : ∀ bytes, decode (encode bytes) = bytes

def digits (text : List Char) : List Nat := (text.takeWhile (· ≠ '=')).filterMap value?

/-- The bytes that four digits each stand for, or the last two or three. -/
def bytesOfDigits : List Nat → Bytes
  | a :: b :: c :: d :: rest =>
    UInt8.ofNat (a * 4 + b / 16) :: UInt8.ofNat (b % 16 * 16 + c / 4) ::
      UInt8.ofNat (c % 4 * 64 + d) :: bytesOfDigits rest
  | [a, b, c] => [UInt8.ofNat (a * 4 + b / 16), UInt8.ofNat (b % 16 * 16 + c / 4)]
  | [a, b] => [UInt8.ofNat (a * 4 + b / 16)]
  | _ => []

theorem value?_digit (n : Nat) (small : n < 64) : value? (digit n) = some n ∧ digit n ≠ '=' := by
  have all : ∀ m : Fin 64, value? (digit m) = some m.val ∧ digit m ≠ '=' := by decide +kernel
  exact all ⟨n, small⟩

theorem digits_cons (n : Nat) (small : n < 64) (rest : List Char) :
    digits (digit n :: rest) = n :: digits rest := by
  obtain ⟨own, unpadded⟩ := value?_digit n small
  simp [digits, own, unpadded]

theorem digits_padding (rest : List Char) : digits ('=' :: rest) = [] := by
  simp [digits]

theorem ofNat_eq (byte : UInt8) {n : Nat} (same : n = byte.toNat) : UInt8.ofNat n = byte := by
  rw [same, UInt8.ofNat_toNat]

theorem bytesOfDigits_digits (bytes : Bytes) :
    bytesOfDigits (digits (encodeBytes bytes)) = bytes := by
  induction bytes using encodeBytes.induct with
  | case1 => rfl
  | case2 a =>
    have bound := a.toNat_lt
    rw [encodeBytes, digits_cons _ (by omega), digits_cons _ (by omega), digits_padding,
      bytesOfDigits, ofNat_eq a (by omega)]
  | case3 a b =>
    have bound := a.toNat_lt
    have bound' := b.toNat_lt
    rw [encodeBytes, digits_cons _ (by omega), digits_cons _ (by omega), digits_cons _ (by omega),
      digits_padding, bytesOfDigits, ofNat_eq a (by omega), ofNat_eq b (by omega)]
  | case4 a b c rest ih =>
    have bound := a.toNat_lt
    have bound' := b.toNat_lt
    have bound'' := c.toNat_lt
    rw [encodeBytes, digits_cons _ (by omega), digits_cons _ (by omega), digits_cons _ (by omega),
      digits_cons _ (by omega), bytesOfDigits, ofNat_eq a (by omega), ofNat_eq b (by omega),
      ofNat_eq c (by omega), ih]

def Decoder.skipping : Decoder where
  decode text := bytesOfDigits (digits text.toList)
  inverts bytes := by rw [encode, String.toList_ofList, bytesOfDigits_digits]

example : Decoder.skipping.decode "aGk=" = [104, 105] := by decide

end BrightCli.Lib.Base64
