import Mathlib.Data.UInt

namespace Memos
namespace Library
namespace Base64

/-!
# Standard base64

Three bytes are written as four characters, and an incomplete group is padded
with `=`.  The decoder skips line breaks and does not check the bits that an
incomplete group leaves over.
-/

/-- The characters of the values below 64. -/
def alphabet : List Char :=
  "ABCDEFGHIJKLMNOPQRSTUVWXYZabcdefghijklmnopqrstuvwxyz0123456789+/".toList

def encodeSextet (value : Nat) : Char := alphabet.getD value '='

def decodeSextet (char : Char) : Option Nat := alphabet.findIdx? fun other => other = char

theorem decodeSextet_encodeSextet :
    ∀ value, value < 64 -> decodeSextet (encodeSextet value) = some value := by
  decide +kernel

theorem encodeSextet_plain : ∀ value, value < 64 ->
    encodeSextet value ≠ '=' ∧ encodeSextet value ≠ '\r' ∧ encodeSextet value ≠ '\n' := by
  decide +kernel

/-- Three bytes at a time. -/
def encode : List UInt8 -> List Char
  | [] => []
  | [first] =>
      [encodeSextet (first.toNat / 4), encodeSextet (first.toNat % 4 * 16), '=', '=']
  | [first, second] =>
      [encodeSextet (first.toNat / 4), encodeSextet (first.toNat % 4 * 16 + second.toNat / 16),
        encodeSextet (second.toNat % 16 * 4), '=']
  | first :: second :: third :: rest =>
      encodeSextet (first.toNat / 4) ::
        encodeSextet (first.toNat % 4 * 16 + second.toNat / 16) ::
        encodeSextet (second.toNat % 16 * 4 + third.toNat / 64) ::
        encodeSextet (third.toNat % 64) :: encode rest

/-- The bytes of four characters.  Only the last group can be padded. -/
def decodeQuad (first second third fourth : Char) (isLast : Bool) : Option (List UInt8) := do
  let one ← decodeSextet first
  let two ← decodeSextet second
  let head := UInt8.ofNat (one * 4 + two / 16)
  if isLast ∧ third = '=' ∧ fourth = '=' then return [head]
  else
    let three ← decodeSextet third
    let middle := UInt8.ofNat (two % 16 * 16 + three / 4)
    if isLast ∧ fourth = '=' then return [head, middle]
    else
      let four ← decodeSextet fourth
      return [head, middle, UInt8.ofNat (three % 4 * 64 + four)]

def decodeQuads : List Char -> Option (List UInt8)
  | [] => some []
  | first :: second :: third :: fourth :: rest => do
      let bytes ← decodeQuad first second third fourth rest.isEmpty
      let others ← decodeQuads rest
      return bytes ++ others
  | _ => none

/-- `EncodeToString` -/
def encodeToString (bytes : List UInt8) : String := String.ofList (encode bytes)

/-- `DecodeString` -/
def decodeString (text : String) : Option (List UInt8) :=
  decodeQuads (text.toList.filter fun char => char ≠ '\r' ∧ char ≠ '\n')

/-! ## Round trip -/

theorem byte_of_value (byte : UInt8) {value : Nat} (same : value = byte.toNat) :
    UInt8.ofNat value = byte := by
  rw [same]
  exact UInt8.ofNat_toNat

theorem decodeQuad_three (first second third : UInt8) (isLast : Bool) :
    decodeQuad (encodeSextet (first.toNat / 4))
      (encodeSextet (first.toNat % 4 * 16 + second.toNat / 16))
      (encodeSextet (second.toNat % 16 * 4 + third.toNat / 64))
      (encodeSextet (third.toNat % 64)) isLast = some [first, second, third] := by
  have firstBound := first.toNat_lt
  have secondBound := second.toNat_lt
  have thirdBound := third.toNat_lt
  have plainThird := encodeSextet_plain (second.toNat % 16 * 4 + third.toNat / 64) (by omega)
  have plainFourth := encodeSextet_plain (third.toNat % 64) (by omega)
  unfold decodeQuad
  rw [decodeSextet_encodeSextet _ (by omega), decodeSextet_encodeSextet _ (by omega),
    decodeSextet_encodeSextet _ (by omega), decodeSextet_encodeSextet _ (by omega)]
  simp only [bind, Option.bind, plainThird.1, plainFourth.1, and_false, if_false]
  rw [byte_of_value first (by omega), byte_of_value second (by omega),
    byte_of_value third (by omega)]
  rfl

theorem decodeQuad_two (first second : UInt8) :
    decodeQuad (encodeSextet (first.toNat / 4))
      (encodeSextet (first.toNat % 4 * 16 + second.toNat / 16))
      (encodeSextet (second.toNat % 16 * 4)) '=' true = some [first, second] := by
  have firstBound := first.toNat_lt
  have secondBound := second.toNat_lt
  have plainThird := encodeSextet_plain (second.toNat % 16 * 4) (by omega)
  unfold decodeQuad
  rw [decodeSextet_encodeSextet _ (by omega), decodeSextet_encodeSextet _ (by omega),
    decodeSextet_encodeSextet _ (by omega)]
  simp only [bind, Option.bind, plainThird.1, false_and, and_false, if_false, and_self, if_true]
  rw [byte_of_value first (by omega), byte_of_value second (by omega)]
  rfl

theorem decodeQuad_one (first : UInt8) :
    decodeQuad (encodeSextet (first.toNat / 4)) (encodeSextet (first.toNat % 4 * 16)) '=' '=' true =
      some [first] := by
  have firstBound := first.toNat_lt
  unfold decodeQuad
  rw [decodeSextet_encodeSextet _ (by omega), decodeSextet_encodeSextet _ (by omega)]
  simp only [bind, Option.bind, and_self, if_true]
  rw [byte_of_value first (by omega)]
  rfl

theorem decodeQuads_encode (bytes : List UInt8) : decodeQuads (encode bytes) = some bytes := by
  induction bytes using encode.induct with
  | case1 => rfl
  | case2 first =>
      unfold encode decodeQuads
      rw [List.isEmpty_nil, decodeQuad_one]
      rfl
  | case3 first second =>
      unfold encode decodeQuads
      rw [List.isEmpty_nil, decodeQuad_two]
      rfl
  | case4 first second third rest ih =>
      unfold encode decodeQuads
      rw [decodeQuad_three, ih]
      rfl

/-- The text has no line breaks. -/
theorem encode_plain (bytes : List UInt8) :
    ∀ char, char ∈ encode bytes -> char ≠ '\r' ∧ char ≠ '\n' := by
  induction bytes using encode.induct with
  | case1 => exact fun _ impossible => absurd impossible List.not_mem_nil
  | case2 first =>
      have firstBound := first.toNat_lt
      have one := encodeSextet_plain (first.toNat / 4) (by omega)
      have two := encodeSextet_plain (first.toNat % 4 * 16) (by omega)
      simp [encode, one.2, two.2]
  | case3 first second =>
      have firstBound := first.toNat_lt
      have secondBound := second.toNat_lt
      have one := encodeSextet_plain (first.toNat / 4) (by omega)
      have two := encodeSextet_plain (first.toNat % 4 * 16 + second.toNat / 16) (by omega)
      have three := encodeSextet_plain (second.toNat % 16 * 4) (by omega)
      simp [encode, one.2, two.2, three.2]
  | case4 first second third rest ih =>
      have firstBound := first.toNat_lt
      have secondBound := second.toNat_lt
      have thirdBound := third.toNat_lt
      have one := encodeSextet_plain (first.toNat / 4) (by omega)
      have two := encodeSextet_plain (first.toNat % 4 * 16 + second.toNat / 16) (by omega)
      have three := encodeSextet_plain (second.toNat % 16 * 4 + third.toNat / 64) (by omega)
      have four := encodeSextet_plain (third.toNat % 64) (by omega)
      simpa [encode, one.2, two.2, three.2, four.2] using ih

/-- Decoding gives back what was encoded. -/
theorem decodeString_encodeToString (bytes : List UInt8) :
    decodeString (encodeToString bytes) = some bytes := by
  unfold decodeString encodeToString
  rw [String.toList_ofList, List.filter_eq_self.mpr, decodeQuads_encode]
  intro char member
  exact decide_eq_true (encode_plain bytes char member)

theorem encode_ne_nil {bytes : List UInt8} (nonempty : bytes ≠ []) : encode bytes ≠ [] := by
  intro empty
  have decoded := decodeQuads_encode bytes
  rw [empty] at decoded
  exact nonempty (Option.some.inj decoded).symm

end Base64
end Library
end Memos
