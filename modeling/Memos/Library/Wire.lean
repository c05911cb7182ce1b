import Mathlib.Algebra.Ring.Int.Defs
import Mathlib.Algebra.Ring.Nat
import Mathlib.Data.UInt

namespace Memos
namespace Library
namespace Wire

/-!
# Messages of integers in the wire format

A field is a tag, which holds the number of the field and the kind of its
value, and the value.  Integers are written seven bits at a time, the low
ones first.  A reader skips the fields that it does not know.
-/

abbrev Bytes := List UInt8

/-! ## Variable-length integers -/

/-- The groups of an unsigned integer, at most this many. -/
def varintGroups : Nat -> Nat -> Bytes
  | 0, _ => []
  | groups + 1, value =>
      if value < 128 then [UInt8.ofNat value]
      else UInt8.ofNat (value % 128 + 128) :: varintGroups groups (value / 128)

def maxGroups : Nat := 10

def appendVarint (value : Nat) : Bytes := varintGroups maxGroups value

/-- The tenth group has one bit. -/
def consumeGroups : Nat -> Bytes -> Option (Nat × Bytes)
  | 0, _ => none
  | _, [] => none
  | groups + 1, byte :: rest =>
      if byte.toNat < 128 then
        if groups = 0 ∧ 1 < byte.toNat then none else some (byte.toNat, rest)
      else do
        let (high, rest) ← consumeGroups groups rest
        return (byte.toNat % 128 + 128 * high, rest)

def consumeVarint (bytes : Bytes) : Option (Nat × Bytes) := consumeGroups maxGroups bytes

theorem consumeGroups_varintGroups (groups value : Nat) (rest : Bytes) (bounded : value < 2 * 128 ^ groups) :
    consumeGroups (groups + 1) (varintGroups (groups + 1) value ++ rest) = some (value, rest) := by
  induction groups generalizing value with
  | zero =>
      have single : (UInt8.ofNat value).toNat = value := by
        rw [UInt8.toNat_ofNat']
        omega
      unfold varintGroups
      rw [if_pos (by omega)]
      simp only [List.cons_append, List.nil_append, consumeGroups, single]
      rw [if_pos (by omega), if_neg (by omega)]
  | succ groups ih =>
      unfold varintGroups
      by_cases small : value < 128
      · have single : (UInt8.ofNat value).toNat = value := by
          rw [UInt8.toNat_ofNat']
          omega
        rw [if_pos small]
        simp only [List.cons_append, List.nil_append, consumeGroups, single]
        rw [if_pos small, if_neg (by omega)]
      · have continued : (UInt8.ofNat (value % 128 + 128)).toNat = value % 128 + 128 := by
          rw [UInt8.toNat_ofNat']
          omega
        have others := ih (value / 128) (by
          rw [pow_succ] at bounded
          omega)
        rw [if_neg small, List.cons_append, consumeGroups, continued, if_neg (by omega), others]
        simp only [bind, Option.bind, pure]
        have whole : (value % 128 + 128) % 128 + 128 * (value / 128) = value := by omega
        rw [whole]

theorem consumeVarint_appendVarint {value : Nat} (bounded : value < 2 ^ 64) (rest : Bytes) :
    consumeVarint (appendVarint value ++ rest) = some (value, rest) :=
  consumeGroups_varintGroups 9 value rest (by omega)

theorem appendVarint_ne_nil (value : Nat) : appendVarint value ≠ [] := by
  unfold appendVarint maxGroups varintGroups
  split <;> exact List.cons_ne_nil _ _

/-! ## Signed values -/

/-- The 64 bits of a signed 32-bit value. -/
def uint64OfInt32 (value : Int) : Nat := (value % 2 ^ 64).toNat

/-- The signed value of the low 32 bits. -/
def int32OfNat (value : Nat) : Int := Int.bmod value (2 ^ 32)

/-- The values of a signed 32-bit integer. -/
def IsInt32 (value : Int) : Prop := -(2 ^ 31) ≤ value ∧ value < 2 ^ 31

theorem uint64OfInt32_lt (value : Int) : uint64OfInt32 value < 2 ^ 64 := by
  unfold uint64OfInt32
  omega

theorem int32OfNat_uint64OfInt32 {value : Int} (fits : IsInt32 value) :
    int32OfNat (uint64OfInt32 value) = value := by
  rcases fits with ⟨lower, upper⟩
  unfold int32OfNat uint64OfInt32
  have bits : ((value % 2 ^ 64).toNat : Int) = value % 2 ^ 64 := by omega
  rw [bits, Int.bmod_def]
  omega

/-! ## Fields -/

/-- The kinds of values. -/
def varintType : Nat := 0

def tagOf (number wireType : Nat) : Nat := number * 8 + wireType

/-- A field with its default value is not written. -/
def appendInt32 (number : Nat) (value : Int) : Bytes :=
  if value = 0 then []
  else appendVarint (tagOf number varintType) ++ appendVarint (uint64OfInt32 value)

/-- Drop the bytes of a value. -/
def dropBytes (count : Nat) (bytes : Bytes) : Option Bytes :=
  if count ≤ bytes.length then some (bytes.drop count) else none

mutual

/-- The bytes after a value of an unknown field. -/
def skipValue : Nat -> Nat -> Nat -> Bytes -> Option Bytes
  | 0, _, _, _ => none
  | fuel + 1, number, wireType, bytes =>
      match wireType with
      | 0 => Prod.snd <$> consumeVarint bytes
      | 1 => dropBytes 8 bytes
      | 2 => do
          let (length, rest) ← consumeVarint bytes
          dropBytes length rest
      | 3 => skipGroup fuel number bytes
      | 5 => dropBytes 4 bytes
      | _ => none

/-- The bytes after the end of a group. -/
def skipGroup : Nat -> Nat -> Bytes -> Option Bytes
  | 0, _, _ => none
  | fuel + 1, number, bytes => do
      let (tag, rest) ← consumeVarint bytes
      if tag % 8 = 4 then
        if tag / 8 = number then some rest else none
      else do
        let after ← skipValue fuel (tag / 8) (tag % 8) rest
        skipGroup fuel number after

end

def maxFieldNumber : Nat := 2 ^ 29 - 1

/-- Read a message of 32-bit integers: the known fields update the message,
and the last value of a field counts. -/
def readFields {μ : Type} (set : Nat -> Option (Int -> μ -> μ)) : Nat -> Bytes -> μ -> Option μ
  | _, [], message => some message
  | 0, _, _ => none
  | fuel + 1, bytes, message => do
      let (tag, rest) ← consumeVarint bytes
      let number := tag / 8
      if number = 0 ∨ maxFieldNumber < number then none
      else
        match (if tag % 8 = varintType then set number else none) with
        | some update => do
            let (value, after) ← consumeVarint rest
            readFields set fuel after (update (int32OfNat value) message)
        | none => do
            let after ← skipValue (rest.length + 1) number (tag % 8) rest
            readFields set fuel after message

variable {μ : Type} {set : Nat -> Option (Int -> μ -> μ)}

theorem readFields_nil (fuel : Nat) (message : μ) : readFields set fuel [] message = some message := by
  cases fuel <;> rfl

/-- A field that was written is read, and the rest after it.  A field with its
default value changes nothing in a message that has it. -/
theorem readFields_appendInt32 (fuel : Nat) (rest : Bytes) (message : μ) {number : Nat}
    {value : Int} {update : Int -> μ -> μ} (known : set number = some update)
    (valid : 0 < number ∧ number ≤ maxFieldNumber) (fits : IsInt32 value)
    (default : update 0 message = message) :
    Exists fun less => fuel ≤ less ∧
      readFields set (fuel + 1) (appendInt32 number value ++ rest) message =
        readFields set less rest (update value message) := by
  unfold appendInt32
  by_cases zero : value = 0
  · refine ⟨fuel + 1, by omega, ?_⟩
    rw [if_pos zero, zero, default]
    rfl
  · refine ⟨fuel, by omega, ?_⟩
    have bound : tagOf number varintType < 2 ^ 64 := by
      unfold tagOf varintType
      unfold maxFieldNumber at valid
      omega
    have hasNumber : tagOf number varintType / 8 = number := by
      unfold tagOf varintType
      omega
    have hasType : tagOf number varintType % 8 = varintType := by
      unfold tagOf varintType
      omega
    have tagged := consumeVarint_appendVarint bound (appendVarint (uint64OfInt32 value) ++ rest)
    have valued := consumeVarint_appendVarint (uint64OfInt32_lt value) rest
    rw [if_neg zero, List.append_assoc]
    cases written : appendVarint (tagOf number varintType) ++
        (appendVarint (uint64OfInt32 value) ++ rest) with
    | nil => exact absurd (List.append_eq_nil_iff.mp written).1 (appendVarint_ne_nil _)
    | cons byte bytes =>
        rw [written] at tagged
        conv_lhs => unfold readFields
        simp only [tagged, bind, Option.bind, hasNumber, hasType, if_true, known, valued,
          int32OfNat_uint64OfInt32 fits]
        rw [if_neg (by omega)]

end Wire
end Library
end Memos
