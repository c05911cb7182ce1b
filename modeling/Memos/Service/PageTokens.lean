import Memos.Library.Base64
import Memos.Library.Wire
import Memos.Service.ListMemos

namespace Memos
namespace Service

open Library Wire

/-!
# Page tokens

A page token is the message of a limit and an offset in base64.  Both are
32-bit integers, so an offset beyond their range would wrap around.
-/

/-- The fields of `PageToken`. -/
def pageTokenField : Nat -> Option (Int -> PageToken -> PageToken)
  | 1 => some fun limit token => { token with limit := limit }
  | 2 => some fun offset token => { token with offset := offset }
  | _ => none

def marshalPageToken (token : PageToken) : String :=
  Base64.encodeToString (appendInt32 1 token.limit ++ appendInt32 2 token.offset)

def unmarshalPageToken (text : String) : Except String PageToken :=
  match Base64.decodeString text with
  | none => .error "failed to decode page token: illegal base64 data"
  | some bytes =>
      match readFields pageTokenField (bytes.length + 2) bytes ⟨0, 0⟩ with
      | none => .error "failed to unmarshal page token: proto: cannot parse invalid wire-format data"
      | some token => .ok token

def getPageToken (limit offset : Nat) : String :=
  marshalPageToken ⟨int32OfNat limit, int32OfNat offset⟩

theorem unmarshalPageToken_marshalPageToken {token : PageToken} (limit : IsInt32 token.limit)
    (offset : IsInt32 token.offset) : unmarshalPageToken (marshalPageToken token) = .ok token := by
  unfold unmarshalPageToken marshalPageToken
  rw [Base64.decodeString_encodeToString]
  dsimp only
  generalize (appendInt32 1 token.limit ++ appendInt32 2 token.offset).length = count
  have limitField : pageTokenField 1 = some fun limit token => { token with limit := limit } := rfl
  have offsetField : pageTokenField 2 = some fun offset token => { token with offset := offset } :=
    rfl
  have numbers : (0 < 1 ∧ 1 ≤ maxFieldNumber) ∧ 0 < 2 ∧ 2 ≤ maxFieldNumber := by decide
  rcases readFields_appendInt32 (count + 1) (appendInt32 2 token.offset) ⟨0, 0⟩ limitField
    numbers.1 limit rfl with ⟨less, enough, readLimit⟩
  rcases Nat.exists_eq_add_of_le' (Nat.le_trans (Nat.le_add_left 1 count) enough) with
    ⟨remaining, rfl⟩
  rcases readFields_appendInt32 remaining [] ⟨token.limit, 0⟩ offsetField numbers.2 offset rfl with
    ⟨_, _, readOffset⟩
  rw [List.append_nil, readFields_nil] at readOffset
  rw [readLimit, readOffset]

/-- A token with a limit is not the empty text, which stands for no token. -/
theorem marshalPageToken_ne_empty {token : PageToken} (limit : token.limit ≠ 0) :
    marshalPageToken token ≠ "" := by
  intro empty
  have none := congrArg String.toList empty
  unfold marshalPageToken Base64.encodeToString at none
  rw [String.toList_ofList] at none
  refine Base64.encode_ne_nil ?_ none
  unfold appendInt32
  rw [if_neg limit, List.append_assoc]
  intro impossible
  exact appendVarint_ne_nil _ (List.append_eq_nil_iff.mp impossible).1

end Service
end Memos
