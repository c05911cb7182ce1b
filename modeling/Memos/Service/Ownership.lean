import Memos.Service.Forest

namespace Memos
namespace Service

open Library Store

/-!
# The owners of memos

The key of a memo is given once.  No operation changes its uid or its creator,
so a memo of an earlier state stays the memo of the same creator until it is
deleted, and then its key is not given again.
-/

variable {base db after : Database}

/-- What has a key of the earlier database is the memo that had it there. -/
structure KeepsOwners (base db : Database) : Prop where
  sequence : base.sequences.memo ≤ db.sequences.memo
  memos : forall memo, memo ∈ db.memos -> memo.id ≤ base.sequences.memo ->
    Exists fun old => old ∈ base.memos ∧ old.ref = memo.ref ∧ old.creatorId = memo.creatorId

theorem keepsOwners_refl : KeepsOwners base base :=
  ⟨le_refl _, fun memo stored _ => ⟨memo, stored, rfl, rfl⟩⟩

theorem KeepsOwners.updateMemo {update : UpdateMemo} (owners : KeepsOwners base db) :
    KeepsOwners base { db with memos := db.memos.map update.apply } := by
  refine ⟨owners.sequence, fun memo member earlier => ?_⟩
  rcases List.mem_map.mp member with ⟨row, stored, rfl⟩
  rw [UpdateMemo.apply_id] at earlier
  rcases owners.memos row stored earlier with ⟨old, found, ref, creator⟩
  refine ⟨old, found, ?_, ?_⟩
  · rw [ref, Memo.ref, Memo.ref, UpdateMemo.apply_id, UpdateMemo.apply_uid]
  · rw [creator, UpdateMemo.apply]
    split <;> rfl

theorem KeepsOwners.write {may : Database -> Guarded -> Prop} (owners : KeepsOwners base db)
    (write : Write may db after) : KeepsOwners base after := by
  have fewer : forall {last : Database}, last.memos ⊆ db.memos ->
      last.sequences.memo = db.sequences.memo -> KeepsOwners base last :=
    fun memos sequence => ⟨sequence.symm ▸ owners.sequence,
      fun memo stored => owners.memos memo (memos stored)⟩
  cases write with
  | insertMemo memo fresh =>
      have given := owners.sequence
      refine ⟨?_, fun other member earlier => ?_⟩
      · change base.sequences.memo ≤ memo.id
        omega
      · rcases List.mem_append.mp member with before | new
        · exact owners.memos other before earlier
        · rw [List.mem_singleton.mp new] at earlier
          omega
  | updateMemo => exact owners.updateMemo
  | deleteMemo => exact fewer List.filter_sublist.subset rfl
  | deleteUser protojson userId after removed =>
      exact fewer removed.memos.subset (congrArg Sequences.memo removed.sequences)
  | insertReaction reaction sequences others => exact fewer (List.Subset.refl _) (by rw [others])
  | insertShare share sequences others => exact fewer (List.Subset.refl _) (by rw [others])
  | _ => exact fewer (List.Subset.refl _) rfl

/-- In whatever is reached, a memo is new or it is the old memo of its creator. -/
theorem memos_keepOwner {permitted : Database -> Operation -> Prop} (sound : base.Sound)
    (reached : Reaches permitted base db) {memo : Memo} (stored : memo ∈ db.memos) :
    base.sequences.memo < memo.id ∨ Exists fun old =>
      old ∈ base.memos ∧ old.ref = memo.ref ∧ old.creatorId = memo.creatorId := by
  have kept : KeepsOwners base db :=
    (reached.induction (fun _ _ wellFormed _ _ => writes_mayRelate wellFormed)
      (fun _ _ _ owners write => owners.write write) sound keepsOwners_refl).2
  rcases Nat.lt_or_ge base.sequences.memo memo.id with later | earlier
  · exact .inl later
  · exact .inr (kept.memos memo stored earlier)

/-- The uid of a deleted memo is used again, its key is not. -/
theorem memos_keepOwner_sameUid :
    (runFrom {} (nestedComments.take 2)).sequences.memo < 2 := by
  have any : forall {start operations}, Reaches (fun _ _ => True) start (runFrom start operations) :=
    reaches_runFrom fun _ _ _ => trivial
  have renewed : Memo.mk 2 "a" .normal 1 1 1 "" .isPublic false ⟨none, []⟩ ∈
      (runFrom (runFrom {} (nestedComments.take 2)) [.deleteMemo "memos/a",
        .createMemo "a" { content := "", visibility := .isPublic }]).memos := by decide +kernel
  exact (memos_keepOwner (reaches_forest any).1 any renewed).resolve_right (by decide +kernel)

end Service
end Memos
