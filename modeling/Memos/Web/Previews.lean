import Mathlib.Data.List.Find
import Memos.Library.Transfers
import Memos.Web.Import

namespace Memos
namespace Web

open Library

/-!
# Previews

A preview sorts the memos of an archive into those that are new, those that lack
some attachments and those that are skipped.
-/

/-- What becomes of a memo of the archive whose counterpart lacks some
attachments. -/
def toUpdate (existing : List (String × MemoMessage)) (memo : MemoExport) : Option MemoToUpdate :=
  match existing.lookup memo.key with
  | none => none
  | some found =>
      let newAtts := getNewAttachments memo.files found.filenames
      if newAtts ≠ [] then
        some { «export» := memo, existingMemoName := found.name
               newAttachmentNames := newAtts.map AttachmentExport.name
               existingAttachments := found.attachments.map fun attachment =>
                 (attachment.name, attachment.filename) }
      else none

/-- A memo of the archive has its counterpart, with all of its attachments. -/
def Skips (existing : List (String × MemoMessage)) (memo : MemoExport) : Prop :=
  Exists fun found => existing.lookup memo.key = some found ∧
    ∀ attachment, attachment ∈ memo.files -> attachment.name ∈ found.filenames

theorem getNewAttachments_nil {attachments : List AttachmentExport} {filenames : List String} :
    getNewAttachments attachments filenames = [] ↔
      ∀ attachment, attachment ∈ attachments -> attachment.name ∈ filenames := by
  unfold getNewAttachments
  rw [List.filter_eq_nil_iff]
  constructor
  · intro all attachment member
    have inside := all attachment member
    rw [decide_eq_true_iff, not_not] at inside
    exact inside
  · intro all attachment member outside
    exact of_decide_eq_true outside (all attachment member)

variable {existing : List (String × MemoMessage)}

theorem skips_iff {memo : MemoExport} :
    Skips existing memo ↔ existing.lookup memo.key ≠ none ∧ toUpdate existing memo = none := by
  unfold Skips toUpdate
  cases existing.lookup memo.key with
  | none =>
      constructor
      · rintro ⟨found, missing, _⟩
        cases missing
      · exact fun known => absurd rfl known.1
  | some found =>
      dsimp only
      constructor
      · rintro ⟨other, same, all⟩
        cases same
        refine ⟨Option.some_ne_none found, ?_⟩
        rw [getNewAttachments_nil.mpr all, if_neg (not_not.mpr rfl)]
      · rintro ⟨_, noUpdate⟩
        refine ⟨found, rfl, getNewAttachments_nil.mp ?_⟩
        by_contra lacking
        rw [if_pos lacking] at noUpdate
        cases noUpdate

theorem foldl_previewMemo (existing : List (String × MemoMessage)) (memos : List MemoExport)
    (preview : ImportPreview) :
    (memos.foldl (previewMemo existing) preview).newMemos =
        preview.newMemos ++ memos.filter (fun memo => existing.lookup memo.key |>.isNone) ∧
      (memos.foldl (previewMemo existing) preview).updateMemos =
        preview.updateMemos ++ memos.filterMap (toUpdate existing) := by
  induction memos generalizing preview with
  | nil => exact ⟨(List.append_nil _).symm, (List.append_nil _).symm⟩
  | cons memo memos ih =>
      rcases ih (previewMemo existing preview memo) with ⟨new, update⟩
      rw [List.foldl_cons, new, update, List.filter_cons, List.filterMap_cons]
      unfold previewMemo toUpdate
      cases existing.lookup memo.key with
      | none => exact ⟨List.append_assoc _ _ _, rfl⟩
      | some found =>
          dsimp only
          split
          · exact ⟨rfl, List.append_assoc _ _ _⟩
          · exact ⟨rfl, rfl⟩

/-- If every memo of the archive has its counterpart, all are skipped. -/
theorem foldl_previewMemo_skips {memos : List MemoExport} (all : ∀ memo, memo ∈ memos -> Skips existing memo)
    (preview : ImportPreview) :
    memos.foldl (previewMemo existing) preview =
      { preview with skippedCount := preview.skippedCount + memos.length } := by
  induction memos generalizing preview with
  | nil => rfl
  | cons memo memos ih =>
      rcases all memo List.mem_cons_self with ⟨found, known, inside⟩
      have here : previewMemo existing preview memo = { preview with skippedCount := preview.skippedCount + 1 } := by
        unfold previewMemo
        rw [known]
        dsimp only
        rw [getNewAttachments_nil.mpr inside, if_neg (not_not.mpr rfl)]
      rw [List.foldl_cons, here, ih fun other member => all other (List.mem_cons_of_mem _ member)]
      simp only [List.length_cons, Nat.add_assoc, Nat.add_comm 1]

/-- Nothing is new and nothing is to be updated exactly when everything is
skipped. -/
theorem foldl_previewMemo_idle {memos : List MemoExport} :
    (memos.foldl (previewMemo existing) {}).newMemos = [] ∧ (memos.foldl (previewMemo existing) {}).updateMemos = [] ↔
      ∀ memo, memo ∈ memos -> Skips existing memo := by
  rcases foldl_previewMemo existing memos {} with ⟨new, update⟩
  rw [new, update, List.nil_append, List.nil_append, List.filter_eq_nil_iff, List.filterMap_eq_nil_iff]
  constructor
  · rintro ⟨allKnown, noUpdate⟩ memo member
    refine skips_iff.mpr ⟨fun missing => allKnown memo member ?_, noUpdate memo member⟩
    rw [missing]
    rfl
  · intro all
    refine ⟨fun memo member missing => ?_, fun memo member => (skips_iff.mp (all memo member)).2⟩
    exact (skips_iff.mp (all memo member)).1 (Option.isNone_iff_eq_none.mp missing)

/-! ## The map of the existing memos -/

/-- The memo that a key finds is the last one of the list that has it. -/
theorem lookup_reverse_map {α β κ : Type} [DecidableEq κ] (list : List α) (key : α -> κ) (value : α -> β)
    (wanted : κ) :
    (list.map fun item => (key item, value item)).reverse.lookup wanted =
      (list.reverse.find? fun item => key item = wanted).map value := by
  rw [← List.map_reverse]
  induction list.reverse with
  | nil => rfl
  | cons item items ih =>
      rw [List.map_cons, List.lookup_cons, List.find?_cons]
      by_cases same : key item = wanted
      · rw [decide_eq_true same, beq_iff_eq.mpr same.symm]
        rfl
      · rw [decide_eq_false same, beq_false_of_ne (Ne.symm same)]
        exact ih

theorem keyedMemo_eq (memo : MemoMessage) : keyedMemo memo = (memoKey memo).map fun key => (key, memo) := by
  unfold keyedMemo
  cases memoKey memo <;> rfl

/-- There is a map when the times of all memos can be written. -/
theorem existingByKey_isSome {memos : List MemoMessage} :
    (existingByKey memos).isSome ↔ ∀ memo, memo ∈ memos -> (memoKey memo).isSome := by
  unfold existingByKey
  rw [Option.isSome_map]
  induction memos with
  | nil => exact ⟨fun _ memo member => absurd member List.not_mem_nil, fun _ => rfl⟩
  | cons memo memos ih =>
      rw [List.mapM_cons, keyedMemo_eq, List.forall_mem_cons]
      cases memoKey memo with
      | none => exact ⟨fun wrong => absurd wrong Bool.false_ne_true, fun wrong => absurd wrong.1 Bool.false_ne_true⟩
      | some key =>
          rw [← ih]
          cases memos.mapM keyedMemo with
          | none => exact ⟨fun wrong => absurd wrong Bool.false_ne_true, fun wrong => absurd wrong.2 Bool.false_ne_true⟩
          | some others => exact ⟨fun _ => ⟨rfl, rfl⟩, fun _ => rfl⟩

/-- What the import finds for the key of a memo of the archive. -/
def counterpart (memos : List MemoMessage) (key : String) : Option MemoMessage :=
  memos.reverse.find? fun memo => memoKey memo = some key

theorem lookup_existingByKey {memos : List MemoMessage} (written : existingByKey memos = some existing) (key : String) :
    existing.lookup key = counterpart memos key := by
  rcases Option.map_eq_some_iff.mp written with ⟨keyed, mapped, rfl⟩
  have pairs := forall₂_mapM mapped
  have keys : keyed = memos.map fun memo => ((memoKey memo).getD "", memo) := by
    clear mapped written
    induction pairs with
    | nil => rfl
    | @cons memo pair memos pairs here _ ih =>
        rw [keyedMemo_eq] at here
        rcases Option.map_eq_some_iff.mp here with ⟨key, found, rfl⟩
        rw [List.map_cons, found, ih]
        rfl
  have written := existingByKey_isSome.mp (Option.isSome_iff_exists.mpr ⟨_, written⟩)
  rw [keys, lookup_reverse_map, Option.map_id', counterpart]
  apply List.find?_congr
  intro memo member
  rcases Option.isSome_iff_exists.mp (written memo (List.mem_reverse.mp member)) with ⟨own, same⟩
  rw [same, Option.getD_some]
  exact decide_eq_decide.mpr Option.some_inj.symm

end Web
end Memos
