import Mathlib.Logic.Function.Iterate
import Memos.Service.MemoAttachments

namespace Memos
namespace Service
namespace AttachmentPasses

open Library Store MemoAttachments
open AttachmentPages (MayChoose)

/-!
# Setting the same attachments again

What a request for attachments does to the table, apart from the timestamps,
depends on the table without its timestamps.  A second request for the same
list changes something only where the first left out a motion group.
-/

variable (group : String -> String) (memoId : Nat) (uids : List String)

/-! ## One pass over the table -/

/-- The row without its timestamp. -/
def untimed (row : Attachment) : Attachment := { row with updatedTs := 0 }

/-- The memo has several attachments of the motion group, and the request leaves
one of them out. -/
def Torn (rows : List Attachment) (name : String) : Prop :=
  2 ≤ (rows.filter fun row => row.memoId = some memoId ∧ group row.payload = name).length ∧
    Exists fun row => row ∈ rows ∧ row.memoId = some memoId ∧ group row.payload = name ∧ row.uid ∉ uids

instance (rows : List Attachment) (name : String) : Decidable (Torn group memoId uids rows name) := by
  unfold Torn
  infer_instance

/-- The row is requested, and its motion group is not torn. -/
def Stays (rows : List Attachment) (row : Attachment) : Prop :=
  row.uid ∈ uids ∧ ¬ (group row.payload ≠ "" ∧ Torn group memoId uids rows (group row.payload))

instance (rows : List Attachment) (row : Attachment) : Decidable (Stays group memoId uids rows row) := by
  unfold Stays
  infer_instance

/-- The row is linked to the memo. -/
def link (row : Attachment) : Attachment := { row with memoId := some memoId }

/-- A row that stays is linked, and another row of the memo is deleted. -/
def passRow (rows : List Attachment) (row : Attachment) : Option Attachment :=
  if Stays group memoId uids rows row then some (link memoId row)
  else if row.memoId = some memoId then none
  else some row

def pass (rows : List Attachment) : List Attachment := rows.filterMap (passRow group memoId uids rows)

/-! ## Further passes -/

section Repetition

variable {group memoId uids} {rows : List Attachment}

theorem mem_pass {row : Attachment} : row ∈ pass group memoId uids rows ↔
    (Exists fun before => before ∈ rows ∧ Stays group memoId uids rows before ∧ row = link memoId before) ∨
      row ∈ rows ∧ ¬ Stays group memoId uids rows row ∧ row.memoId ≠ some memoId := by
  rw [pass, List.mem_filterMap]
  constructor
  · rintro ⟨before, member, same⟩
    unfold passRow at same
    split at same
    next stays => exact Or.inl ⟨before, member, stays, (Option.some.inj same).symm⟩
    next goes =>
      split at same
      next => cases same
      next other =>
        rw [← Option.some.inj same]
        exact Or.inr ⟨member, goes, other⟩
  · rintro (⟨before, member, stays, rfl⟩ | ⟨member, goes, other⟩)
    · exact ⟨before, member, if_pos stays⟩
    · exact ⟨row, member, by rw [passRow, if_neg goes, if_neg other]⟩

/-- After a pass, the memo has requested attachments only. -/
theorem requested_of_linked {row : Attachment} (member : row ∈ pass group memoId uids rows)
    (linked : row.memoId = some memoId) : row.uid ∈ uids := by
  rcases mem_pass.mp member with ⟨before, _, stays, rfl⟩ | ⟨_, _, other⟩
  · exact stays.1
  · exact absurd linked other

/-- If the memo has requested attachments only, no group is torn. -/
theorem stays_iff_of_requested
    (requested : forall row, row ∈ rows -> row.memoId = some memoId -> row.uid ∈ uids) (row : Attachment) :
    Stays group memoId uids rows row ↔ row.uid ∈ uids := by
  refine ⟨fun stays => stays.1, fun asked => ⟨asked, ?_⟩⟩
  rintro ⟨_, _, other, member, linked, _, missing⟩
  exact missing (requested other member linked)

/-- A pass that tears nothing links what is requested. -/
theorem pass_of_requested (requested : forall row, row ∈ rows -> row.memoId = some memoId -> row.uid ∈ uids) :
    pass group memoId uids rows = rows.map fun row => if row.uid ∈ uids then link memoId row else row := by
  rw [pass, ← List.filterMap_eq_map]
  refine List.filterMap_congr fun row member => ?_
  unfold passRow
  simp only [stays_iff_of_requested requested, Function.comp]
  by_cases asked : row.uid ∈ uids
  · rw [if_pos asked, if_pos asked]
  · rw [if_neg asked, if_neg asked, if_neg fun linked => asked (requested row member linked)]

/-- A third pass changes nothing. -/
theorem pass_pass_pass :
    pass group memoId uids (pass group memoId uids (pass group memoId uids rows)) =
      pass group memoId uids (pass group memoId uids rows) := by
  rw [pass_of_requested fun _ => requested_of_linked, pass_of_requested fun _ => requested_of_linked,
    List.map_map]
  refine List.map_congr_left fun row _ => ?_
  rw [Function.comp]
  by_cases asked : row.uid ∈ uids
  · rw [if_pos asked, if_pos (show (link memoId row).uid ∈ uids from asked)]
    rfl
  · rw [if_neg asked, if_neg asked]

theorem iterate_pass {count : Nat} (repeated : 2 ≤ count) :
    (pass group memoId uids)^[count] rows = pass group memoId uids (pass group memoId uids rows) := by
  induction count, repeated using Nat.le_induction with
  | base => rfl
  | succ count _ ih =>
      rw [Function.iterate_succ_apply', ih, pass_pass_pass]

/-- A second pass changes nothing exactly if the first tore no group, as long as
what is requested is still there. -/
theorem pass_pass_iff (distinct : (rows.map Attachment.uid).Nodup)
    (there : forall row, row ∈ rows -> row.uid ∈ uids ->
      Exists fun after => after ∈ pass group memoId uids rows ∧ after.uid = row.uid) :
    pass group memoId uids (pass group memoId uids rows) = pass group memoId uids rows ↔
      forall row, row ∈ rows -> row.uid ∈ uids -> Stays group memoId uids rows row := by
  rw [pass_of_requested fun _ => requested_of_linked]
  constructor
  · intro same row member asked
    by_contra goes
    rcases there row member asked with ⟨after, inPass, sameUid⟩
    rcases mem_pass.mp inPass with ⟨before, stored, stays, rfl⟩ | ⟨stored, _, other⟩
    · rw [eq_of_nodup_map distinct stored member sameUid] at stays
      exact goes stays
    · have fixed := List.map_inj_left.mp (same.trans (List.map_id _).symm) after inPass
      rw [if_pos (sameUid.symm ▸ asked)] at fixed
      exact other (congrArg Attachment.memoId fixed).symm
  · intro all
    refine (List.map_congr_left fun row member => ?_).trans (List.map_id _)
    split
    next asked =>
      rcases mem_pass.mp member with ⟨before, _, _, rfl⟩ | ⟨stored, goes, _⟩
      · rfl
      · exact absurd (all row stored asked) goes
    next => rfl

end Repetition

/-! ## The request makes a pass -/

section Request

variable {group : String -> String} {memoId : Nat} {backend : Backend}
  {order : List Attachment -> List Attachment} {clock : Nat -> Int} {db : Database} {names : List String}
  {requested : List Attachment}

theorem torn_untimed {uids : List String} {rows : List Attachment} {name : String} :
    Torn group memoId uids (rows.map untimed) name ↔ Torn group memoId uids rows name := by
  unfold Torn
  rw [List.filter_map, List.length_map]
  refine and_congr Iff.rfl ?_
  constructor
  · rintro ⟨row, member, holds⟩
    rcases List.mem_map.mp member with ⟨before, stored, rfl⟩
    exact ⟨before, stored, holds⟩
  · rintro ⟨row, stored, holds⟩
    exact ⟨untimed row, List.mem_map_of_mem stored, holds⟩

variable {row : Attachment}

theorem stays_untimed {uids : List String} {rows : List Attachment} :
    Stays group memoId uids (rows.map untimed) (untimed row) ↔ Stays group memoId uids rows row := by
  unfold Stays
  rw [torn_untimed]
  rfl

/-- Everything that is linked to the memo is listed, or what is linked is
requested anyway. -/
def Listed (db : Database) (memoId : Nat) (requested : List Attachment) : Prop :=
  (linkedTo db memoId).length ≤ defaultAttachmentLimit ∨
    forall row, row ∈ linkedTo db memoId -> row ∈ requested

theorem mem_linkedTo :
    row ∈ linkedTo db memoId ↔ row ∈ db.attachments ∧ row.memoId = some memoId := by
  rw [linkedTo, List.mem_filter, decide_eq_true_eq]

theorem mem_listAttachments (chosen : MayChoose order) (few : (linkedTo db memoId).length ≤ defaultAttachmentLimit) :
    row ∈ listAttachments order db memoId ↔ row ∈ linkedTo db memoId := by
  have perm := (chosen (linkedTo db memoId)).perm
  rw [MemoAttachments.listAttachments, List.take_of_length_le (perm.length_eq ▸ few)]
  exact perm.mem_iff

theorem linked_of_listed (chosen : MayChoose order) (listed : row ∈ listAttachments order db memoId) :
    row ∈ linkedTo db memoId :=
  (chosen (linkedTo db memoId)).perm.mem_iff.mp (List.mem_of_mem_take listed)

variable (distinct : (db.attachments.map Attachment.uid).Nodup) (requests : Requests db names requested)

include distinct requests

theorem mem_requested (stored : row ∈ db.attachments) :
    row ∈ requested ↔ row.uid ∈ requested.map Attachment.uid := by
  constructor
  · exact List.mem_map_of_mem
  · intro asked
    rcases List.mem_map.mp asked with ⟨other, member, same⟩
    have found := List.mem_of_find?_eq_some (requests.find member).2
    rw [← eq_of_nodup_map distinct found stored same]
    exact member

theorem partial_iff (grouped : forall row, backend.motionGroup row = group row.payload)
    (chosen : MayChoose order) (listed : Listed db memoId requested) {name : String} :
    Partial backend (listAttachments order db memoId) requested name ↔
      Torn group memoId (requested.map Attachment.uid) db.attachments name := by
  rcases listed with few | all
  · have perm := (chosen (linkedTo db memoId)).perm
    have whole : listAttachments order db memoId = order (linkedTo db memoId) :=
      List.take_of_length_le (perm.length_eq ▸ few)
    have members : (currentGroup backend (listAttachments order db memoId) name).Perm
        (db.attachments.filter fun row => row.memoId = some memoId ∧ group row.payload = name) := by
      unfold currentGroup
      rw [whole]
      refine (perm.filter _).trans (List.Perm.of_eq ?_)
      rw [linkedTo, List.filter_filter]
      refine List.filter_congr fun row _ => ?_
      rw [grouped, Bool.decide_and, Bool.and_comm]
    unfold Partial Torn LeavesOut
    rw [members.length_eq]
    refine and_congr Iff.rfl ?_
    constructor
    · rintro ⟨row, member, missing⟩
      have inGroup := List.mem_filter.mp (members.mem_iff.mp member)
      have holds := of_decide_eq_true inGroup.2
      refine ⟨row, inGroup.1, holds.1, holds.2, fun asked => ?_⟩
      have isRequested := (mem_requested distinct requests inGroup.1).mpr asked
      exact missing row isRequested ((grouped row).trans holds.2) rfl
    · rintro ⟨row, stored, linked, ofGroup, missing⟩
      refine ⟨row, members.mem_iff.mpr (List.mem_filter.mpr ⟨stored, decide_eq_true ⟨linked, ofGroup⟩⟩), ?_⟩
      intro other asked _ same
      exact missing (List.mem_map.mpr ⟨other, asked, same⟩)
  · constructor
    · rintro ⟨_, row, member, missing⟩
      have inGroup := List.mem_filter.mp member
      exact absurd rfl (missing row (all row (linked_of_listed chosen inGroup.1))
        (of_decide_eq_true inGroup.2))
    · rintro ⟨_, row, stored, linked, _, missing⟩
      exact absurd (List.mem_map_of_mem (all row (mem_linkedTo.mpr ⟨stored, linked⟩))) missing

theorem mem_normalizedFor (grouped : forall row, backend.motionGroup row = group row.payload)
    (chosen : MayChoose order) (listed : Listed db memoId requested) (stored : row ∈ db.attachments) :
    row ∈ normalizedFor backend order db memoId requested ↔
      Stays group memoId (requested.map Attachment.uid) db.attachments row := by
  have normalizes := @normalizes_of_requests backend order db names requested memoId requests
  unfold Stays
  rw [← grouped, ← partial_iff distinct requests grouped chosen listed,
    ← mem_requested distinct requests stored]
  constructor
  · intro member
    have asked := normalizes.asked row member
    exact ⟨asked, (normalizes.complete row asked).mp member⟩
  · rintro ⟨asked, whole⟩
    exact (normalizes.complete row asked).mpr whole

theorem dropped_iff (keys : db.PrimaryKeys) (chosen : MayChoose order) (listed : Listed db memoId requested)
    (grouped : forall row, backend.motionGroup row = group row.payload) (stored : row ∈ db.attachments) :
    row.id ∈ (droppedFor backend order db memoId requested).map Attachment.id ↔
      row.memoId = some memoId ∧ ¬ Stays group memoId (requested.map Attachment.uid) db.attachments row := by
  rw [← mem_normalizedFor distinct requests grouped chosen listed stored]
  constructor
  · intro inDropped
    rcases List.mem_map.mp inDropped with ⟨other, dropped, same⟩
    have both := (mem_droppedFor keys chosen requests).mp dropped
    have linked := mem_linkedTo.mp (linked_of_listed chosen both.1)
    rw [eq_of_nodup_map keys.attachmentIds linked.1 stored same] at both linked
    exact ⟨linked.2, both.2⟩
  · rintro ⟨linked, goes⟩
    refine List.mem_map_of_mem ((mem_droppedFor keys chosen requests).mpr ⟨?_, goes⟩)
    have isLinked : row ∈ linkedTo db memoId := mem_linkedTo.mpr ⟨stored, linked⟩
    rcases listed with few | all
    · exact (mem_listAttachments chosen few).mpr isLinked
    · refine absurd ?_ goes
      refine (mem_normalizedFor distinct requests grouped chosen (Or.inr all) stored).mpr ?_
      refine ⟨List.mem_map_of_mem (all row isLinked), ?_⟩
      rintro ⟨_, _, other, inTable, isOther, _, missing⟩
      exact missing (List.mem_map_of_mem (all other (mem_linkedTo.mpr ⟨inTable, isOther⟩)))

/-- Apart from the timestamps, a request is a pass over the table. -/
theorem settled_untimed (keys : db.PrimaryKeys) (chosen : MayChoose order)
    (listed : Listed db memoId requested)
    (grouped : forall row, backend.motionGroup row = group row.payload) :
    (settled backend order clock db memoId requested).attachments.map untimed =
      pass group memoId (requested.map Attachment.uid) (db.attachments.map untimed) := by
  unfold settled relinked Database.withoutAttachments pass
  dsimp only
  rw [List.map_map, List.filterMap_map, ← List.filterMap_eq_map, List.filterMap_filter]
  refine List.filterMap_congr fun row stored => ?_
  have normalized := mem_normalizedFor distinct requests grouped chosen listed stored
  simp only [Function.comp_apply, passRow, stays_untimed, decide_not, Bool.not_eq_true', decide_eq_false_iff_not,
    dropped_iff distinct requests keys chosen listed grouped stored]
  by_cases stays : Stays group memoId (requested.map Attachment.uid) db.attachments row
  · rw [if_pos stays, if_pos fun both => both.2 stays]
    rcases List.getElem?_of_mem (List.mem_reverse.mpr (normalized.mpr stays)) with ⟨index, there⟩
    rw [relink_normalized keys requests there]
    rfl
  · rw [if_neg stays]
    by_cases linked : row.memoId = some memoId
    · rw [if_neg (not_not_intro ⟨linked, stays⟩)]
      exact (if_pos linked).symm
    · rw [if_pos fun both => linked both.1, if_neg (show (untimed row).memoId ≠ some memoId from linked),
        relink_not_normalized keys requests stored fun member => stays (normalized.mp member)]

end Request

/-! ## One request from the same rows -/

section Once

variable {memoId : Nat} {backend : Backend} {order : List Attachment -> List Attachment}
  {clock later : Nat -> Int} {base db : Database} {names : List String} {requested : List Attachment}

theorem requests_congr (same : db.attachments = base.attachments) (requests : Requests db names requested) :
    Requests base names requested := by
  unfold Requests at requests ⊢
  rw [← same]
  exact requests

/-- The request reads and writes the attachments only. -/
theorem settled_congr (same : db.attachments = base.attachments) :
    (settled backend order clock db memoId requested).attachments =
      (settled backend order clock base memoId requested).attachments := by
  have listed : MemoAttachments.listAttachments order db memoId =
      MemoAttachments.listAttachments order base memoId := by
    rw [MemoAttachments.listAttachments, linkedTo, same, MemoAttachments.listAttachments, linkedTo]
  unfold settled relinked Database.withoutAttachments droppedFor normalizedFor
  dsimp only
  rw [listed, same]

theorem relink_untimed {list : List Attachment} {index : Nat} {row twin : Attachment}
    (same : untimed row = untimed twin) :
    untimed (relink clock memoId list index row) = untimed (relink later memoId list index twin) := by
  induction list generalizing index row twin with
  | nil => exact same
  | cons attachment rest ih =>
      have sameId : row.id = twin.id := (congrArg Attachment.id same :)
      rw [relink, relink, sameId]
      apply ih
      split
      next => exact congrArg (link memoId) same
      next => exact same

/-- The clock shows in the timestamps only. -/
theorem settled_clock :
    (settled backend order clock db memoId requested).attachments.map untimed =
      (settled backend order later db memoId requested).attachments.map untimed := by
  unfold settled relinked
  rw [List.map_map, List.map_map]
  exact List.map_congr_left fun _ _ => relink_untimed rfl

theorem settled_uids (distinct : (db.attachments.map Attachment.uid).Nodup) :
    ((settled backend order clock db memoId requested).attachments.map Attachment.uid).Nodup := by
  have sameUids : forall list : List Attachment, list.map Attachment.uid = (list.map untimed).map Attachment.uid :=
    fun list => by rw [List.map_map]; rfl
  have relinks : forall (list : List Attachment) (index : Nat) (row : Attachment),
      (relink clock memoId list index row).uid = row.uid := by
    intro list
    induction list with
    | nil => exact fun _ _ => rfl
    | cons attachment rest ih =>
        intro index row
        rw [relink, ih]
        split <;> rfl
  unfold settled relinked Database.withoutAttachments
  dsimp only
  rw [List.map_map, show Attachment.uid ∘ relink clock memoId _ 0 = Attachment.uid from
    funext fun row => relinks _ _ row]
  exact nodup_map_of_sublist distinct List.filter_sublist

end Once

/-! ## Several passes -/

section Passes

variable {group : String -> String} {memoId : Nat} {backend : Backend}
  {order : List Attachment -> List Attachment} {clock : Nat -> Int} {base db : Database}
  {names : List String} {requested : List Attachment} {count : Nat}

/-- The uids in the names of a request. -/
def uidsOf (names : List String) : List String :=
  names.filterMap fun name => (extractAttachmentUIDFromName name).toOption

theorem uidsOf_requests (requests : Requests db names requested) :
    requested.map Attachment.uid = uidsOf names := by
  induction requests with
  | nil => rfl
  | cons known _ ih =>
      have read : (extractAttachmentUIDFromName _).toOption = some _ := congrArg Except.toOption known.1
      rw [List.map_cons, ih, uidsOf, uidsOf, List.filterMap_cons, read]

/-- The table after some passes, without its timestamps. -/
def passes (group : String -> String) (memoId : Nat) (names : List String) (base : Database) (count : Nat) :
    List Attachment :=
  (pass group memoId (uidsOf names))^[count] (base.attachments.map untimed)

/-- The memo has no more attachments than are listed at a time, or it is asked
to keep them all. -/
def Surveyed (base : Database) (memoId : Nat) (names : List String) : Prop :=
  (linkedTo base memoId).length ≤ defaultAttachmentLimit ∨
    forall row, row ∈ linkedTo base memoId -> row.uid ∈ uidsOf names

/-- The table after some requests.  One request is known as such; more of them
are passes if everything is listed, and before a second one everything that is
requested was still there. -/
structure Passed (backend : Backend) (order : List Attachment -> List Attachment)
    (group : String -> String) (memoId : Nat) (names : List String) (base : Database)
    (count : Nat) (db : Database) : Prop where
  rows : Surveyed base memoId names -> db.attachments.map untimed = passes group memoId names base count
  untouched : count = 0 -> db.attachments = base.attachments
  first : count = 1 -> Exists fun clock => Exists fun requested => Requests base names requested ∧
    db.attachments = (settled backend order clock base memoId requested).attachments
  elsewhere : forall row, row ∈ db.attachments -> row.memoId ≠ some memoId -> row ∈ base.attachments
  ids : (db.attachments.map Attachment.id).Nodup
  uids : (db.attachments.map Attachment.uid).Nodup
  there : Surveyed base memoId names -> 2 ≤ count -> forall uid, uid ∈ uidsOf names ->
    Exists fun row => row ∈ passes group memoId names base 1 ∧ row.uid = uid

theorem passed_start (ids : (base.attachments.map Attachment.id).Nodup)
    (uids : (base.attachments.map Attachment.uid).Nodup) :
    Passed backend order group memoId names base 0 base :=
  ⟨fun _ => rfl, fun _ => rfl, nofun, fun _ stored _ => stored, ids, uids, nofun⟩

/-- Only the attachments matter. -/
theorem Passed.of_attachments (passed : Passed backend order group memoId names base count db)
    {other : Database} (same : other.attachments = db.attachments) :
    Passed backend order group memoId names base count other where
  rows := by rw [same]; exact passed.rows
  untouched := by rw [same]; exact passed.untouched
  first := by rw [same]; exact passed.first
  elsewhere := by rw [same]; exact passed.elsewhere
  ids := by rw [same]; exact passed.ids
  uids := by rw [same]; exact passed.uids
  there := passed.there

theorem passes_succ :
    passes group memoId names base (count + 1) =
      pass group memoId (uidsOf names) (passes group memoId names base count) :=
  Function.iterate_succ_apply' _ _ _

/-- Only the first pass may meet attachments that are not listed. -/
theorem Passed.listed (passed : Passed backend order group memoId names base count db)
    (requests : Requests db names requested) (surveyed : Surveyed base memoId names) :
    Listed db memoId requested := by
  have ofUids : (forall row, row ∈ linkedTo db memoId -> row.uid ∈ uidsOf names) ->
      Listed db memoId requested := by
    refine fun all => Or.inr fun row linked => ?_
    have asked := all row linked
    rw [← uidsOf_requests requests] at asked
    exact (mem_requested passed.uids requests (mem_linkedTo.mp linked).1).mpr asked
  cases count with
  | zero =>
      have same : linkedTo db memoId = linkedTo base memoId := by
        rw [linkedTo, passed.untouched rfl, linkedTo]
      rcases surveyed with few | all
      · refine Or.inl ?_
        rw [same]
        exact few
      · refine ofUids ?_
        rw [same]
        exact all
  | succ count =>
      refine ofUids fun row linked => ?_
      rcases mem_linkedTo.mp linked with ⟨stored, isLinked⟩
      have inPass : untimed row ∈ pass group memoId (uidsOf names) (passes group memoId names base count) := by
        rw [← passes_succ, ← passed.rows surveyed]
        exact List.mem_map_of_mem stored
      have asked : (untimed row).uid ∈ uidsOf names := requested_of_linked inPass isLinked
      exact asked

/-- What is not linked to the memo afterwards was there before. -/
theorem settled_elsewhere {row : Attachment}
    (member : row ∈ (MemoAttachments.settled backend order clock db memoId requested).attachments)
    (other : row.memoId ≠ some memoId) : row ∈ db.attachments := by
  have relinks : forall (list : List Attachment) (index : Nat) (before : Attachment),
      relink clock memoId list index before = before ∨
        (relink clock memoId list index before).memoId = some memoId := by
    intro list
    induction list with
    | nil => exact fun _ _ => Or.inl rfl
    | cons first rest ih =>
        intro index before
        rw [relink]
        split
        · rcases ih (index + 1) (linkedAt clock memoId index before) with same | linked
          · rw [same]
            exact Or.inr rfl
          · exact Or.inr linked
        · exact ih (index + 1) before
  rcases List.mem_map.mp member with ⟨before, kept, rfl⟩
  rcases relinks _ 0 before with same | linked
  · rw [same]
    exact List.mem_of_mem_filter kept
  · exact absurd linked other

/-- One more request, which is one more pass if everything is listed. -/
theorem Passed.settled (passed : Passed backend order group memoId names base count db)
    (requests : Requests db names requested) (keys : db.PrimaryKeys) (chosen : MayChoose order)
    (grouped : forall row, backend.motionGroup row = group row.payload) :
    Passed backend order group memoId names base (count + 1)
      (MemoAttachments.settled backend order clock db memoId requested) where
  rows := by
    intro surveyed
    have rows := @settled_untimed group memoId backend order clock db names requested passed.uids requests keys
      chosen (passed.listed requests surveyed) grouped
    rw [uidsOf_requests requests, passed.rows surveyed, ← passes_succ] at rows
    exact rows
  untouched := fun impossible => absurd impossible (Nat.succ_ne_zero count)
  first := by
    intro once
    have same := passed.untouched (Nat.succ_inj.mp once)
    exact ⟨clock, requested, requests_congr same requests, settled_congr same⟩
  elsewhere := fun row member other => passed.elsewhere row (settled_elsewhere member other) other
  ids := settled_ids keys
  uids := settled_uids passed.uids
  there := by
    intro surveyed repeated uid asked
    rcases Nat.lt_or_eq_of_le repeated with more | second
    · exact passed.there surveyed (Nat.le_of_lt_succ more) uid asked
    · have one : count = 1 := by omega
      rw [← uidsOf_requests requests] at asked
      rcases List.mem_map.mp asked with ⟨row, member, same⟩
      refine ⟨untimed row, ?_, same⟩
      rw [← one, ← passed.rows surveyed]
      exact List.mem_map_of_mem (List.mem_of_find?_eq_some (requests.find member).2)

/-- One pass and several lead to the same table exactly if the first tore no
group. -/
theorem passes_one_eq_iff (distinct : (base.attachments.map Attachment.uid).Nodup) (repeated : 2 ≤ count)
    (surveyed : Surveyed base memoId names) (passed : Passed backend order group memoId names base count db) :
    passes group memoId names base count = passes group memoId names base 1 ↔
      forall row, row ∈ base.attachments -> row.uid ∈ uidsOf names ->
        Stays group memoId (uidsOf names) base.attachments row := by
  have whole : passes group memoId names base count =
      pass group memoId (uidsOf names) (pass group memoId (uidsOf names) (base.attachments.map untimed)) :=
    iterate_pass repeated
  have uids : ((base.attachments.map untimed).map Attachment.uid).Nodup := by
    rw [List.map_map]
    exact distinct
  rw [whole]
  refine (pass_pass_iff uids fun row _ asked => passed.there surveyed repeated row.uid asked).trans ?_
  constructor
  · intro all row stored asked
    exact stays_untimed.mp (all (untimed row) (List.mem_map_of_mem stored) asked)
  · intro all row member asked
    rcases List.mem_map.mp member with ⟨before, stored, rfl⟩
    exact stays_untimed.mpr (all before stored asked)

/-- One request leads to the same rows whenever it is made. -/
theorem Passed.first_eq {first second : Database}
    (passed : Passed backend order group memoId names base 1 first)
    (alsoPassed : Passed backend order group memoId names base 1 second) :
    first.attachments.map untimed = second.attachments.map untimed := by
  rcases passed.first rfl with ⟨clock, requested, requests, isFirst⟩
  rcases alsoPassed.first rfl with ⟨later, others, alsoRequests, isSecond⟩
  rw [isFirst, isSecond, requests.unique alsoRequests]
  exact settled_clock

/-- Two numbers of requests lead to the same table exactly if both are one, both
are several, or the first pass tore no group. -/
theorem passes_eq_iff {first second : Database} {other : Nat} (some_ : 0 < count ↔ 0 < other)
    (distinct : (base.attachments.map Attachment.uid).Nodup)
    (surveyed : 1 < count ∨ 1 < other -> Surveyed base memoId names)
    (passed : Passed backend order group memoId names base count first)
    (alsoPassed : Passed backend order group memoId names base other second) :
    first.attachments.map untimed = second.attachments.map untimed ↔
      (1 < count ↔ 1 < other) ∨ forall row, row ∈ base.attachments -> row.uid ∈ uidsOf names ->
        Stays group memoId (uidsOf names) base.attachments row := by
  by_cases repeated : 1 < count
  · have all := surveyed (Or.inl repeated)
    rw [passed.rows all, alsoPassed.rows all]
    by_cases alsoRepeated : 1 < other
    · have same : passes group memoId names base count = passes group memoId names base other :=
        (iterate_pass repeated).trans (iterate_pass alsoRepeated).symm
      simp only [same, repeated, alsoRepeated, true_or]
    · have once : other = 1 := by omega
      rw [once, passes_one_eq_iff distinct repeated all passed]
      simp [repeated]
  · by_cases alsoRepeated : 1 < other
    · have all := surveyed (Or.inr alsoRepeated)
      have once : count = 1 := by omega
      rw [passed.rows all, alsoPassed.rows all, once, eq_comm, passes_one_eq_iff distinct alsoRepeated all alsoPassed]
      simp [alsoRepeated]
    · obtain rfl : count = other := by omega
      refine iff_of_true ?_ (Or.inl Iff.rfl)
      rcases Nat.eq_zero_or_pos count with none_ | once
      · rw [passed.untouched none_, alsoPassed.untouched none_]
      · obtain rfl : count = 1 := by omega
        exact passed.first_eq alsoPassed

end Passes

end AttachmentPasses
end Service
end Memos
