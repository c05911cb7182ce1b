import Memos.Store.UserDelete

namespace Memos
namespace Store

open Library

/-!
# What deleting a user leaves

A row refers to a user when it names the user, a memo of the user or a memo in
the comment tree under the memos of the user.  A committed deletion leaves
exactly the rows that do not refer to the user.
-/

/-! ## Rows that refer to a user -/

/-- A row of some table. -/
inductive TableRow where
  | user (row : User)
  | memo (row : Memo)
  | relation (row : MemoRelation)
  | attachment (row : Attachment)
  | reaction (row : Reaction)
  | share (row : MemoShare)
  | inbox (row : Inbox)
  | identity (row : UserIdentity)
  | setting (row : UserSetting)

def Database.Has (db : Database) : TableRow -> Prop
  | .user row => row ∈ db.users
  | .memo row => row ∈ db.memos
  | .relation row => row ∈ db.relations
  | .attachment row => row ∈ db.attachments
  | .reaction row => row ∈ db.reactions
  | .share row => row ∈ db.shares
  | .inbox row => row ∈ db.inbox
  | .identity row => row ∈ db.identities
  | .setting row => row ∈ db.settings

/-- A memo of the user, or a comment under one of them at any depth. -/
inductive Doomed (db : Database) (userId : Nat) : Memo -> Prop where
  | own (memo : Memo) : memo ∈ db.memos -> memo.creatorId = userId -> Doomed db userId memo
  | comment (parent memo : Memo) (relation : MemoRelation) : Doomed db userId parent ->
      memo ∈ db.memos -> relation ∈ db.relations -> relation.memoId = memo.id ->
      relation.type = .comment -> relation.relatedMemoId = parent.id -> Doomed db userId memo

/-- The message is about the memo. -/
def InboxMessage.Mentions (message : InboxMessage) (memoId : Nat) : Prop :=
  Exists fun memos : InboxMemos =>
    ((message.type = .memoComment ∧ message.payload = some (.memoComment memos)) ∨
      (message.type = .memoMention ∧ message.payload = some (.memoMention memos))) ∧
    memoId ≠ 0 ∧ (memos.memoId = memoId ∨ memos.relatedMemoId = memoId)

/-- The row names the user or a doomed memo.  An empty message is about no
memo. -/
def RefersTo (protojson : Protojson) (db : Database) (userId : Nat) : TableRow -> Prop
  | .user row => row.id = userId
  | .memo row => Doomed db userId row
  | .relation row => Exists fun memo => Doomed db userId memo ∧
      (row.memoId = memo.id ∨ row.relatedMemoId = memo.id)
  | .attachment row => row.creatorId = userId ∨
      Exists fun memo => Doomed db userId memo ∧ row.memoId = some memo.id
  | .reaction row => row.creatorId = userId ∨
      Exists fun memo => Doomed db userId memo ∧ row.contentId = "memos/" ++ memo.uid
  | .share row => row.creatorId = userId ∨
      Exists fun memo => Doomed db userId memo ∧ row.memoId = memo.id
  | .inbox row => row.senderId = userId ∨ row.receiverId = userId ∨
      Exists fun memo => Doomed db userId memo ∧ row.message ≠ "" ∧ Exists fun message =>
        protojson.inboxMessage row.message = .ok message ∧ message.Mentions memo.id
  | .identity row => row.userId = userId
  | .setting row => row.userId = userId

variable {protojson : Protojson} {userId : Nat}

/-! ## The comment tree -/

variable {db : Database} {memoIds : List Nat} {ids : List Nat} {value : Unit}

theorem Database.Keyed.ref_injective (keyed : db.Keyed) {first second : MemoRef}
    (left : first ∈ db.memos.map Memo.ref) (right : second ∈ db.memos.map Memo.ref) (same : first.id = second.id) :
    first = second := by
  rcases List.mem_map.mp left with ⟨memo, stored, rfl⟩
  rcases List.mem_map.mp right with ⟨other, otherStored, rfl⟩
  rw [eq_of_nodup_map keyed.memoIds stored otherStored same]

theorem memoRoots_mem {ref : MemoRef} (member : ref ∈ memoRoots db userId) :
    ref ∈ db.memos.map Memo.ref := by
  rcases List.mem_map.mp member with ⟨memo, own, rfl⟩
  exact List.mem_map.mpr ⟨memo, (List.mem_filter.mp own).1, rfl⟩

/-- Both drivers collect the doomed memos. -/
theorem reachable_iff_doomed {graph : Graph MemoRef} (edges : graph.Edge = CommentEdge db) (ref : MemoRef) :
    graph.Reachable (memoRoots db userId) ref ↔
      Exists fun memo => Doomed db userId memo ∧ memo.ref = ref := by
  constructor
  · intro reached
    induction reached with
    | seed ref member =>
        rcases List.mem_map.mp member with ⟨memo, own, rfl⟩
        rcases List.mem_filter.mp own with ⟨stored, created⟩
        exact ⟨memo, .own memo stored (of_decide_eq_true created), rfl⟩
    | step parent child _ edge ih =>
        rcases ih with ⟨parentMemo, doomed, rfl⟩
        rw [edges] at edge
        rcases edge with ⟨memo, stored, rfl, relation, related, source, isComment, target⟩
        exact ⟨memo, .comment parentMemo memo relation doomed stored related source isComment
          target, rfl⟩
  · rintro ⟨memo, doomed, rfl⟩
    induction doomed with
    | own memo stored created =>
        exact .seed memo.ref (List.mem_map.mpr
          ⟨memo, List.mem_filter.mpr ⟨stored, decide_eq_true created⟩, rfl⟩)
    | comment parent memo relation _ stored related source isComment target ih =>
        refine .step parent.ref memo.ref ih ?_
        rw [edges]
        exact ⟨memo, stored, rfl, relation, related, source, isComment, target⟩

theorem mem_recursiveTree (ref : MemoRef) :
    ref ∈ listDeleteUserMemoTreeRecursive db userId ↔
      Exists fun memo => Doomed db userId memo ∧ memo.ref = ref := by
  unfold listDeleteUserMemoTreeRecursive
  rw [mem_exploreFrom (fun _ _ _ _ same => same) (fun _ member => memoRoots_mem member)]
  exact reachable_iff_doomed rfl ref

theorem mem_iterativeTree (keyed : db.Keyed) (ref : MemoRef) :
    ref ∈ listDeleteUserMemoTreeIterative db userId ↔
      Exists fun memo => Doomed db userId memo ∧ memo.ref = ref := by
  unfold listDeleteUserMemoTreeIterative
  rw [mem_exploreFrom (fun _ _ left right same => keyed.ref_injective left right same)
    (fun _ member => memoRoots_mem member)]
  exact reachable_iff_doomed rfl ref

theorem Doomed.stored {memo : Memo} (doomed : Doomed db userId memo) :
    memo ∈ db.memos := by
  cases doomed with
  | own _ stored _ => exact stored
  | comment _ _ _ _ stored _ _ _ _ => exact stored

/-- The ids of the tree are the ids of the doomed memos. -/
theorem mem_treeIds (id : Nat) :
    id ∈ memoIdsFromRefs (listDeleteUserMemoTreeRecursive db userId) ↔
      Exists fun memo => Doomed db userId memo ∧ id = memo.id := by
  unfold memoIdsFromRefs
  rw [List.mem_map]
  constructor
  · rintro ⟨ref, member, rfl⟩
    rcases (mem_recursiveTree ref).mp member with ⟨memo, doomed, rfl⟩
    exact ⟨memo, doomed, rfl⟩
  · rintro ⟨memo, doomed, rfl⟩
    exact ⟨memo.ref, (mem_recursiveTree _).mpr ⟨memo, doomed, rfl⟩, rfl⟩

theorem mem_treeContentIds (contentId : String) :
    contentId ∈ memoContentIdsFromRefs (listDeleteUserMemoTreeRecursive db userId) ↔
      Exists fun memo => Doomed db userId memo ∧ contentId = "memos/" ++ memo.uid := by
  unfold memoContentIdsFromRefs
  rw [List.mem_map]
  constructor
  · rintro ⟨ref, member, rfl⟩
    rcases (mem_recursiveTree ref).mp member with ⟨memo, doomed, rfl⟩
    exact ⟨memo, doomed, rfl⟩
  · rintro ⟨memo, doomed, rfl⟩
    exact ⟨memo.ref, (mem_recursiveTree _).mpr ⟨memo, doomed, rfl⟩, rfl⟩

/-! ## Attachments -/

/-- With unique ids, the rows of the query are added to the collected ones. -/
theorem mem_appendDeleteUserAttachments {table rows collected results : List Attachment}
    (unique : (table.map Attachment.id).Nodup) (rowsInside : ∀ row, row ∈ rows -> row ∈ table)
    (collectedInside : ∀ row, row ∈ collected -> row ∈ table)
    (success : appendDeleteUserAttachments protojson rows collected = .ok results)
    (row : Attachment) : row ∈ results ↔ row ∈ collected ∨ row ∈ rows := by
  induction rows generalizing collected with
  | nil =>
      cases success
      constructor
      · exact fun member => .inl member
      · rintro (member | impossible)
        · exact member
        · cases impossible
  | cons head rest ih =>
      have restInside : ∀ row, row ∈ rest -> row ∈ table := fun row member =>
        rowsInside row (List.mem_cons_of_mem _ member)
      have headInside := rowsInside head List.mem_cons_self
      unfold appendDeleteUserAttachments at success
      split at success
      · next seen =>
          rcases List.any_eq_true.mp seen with ⟨other, member, same⟩
          have equal := eq_of_nodup_map unique (collectedInside other member) headInside
            (of_decide_eq_true same)
          rw [equal] at member
          rw [ih restInside collectedInside success, List.mem_cons]
          constructor
          · rintro (old | later)
            · exact .inl old
            · exact .inr (.inr later)
          · rintro (old | rfl | later)
            · exact .inl old
            · exact .inl member
            · exact .inr later
      · rcases bind_eq_ok.mp success with ⟨_, _, continued⟩
        have inside : ∀ row, row ∈ collected ++ [head] -> row ∈ table := by
          intro row member
          rcases List.mem_append.mp member with old | isHead
          · exact collectedInside row old
          · rw [List.mem_singleton.mp isHead]
            exact headInside
        rw [ih restInside inside continued, List.mem_append, List.mem_singleton,
          List.mem_cons, or_assoc]

theorem linkedTo_iff {attachment : Attachment} :
    attachment.linkedTo memoIds = true ↔
      Exists fun id => id ∈ memoIds ∧ attachment.memoId = some id := by
  unfold Attachment.linkedTo
  cases attachment.memoId with
  | none => simp
  | some id => simp

theorem leads_listBatchAttachments {before after : Database} {batches : List (List Nat)}
    {collected results : List Attachment} (unique : (before.attachments.map Attachment.id).Nodup)
    (inside : ∀ row, row ∈ collected -> row ∈ before.attachments)
    (leads : (listBatchAttachments protojson batches collected).Leads before results after) :
    after = before ∧ ∀ row, row ∈ results ↔
      row ∈ collected ∨ (row ∈ before.attachments ∧ row.linkedTo batches.flatten = true) := by
  induction batches generalizing collected with
  | nil =>
      rcases Transaction.leads_pure leads with ⟨rfl, rfl⟩
      refine ⟨rfl, ?_⟩
      intro row
      simp [Attachment.linkedTo]
  | cons batch rest ih =>
      rcases Transaction.leads_bind leads with ⟨more, state, first, others⟩
      rcases Transaction.leads_query first with ⟨appended, rfl⟩
      have members := mem_appendDeleteUserAttachments unique
        (fun row member => (List.mem_filter.mp member).1) inside appended
      have moreInside : ∀ row, row ∈ more -> row ∈ state.attachments := by
        intro row member
        rcases (members row).mp member with old | found
        · exact inside row old
        · exact (List.mem_filter.mp found).1
      rcases ih moreInside others with ⟨rfl, results⟩
      refine ⟨rfl, ?_⟩
      intro row
      rw [results, members, List.mem_filter, or_assoc, ← and_or_left]
      have either : row.linkedTo (batch :: rest).flatten = true ↔
          row.linkedTo batch = true ∨ row.linkedTo rest.flatten = true := by
        rw [linkedTo_iff, linkedTo_iff, linkedTo_iff, List.flatten_cons]
        simp only [List.mem_append, or_and_right, exists_or]
      rw [either]

theorem leads_listDeleteUserAttachments {before after : Database} {results : List Attachment}
    (unique : (before.attachments.map Attachment.id).Nodup)
    (leads : (listDeleteUserAttachments protojson userId memoIds).Leads before results after) :
    after = before ∧ ∀ row, row ∈ results ↔ row ∈ before.attachments ∧
      (row.creatorId = userId ∨ row.linkedTo memoIds = true) := by
  rcases Transaction.leads_bind leads with ⟨own, state, first, others⟩
  rcases Transaction.leads_query first with ⟨appended, rfl⟩
  have members := mem_appendDeleteUserAttachments unique
    (fun row member => (List.mem_filter.mp member).1)
    (fun row impossible => absurd impossible List.not_mem_nil) appended
  have inside : ∀ row, row ∈ own -> row ∈ state.attachments := by
    intro row member
    rcases (members row).mp member with impossible | found
    · cases impossible
    · exact (List.mem_filter.mp found).1
  rcases leads_listBatchAttachments unique inside others with ⟨rfl, results⟩
  refine ⟨rfl, ?_⟩
  intro row
  rw [results, members, flatten_deleteUserBatches, List.mem_filter, decide_eq_true_iff, and_or_left]
  simp

/-- Deleting the collected ids deletes the collected rows. -/
theorem mem_attachmentIds {table results : List Attachment} (unique : (table.map Attachment.id).Nodup)
    (inside : ∀ row, row ∈ results -> row ∈ table) {row : Attachment} (stored : row ∈ table) :
    row.id ∈ attachmentIdsFromList results ↔ row ∈ results := by
  unfold attachmentIdsFromList
  rw [List.mem_map]
  constructor
  · rintro ⟨other, member, same⟩
    rw [← eq_of_nodup_map unique (inside other member) stored same]
    exact member
  · intro member
    exact ⟨row, member, rfl⟩

/-! ## The inbox -/

theorem memoIdInSet_iff {id : Nat} :
    memoIdInSet id memoIds = true ↔ id ≠ 0 ∧ id ∈ memoIds := by
  simp [memoIdInSet]

/-- The test of the source finds the messages about some memo of the set. -/
theorem inboxMessageTouchesMemoSet_iff {message : InboxMessage} :
    inboxMessageTouchesMemoSet message memoIds = true ↔
      Exists fun id => id ∈ memoIds ∧ message.Mentions id := by
  have touches : ∀ memos : InboxMemos, memos.touch memoIds = true ↔
      Exists fun id => id ∈ memoIds ∧ id ≠ 0 ∧ (memos.memoId = id ∨ memos.relatedMemoId = id) := by
    intro memos
    unfold InboxMemos.touch
    rw [Bool.or_eq_true, memoIdInSet_iff, memoIdInSet_iff]
    constructor
    · rintro (⟨nonzero, member⟩ | ⟨nonzero, member⟩)
      · exact ⟨_, member, nonzero, .inl rfl⟩
      · exact ⟨_, member, nonzero, .inr rfl⟩
    · rintro ⟨id, member, nonzero, rfl | rfl⟩
      · exact .inl ⟨nonzero, member⟩
      · exact .inr ⟨nonzero, member⟩
  rcases message with ⟨type, payload⟩
  cases type with
  | unspecified => simp [inboxMessageTouchesMemoSet, InboxMessage.Mentions]
  | memoComment =>
      cases payload with
      | none => simp [inboxMessageTouchesMemoSet, InboxMessage.getMemoComment, InboxMessage.Mentions]
      | some payload =>
          cases payload with
          | memoComment memos =>
              simp [inboxMessageTouchesMemoSet, InboxMessage.getMemoComment,
                InboxMessage.Mentions, touches]
          | memoMention memos =>
              simp [inboxMessageTouchesMemoSet, InboxMessage.getMemoComment,
                InboxMessage.Mentions]
  | memoMention =>
      cases payload with
      | none => simp [inboxMessageTouchesMemoSet, InboxMessage.getMemoMention, InboxMessage.Mentions]
      | some payload =>
          cases payload with
          | memoComment memos =>
              simp [inboxMessageTouchesMemoSet, InboxMessage.getMemoMention,
                InboxMessage.Mentions]
          | memoMention memos =>
              simp [inboxMessageTouchesMemoSet, InboxMessage.getMemoMention,
                InboxMessage.Mentions, touches]

/-- A remaining row has a message that is empty or about no memo of the set. -/
theorem mem_touchingInboxIds {rows : List Inbox} (success : touchingInboxIds protojson memoIds rows = .ok ids)
    (id : Nat) :
    id ∈ ids ↔ Exists fun row => row ∈ rows ∧ row.id = id ∧ row.message ≠ "" ∧
      Exists fun message => protojson.inboxMessage row.message = .ok message ∧
        inboxMessageTouchesMemoSet message memoIds = true := by
  induction rows generalizing ids with
  | nil =>
      cases success
      simp
  | cons row rest ih =>
      unfold touchingInboxIds at success
      split at success
      · next empty =>
          rw [ih success]
          simp [empty]
      · next nonempty =>
          rcases bind_eq_ok.mp success with ⟨message, decoded, continued⟩
          rcases bind_eq_ok.mp continued with ⟨others, ofRest, finished⟩
          have ofOthers := ih ofRest
          have split : id ∈ ids ↔
              (inboxMessageTouchesMemoSet message memoIds = true ∧ row.id = id) ∨ id ∈ others := by
            cases finished
            split
            · next touches => simp [touches, eq_comm]
            · next untouched => simp [untouched]
          rw [split, ofOthers]
          constructor
          · rintro (⟨touches, same⟩ | ⟨other, member, rest⟩)
            · exact ⟨row, List.mem_cons_self, same, nonempty, message, decoded, touches⟩
            · exact ⟨other, List.mem_cons_of_mem _ member, rest⟩
          · rintro ⟨other, member, same, otherNonempty, otherMessage, otherDecoded, touches⟩
            rcases List.mem_cons.mp member with rfl | later
            · rw [decoded] at otherDecoded
              cases otherDecoded
              exact .inl ⟨touches, same⟩
            · exact .inr ⟨other, later, same, otherNonempty, otherMessage, otherDecoded, touches⟩

theorem direct_iff {row : Inbox} :
    row.direct userId = true ↔ row.senderId = userId ∨ row.receiverId = userId := by
  simp [Inbox.direct]

/-- The rows whose ids are collected, when the ids are unique. -/
theorem leads_listDeleteUserInboxIds {before after : Database} {memoIds ids : List Nat}
    (unique : (before.inbox.map Inbox.id).Nodup)
    (leads : (listDeleteUserInboxIds protojson userId memoIds).Leads before ids after) :
    after = before ∧ ∀ row, row ∈ before.inbox ->
      (row.id ∈ ids ↔ row.direct userId = true ∨ (row.message ≠ "" ∧ Exists fun message =>
        protojson.inboxMessage row.message = .ok message ∧
          inboxMessageTouchesMemoSet message memoIds = true)) := by
  rcases Transaction.leads_bind leads with ⟨directIds, state, first, others⟩
  rcases Transaction.leads_query first with ⟨listed, rfl⟩
  cases listed
  have direct : ∀ row, row ∈ state.inbox ->
      (row.id ∈ (state.inbox.filter fun row => row.direct userId).map Inbox.id ↔
        row.direct userId = true) := by
    intro row stored
    rw [List.mem_map]
    constructor
    · rintro ⟨other, member, same⟩
      rcases List.mem_filter.mp member with ⟨otherStored, isDirect⟩
      rw [← eq_of_nodup_map unique otherStored stored same]
      exact isDirect
    · intro isDirect
      exact ⟨row, List.mem_filter.mpr ⟨stored, isDirect⟩, rfl⟩
  cases noMemos : memoIds.isEmpty with
  | true =>
      rw [noMemos] at others
      rcases Transaction.leads_pure others with ⟨rfl, rfl⟩
      refine ⟨rfl, fun row stored => (direct row stored).trans ⟨.inl, ?_⟩⟩
      rintro (isDirect | ⟨_, message, _, touches⟩)
      · exact isDirect
      · -- Without memos, no message touches the set.
        rcases inboxMessageTouchesMemoSet_iff.mp touches with ⟨id, member, _⟩
        rw [List.isEmpty_iff.mp noMemos] at member
        cases member
  | false =>
      rw [noMemos] at others
      rcases Transaction.leads_bind others with ⟨referencedIds, last, second, finished⟩
      rcases Transaction.leads_query second with ⟨touching, rfl⟩
      rcases Transaction.leads_pure finished with ⟨rfl, rfl⟩
      refine ⟨rfl, ?_⟩
      intro row stored
      rw [List.mem_append, direct row stored, mem_touchingInboxIds touching]
      constructor
      · rintro (isDirect | ⟨other, member, same, conditions⟩)
        · exact .inl isDirect
        · rw [eq_of_nodup_map unique (List.mem_filter.mp member).1 stored same] at conditions
          exact .inr conditions
      · rintro (isDirect | conditions)
        · exact .inl isDirect
        · by_cases isDirect : row.direct userId = true
          · exact .inl isDirect
          · refine .inr ⟨row, List.mem_filter.mpr ⟨stored, ?_⟩, rfl, conditions⟩
            rw [Bool.eq_false_iff.mpr isDirect]
            rfl

/-! ## Collecting and deleting -/

/-- What the collected targets are, for the state they are read from. -/
structure Collected (protojson : Protojson) (userId : Nat) (db : Database)
    (targets : DeleteUserTargetSet) : Prop where
  memos : targets.memos = listDeleteUserMemoTreeRecursive db userId
  attachments : ∀ row, row ∈ targets.attachments ↔ row ∈ db.attachments ∧
    (row.creatorId = userId ∨ row.linkedTo (memoIdsFromRefs targets.memos) = true)
  inbox : ∀ row, row ∈ db.inbox -> (row.id ∈ targets.inboxIds ↔
    row.direct userId = true ∨ (row.message ≠ "" ∧ Exists fun message =>
      protojson.inboxMessage row.message = .ok message ∧
        inboxMessageTouchesMemoSet message (memoIdsFromRefs targets.memos) = true))

theorem leads_collectDeleteUserTargets {before after : Database} {targets : DeleteUserTargetSet}
    (keys : before.PrimaryKeys)
    (leads : (collectDeleteUserTargets protojson userId).Leads before targets after) :
    after = before ∧ Collected protojson userId before targets := by
  rcases Transaction.leads_bind leads with ⟨memos, afterTree, tree, withMemos⟩
  rcases Transaction.leads_query tree with ⟨walked, rfl⟩
  rcases Transaction.leads_bind withMemos with ⟨attachments, afterFiles, files, withFiles⟩
  rcases leads_listDeleteUserAttachments keys.attachmentIds files with ⟨rfl, members⟩
  rcases Transaction.leads_bind withFiles with ⟨settingKeys, afterKeys, settings, withKeys⟩
  rcases Transaction.leads_query settings with ⟨_, rfl⟩
  rcases Transaction.leads_bind withKeys with ⟨inboxIds, afterInbox, inbox, finished⟩
  rcases leads_listDeleteUserInboxIds keys.inboxIds inbox with ⟨rfl, ids⟩
  rcases Transaction.leads_pure finished with ⟨rfl, rfl⟩
  exact ⟨rfl, (Except.ok.inj walked).symm, members, ids⟩

/-- A deletion that can take its keys in parts may take them in batches. -/
theorem leads_deleteBatches {α : Type} {delete : List α -> Database -> Database} (none : ∀ db, delete [] db = db)
    (both : ∀ first second db, delete (first ++ second) db = delete second (delete first db)) {keys : List α}
    {before after : Database} (leads : (deleteBatches delete keys).Leads before value after) :
    after = delete keys before := by
  rw [leads_executeBatches leads, foldl_flatten delete none both, flatten_deleteUserBatches]

namespace Database

theorem withoutReactions_append (first second : List String) (db : Database) :
    db.withoutReactions (first ++ second) = (db.withoutReactions first).withoutReactions second :=
  congrArg (fun rows => { db with reactions := rows })
    (filter_not_mem_append Reaction.contentId first second db.reactions)

theorem withoutAttachments_append (first second : List Nat) (db : Database) :
    db.withoutAttachments (first ++ second) =
      (db.withoutAttachments first).withoutAttachments second :=
  congrArg (fun rows => { db with attachments := rows })
    (filter_not_mem_append Attachment.id first second db.attachments)

theorem withoutShares_append (first second : List Nat) (db : Database) :
    db.withoutShares (first ++ second) = (db.withoutShares first).withoutShares second :=
  congrArg (fun rows => { db with shares := rows })
    (filter_not_mem_append MemoShare.memoId first second db.shares)

theorem withoutInboxes_append (first second : List Nat) (db : Database) :
    db.withoutInboxes (first ++ second) = (db.withoutInboxes first).withoutInboxes second :=
  congrArg (fun rows => { db with inbox := rows })
    (filter_not_mem_append Inbox.id first second db.inbox)

theorem withoutMemos_append (first second : List Nat) (db : Database) :
    db.withoutMemos (first ++ second) = (db.withoutMemos first).withoutMemos second :=
  congrArg (fun rows => { db with memos := rows })
    (filter_not_mem_append Memo.id first second db.memos)

theorem withoutRelations_append (first second : List Nat) (db : Database) :
    db.withoutRelations (first ++ second) =
      (db.withoutRelations first).withoutRelations second := by
  have rows : (db.withoutRelations (first ++ second)).relations =
      ((db.withoutRelations first).withoutRelations second).relations := by
    change List.filter _ _ = List.filter _ (List.filter _ db.relations)
    rw [List.filter_filter]
    apply List.filter_congr
    intro row _
    rw [← Bool.decide_and, decide_eq_decide]
    simp only [List.mem_append]
    tauto
  exact congrArg (fun rows => { db with relations := rows }) rows

end Database

/-! ### What each statement removes -/

/-- Rows of the keyed tables are at most removed, and no key is given back. -/
structure Shrinks (before after : Database) : Prop where
  users : after.users.Sublist before.users
  memos : after.memos.Sublist before.memos
  relations : after.relations.Sublist before.relations
  attachments : after.attachments.Sublist before.attachments
  inbox : after.inbox.Sublist before.inbox
  sequences : after.sequences = before.sequences

/-- The rows that are gone are exactly these. -/
structure Removes (gone : TableRow -> Prop) (before after : Database) : Prop extends
    Shrinks before after where
  rows : ∀ row, after.Has row ↔ before.Has row ∧ ¬ gone row

theorem Removes.and_then {first second : TableRow -> Prop} {before middle after : Database}
    (left : Removes first before middle) (right : Removes second middle after) :
    Removes (fun row => first row ∨ second row) before after where
  users := right.users.trans left.users
  memos := right.memos.trans left.memos
  relations := right.relations.trans left.relations
  attachments := right.attachments.trans left.attachments
  inbox := right.inbox.trans left.inbox
  sequences := right.sequences.trans left.sequences
  rows := by
    intro row
    rw [right.rows row, left.rows row, not_or, and_assoc]

/-- Another description of the same rows. -/
theorem Removes.congr {first second : TableRow -> Prop} {before after : Database}
    (removed : Removes first before after) (same : ∀ row, before.Has row -> (first row ↔ second row)) :
    Removes second before after where
  toShrinks := removed.toShrinks
  rows := by
    intro row
    rw [removed.rows row]
    exact and_congr_right fun stored => not_congr (same row stored)

/-- The rows of one table that satisfy a condition. -/
def RowsOf {ρ : Type} (table : ρ -> TableRow) (condition : ρ -> Prop) (row : TableRow) : Prop :=
  Exists fun inner => table inner = row ∧ condition inner

theorem removes_reactions {before after : Database} {contentIds : List String}
    (leads : (deleteReactionsByContentIdsTx contentIds).Leads before value after) :
    Removes (RowsOf .reaction fun row => row.contentId ∈ contentIds) before after := by
  rw [leads_deleteBatches (fun db => by simp [Database.withoutReactions])
    Database.withoutReactions_append leads]
  refine ⟨?_, ?_⟩
  · constructor <;> simp [Database.withoutReactions]
  · intro row
    cases row <;> simp [Database.Has, RowsOf, Database.withoutReactions]

theorem removes_attachments {before after : Database}
    (leads : (deleteAttachmentsByIdsTx ids).Leads before value after) :
    Removes (RowsOf .attachment fun row => row.id ∈ ids) before after := by
  rw [leads_deleteBatches (fun db => by simp [Database.withoutAttachments])
    Database.withoutAttachments_append leads]
  refine ⟨?_, ?_⟩
  · constructor <;> simp [Database.withoutAttachments]
  · intro row
    cases row <;> simp [Database.Has, RowsOf, Database.withoutAttachments]

theorem removes_ownReactions {before after : Database}
    (leads : (deleteReactionsByCreatorTx userId).Leads before value after) :
    Removes (RowsOf .reaction fun row => row.creatorId = userId) before after := by
  rw [Transaction.leads_execute leads]
  refine ⟨?_, ?_⟩
  · constructor <;> simp
  · intro row
    cases row <;> simp [Database.Has, RowsOf]

theorem removes_shares {before after : Database}
    (leads : (deleteMemoSharesTx userId memoIds).Leads before value after) :
    Removes (RowsOf .share fun row => row.creatorId = userId ∨ row.memoId ∈ memoIds)
      before after := by
  rcases Transaction.leads_bind leads with ⟨_, middle, own, ofMemos⟩
  rw [leads_deleteBatches (fun db => by simp [Database.withoutShares])
    Database.withoutShares_append ofMemos, Transaction.leads_execute own]
  refine ⟨?_, ?_⟩
  · constructor <;> simp [Database.withoutShares]
  · intro row
    cases row <;> simp [Database.Has, RowsOf, Database.withoutShares, and_comm]

theorem removes_inboxes {before after : Database} (leads : (deleteInboxesByIdsTx ids).Leads before value after) :
    Removes (RowsOf .inbox fun row => row.id ∈ ids) before after := by
  rw [leads_deleteBatches (fun db => by simp [Database.withoutInboxes])
    Database.withoutInboxes_append leads]
  refine ⟨?_, ?_⟩
  · constructor <;> simp [Database.withoutInboxes]
  · intro row
    cases row <;> simp [Database.Has, RowsOf, Database.withoutInboxes]

theorem removes_identities {before after : Database}
    (leads : (deleteUserIdentitiesTx userId).Leads before value after) :
    Removes (RowsOf .identity fun row => row.userId = userId) before after := by
  rw [Transaction.leads_execute leads]
  refine ⟨?_, ?_⟩
  · constructor <;> simp
  · intro row
    cases row <;> simp [Database.Has, RowsOf]

theorem removes_settings {before after : Database} (leads : (deleteUserSettingsTx userId).Leads before value after) :
    Removes (RowsOf .setting fun row => row.userId = userId) before after := by
  rw [Transaction.leads_execute leads]
  refine ⟨?_, ?_⟩
  · constructor <;> simp
  · intro row
    cases row <;> simp [Database.Has, RowsOf]

theorem removes_relations {before after : Database} (leads : (deleteMemoRelationsTx memoIds).Leads before value after) :
    Removes (RowsOf .relation fun row => row.memoId ∈ memoIds ∨ row.relatedMemoId ∈ memoIds)
      before after := by
  rw [leads_deleteBatches (fun db => by simp [Database.withoutRelations])
    Database.withoutRelations_append leads]
  refine ⟨?_, ?_⟩
  · constructor <;> simp [Database.withoutRelations]
  · intro row
    cases row <;> simp [Database.Has, RowsOf, Database.withoutRelations]

theorem removes_memos {before after : Database} (leads : (deleteMemosTx ids).Leads before value after) :
    Removes (RowsOf .memo fun row => row.id ∈ ids) before after := by
  rw [leads_deleteBatches (fun db => by simp [Database.withoutMemos])
    Database.withoutMemos_append leads]
  refine ⟨?_, ?_⟩
  · constructor <;> simp [Database.withoutMemos]
  · intro row
    cases row <;> simp [Database.Has, RowsOf, Database.withoutMemos]

theorem removes_user {before after : Database} (leads : (deleteUserRowTx userId).Leads before value after) :
    Removes (RowsOf .user fun row => row.id = userId) before after := by
  rw [Transaction.leads_execute leads]
  refine ⟨?_, ?_⟩
  · constructor <;> simp
  · intro row
    cases row <;> simp [Database.Has, RowsOf]

/-- The rows that the deletion of the targets removes. -/
def Targeted (userId : Nat) (targets : DeleteUserTargetSet) : TableRow -> Prop
  | .user row => row.id = userId
  | .memo row => row.id ∈ memoIdsFromRefs targets.memos
  | .relation row => row.memoId ∈ memoIdsFromRefs targets.memos ∨
      row.relatedMemoId ∈ memoIdsFromRefs targets.memos
  | .attachment row => row.id ∈ attachmentIdsFromList targets.attachments
  | .reaction row => row.contentId ∈ memoContentIdsFromRefs targets.memos ∨ row.creatorId = userId
  | .share row => row.creatorId = userId ∨ row.memoId ∈ memoIdsFromRefs targets.memos
  | .inbox row => row.id ∈ targets.inboxIds
  | .identity row => row.userId = userId
  | .setting row => row.userId = userId

theorem removes_targets {before after : Database} {targets : DeleteUserTargetSet}
    (leads : (deleteUserTargetsTx userId targets).Leads before value after) :
    Removes (Targeted userId targets) before after := by
  rcases Transaction.leads_bind leads with ⟨_, _, reactions, leads⟩
  rcases Transaction.leads_bind leads with ⟨_, _, attachments, leads⟩
  rcases Transaction.leads_bind leads with ⟨_, _, ownReactions, leads⟩
  rcases Transaction.leads_bind leads with ⟨_, _, shares, leads⟩
  rcases Transaction.leads_bind leads with ⟨_, _, inboxes, leads⟩
  rcases Transaction.leads_bind leads with ⟨_, _, identities, leads⟩
  rcases Transaction.leads_bind leads with ⟨_, _, settings, leads⟩
  rcases Transaction.leads_bind leads with ⟨_, _, relations, leads⟩
  rcases Transaction.leads_bind leads with ⟨_, _, memos, user⟩
  have removed := (removes_reactions reactions).and_then (removes_attachments attachments)
    |>.and_then (removes_ownReactions ownReactions) |>.and_then (removes_shares shares)
    |>.and_then (removes_inboxes inboxes) |>.and_then (removes_identities identities)
    |>.and_then (removes_settings settings) |>.and_then (removes_relations relations)
    |>.and_then (removes_memos memos) |>.and_then (removes_user user)
  apply removed.congr
  intro row _
  cases row <;> simp [RowsOf, Targeted]

/-! ## Closure and frame -/

/-- The targets are the rows that refer to the user. -/
theorem targeted_iff_refersTo {targets : DeleteUserTargetSet} (keys : db.PrimaryKeys)
    (collected : Collected protojson userId db targets) {row : TableRow} (stored : db.Has row) :
    Targeted userId targets row ↔ RefersTo protojson db userId row := by
  rcases targets with ⟨memos, attachments, settingKeys, inboxIds⟩
  have tree := collected.memos
  dsimp only at tree
  subst tree
  cases row with
  | user row => exact Iff.rfl
  | identity row => exact Iff.rfl
  | setting row => exact Iff.rfl
  | memo row =>
      refine (mem_treeIds row.id).trans ?_
      constructor
      · rintro ⟨memo, doomed, same⟩
        rw [eq_of_nodup_map keys.memoIds stored doomed.stored same]
        exact doomed
      · intro doomed
        exact ⟨row, doomed, rfl⟩
  | relation row =>
      refine (or_congr (mem_treeIds row.memoId) (mem_treeIds row.relatedMemoId)).trans ?_
      rw [← exists_or]
      simp only [← and_or_left]
      exact Iff.rfl
  | attachment row =>
      have inside : ∀ row, row ∈ attachments -> row ∈ db.attachments := fun row member =>
        ((collected.attachments row).mp member).1
      refine (mem_attachmentIds keys.attachmentIds inside stored).trans ?_
      refine (collected.attachments row).trans ?_
      rw [linkedTo_iff]
      constructor
      · rintro ⟨_, own | ⟨id, member, linked⟩⟩
        · exact .inl own
        · rcases (mem_treeIds id).mp member with ⟨memo, doomed, rfl⟩
          exact .inr ⟨memo, doomed, linked⟩
      · rintro (own | ⟨memo, doomed, linked⟩)
        · exact ⟨stored, .inl own⟩
        · exact ⟨stored, .inr ⟨memo.id, (mem_treeIds memo.id).mpr ⟨memo, doomed, rfl⟩, linked⟩⟩
  | reaction row => exact (or_congr_left (mem_treeContentIds row.contentId)).trans or_comm
  | share row => exact or_congr_right (mem_treeIds row.memoId)
  | inbox row =>
      refine (collected.inbox row stored).trans ?_
      rw [direct_iff, or_assoc]
      refine or_congr_right (or_congr_right ?_)
      constructor
      · rintro ⟨nonempty, message, decoded, touches⟩
        rcases inboxMessageTouchesMemoSet_iff.mp touches with ⟨id, member, mentions⟩
        rcases (mem_treeIds id).mp member with ⟨memo, doomed, rfl⟩
        exact ⟨memo, doomed, nonempty, message, decoded, mentions⟩
      · rintro ⟨memo, doomed, nonempty, message, decoded, mentions⟩
        exact ⟨nonempty, message, decoded, inboxMessageTouchesMemoSet_iff.mpr
          ⟨memo.id, (mem_treeIds memo.id).mpr ⟨memo, doomed, rfl⟩, mentions⟩⟩

/-- The statements of the deletion remove exactly the rows that refer to the
user. -/
theorem deleteUserTransaction_removes {before after : Database} {failpoint : Bool}
    {result : DeleteUserResult} (keys : before.PrimaryKeys)
    (leads : (deleteUserTransaction protojson userId failpoint).Leads before result after) :
    Removes (RefersTo protojson before userId) before after := by
  rcases Transaction.leads_bind leads with ⟨targets, _, collecting, afterCollecting⟩
  rcases leads_collectDeleteUserTargets keys (Transaction.leads_wrap collecting) with
    ⟨rfl, collected⟩
  rcases Transaction.leads_bind afterCollecting with ⟨_, _, deleting, afterDeleting⟩
  have removed := removes_targets (Transaction.leads_wrap deleting)
  rcases Transaction.leads_bind afterDeleting with ⟨_, _, checking, afterChecking⟩
  cases Transaction.leads_failIf checking
  rcases Transaction.leads_bind afterChecking with ⟨_, _, commit, finished⟩
  cases Transaction.leads_execute (Transaction.leads_wrap commit)
  rcases Transaction.leads_pure finished with ⟨_, rfl⟩
  exact removed.congr fun row stored => targeted_iff_refersTo keys collected stored

/-- The deletion of a user is closed and leaves everything else alone.  Batches
cover every id once, both drivers collect the same memos, and a deletion that
fails changes nothing. -/
theorem deleteUser_closure {db : Database} (keys : db.PrimaryKeys) (protojson : Protojson) (userId : Nat) :
    (∀ failpoint faults result after,
      deleteUser protojson userId failpoint faults db = (.ok result, after) ->
      ∀ row, after.Has row ↔ db.Has row ∧ ¬ RefersTo protojson db userId row) ∧
    (∀ ids : List Nat,
      (deleteUserBatches ids deleteUserBatchSize).flatten = ids ∧
      ∀ batch, batch ∈ deleteUserBatches ids deleteUserBatchSize ->
        batch ≠ [] ∧ batch.length ≤ deleteUserBatchSize) ∧
    (∀ ref, ref ∈ listDeleteUserMemoTreeRecursive db userId ↔
      ref ∈ listDeleteUserMemoTreeIterative db userId) ∧
    (∀ failpoint faults cause after,
      deleteUser protojson userId failpoint faults db = (.error cause, after) -> after = db) := by
  refine ⟨?_, ?_, ?_, ?_⟩
  · intro failpoint faults result after committed
    exact (deleteUserTransaction_removes keys (Transaction.leads_of_run committed)).rows
  · intro ids
    refine ⟨flatten_deleteUserBatches ids deleteUserBatchSize, ?_⟩
    intro batch member
    exact deleteUserBatches_bounds (by decide) member
  · intro ref
    rw [mem_recursiveTree, mem_iterativeTree keys.toKeyed]
  · intro failpoint faults cause after failed
    exact Transaction.run_error failed

/-- A user with a memo, a comment on it by somebody else, and a reaction to the
comment. -/
def commentedDatabase : Database where
  users := [⟨1, .normal, "alice", .user⟩, ⟨2, .normal, "bob", .user⟩]
  memos := [⟨1, "first", .normal, 1, 0, 0, "", .isPublic, false, ⟨none, []⟩⟩,
    ⟨2, "second", .normal, 2, 0, 0, "", .isPublic, false, ⟨none, []⟩⟩,
    ⟨3, "third", .normal, 2, 0, 0, "", .isPublic, false, ⟨none, []⟩⟩]
  relations := [⟨2, 1, .comment⟩]
  reactions := [⟨1, 2, "memos/second", "thumb"⟩, ⟨2, 2, "memos/third", "thumb"⟩]

/-- A decoder of databases without messages. -/
def silentProtojson : Protojson where
  inboxMessage := fun _ => .error "unexpected token"
  attachmentPayload := fun _ => .ok ()

/-- Deleting the user removes the comment of the other user as well, and leaves the
memo that is no comment with its reaction. -/
theorem deleteUser_closure_commented : Exists fun result => Exists fun after =>
    deleteUser silentProtojson 1 false [] commentedDatabase = (.ok result, after) ∧
      after.users = [⟨2, .normal, "bob", .user⟩] ∧ after.memos.map Memo.uid = ["third"] ∧ after.relations = [] ∧
      after.reactions = [⟨2, 2, "memos/third", "thumb"⟩] ∧
      ∀ row, after.Has row ↔
        commentedDatabase.Has row ∧ ¬ RefersTo silentProtojson commentedDatabase 1 row := by
  have keys : commentedDatabase.PrimaryKeys :=
    { memoIds := by decide, memoUids := by decide, attachmentIds := by decide, inboxIds := by decide }
  have tables : (deleteUser silentProtojson 1 false [] commentedDatabase).1.toOption.isSome = true ∧
      (deleteUser silentProtojson 1 false [] commentedDatabase).2.users = [⟨2, .normal, "bob", .user⟩] ∧
      (deleteUser silentProtojson 1 false [] commentedDatabase).2.memos.map Memo.uid = ["third"] ∧
      (deleteUser silentProtojson 1 false [] commentedDatabase).2.relations = [] ∧
      (deleteUser silentProtojson 1 false [] commentedDatabase).2.reactions =
        [⟨2, 2, "memos/third", "thumb"⟩] := by
    decide +kernel
  have closure := (deleteUser_closure keys silentProtojson 1).1 false []
  generalize deleteUser silentProtojson 1 false [] commentedDatabase = outcome at tables closure ⊢
  rcases outcome with ⟨committed, after⟩
  cases committed with
  | error => cases tables.1
  | ok result =>
      rcases tables with ⟨_, users, memos, relations, reactions⟩
      exact ⟨result, after, rfl, users, memos, relations, reactions, closure result after rfl⟩

end Store
end Memos
