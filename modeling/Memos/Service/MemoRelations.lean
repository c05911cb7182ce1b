import Memos.Service.MemoAttachments
import Memos.Service.Notifications

namespace Memos
namespace Service
namespace MemoRelations

open Library Memos.Filter Store Handler
open MemoAttachments (ends_admission ends_authenticated ends_memoByName authenticated_quiet
  memoByName_quiet)

/-!
# Reading and setting the relations of a memo

A response carries the relations of a memo in both directions, as far as the
restricting text admits both of their ends.  A request that sets the relations
deletes all outgoing references and inserts those of its list, where it skips
comments and relations to the memo itself.  The two fit together for the
incoming relations and for the comments; an outgoing reference survives only
if it is read and not skipped.
-/

/-! ## Reading -/

section Reading

variable {env : Environment} {now : Int} {db : Database} {userId : Nat} {user : User} {memo : Memo}

/-- The restricting text of a user admits the memo. -/
def Readable (user : User) (memo : Memo) : Prop :=
  memo.creatorId = user.id ∨ memo.visibility = .isPublic ∨ memo.visibility = .isProtected

instance : Decidable (Readable user memo) := by
  unfold Readable
  infer_instance

/-- A memo of the table with this id. -/
def ReadableId (db : Database) (user : User) (id : Nat) : Prop :=
  Exists fun memo => memo ∈ db.memos ∧ memo.id = id ∧ Readable user memo

theorem visibilitySql_readable (rules : TextRules) (joined : JoinedMemo) :
    (visibilitySql user.id).eval rules .sqlite joined.row =
      .ok (.ofBool (decide (Readable user joined.memo))) := by
  have created : SqlCondition.eval rules .sqlite joined.row
      (.compare .eq (.column ⟨"memo", "creator_id"⟩) (.param (.int user.id))) =
        .ok (.ofBool (decide (joined.memo.creatorId = user.id))) := by
    have order : (compare (joined.memo.creatorId : Int) user.id == .eq) =
        decide (joined.memo.creatorId = user.id) := by
      rw [Bool.eq_iff_iff, beq_iff_eq, decide_eq_true_eq, Std.compare_eq_iff_eq, Int.ofNat_inj]
    rw [← order]
    rfl
  have listed : SqlCondition.eval rules .sqlite joined.row
      (.inList (.column ⟨"memo", "visibility"⟩) [.string "PUBLIC", .string "PROTECTED"]) =
        .ok (.ofBool (decide (joined.memo.visibility = .isPublic ∨
          joined.memo.visibility = .isProtected))) := by
    change anyEqual rules .sqlite true (.text joined.memo.visibility.string)
      [.text "PUBLIC", .text "PROTECTED"] = _
    cases joined.memo.visibility <;> rfl
  have either : decide (Readable user joined.memo) =
      (decide (joined.memo.creatorId = user.id) ||
        decide (joined.memo.visibility = .isPublic ∨ joined.memo.visibility = .isProtected)) := by
    rw [← Bool.decide_or]
    rfl
  rw [either, ← Truth.or_ofBool]
  change (do
    let first ← SqlCondition.eval rules .sqlite joined.row
      (.compare .eq (.column ⟨"memo", "creator_id"⟩) (.param (.int user.id)))
    let second ← SqlCondition.eval rules .sqlite joined.row
      (.inList (.column ⟨"memo", "visibility"⟩) [.string "PUBLIC", .string "PROTECTED"])
    return first.or second) = _
  rw [created, listed]
  rfl

/-- The ids that the restricting text of a user leaves. -/
def readableIds (db : Database) (user : User) : List Nat :=
  (db.memos.filter fun memo => decide (Readable user memo)).map Memo.id

variable {id : Nat}

theorem mem_readableIds : id ∈ readableIds db user ↔ ReadableId db user id := by
  simp [readableIds, ReadableId, and_left_comm, and_comm]

theorem selectMemoIds_readable (rules : TextRules) :
    selectMemoIds rules db (memoFilterSql (some user)) = .ok (readableIds db user) :=
  selectMemoIds_of_eval (visibilitySql_readable rules)

/-- A relation that is listed under the restricting text. -/
theorem mem_listMemoRelations {find : FindMemoRelation} (reads : ReadsMemoFilter env (some user))
    (filtered : find.memoFilter = some (memoFilterText (some user))) (unlimited : find.limit = none) :
    Exists fun relations =>
      Store.listMemoRelations env.engine env.rules now db find = .ok relations ∧
        forall relation, relation ∈ relations ↔
          relation ∈ db.relations ∧ find.selects relation = true ∧
            ReadableId db user relation.memoId ∧ ReadableId db user relation.relatedMemoId := by
  have tested := @memoFilterTest_of_ids env now db (some user) _ reads (selectMemoIds_readable env.rules)
  rw [Store.listMemoRelations, FindMemoRelation.test, filtered]
  simp only [tested, ok_bind, FindMemoRelation.page, unlimited]
  refine ⟨_, rfl, fun relation => ?_⟩
  rw [List.mem_mergeSort, List.mem_filter, Bool.and_eq_true, Bool.and_eq_true,
    List.contains_iff_mem, List.contains_iff_mem, mem_readableIds, mem_readableIds]

/-! ### Relations in responses -/

/-- `convertMemoRelationTypeFromStore` -/
def typeFromStore : MemoRelationType -> RelationType
  | .reference => .reference
  | .comment => .comment

/-- The relations of one memo among those that were loaded: each relation is
filed under both of its ends. -/
def relationsOf (messages : List RelationMessage) (memoId : Nat) : List RelationMessage :=
  messages.flatMap fun message =>
    (if message.memo.id = memoId then [message] else []) ++
      (if message.relatedMemo.id = memoId then [message] else [])

/-- The server has returned the relations of the memo, in a list of its own or
in a response with some memos. -/
inductive Returned (env : Environment) (now : Int) (db : Database) (userId : Nat) (memo : Memo) :
    List RelationMessage -> Prop where
  | listed {name : String} {messages : List RelationMessage}
      (named : extractMemoUIDFromName name = .ok memo.uid)
      (success : listMemoRelations env now db userId name = .ok messages) :
      Returned env now db userId memo messages
  | carried {includeSnippets : Bool} {memos : List Memo} {messages : List RelationMessage}
      (stored : forall other, other ∈ memos -> other ∈ db.memos) (among : memo ∈ memos)
      (success : batchConvertMemoRelations env now db userId includeSnippets memos = .ok messages) :
      Returned env now db userId memo (relationsOf messages memo.id)

/-- The relations that a user is shown with a memo. -/
structure Shown (db : Database) (user : User) (memo : Memo) (relation : MemoRelation) : Prop where
  stored : relation ∈ db.relations
  isEnd : relation.memoId = memo.id ∨ relation.relatedMemoId = memo.id
  source : ReadableId db user relation.memoId
  target : ReadableId db user relation.relatedMemoId

/-- The message has the name and the id of a stored memo. -/
def Names (db : Database) (id : Nat) (memo : Memo) : Prop :=
  Exists fun row => row ∈ db.memos ∧ row.id = id ∧ memo.id = id ∧ memo.uid = row.uid

structure Tells (db : Database) (message : RelationMessage) (relation : MemoRelation) : Prop where
  type : message.type = relation.type
  source : Names db relation.memoId message.memo
  target : Names db relation.relatedMemoId message.relatedMemo

/-- The messages tell what the user is shown, and nothing else. -/
structure TellsAll (db : Database) (user : User) (memo : Memo) (messages : List RelationMessage) :
    Prop where
  sound : forall message, message ∈ messages -> Exists fun relation =>
    Shown db user memo relation ∧ Tells db message relation
  complete : forall relation, Shown db user memo relation -> Exists fun message =>
    message ∈ messages ∧ Tells db message relation

theorem ReadableId.exists_memoById (readable : ReadableId db user id) :
    Exists fun joined => memoById db id = some joined := by
  rcases readable with ⟨memo, stored, rfl, _⟩
  rcases Database.exists_joinedMemos stored with ⟨row, inJoin, same⟩
  cases found : memoById db memo.id with
  | none =>
      have missing := List.find?_eq_none.mp found row inJoin
      rw [same] at missing
      exact absurd (beq_self_eq_true _) missing
  | some joined => exact ⟨joined, rfl⟩

theorem names_memoById {joined : JoinedMemo} (found : memoById db id = some joined) :
    Names db id joined.memo := by
  rcases memoById_eq_some found with ⟨inJoin, same⟩
  exact ⟨joined.memo, Database.mem_joinedMemos inJoin, same, same, rfl⟩

theorem tells_convertMemoRelationFromStore {relation : MemoRelation} (keyed : db.Keyed)
    (source : ReadableId db user relation.memoId) (target : ReadableId db user relation.relatedMemoId) :
    Exists fun message => convertMemoRelationFromStore env now db relation = .ok message ∧
      Tells db message relation := by
  rcases source.exists_memoById with ⟨first, sourceFound⟩
  rcases target.exists_memoById with ⟨second, targetFound⟩
  refine ⟨⟨first.memo, second.memo, relation.type⟩, ?_, rfl, names_memoById sourceFound,
    names_memoById targetFound⟩
  unfold convertMemoRelationFromStore
  rw [getMemo_id _ _ _ keyed, getMemo_id _ _ _ keyed, sourceFound, targetFound]
  rfl

/-- The two queries of a list find what the user is shown. -/
theorem mem_listMemoRelations_both (reads : ReadsMemoFilter env (some user)) (memo : Memo) :
    Exists fun outgoing => Exists fun incoming =>
      Store.listMemoRelations env.engine env.rules now db
        { memoId := some memo.id, memoFilter := some (memoFilterText (some user)) } = .ok outgoing ∧
      Store.listMemoRelations env.engine env.rules now db
        { relatedMemoId := some memo.id, memoFilter := some (memoFilterText (some user)) } =
          .ok incoming ∧
      forall relation, relation ∈ outgoing ++ incoming ↔ Shown db user memo relation := by
  rcases @mem_listMemoRelations env now db user { memoId := some memo.id
                                                  memoFilter := some (memoFilterText (some user)) }
    reads rfl rfl with ⟨outgoing, listed, ofOutgoing⟩
  rcases @mem_listMemoRelations env now db user { relatedMemoId := some memo.id
                                                  memoFilter := some (memoFilterText (some user)) }
    reads rfl rfl with ⟨incoming, alsoListed, ofIncoming⟩
  refine ⟨outgoing, incoming, listed, alsoListed, fun relation => ?_⟩
  rw [List.mem_append, ofOutgoing, ofIncoming]
  simp only [FindMemoRelation.selects, Option.all_none, Option.all_some, List.isEmpty_nil,
    Bool.true_or, Bool.and_true, Bool.true_and, decide_eq_true_eq]
  constructor
  · rintro (⟨stored, same, source, target⟩ | ⟨stored, same, source, target⟩)
    · exact ⟨stored, .inl same, source, target⟩
    · exact ⟨stored, .inr same, source, target⟩
  · rintro ⟨stored, same | same, source, target⟩
    · exact .inl ⟨stored, same, source, target⟩
    · exact .inr ⟨stored, same, source, target⟩

/-- A list of the relations of a memo succeeds and tells them all. -/
theorem exists_listMemoRelations {name : String} {joined : JoinedMemo} (keyed : db.Keyed)
    (reads : ReadsMemoFilter env (some user)) (caller : fetchCurrentUser db userId = .ok (some user))
    (named : extractMemoUIDFromName name = .ok joined.memo.uid)
    (found : memoByUid db joined.memo.uid = some joined) :
    Exists fun messages => listMemoRelations env now db userId name = .ok messages ∧
      TellsAll db user joined.memo messages := by
  rcases @mem_listMemoRelations_both env now db user reads joined.memo with
    ⟨outgoing, incoming, listed, alsoListed, members⟩
  rcases exists_mapM (fun relation inside => by
    have shown := (members relation).mp inside
    rcases @tells_convertMemoRelationFromStore env now db user relation keyed shown.source shown.target
      with ⟨message, converted, _⟩
    exact ⟨message, converted⟩) with ⟨messages, converted, complete⟩
  refine ⟨messages, ?_, ?_, ?_⟩
  · have lookup : memoOfName env now db .internal "failed to get memo" name = .ok joined := by
      unfold memoOfName
      simp only [named, orStatus, ok_bind, getMemo_uid _ _ _ keyed, found]
      rfl
    have viewer : currentUser db userId = .ok (some user) := currentUser_eq_ok.mpr caller
    unfold listMemoRelations
    rw [lookup, ok_bind, viewer, ok_bind, listed]
    simp only [orStatus, ok_bind, alsoListed, converted]
  · intro message member
    rcases exists_of_mem_mapM converted member with ⟨relation, inside, same⟩
    have shown := (members relation).mp inside
    rcases @tells_convertMemoRelationFromStore env now db user relation keyed shown.source shown.target
      with ⟨other, alsoSame, tells⟩
    rw [same] at alsoSame
    cases alsoSame
    exact ⟨relation, shown, tells⟩
  · intro relation shown
    rcases complete relation ((members relation).mpr shown) with ⟨message, member, same⟩
    rcases @tells_convertMemoRelationFromStore env now db user relation keyed shown.source shown.target
      with ⟨other, alsoSame, tells⟩
    rw [same] at alsoSame
    cases alsoSame
    exact ⟨message, member, tells⟩

/-- The query for some ids finds the memos that have one of them, with or
without their contents. -/
theorem exists_memosById (env : Environment) (now : Int) (db : Database) (excludeContent : Bool)
    {ids : List Nat} (some_ : ids ≠ []) :
    Exists fun rows => Store.listMemos env.engine env.rules now db { idList := ids, excludeContent } =
        .ok rows ∧
      (forall joined, joined ∈ rows -> Names db joined.memo.id joined.memo) ∧
      forall row, row ∈ db.memos -> row.id ∈ ids ->
        Exists fun joined => joined ∈ rows ∧ joined.memo.id = row.id := by
  rcases Notifications.listMemos_ids env now db some_ with ⟨rows, listed, members⟩
  have names : forall joined, joined ∈ rows -> Names db joined.memo.id joined.memo :=
    fun joined member =>
      ⟨joined.memo, Database.mem_joinedMemos ((members joined).mp member).1, rfl, rfl, rfl⟩
  have complete : forall row, row ∈ db.memos -> row.id ∈ ids ->
      Exists fun joined => joined ∈ rows ∧ joined.memo.id = row.id := by
    intro row stored asked
    rcases Database.exists_joinedMemos stored with ⟨joined, inJoin, same⟩
    refine ⟨joined, (members joined).mpr ⟨inJoin, ?_⟩, by rw [same]⟩
    rw [same]
    exact asked
  cases excludeContent with
  | false => exact ⟨rows, listed, names, complete⟩
  | true =>
      have stripped := listMemos_excludeContent env.engine env.rules now db { idList := ids } rfl
      rw [listed] at stripped
      refine ⟨_, stripped, ?_, ?_⟩
      · intro joined member
        rcases List.mem_map.mp member with ⟨row, inRows, rfl⟩
        exact names row inRows
      · intro row stored asked
        rcases complete row stored asked with ⟨joined, inRows, same⟩
        exact ⟨_, List.mem_map_of_mem inRows, same⟩

/-- The memos at hand and those that are fetched name everything that the
relations mention and the table has. -/
theorem exists_relationMemos (env : Environment) (now : Int) (includeSnippets : Bool)
    (relations : List MemoRelation) {memos : List Memo}
    (stored : forall other, other ∈ memos -> other ∈ db.memos) :
    Exists fun known => relationMemos env now db includeSnippets relations memos = .ok known ∧
      (forall memo, memo ∈ known -> Names db memo.id memo) ∧
      forall relation, relation ∈ relations -> forall row, row ∈ db.memos ->
        row.id = relation.memoId ∨ row.id = relation.relatedMemoId ->
          Exists fun memo => memo ∈ known ∧ memo.id = row.id := by
  have atHand : forall memo, memo ∈ memos -> Names db memo.id memo :=
    fun memo member => ⟨memo, stored memo member, rfl, rfl, rfl⟩
  have needed : forall relation, relation ∈ relations -> forall row : Memo,
      row.id = relation.memoId ∨ row.id = relation.relatedMemoId ->
        row.id ∉ neededIds relations memos -> Exists fun memo => memo ∈ memos ∧ memo.id = row.id := by
    intro relation member row isEnd missing
    by_contra none
    refine missing (List.mem_filter.mpr ⟨List.mem_eraseDups.mpr (List.mem_flatMap.mpr
      ⟨relation, member, ?_⟩), decide_eq_true ?_⟩)
    · rcases isEnd with same | same <;> simp [same]
    · intro some_
      rcases List.any_eq_true.mp some_ with ⟨memo, inside, same⟩
      exact none ⟨memo, inside, of_decide_eq_true same⟩
  unfold relationMemos
  dsimp only
  by_cases empty : (neededIds relations memos).isEmpty = true
  · rw [if_pos empty]
    refine ⟨memos, rfl, atHand, ?_⟩
    intro relation member row _ isEnd
    refine needed relation member row isEnd ?_
    rw [List.isEmpty_iff.mp empty]
    exact List.not_mem_nil
  · rw [if_neg empty]
    have some_ : neededIds relations memos ≠ [] := fun none => empty (List.isEmpty_iff.mpr none)
    rcases exists_memosById env now db (!includeSnippets) some_ with ⟨rows, listed, names, complete⟩
    rw [listed]
    refine ⟨_, rfl, ?_, ?_⟩
    · intro memo member
      rcases List.mem_append.mp member with here | fetched
      · exact atHand memo here
      · rcases List.mem_map.mp fetched with ⟨joined, inRows, rfl⟩
        exact names joined inRows
    · intro relation member row inTable isEnd
      by_cases asked : row.id ∈ neededIds relations memos
      · rcases complete row inTable asked with ⟨joined, inRows, same⟩
        exact ⟨joined.memo, List.mem_append_right _ (List.mem_map_of_mem inRows), same⟩
      · rcases needed relation member row isEnd asked with ⟨memo, inside, same⟩
        exact ⟨memo, List.mem_append_left _ inside, same⟩

/-- A known memo is found under its id. -/
theorem exists_find_known {known : List Memo} (names : forall memo, memo ∈ known -> Names db memo.id memo)
    (present : Exists fun memo => memo ∈ known ∧ memo.id = id) :
    Exists fun memo => (known.find? fun memo => memo.id = id) = some memo ∧ Names db id memo := by
  rcases present with ⟨memo, inside, same⟩
  cases found : known.find? fun memo => memo.id = id with
  | none => exact absurd (decide_eq_true same) (List.find?_eq_none.mp found memo inside)
  | some other =>
      have sameId : other.id = id := of_decide_eq_true (List.find?_some found :)
      have named := names other (List.mem_of_find?_eq_some found)
      rw [sameId] at named
      exact ⟨other, rfl, named⟩

/-- The message of a relation, when both of its ends are known. -/
theorem exists_relationMessage {known : List Memo} {relation : MemoRelation}
    (names : forall memo, memo ∈ known -> Names db memo.id memo)
    (complete : forall row, row ∈ db.memos ->
      row.id = relation.memoId ∨ row.id = relation.relatedMemoId ->
        Exists fun memo => memo ∈ known ∧ memo.id = row.id)
    (source : ReadableId db user relation.memoId) (target : ReadableId db user relation.relatedMemoId) :
    Exists fun message => relationMessage known relation = some message ∧
      Tells db message relation := by
  rcases source with ⟨first, firstStored, firstId, _⟩
  rcases target with ⟨second, secondStored, secondId, _⟩
  have firstKnown := complete first firstStored (.inl firstId)
  have secondKnown := complete second secondStored (.inr secondId)
  rw [firstId] at firstKnown
  rw [secondId] at secondKnown
  rcases exists_find_known names firstKnown with ⟨memo, memoFound, memoNames⟩
  rcases exists_find_known names secondKnown with ⟨related, relatedFound, relatedNames⟩
  refine ⟨⟨memo, related, relation.type⟩, ?_, rfl, memoNames, relatedNames⟩
  unfold relationMessage
  rw [memoFound, relatedFound]
  rfl

theorem mem_relationsOf {messages : List RelationMessage} {message : RelationMessage} {memoId : Nat} :
    message ∈ relationsOf messages memoId ↔
      message ∈ messages ∧ (message.memo.id = memoId ∨ message.relatedMemo.id = memoId) := by
  unfold relationsOf
  rw [List.mem_flatMap]
  constructor
  · rintro ⟨other, inside, member⟩
    rcases List.mem_append.mp member with here | here
    · split at here
      · next same =>
        rw [List.mem_singleton.mp here]
        exact ⟨inside, .inl same⟩
      · cases here
    · split at here
      · next same =>
        rw [List.mem_singleton.mp here]
        exact ⟨inside, .inr same⟩
      · cases here
  · rintro ⟨inside, same | same⟩
    · exact ⟨message, inside, List.mem_append_left _ (by simp [same])⟩
    · exact ⟨message, inside, List.mem_append_right _ (by simp [same])⟩

/-- The relations in a response with some memos, filed under one of them. -/
theorem exists_batchConvertMemoRelations {includeSnippets : Bool} {memos : List Memo}
    (reads : ReadsMemoFilter env (some user)) (caller : fetchCurrentUser db userId = .ok (some user))
    (stored : forall other, other ∈ memos -> other ∈ db.memos) (among : memo ∈ memos) :
    Exists fun messages =>
      batchConvertMemoRelations env now db userId includeSnippets memos = .ok messages ∧
        TellsAll db user memo (relationsOf messages memo.id) := by
  rcases @mem_listMemoRelations env now db user
    { sourceMemoIdList := memos.map Memo.id, memoFilter := some (memoFilterText (some user)) }
    reads rfl rfl with ⟨outgoing, listed, ofOutgoing⟩
  rcases @mem_listMemoRelations env now db user
    { relatedMemoIdList := memos.map Memo.id, memoFilter := some (memoFilterText (some user)) }
    reads rfl rfl with ⟨incoming, alsoListed, ofIncoming⟩
  have nonempty : (memos.map Memo.id).isEmpty = false := by
    rw [List.isEmpty_eq_false_iff]
    exact List.ne_nil_of_mem (List.mem_map_of_mem among)
  have notEmpty : ¬ memos.isEmpty = true := by
    intro empty
    rw [List.isEmpty_iff.mp empty] at among
    exact absurd among List.not_mem_nil
  have merged : forall relation, relation ∈ mergeMemoRelations [outgoing, incoming] ↔
      relation ∈ outgoing ∨ relation ∈ incoming := by
    intro relation
    simp [mergeMemoRelations]
  simp only [FindMemoRelation.selects, Option.all_none, List.isEmpty_nil, Bool.true_or,
    Bool.and_true, Bool.true_and, nonempty, Bool.false_or, List.contains_iff_mem]
    at ofOutgoing ofIncoming
  have readable : forall relation, relation ∈ mergeMemoRelations [outgoing, incoming] ->
      relation ∈ db.relations ∧ ReadableId db user relation.memoId ∧
        ReadableId db user relation.relatedMemoId := by
    intro relation member
    rcases (merged relation).mp member with inside | inside
    · have known := (ofOutgoing relation).mp inside
      exact ⟨known.1, known.2.2⟩
    · have known := (ofIncoming relation).mp inside
      exact ⟨known.1, known.2.2⟩
  rcases exists_relationMemos env now includeSnippets (mergeMemoRelations [outgoing, incoming]) stored
    with ⟨known, fetched, names, complete⟩
  have told : forall relation, relation ∈ mergeMemoRelations [outgoing, incoming] ->
      Exists fun message => relationMessage known relation = some message ∧
        Tells db message relation := fun relation member =>
    exists_relationMessage names (complete relation member) (readable relation member).2.1
      (readable relation member).2.2
  refine ⟨(mergeMemoRelations [outgoing, incoming]).filterMap (relationMessage known), ?_, ?_, ?_⟩
  · unfold batchConvertMemoRelations
    rw [if_neg notEmpty]
    simp only [caller, ok_bind, listed, alsoListed, fetched]
    rfl
  · intro message member
    rcases mem_relationsOf.mp member with ⟨inside, isEnd⟩
    rcases List.mem_filterMap.mp inside with ⟨relation, inMerged, built⟩
    rcases told relation inMerged with ⟨other, alsoBuilt, tells⟩
    rw [built] at alsoBuilt
    cases alsoBuilt
    rcases readable relation inMerged with ⟨inTable, source, target⟩
    refine ⟨relation, ⟨inTable, ?_, source, target⟩, tells⟩
    rcases relationMessage_ids built with ⟨sourceId, targetId⟩
    rcases isEnd with same | same
    · exact .inl (sourceId.symm.trans same)
    · exact .inr (targetId.symm.trans same)
  · intro relation shown
    have inMerged : relation ∈ mergeMemoRelations [outgoing, incoming] := by
      refine (merged relation).mpr ?_
      rcases shown.isEnd with same | same
      · exact .inl ((ofOutgoing relation).mpr ⟨shown.stored,
          by rw [same]; exact List.mem_map_of_mem among, shown.source, shown.target⟩)
      · exact .inr ((ofIncoming relation).mpr ⟨shown.stored,
          by rw [same]; exact List.mem_map_of_mem among, shown.source, shown.target⟩)
    rcases told relation inMerged with ⟨message, built, tells⟩
    rcases relationMessage_ids built with ⟨sourceId, targetId⟩
    refine ⟨message, mem_relationsOf.mpr ⟨List.mem_filterMap.mpr ⟨relation, inMerged, built⟩, ?_⟩, tells⟩
    rcases shown.isEnd with same | same
    · exact .inl (sourceId.trans same)
    · exact .inr (targetId.trans same)

/-- Whatever list of relations the server has returned, it tells them all. -/
theorem Returned.tellsAll {joined : JoinedMemo} {messages : List RelationMessage} (keyed : db.Keyed)
    (reads : ReadsMemoFilter env (some user)) (caller : fetchCurrentUser db userId = .ok (some user))
    (found : memoByUid db joined.memo.uid = some joined)
    (returned : Returned env now db userId joined.memo messages) :
    TellsAll db user joined.memo messages := by
  cases returned with
  | listed named success =>
      rcases @exists_listMemoRelations env now db userId user _ joined keyed reads caller named found
        with ⟨others, alsoSuccess, tells⟩
      rw [Except.ok.inj (success.symm.trans alsoSuccess)]
      exact tells
  | @carried includeSnippets _ _ stored among success =>
      rcases @exists_batchConvertMemoRelations env now db userId user joined.memo includeSnippets _
        reads caller stored among with ⟨others, alsoSuccess, tells⟩
      rw [Except.ok.inj (success.symm.trans alsoSuccess)]
      exact tells

end Reading

/-! ## Writing -/

/-- One row of `INSERT … ON CONFLICT`. -/
def withRelation (relations : List MemoRelation) (relation : MemoRelation) : List MemoRelation :=
  if relation ∈ relations then relations else relations ++ [relation]

/-- An outgoing reference of the memo. -/
def OwnReference (ref : MemoRef) (relation : MemoRelation) : Prop :=
  relation.memoId = ref.id ∧ relation.type = .reference

instance (ref : MemoRef) (relation : MemoRelation) : Decidable (OwnReference ref relation) := by
  unfold OwnReference
  infer_instance

/-- The reference that an item of the request asks for, if it is not skipped
and the related memo exists. -/
def askedFor (memos : List Memo) (ref : MemoRef) (input : RelationInput) : Option MemoRelation :=
  if buildMemoName ref.uid = input.relatedName then none
  else if input.type = .comment then none
  else
    match extractMemoUIDFromName input.relatedName with
    | .error _ => none
    | .ok uid =>
        (memos.find? fun row => row.uid = uid).map fun row => ⟨ref.id, row.id, .reference⟩

def insertAll (relations : List MemoRelation) (asked : List MemoRelation) : List MemoRelation :=
  asked.foldl withRelation relations

/-- The relations after a request with this list. -/
def rewritten (memos : List Memo) (ref : MemoRef) (inputs : List RelationInput)
    (relations : List MemoRelation) : List MemoRelation :=
  insertAll (relations.filter fun relation => ¬ OwnReference ref relation)
    (inputs.filterMap (askedFor memos ref))

section Rows

variable {memos : List Memo} {ref : MemoRef} {inputs : List RelationInput}
  {relations asked : List MemoRelation} {relation : MemoRelation}

theorem mem_withRelation {other : MemoRelation} :
    relation ∈ withRelation relations other ↔ relation ∈ relations ∨ relation = other := by
  unfold withRelation
  split
  · next present =>
    constructor
    · exact .inl
    · rintro (inside | rfl)
      · exact inside
      · exact present
  · rw [List.mem_append, List.mem_singleton]

theorem mem_insertAll : relation ∈ insertAll relations asked ↔ relation ∈ relations ∨ relation ∈ asked := by
  induction asked generalizing relations with
  | nil => simp [insertAll]
  | cons first rest ih =>
      have step : insertAll relations (first :: rest) = insertAll (withRelation relations first) rest :=
        rfl
      rw [step, ih, mem_withRelation, List.mem_cons, or_assoc]

theorem mem_rewritten : relation ∈ rewritten memos ref inputs relations ↔
    (relation ∈ relations ∧ ¬ OwnReference ref relation) ∨
      Exists fun input => input ∈ inputs ∧ askedFor memos ref input = some relation := by
  unfold rewritten
  rw [mem_insertAll, List.mem_filter, decide_eq_true_eq, List.mem_filterMap]

/-- What is inserted is an outgoing reference to another name. -/
theorem askedFor_eq_some {input : RelationInput} :
    askedFor memos ref input = some relation ↔
      buildMemoName ref.uid ≠ input.relatedName ∧ input.type ≠ .comment ∧
        Exists fun uid => extractMemoUIDFromName input.relatedName = .ok uid ∧
          Exists fun row => (memos.find? fun row => row.uid = uid) = some row ∧
            relation = ⟨ref.id, row.id, .reference⟩ := by
  unfold askedFor
  by_cases reflexive : buildMemoName ref.uid = input.relatedName
  · simp [reflexive]
  by_cases comment : input.type = .comment
  · simp [comment]
  rw [if_neg reflexive, if_neg comment]
  cases extractMemoUIDFromName input.relatedName with
  | error cause => simp
  | ok uid => simp [reflexive, comment, eq_comm]

/-- Insertions of outgoing references do not change the other rows. -/
theorem filter_insertAll (own : forall relation, relation ∈ asked -> OwnReference ref relation) :
    (insertAll relations asked).filter (fun relation => ¬ OwnReference ref relation) =
      relations.filter fun relation => ¬ OwnReference ref relation := by
  induction asked generalizing relations with
  | nil => rfl
  | cons first rest ih =>
      have step : insertAll relations (first :: rest) = insertAll (withRelation relations first) rest :=
        rfl
      have isOwn := own first List.mem_cons_self
      rw [step, ih fun relation inside => own relation (List.mem_cons_of_mem _ inside)]
      unfold withRelation
      split
      · rfl
      · rw [List.filter_append]
        simp [isOwn]

/-- A second request with the same list rewrites the table to what it is. -/
theorem rewritten_rewritten :
    rewritten memos ref inputs (rewritten memos ref inputs relations) =
      rewritten memos ref inputs relations := by
  have own : forall relation, relation ∈ inputs.filterMap (askedFor memos ref) ->
      OwnReference ref relation := by
    intro relation member
    rcases List.mem_filterMap.mp member with ⟨input, _, asked⟩
    rcases (askedFor_eq_some.mp asked).2.2 with ⟨uid, _, row, _, rfl⟩
    exact ⟨rfl, rfl⟩
  unfold rewritten
  rw [filter_insertAll own, List.filter_filter]
  simp only [Bool.and_self]

/-- Only the ids and the uids of the memos matter. -/
theorem rewritten_map {change : Memo -> Memo} (same : forall memo, (change memo).ref = memo.ref) :
    rewritten (memos.map change) ref inputs relations = rewritten memos ref inputs relations := by
  have asked : askedFor (memos.map change) ref = askedFor memos ref := by
    funext input
    have sameUid : forall memo, (change memo).uid = memo.uid :=
      fun memo => congrArg MemoRef.uid (same memo)
    have sameId : forall memo, (change memo).id = memo.id :=
      fun memo => congrArg MemoRef.id (same memo)
    unfold askedFor
    simp only [List.find?_map, Function.comp_def, sameUid, Option.map_map, sameId]
  unfold rewritten
  rw [asked]

end Rows

/-! ### The handlers -/

section Handlers

variable {backend : Backend} {base : Database} {userId : Nat} {name : String} {memo : Memo}
  {relations : List MemoRelation} {inputs : List RelationInput}

/-- The memos are those of the start and the relations are these. -/
def At (base : Database) (relations : List MemoRelation) (state : Database) : Prop :=
  state.memos = base.memos ∧ state.relations = relations

theorem At.find {state : Database} {uid : String} {joined : JoinedMemo} (keyed : base.Keyed)
    (at_ : At base relations state) (found : memoByUid state uid = some joined) :
    (base.memos.find? fun row => row.uid = uid) = some joined.memo := by
  rcases memoByUid_eq_some found with ⟨inJoin, sameUid⟩
  have stored := Database.mem_joinedMemos inJoin
  rw [at_.1] at stored
  cases search : base.memos.find? fun row => row.uid = uid with
  | none => exact absurd (decide_eq_true sameUid) (List.find?_eq_none.mp search joined.memo stored)
  | some row =>
      have rowUid : row.uid = uid := of_decide_eq_true (List.find?_some search :)
      rw [eq_of_nodup_map keyed.memoUids (List.mem_of_find?_eq_some search) stored
        (rowUid.trans sameUid.symm)]

/-- One item inserts what it asks for. -/
theorem ends_setMemoRelation (keyed : base.Keyed) {input : RelationInput} :
    Ends (At base relations) (setMemoRelation memo input)
      (fun _ => At base (insertAll relations (askedFor base.memos memo.ref input).toList))
      (fun _ _ => True) := by
  unfold setMemoRelation askedFor
  by_cases reflexive : buildMemoName memo.uid = input.relatedName
  · rw [if_pos reflexive, if_pos (show buildMemoName memo.ref.uid = _ from reflexive)]
    exact ends_pure fun _ given => given
  rw [if_neg reflexive, if_neg (show ¬ buildMemoName memo.ref.uid = _ from reflexive)]
  by_cases comment : input.type = .comment
  · rw [if_pos comment, if_pos comment]
    exact ends_pure fun _ given => given
  rw [if_neg comment, if_neg comment]
  refine ends_bind (ends_lift fun _ _ _ _ => trivial) fun uid =>
    ends_given (fun _ given => given.2) fun extracted => ?_
  rw [extracted]
  dsimp only
  refine ends_bind (ends_query fun _ _ _ => trivial) fun row => ?_
  refine ends_bind (ends_found fun _ _ _ => trivial) fun joined => ?_
  refine ends_weaken (ends_execute fun _ _ _ => trivial) (fun _ given => given) ?_
    fun _ _ given => given
  rintro _ state ⟨before, ⟨⟨⟨at_, _⟩, found⟩, rfl⟩, rfl⟩
  rw [RelationType.toStore_reference comment, At.find keyed at_ (Except.ok.inj found)]
  refine ⟨?_, ?_⟩
  · split
    · exact at_.1
    · exact at_.1
  · rw [← at_.2]
    change (if _ then _ else _ : Database).relations = withRelation _ _
    unfold withRelation
    rw [apply_ite Database.relations]
    rfl

theorem ends_setMemoRelationsInternal (keyed : base.Keyed) :
    Ends (At base relations) (setMemoRelationsInternal memo inputs)
      (fun _ => At base (rewritten base.memos memo.ref inputs relations)) (fun _ _ => True) := by
  have inserts : forall {relations : List MemoRelation},
      Ends (At base relations) (forEach inputs (setMemoRelation memo))
        (fun _ => At base (insertAll relations (inputs.filterMap (askedFor base.memos memo.ref))))
        (fun _ _ => True) := by
    induction inputs with
    | nil => exact ends_pure fun _ given => given
    | cons input rest ih =>
        intro relations
        refine ends_bind (ends_setMemoRelation keyed) fun _ => ?_
        refine ends_weaken ih (fun _ given => given) ?_ fun _ _ given => given
        intro _ state at_
        rw [List.filterMap_cons]
        cases asked : askedFor base.memos memo.ref input with
        | none =>
            rw [asked] at at_
            exact at_
        | some relation =>
            rw [asked] at at_
            exact at_
  refine ends_bind ?_ fun _ => inserts
  refine ends_weaken (ends_execute fun _ _ _ => trivial) (fun _ given => given) ?_
    fun _ _ given => given
  rintro _ state ⟨before, at_, rfl⟩
  refine ⟨at_.1, ?_⟩
  dsimp only
  rw [at_.2]
  congr 1
  funext relation
  simp [DeleteMemoRelation.selects, OwnReference, Memo.ref]

variable {user : User}

/-- Setting the attachments touches neither the memos nor the relations. -/
theorem ends_setMemoAttachmentsInternal {order : List Attachment -> List Attachment} {clock : Nat -> Int}
    {names : List String} :
    Ends (At base relations)
      (MemoAttachments.setMemoAttachmentsInternal backend order clock user memo names)
      (fun _ => At base relations) (fun _ _ => True) := by
  have permits : Permits (fun _ _ => True) base (At base relations) (AttachmentWrite memo.id) :=
    fun _ _ along write =>
      ⟨trivial, write.memos.trans along.2.1, write.relations.trans along.2.2⟩
  intro world given
  have anywhere : Relation.ReflTransGen (fun _ _ : Database => True) base world.state :=
    .single trivial
  have follows : Follows _ base _
      (MemoAttachments.setMemoAttachmentsInternal backend order clock user memo names) _ :=
    follows_setMemoAttachmentsInternal permits
  have ends := follows world ⟨anywhere, given⟩
  rcases ran : MemoAttachments.setMemoAttachmentsInternal backend order clock user memo names world with
    ⟨outcome, after⟩
  rw [ran] at ends
  cases outcome with
  | ok value => exact ends.2
  | error status => trivial

/-- One path of the mask. -/
theorem ends_updatePath (keyed : base.Keyed) {moment : Moment} {parentUid : Option String} {input : MemoInput}
    {state : Updating} {path : String} {ref : MemoRef} (updates : state.memo.ref = ref) :
    Ends (At base relations) (updatePath backend moment user parentUid input state path)
      (fun next after => next.memo.ref = ref ∧
        At base (if path = "relations" then rewritten base.memos ref input.relations relations
          else relations) after)
      (fun _ _ => True) := by
  have sameId : state.memo.id = ref.id := congrArg MemoRef.id updates
  have sameUid : state.memo.uid = ref.uid := congrArg MemoRef.uid updates
  have query : forall {α : Type} {select : Database -> α} {status : String -> Status},
      Ends (At base relations) (read select status) (fun _ => At base relations) fun _ _ => True :=
    ends_weaken (ends_query fun _ _ _ => trivial) (fun _ given => given) (fun _ _ given => given.1)
      fun _ _ given => given
  by_cases isRelations : path = "relations"
  · rw [isRelations]
    refine ends_bind (ends_setMemoRelationsInternal keyed) fun _ => ends_pure fun after at_ => ?_
    rw [updates] at at_
    exact ⟨updates, at_⟩
  · simp only [if_neg isRelations]
    have collects : forall {next : Updating}, next.memo.ref = ref ->
        Ends (At base relations) (pure next : Request Updating)
          (fun next after => next.memo.ref = ref ∧ At base relations after) fun _ _ => True :=
      fun same => ends_pure fun _ given => ⟨same, given⟩
    refine ends_ite (fun _ => ?_) fun _ => ends_ite (fun _ => ?_) fun _ =>
      ends_ite (fun _ => collects updates) fun _ => ends_ite (fun _ => collects updates) fun _ =>
      ends_ite (fun _ => collects updates) fun _ => ends_ite (fun _ => collects updates) fun _ =>
      ends_ite (fun _ => ends_throw fun _ _ => trivial) fun _ =>
      ends_ite (fun _ => collects updates) fun _ => ends_ite (fun _ => ?_) fun _ =>
      ends_ite (fun impossible => absurd impossible isRelations) fun _ => collects updates
    · refine ends_bind (ends_lift fun _ _ _ _ => trivial) fun limit => ?_
      refine ends_bind (ends_require fun _ _ _ => trivial) fun _ => ?_
      refine ends_bind (ends_lift fun _ _ _ _ => trivial) fun payload => ?_
      exact ends_pure fun _ given => ⟨updates, given.1.1.1⟩
    · refine ends_bind (?_ : Ends _ _ (fun _ => At base relations) _) fun visibility => collects updates
      unfold updatedVisibility
      split
      · exact ends_pure fun _ given => given
      · refine ends_bind query fun row => ?_
        refine ends_bind (ends_found fun _ _ _ => trivial) fun parent => ?_
        exact ends_pure fun _ given => given.1
    · exact ends_bind ends_setMemoAttachmentsInternal fun _ => collects updates

/-- The relations are rewritten exactly if the mask has their path. -/
theorem ends_updatePaths (keyed : base.Keyed) {parentUid : Option String} {input : MemoInput} {paths : List String}
    {state : Updating} {ref : MemoRef} (updates : state.memo.ref = ref) :
    Ends (At base relations) (updatePaths backend user parentUid input paths state)
      (fun _ => At base (if "relations" ∈ paths then
          rewritten base.memos ref input.relations relations
        else relations)) (fun _ _ => True) := by
  induction paths generalizing relations state with
  | nil => exact ends_pure fun _ given => given
  | cons path rest ih =>
      refine ends_bind (ends_updatePath keyed updates) fun next =>
        ends_given (fun _ given => given.1) fun nextUpdates => ?_
      refine ends_weaken (ih nextUpdates) (fun _ given => given.2) ?_
        fun _ _ given => given
      intro _ after at_
      by_cases isRelations : path = "relations"
      · rw [if_pos isRelations, rewritten_rewritten, ite_self] at at_
        rw [if_pos (by rw [isRelations]; exact List.mem_cons_self)]
        exact at_
      · rw [if_neg isRelations] at at_
        have sameMask : "relations" ∈ path :: rest ↔ "relations" ∈ rest := by
          simp [Ne.symm isRelations]
        simp only [sameMask]
        exact at_

end Handlers

/-! ## The requests -/

/-- A request that sets the relations of a memo. -/
inductive Rewrite where
  | setMemoRelations
  | updateMemo (mask : List String) (input : MemoInput)

def Rewrite.run (backend : Backend) (userId : Nat) (name : String) (relations : List RelationInput) :
    Rewrite -> Request Unit
  | .setMemoRelations => Service.setMemoRelations backend userId name relations
  | .updateMemo mask input => Service.updateMemo backend userId name mask { input with relations }

/-- The mask has the path of the relations. -/
def Rewrite.HasRelations : Rewrite -> Prop
  | .setMemoRelations => True
  | .updateMemo mask _ => "relations" ∈ mask

/-- The mask has no other path. -/
def Rewrite.OnlyRelations : Rewrite -> Prop
  | .setMemoRelations => True
  | .updateMemo mask _ => mask = ["relations"]

/-- The user is allowed to edit the memo. -/
structure MayEdit (db : Database) (userId : Nat) (name : String) (user : User) (joined : JoinedMemo) :
    Prop where
  caller : fetchCurrentUser db userId = .ok (some user)
  named : extractMemoUIDFromName name = .ok joined.memo.uid
  found : memoByUid db joined.memo.uid = some joined
  allowed : canModifyMemo user joined.memo = true

section Requests

variable {backend : Backend} {base : Database} {userId : Nat} {name : String} {user : User}
  {joined : JoinedMemo} {inputs : List RelationInput} {rewrite : Rewrite}

theorem MayEdit.stored (edits : MayEdit base userId name user joined) : joined.memo ∈ base.memos :=
  Database.mem_joinedMemos (memoByUid_eq_some edits.found).1

theorem apply_ref (update : UpdateMemo) (memo : Memo) : (update.apply memo).ref = memo.ref := by
  unfold Memo.ref
  rw [UpdateMemo.apply_id, UpdateMemo.apply_uid]

/-- The memos keep their ids and uids, and the relations are rewritten. -/
structure RelationsSet (base : Database) (ref : MemoRef) (inputs : List RelationInput)
    (state : Database) : Prop where
  memos : Exists fun change => (forall memo : Memo, (change memo).ref = memo.ref) ∧
    state.memos = base.memos.map change
  relations : state.relations = rewritten base.memos ref inputs base.relations

theorem ends_setMemoRelations (keyed : base.Keyed) :
    Ends (fun state => state = base) (setMemoRelations backend userId name inputs)
      (fun _ state => Exists fun user => Exists fun joined =>
        MayEdit base userId name user joined ∧ RelationsSet base joined.memo.ref inputs state)
      (fun _ _ => True) := by
  refine ends_admission (fun _ => trivial) fun user joined caller named found allowed => ?_
  refine ends_bind (ends_weaken (ends_setMemoRelationsInternal keyed)
    (fun _ same => by rw [same]; exact ⟨rfl, rfl⟩) (fun _ _ given => given)
    fun _ _ given => given) fun _ => ?_
  refine ends_bind (ends_execute fun _ _ _ => trivial) fun _ => ?_
  refine ends_weaken (ends_query fun _ _ _ => trivial) (fun _ given => given) ?_
    fun _ _ given => given
  rintro _ state ⟨⟨before, at_, rfl⟩, _⟩
  refine ⟨user, joined, ⟨caller, named, found, allowed⟩,
    ⟨_, apply_ref { id := joined.memo.id, updatedTs := some backend.now }, ?_⟩, at_.2⟩
  dsimp only
  rw [at_.1]

theorem ends_updateMemo (keyed : base.Keyed) {mask : List String} {input : MemoInput}
    (masked : "relations" ∈ mask) :
    Ends (fun state => state = base) (updateMemo backend userId name mask input)
      (fun _ state => Exists fun user => Exists fun joined =>
        MayEdit base userId name user joined ∧
          RelationsSet base joined.memo.ref input.relations state)
      (fun _ _ => True) := by
  refine MemoAttachments.ends_masked (fun _ => trivial) fun joined named found => ?_
  refine ends_bind (ends_authenticated fun _ => trivial) fun user => ?_
  refine ends_bind (ends_require fun _ _ _ => trivial) fun _ => ?_
  refine ends_given (fun _ given => And.intro given.1.2 given.2) fun known => ?_
  refine ends_bind (ends_weaken (ends_updatePaths keyed rfl)
    (fun _ given => by rw [given.1.1]; exact ⟨rfl, rfl⟩) (fun _ _ given => given)
    fun _ _ given => given) fun state => ?_
  refine ends_bind (ends_execute fun _ _ _ => trivial) fun _ => ?_
  refine ends_weaken (ends_query fun _ _ _ => trivial) (fun _ given => given) ?_
    fun _ _ given => given
  rintro _ after ⟨⟨before, at_, rfl⟩, _⟩
  rw [if_pos masked] at at_
  refine ⟨user, joined, ⟨known.1, named, found, known.2⟩,
    ⟨_, apply_ref state.update, ?_⟩, at_.2⟩
  dsimp only
  rw [at_.1]

/-- Whatever the request, a success means that the relations are rewritten. -/
theorem ends_rewrite (keyed : base.Keyed) (masked : rewrite.HasRelations) :
    Ends (fun state => state = base) (rewrite.run backend userId name inputs)
      (fun _ state => Exists fun user => Exists fun joined =>
        MayEdit base userId name user joined ∧ RelationsSet base joined.memo.ref inputs state)
      (fun _ _ => True) := by
  cases rewrite with
  | setMemoRelations => exact ends_setMemoRelations keyed
  | updateMemo mask input => exact ends_updateMemo keyed masked

theorem run_relationsSet {plans : List (List (Option String))} {after : World Database}
    (keyed : base.Keyed) (masked : rewrite.HasRelations) (edits : MayEdit base userId name user joined)
    (ran : rewrite.run backend userId name inputs ⟨base, plans⟩ = (.ok (), after)) :
    RelationsSet base joined.memo.ref inputs after.state := by
  have ends := @ends_rewrite backend base userId name inputs rewrite keyed masked ⟨base, plans⟩ rfl
  rw [ran] at ends
  rcases ends with ⟨other, row, otherEdits, set⟩
  have sameUid := Except.ok.inj (otherEdits.named.symm.trans edits.named)
  have found := otherEdits.found
  rw [sameUid, edits.found] at found
  rw [Option.some.inj found]
  exact set

variable {state : Database}

theorem RelationsSet.keyed {ref : MemoRef} (keyed : base.Keyed) (set : RelationsSet base ref inputs state) :
    state.Keyed := by
  rcases set.memos with ⟨change, same, memos⟩
  have ids : (Memo.id ∘ change : Memo -> Nat) = Memo.id :=
    funext fun memo => congrArg MemoRef.id (same memo)
  have uids : (Memo.uid ∘ change : Memo -> String) = Memo.uid :=
    funext fun memo => congrArg MemoRef.uid (same memo)
  constructor
  · rw [memos, List.map_map, ids]
    exact keyed.memoIds
  · rw [memos, List.map_map, uids]
    exact keyed.memoUids

/-- After a request the name refers to the same memo. -/
theorem RelationsSet.ref {other : User} {row : JoinedMemo} {ref : MemoRef} (keyed : base.Keyed)
    (edits : MayEdit base userId name user joined) (set : RelationsSet base ref inputs state)
    (again : MayEdit state userId name other row) :
    row.memo.ref = joined.memo.ref := by
  rcases set.memos with ⟨change, same, memos⟩
  have stored := again.stored
  rw [memos] at stored
  rcases List.mem_map.mp stored with ⟨memo, inBase, changed⟩
  rw [← changed, same]
  have sameUid : memo.uid = joined.memo.uid := by
    have named := Except.ok.inj (again.named.symm.trans edits.named)
    rw [← changed] at named
    exact (congrArg MemoRef.uid (same memo)).symm.trans named
  rw [eq_of_nodup_map keyed.memoUids inBase edits.stored sameUid]

/-- A second request with the same list changes nothing. -/
theorem run_twice {other : Backend} {plans more : List (List (Option String))}
    {middle after : World Database} (keyed : base.Keyed) (masked : rewrite.HasRelations)
    (edits : MayEdit base userId name user joined)
    (ran : rewrite.run backend userId name inputs ⟨base, plans⟩ = (.ok (), middle))
    (again : rewrite.run other userId name inputs ⟨middle.state, more⟩ = (.ok (), after)) :
    after.state.relations = middle.state.relations := by
  have first := run_relationsSet keyed masked edits ran
  have ends := @ends_rewrite other middle.state userId name inputs rewrite (first.keyed keyed) masked
    ⟨middle.state, more⟩ rfl
  rw [again] at ends
  rcases ends with ⟨caller, row, editsAgain, second⟩
  rcases first.memos with ⟨change, same, memos⟩
  rw [second.relations, first.ref keyed edits editsAgain, memos, rewritten_map same, first.relations,
    rewritten_rewritten]

/-! ### Without faults -/

/-- The item is skipped or names a memo. -/
def Resolvable (memos : List Memo) (ref : MemoRef) (input : RelationInput) : Prop :=
  buildMemoName ref.uid = input.relatedName ∨ input.type = .comment ∨
    Exists fun row => row ∈ memos ∧ extractMemoUIDFromName input.relatedName = .ok row.uid

theorem setMemoRelation_quiet {memo : Memo} {input : RelationInput} (keyed : base.Keyed)
    (memos : state.memos = base.memos) (resolvable : Resolvable base.memos memo.ref input) :
    Exists fun after => setMemoRelation memo input ⟨state, []⟩ = (.ok (), ⟨after, []⟩) ∧
      after.memos = base.memos := by
  unfold setMemoRelation
  by_cases reflexive : buildMemoName memo.uid = input.relatedName
  · rw [if_pos reflexive]
    exact ⟨state, rfl, memos⟩
  rw [if_neg reflexive]
  by_cases comment : input.type = .comment
  · rw [if_pos comment]
    exact ⟨state, rfl, memos⟩
  rw [if_neg comment]
  rcases resolvable with same | same | ⟨row, stored, extracted⟩
  · exact absurd same reflexive
  · exact absurd same comment
  · have keyedState : state.Keyed := by
      constructor
      · rw [memos]
        exact keyed.memoIds
      · rw [memos]
        exact keyed.memoUids
    rw [← memos] at stored
    rcases exists_memoByUid keyedState stored with ⟨related, found, _⟩
    rw [extracted, lift_ok, pure_bind, bind_of_ok (read_quiet _ _ _), found, found_some, pure_bind]
    refine ⟨_, call_quiet (execute_quiet _), ?_⟩
    change (if _ then _ else _ : Database).memos = _
    split
    · exact memos
    · exact memos

theorem setMemoRelationsInternal_quiet {memo : Memo} (keyed : base.Keyed)
    (resolvable : forall input, input ∈ inputs -> Resolvable base.memos memo.ref input) :
    Exists fun after => setMemoRelationsInternal memo inputs ⟨base, []⟩ = (.ok (), ⟨after, []⟩) := by
  have inserts : forall {state : Database}, state.memos = base.memos ->
      Exists fun after => forEach inputs (setMemoRelation memo) ⟨state, []⟩ = (.ok (), ⟨after, []⟩) := by
    induction inputs with
    | nil => exact fun _ => ⟨_, rfl⟩
    | cons input rest ih =>
        intro state memos
        rcases setMemoRelation_quiet keyed memos (resolvable input List.mem_cons_self) with
          ⟨middle, ran, same⟩
        rcases ih (fun other later =>
          resolvable other (List.mem_cons_of_mem _ later)) same with ⟨after, ranRest⟩
        exact ⟨after, (bind_of_ok ran).trans ranRest⟩
  let cleared : DeleteMemoRelation := { memoId := some memo.id, type := some .reference }
  let state : Database :=
    { base with relations := base.relations.filter fun relation => !(cleared.selects relation) }
  have kept : state.memos = base.memos := rfl
  rcases inserts kept with ⟨after, ran⟩
  exact ⟨after, (bind_of_ok (call_quiet (execute_quiet _))).trans ran⟩

section Succeeding

variable (keyed : base.Keyed) (responds : forall db memo, backend.respond db memo = .ok ())
  (edits : MayEdit base userId name user joined)
  (resolvable : forall input, input ∈ inputs -> Resolvable base.memos joined.memo.ref input)

include keyed responds edits resolvable

theorem setMemoRelations_quiet :
    Exists fun after => setMemoRelations backend userId name inputs ⟨base, []⟩ = (.ok (), after) := by
  rcases setMemoRelationsInternal_quiet keyed resolvable with ⟨middle, ran⟩
  have allowed : canModifyMemo user joined.memo = true := edits.allowed
  unfold setMemoRelations
  rw [bind_of_ok (authenticated_quiet edits.caller),
    bind_of_ok (memoByName_quiet edits.named edits.found), require_of allowed, pure_bind,
    bind_of_ok ran]
  exact ⟨_, (bind_of_ok (call_quiet (execute_quiet _))).trans
    (call_quiet (query_quiet (responds _ _)))⟩

theorem updateMemo_quiet (input : MemoInput) :
    Exists fun after => updateMemo backend userId name ["relations"]
      { input with relations := inputs } ⟨base, []⟩ = (.ok (), after) := by
  rcases setMemoRelationsInternal_quiet keyed resolvable with ⟨middle, ran⟩
  have allowed : canModifyMemo user joined.memo = true := edits.allowed
  have nonempty : ["relations"] ≠ [] := List.cons_ne_nil _ _
  have path : updatePaths backend user joined.parentUid { input with relations := inputs }
      ["relations"] { update := { id := joined.memo.id }, memo := joined.memo } ⟨base, []⟩ =
        (.ok { update := { id := joined.memo.id }, memo := joined.memo }, ⟨middle, []⟩) :=
    bind_of_ok (bind_of_ok ran)
  unfold updateMemo memoUidOf
  rw [edits.named, lift_ok, pure_bind, require_of nonempty, pure_bind,
    bind_of_ok (MemoAttachments.memoOfUid_quiet edits.found), bind_of_ok (authenticated_quiet edits.caller), require_of allowed, pure_bind, bind_of_ok path]
  exact ⟨_, (bind_of_ok (call_quiet (execute_quiet _))).trans
    (call_quiet (query_quiet (responds _ _)))⟩

/-- A request about the relations alone succeeds. -/
theorem rewrite_quiet (only : rewrite.OnlyRelations) :
    Exists fun after => rewrite.run backend userId name inputs ⟨base, []⟩ = (.ok (), after) := by
  cases rewrite with
  | setMemoRelations => exact setMemoRelations_quiet keyed responds edits resolvable
  | updateMemo mask input =>
      have isMask : mask = ["relations"] := only
      rw [isMask]
      exact updateMemo_quiet keyed responds edits resolvable input

end Succeeding

end Requests

/-! ## The round trip -/

/-- A relation of a response as an item of a request. -/
def inputOf (message : RelationMessage) : RelationInput :=
  ⟨buildMemoName message.relatedMemo.uid, typeFromStore message.type⟩

/-- The table has the same rows. -/
def SameRows (first second : List MemoRelation) : Prop :=
  forall relation, relation ∈ first ↔ relation ∈ second

/-- Whatever list of relations the server has returned for the memo, setting
it succeeds and leaves the table as it is, and setting a list twice is setting
it once. -/
structure Survives (env : Environment) (now : Int) (db : Database) (userId : Nat) (name : String)
    (memo : Memo) : Prop where
  completes : forall (messages : List RelationMessage) (backend : Backend) (rewrite : Rewrite),
    Returned env now db userId memo messages ->
    (forall db memo, backend.respond db memo = .ok ()) -> rewrite.OnlyRelations ->
      Exists fun after =>
        rewrite.run backend userId name (messages.map inputOf) ⟨db, []⟩ = (.ok (), after)
  unchanged : forall (messages : List RelationMessage) (backend : Backend) (rewrite : Rewrite)
    (plans : List (List (Option String))) (after : World Database),
    Returned env now db userId memo messages -> rewrite.HasRelations ->
      rewrite.run backend userId name (messages.map inputOf) ⟨db, plans⟩ = (.ok (), after) ->
        SameRows after.state.relations db.relations
  idempotent : forall (inputs : List RelationInput) (backend other : Backend) (rewrite : Rewrite)
    (plans more : List (List (Option String))) (middle after : World Database),
    rewrite.HasRelations ->
      rewrite.run backend userId name inputs ⟨db, plans⟩ = (.ok (), middle) ->
        rewrite.run other userId name inputs ⟨middle.state, more⟩ = (.ok (), after) ->
          after.state.relations = middle.state.relations

/-- Every outgoing reference of the memo leads to another memo, and the user
reads both. -/
def Recoverable (db : Database) (user : User) (memo : Memo) : Prop :=
  forall relation, relation ∈ db.relations -> OwnReference memo.ref relation ->
    relation.relatedMemoId ≠ memo.id ∧ Readable user memo ∧
      ReadableId db user relation.relatedMemoId

section RoundTrip

variable {env : Environment} {now : Int} {db : Database} {userId : Nat} {name : String} {user : User}
  {joined : JoinedMemo} {messages : List RelationMessage}

theorem Names.unique {id : Nat} {memo row : Memo} (keyed : db.Keyed) (names : Names db id memo)
    (stored : row ∈ db.memos) : memo.uid = row.uid ↔ id = row.id := by
  rcases names with ⟨other, otherStored, otherId, _, sameUid⟩
  rw [sameUid, ← otherId]
  constructor
  · intro same
    rw [eq_of_nodup_map keyed.memoUids otherStored stored same]
  · intro same
    rw [eq_of_nodup_map keyed.memoIds otherStored stored same]

theorem typeFromStore_eq_comment {type : MemoRelationType} :
    typeFromStore type = .comment ↔ type = .comment := by
  cases type <;> simp [typeFromStore]

theorem typeFromStore_reference {type : MemoRelationType} (other : typeFromStore type ≠ .comment) :
    type = .reference := by
  cases type with
  | reference => rfl
  | comment => exact absurd rfl other

/-- A returned item asks for the relation that it tells, if this is an outgoing
reference to another memo, and is skipped otherwise. -/
theorem askedFor_inputOf {message : RelationMessage} {relation asked : MemoRelation} (keyed : db.Keyed)
    (plain : forall memo, memo ∈ db.memos -> PlainUid memo.uid) (stored : joined.memo ∈ db.memos)
    (shown : Shown db user joined.memo relation) (tells : Tells db message relation) :
    askedFor db.memos joined.memo.ref (inputOf message) = some asked ↔
      asked = relation ∧ OwnReference joined.memo.ref relation ∧
        relation.relatedMemoId ≠ joined.memo.id := by
  rcases tells.target with ⟨row, rowStored, rowId, _, sameUid⟩
  have extracted : extractMemoUIDFromName (inputOf message).relatedName = .ok row.uid := by
    rw [inputOf, sameUid]
    exact extractMemoUIDFromName_buildMemoName (plain row rowStored)
  have other : buildMemoName joined.memo.ref.uid ≠ (inputOf message).relatedName ↔
      relation.relatedMemoId ≠ joined.memo.id := by
    refine not_congr ?_
    have ownName := extractMemoUIDFromName_buildMemoName (plain joined.memo stored)
    rw [← tells.target.unique keyed stored, sameUid]
    constructor
    · intro same
      have named := ownName
      rw [show buildMemoName joined.memo.uid = _ from same, extracted] at named
      exact Except.ok.inj named
    · intro same
      rw [inputOf, sameUid, same]
      rfl
  have found : (db.memos.find? fun memo => memo.uid = row.uid) = some row := by
    cases search : db.memos.find? fun memo => memo.uid = row.uid with
    | none => exact absurd (decide_eq_true rfl) (List.find?_eq_none.mp search row rowStored)
    | some first =>
        have firstUid : first.uid = row.uid := of_decide_eq_true (List.find?_some search :)
        rw [eq_of_nodup_map keyed.memoUids (List.mem_of_find?_eq_some search) rowStored firstUid]
  rw [askedFor_eq_some, other, extracted]
  constructor
  · rintro ⟨notOwn, notComment, uid, named, first, search, rfl⟩
    rw [← Except.ok.inj named, found] at search
    cases search
    have reference : relation.type = .reference := by
      rw [← tells.type]
      exact typeFromStore_reference notComment
    have outgoing : relation.memoId = joined.memo.ref.id := shown.isEnd.resolve_right notOwn
    refine ⟨?_, ⟨outgoing, reference⟩, notOwn⟩
    rw [rowId, ← reference, ← outgoing]
  · rintro ⟨rfl, ⟨outgoing, reference⟩, notOwn⟩
    refine ⟨notOwn, ?_, row.uid, rfl, row, found, ?_⟩
    · intro comment
      rw [inputOf, typeFromStore_eq_comment, tells.type, reference] at comment
      cases comment
    · rw [← outgoing, ← reference, rowId]

/-- Every item of a returned list is skipped or names a memo. -/
theorem resolvable_inputOf (plain : forall memo, memo ∈ db.memos -> PlainUid memo.uid)
    (tellsAll : TellsAll db user joined.memo messages) {input : RelationInput}
    (member : input ∈ messages.map inputOf) : Resolvable db.memos joined.memo.ref input := by
  rcases List.mem_map.mp member with ⟨message, inside, rfl⟩
  rcases tellsAll.sound message inside with ⟨relation, _, tells⟩
  rcases tells.target with ⟨row, rowStored, _, _, sameUid⟩
  refine .inr (.inr ⟨row, rowStored, ?_⟩)
  rw [inputOf, sameUid]
  exact extractMemoUIDFromName_buildMemoName (plain row rowStored)

/-- The outgoing references after the request are those that the user is shown
and that lead to another memo. -/
theorem mem_rewritten_messages {relation : MemoRelation} (keyed : db.Keyed)
    (plain : forall memo, memo ∈ db.memos -> PlainUid memo.uid) (stored : joined.memo ∈ db.memos)
    (tellsAll : TellsAll db user joined.memo messages) :
    relation ∈ rewritten db.memos joined.memo.ref (messages.map inputOf) db.relations ↔
      relation ∈ db.relations ∧ (OwnReference joined.memo.ref relation ->
        relation.relatedMemoId ≠ joined.memo.id ∧ Shown db user joined.memo relation) := by
  rw [mem_rewritten]
  constructor
  · rintro (⟨inTable, foreign⟩ | ⟨input, member, asked⟩)
    · exact ⟨inTable, fun own => absurd own foreign⟩
    · rcases List.mem_map.mp member with ⟨message, inside, rfl⟩
      rcases tellsAll.sound message inside with ⟨other, shown, tells⟩
      rcases (askedFor_inputOf keyed plain stored shown tells).mp asked with ⟨rfl, _, notOwn⟩
      exact ⟨shown.stored, fun _ => ⟨notOwn, shown⟩⟩
  · rintro ⟨inTable, kept⟩
    by_cases own : OwnReference joined.memo.ref relation
    · rcases kept own with ⟨notOwn, shown⟩
      rcases tellsAll.complete relation shown with ⟨message, inside, tells⟩
      exact .inr ⟨_, List.mem_map_of_mem inside,
        (askedFor_inputOf keyed plain stored shown tells).mpr ⟨rfl, own, notOwn⟩⟩
    · exact .inl ⟨inTable, own⟩

/-- The rows are the same exactly if every outgoing reference is shown and
leads to another memo. -/
theorem sameRows_iff (keyed : db.Keyed) (plain : forall memo, memo ∈ db.memos -> PlainUid memo.uid)
    (stored : joined.memo ∈ db.memos) (tellsAll : TellsAll db user joined.memo messages) :
    SameRows (rewritten db.memos joined.memo.ref (messages.map inputOf) db.relations) db.relations ↔
      Recoverable db user joined.memo := by
  have members := fun relation : MemoRelation =>
    @mem_rewritten_messages db user joined messages relation keyed plain stored tellsAll
  constructor
  · intro same relation inTable own
    rcases ((members relation).mp ((same relation).mpr inTable)).2 own with ⟨notOwn, shown⟩
    refine ⟨notOwn, ?_, shown.target⟩
    rcases shown.source with ⟨memo, memoStored, memoId, readable⟩
    rw [eq_of_nodup_map keyed.memoIds memoStored stored (memoId.trans own.1)] at readable
    exact readable
  · intro recoverable relation
    rw [members]
    refine and_iff_left_of_imp fun inTable own => ?_
    rcases recoverable relation inTable own with ⟨notOwn, readable, target⟩
    exact ⟨notOwn, inTable, .inl own.1, ⟨joined.memo, stored, own.1.symm, readable⟩, target⟩

/-- The condition is needed. -/
theorem recoverable_of_survives (keyed : db.Keyed) (plain : forall memo, memo ∈ db.memos -> PlainUid memo.uid)
    (reads : ReadsMemoFilter env (some user)) (edits : MayEdit db userId name user joined)
    (survives : Survives env now db userId name joined.memo) : Recoverable db user joined.memo := by
  rcases @exists_listMemoRelations env now db userId user name joined keyed reads edits.caller
    edits.named edits.found with ⟨messages, listed, tells⟩
  have returned : Returned env now db userId joined.memo messages := .listed edits.named listed
  have responds : forall db memo, quietBackend.respond db memo = .ok () := fun _ _ => rfl
  rcases survives.completes messages quietBackend .setMemoRelations returned responds trivial with
    ⟨after, ran⟩
  have same := survives.unchanged messages quietBackend .setMemoRelations [] after returned trivial ran
  have masked : Rewrite.setMemoRelations.HasRelations := trivial
  have set := run_relationsSet keyed masked edits ran
  rw [set.relations] at same
  exact (sameRows_iff keyed plain edits.stored tells).mp same

/-- The condition is enough. -/
theorem survives_of_recoverable (keyed : db.Keyed) (plain : forall memo, memo ∈ db.memos -> PlainUid memo.uid)
    (reads : ReadsMemoFilter env (some user)) (edits : MayEdit db userId name user joined)
    (recoverable : Recoverable db user joined.memo) :
    Survives env now db userId name joined.memo := by
  have tellsAll : forall {messages}, Returned env now db userId joined.memo messages ->
      TellsAll db user joined.memo messages :=
    fun returned => returned.tellsAll keyed reads edits.caller edits.found
  refine ⟨?_, ?_, ?_⟩
  · intro messages backend rewrite returned responds only
    have resolvable : forall input, input ∈ messages.map inputOf ->
        Resolvable db.memos joined.memo.ref input :=
      fun input member => resolvable_inputOf plain (tellsAll returned) member
    exact rewrite_quiet keyed responds edits resolvable only
  · intro messages backend rewrite plans after returned masked ran
    have set := run_relationsSet keyed masked edits ran
    rw [set.relations]
    exact (sameRows_iff keyed plain edits.stored (tellsAll returned)).mpr recoverable
  · intro inputs backend other rewrite plans more middle after masked ran again
    exact run_twice keyed masked edits ran again

/-- The relations survive the round trip exactly if every outgoing reference
leads to another memo and the user reads both. -/
theorem survives_iff (keyed : db.Keyed) (plain : forall memo, memo ∈ db.memos -> PlainUid memo.uid)
    (reads : ReadsMemoFilter env (some user)) (edits : MayEdit db userId name user joined) :
    Survives env now db userId name joined.memo ↔ Recoverable db user joined.memo :=
  ⟨recoverable_of_survives keyed plain reads edits, survives_of_recoverable keyed plain reads edits⟩

end RoundTrip

/-! ## A reference to a memo of another user -/

/-- A memo of the second user. -/
def referredMemo (visibility : Visibility) : Memo :=
  { privateMemo with id := 2, uid := "other", creatorId := 2, visibility }

/-- The memo of the first user refers to it. -/
def referringDatabase (visibility : Visibility) : Database where
  users := [alice]
  memos := [privateMemo, referredMemo visibility]
  relations := [⟨1, 2, .reference⟩]

theorem referringDatabase_keyed (visibility : Visibility) : (referringDatabase visibility).Keyed := by
  constructor
  · change [1, 2].Nodup
    decide
  · change ["secret", "other"].Nodup
    decide

theorem referringDatabase_plain (visibility : Visibility) (memo : Memo)
    (stored : memo ∈ (referringDatabase visibility).memos) : PlainUid memo.uid := by
  rcases List.mem_pair.mp stored with rfl | rfl
  · exact ⟨by decide, by decide⟩
  · change PlainUid "other"
    exact ⟨by decide, by decide⟩

theorem wideningEnvironment_reads : ReadsMemoFilter wideningEnvironment (some alice) := rfl

theorem exists_mayEdit (visibility : Visibility) : Exists fun joined => joined.memo = privateMemo ∧
    MayEdit (referringDatabase visibility) 1 (buildMemoName "secret") alice joined := by
  rcases exists_memoByUid (referringDatabase_keyed visibility) List.mem_cons_self with
    ⟨joined, found, same⟩
  have uid : joined.memo.uid = "secret" := by
    rw [same]
    rfl
  refine ⟨joined, same, rfl, ?_, ?_, ?_⟩
  · rw [uid]
    exact extractMemoUIDFromName_buildMemoName ⟨by decide, by decide⟩
  · rw [uid]
    exact found
  · rw [same]
    rfl

/-- The reference is lost once the other memo is private. -/
theorem hiddenReference_lost : Exists fun joined => joined.memo = privateMemo ∧
    MayEdit (referringDatabase .isPrivate) 1 (buildMemoName "secret") alice joined ∧
    ¬ Survives wideningEnvironment 0 (referringDatabase .isPrivate) 1 (buildMemoName "secret")
      privateMemo := by
  rcases exists_mayEdit .isPrivate with ⟨joined, same, edits⟩
  refine ⟨joined, same, edits, fun survives => ?_⟩
  rw [← same] at survives
  have recoverable := recoverable_of_survives (referringDatabase_keyed _) (referringDatabase_plain _)
    wideningEnvironment_reads edits survives
  rw [same] at recoverable
  rcases (recoverable ⟨1, 2, .reference⟩ (List.mem_singleton_self _) ⟨rfl, rfl⟩).2.2 with
    ⟨memo, stored, sameId, readable⟩
  rcases List.mem_pair.mp stored with rfl | rfl
  · cases sameId
  · exact absurd readable (by decide)

/-- A public memo stays referred to. -/
theorem publicReference_kept : Survives wideningEnvironment 0 (referringDatabase .isPublic) 1
    (buildMemoName "secret") privateMemo := by
  rcases exists_mayEdit .isPublic with ⟨joined, same, edits⟩
  have survives := (@survives_iff wideningEnvironment 0 (referringDatabase .isPublic) 1
    (buildMemoName "secret") alice joined (referringDatabase_keyed _) (referringDatabase_plain _)
    wideningEnvironment_reads edits).mpr
  rw [same] at survives
  refine survives fun relation inTable own => ?_
  rw [List.mem_singleton.mp inTable]
  refine ⟨by decide, .inl rfl, referredMemo .isPublic, List.mem_cons_of_mem _ List.mem_cons_self, rfl,
    .inr (.inl rfl)⟩

end MemoRelations
end Service
end Memos
