import Memos.Service.Access

namespace Memos
namespace Service

open Library Memos.Filter Store

/-!
# What the read paths disclose

Whatever a path returns of a memo, the visibility of the memo admits the
caller: this much all paths have in common.  The rule of `GetMemo` asks for
more, namely that an archived memo goes to its creator only and that the
parent of a comment admits the caller as well.  The lists of attachments and
of reactions ask for the visibility alone, so the paths agree with `GetMemo`
exactly on the memos for which the visibility already decides.
-/

variable (env : Environment) (now : Int) (db : Database) (userId : Nat)

/-- A request that may return data of a memo. -/
inductive ReadPath where
  | getMemo (name : String)
  | comments (name : String) (limit offset : Nat)
  | attachments (name : String)
  | reactions (name : String)
  | relations (name : String)
  /-- The relations that responses with these memos carry. -/
  | related (includeSnippets : Bool) (memos : List Memo)

/-- A request succeeds and its response has data of the memo. -/
def Discloses (memo : Memo) : ReadPath -> Prop
  | .getMemo name => Exists fun message =>
      getMemo env now db userId name = .ok message ∧ message.memo = memo
  | .comments name limit offset => Exists fun memos =>
      listMemoComments env now db userId name limit offset = .ok memos ∧ memo ∈ memos
  | .attachments name => extractMemoUIDFromName name = .ok memo.uid ∧
      Exists fun list => listMemoAttachments env now db userId name = .ok list
  | .reactions name => extractMemoUIDFromName name = .ok memo.uid ∧
      Exists fun list => listMemoReactions env now db userId name = .ok list
  | .relations name => Exists fun messages =>
      listMemoRelations env now db userId name = .ok messages ∧
        Exists fun message => message ∈ messages ∧
          (message.memo.id = memo.id ∨ message.relatedMemo.id = memo.id)
  | .related includeSnippets memos => Exists fun messages =>
      batchConvertMemoRelations env now db userId includeSnippets memos = .ok messages ∧
        Exists fun message => message ∈ messages ∧
          (message.memo.id = memo.id ∨ message.relatedMemo.id = memo.id)

/-! ## The rule -/

/-- The caller wrote the memo. -/
def OwnedBy (memo : Memo) : Prop :=
  Exists fun user => fetchCurrentUser db userId = .ok (some user) ∧ memo.creatorId = user.id

/-- The rule of `GetMemo` for one memo, with administrators admitted to
private memos. -/
def AdmitsAlone (memo : Memo) : Prop :=
  checkMemoReadAccess db userId memo = .ok () ∨
    (memo.rowStatus = .normal ∧ memo.visibility = .isPrivate ∧
      Exists fun user => fetchCurrentUser db userId = .ok (some user) ∧ user.role = .admin)

/-- The parent of a comment exists and is admitted. -/
def ParentAdmits (memo : Memo) : Prop :=
  forall joined uid, memoByUid db memo.uid = some joined -> joined.parentUid = some uid ->
    Exists fun parent => memoByUid db uid = some parent ∧ AdmitsAlone db userId parent.memo

/-- The rule of `GetMemo`. -/
structure Admits (memo : Memo) : Prop where
  self : AdmitsAlone db userId memo
  parent : ParentAdmits db userId memo

/-- The visibility test that every path makes at least. -/
def VisibilityAdmits (memo : Memo) : Prop :=
  checkVisibility (currentUser db userId) (refusedUnlessSuperUser memo) memo = .ok ()

variable {env now db userId}

theorem checkVisibility_eq_ok {caller : Except Status (Option User)} {refused : User -> Bool} {memo : Memo} :
    checkVisibility caller refused memo = .ok () ↔
      memo.visibility = .isPublic ∨ Exists fun user =>
        caller = .ok (some user) ∧ (memo.visibility = .isPrivate -> refused user = false) := by
  unfold checkVisibility
  by_cases isPublic : memo.visibility = .isPublic
  · rw [if_pos isPublic]
    exact ⟨fun _ => .inl isPublic, fun _ => rfl⟩
  · rw [if_neg isPublic]
    constructor
    · intro success
      cases found : caller with
      | error status => rw [found] at success; cases success
      | ok viewer =>
          cases viewer with
          | none => rw [found] at success; cases success
          | some user =>
              rw [found] at success
              refine .inr ⟨user, rfl, ?_⟩
              intro isPrivate
              cases denied : refused user with
              | false => rfl
              | true =>
                  simp only [isPrivate, denied, and_self, if_true] at success
                  cases success
    · rintro (impossible | ⟨user, rfl, accepted⟩)
      · exact absurd impossible isPublic
      · have notRefused : ¬ (memo.visibility = .isPrivate ∧ refused user = true) := by
          rintro ⟨isPrivate, denied⟩
          rw [accepted isPrivate] at denied
          cases denied
        simp only [if_neg notRefused]

theorem refusedUnlessSuperUser_eq_false {memo : Memo} {user : User} :
    refusedUnlessSuperUser memo user = false ↔ memo.creatorId = user.id ∨ user.role = .admin := by
  simp [refusedUnlessSuperUser, isSuperUser, Decidable.or_iff_not_imp_left]

theorem visibilityAdmits_iff {memo : Memo} :
    VisibilityAdmits db userId memo ↔
      memo.visibility = .isPublic ∨ Exists fun user =>
        fetchCurrentUser db userId = .ok (some user) ∧
          (memo.visibility = .isPrivate -> memo.creatorId = user.id ∨ user.role = .admin) := by
  unfold VisibilityAdmits
  rw [checkVisibility_eq_ok]
  simp only [currentUser_eq_ok, refusedUnlessSuperUser_eq_false]

theorem checkArchived_eq_ok {memo : Memo} :
    checkArchived db userId memo = .ok () ↔
      (memo.rowStatus = .archived -> OwnedBy db userId memo) := by
  unfold checkArchived
  by_cases archived : memo.rowStatus = .archived
  · rw [if_pos archived]
    constructor
    · intro success _
      cases found : currentUser db userId with
      | error status => rw [found] at success; cases success
      | ok viewer =>
          cases viewer with
          | none => rw [found] at success; cases success
          | some user =>
              rw [found] at success
              refine ⟨user, currentUser_eq_ok.mp found, ?_⟩
              by_contra other
              simp only [if_neg other] at success
              cases success
    · intro owned
      rcases owned archived with ⟨user, caller, creator⟩
      rw [currentUser_eq_ok.mpr caller]
      simp only [if_pos creator]
  · rw [if_neg archived]
    exact ⟨fun _ impossible => absurd impossible archived, fun _ => rfl⟩

theorem checkMemoReadAccess_eq_ok {memo : Memo} :
    checkMemoReadAccess db userId memo = .ok () ↔
      (memo.rowStatus = .archived -> OwnedBy db userId memo) ∧
      (memo.visibility = .isPublic ∨ Exists fun user =>
        fetchCurrentUser db userId = .ok (some user) ∧
          (memo.visibility = .isPrivate -> memo.creatorId = user.id)) := by
  have creator : forall user : User, decide (memo.creatorId ≠ user.id) = false ↔
      memo.creatorId = user.id := by
    intro user
    simp
  constructor
  · intro success
    rcases bind_eq_ok.mp success with ⟨_, archived, visible⟩
    have both := checkVisibility_eq_ok.mp visible
    simp only [currentUser_eq_ok, creator] at both
    exact ⟨checkArchived_eq_ok.mp archived, both⟩
  · rintro ⟨archived, visible⟩
    refine bind_eq_ok.mpr ⟨(), checkArchived_eq_ok.mpr archived, ?_⟩
    apply checkVisibility_eq_ok.mpr
    simp only [currentUser_eq_ok, creator]
    exact visible

/-- The rule for one memo is its visibility together with the archive rule. -/
theorem admitsAlone_iff {memo : Memo} :
    AdmitsAlone db userId memo ↔
      VisibilityAdmits db userId memo ∧
        (memo.rowStatus = .archived -> OwnedBy db userId memo) := by
  unfold AdmitsAlone
  rw [checkMemoReadAccess_eq_ok, visibilityAdmits_iff]
  constructor
  · rintro (⟨archived, visible⟩ | ⟨normal, _, user, caller, admin⟩)
    · refine ⟨?_, archived⟩
      rcases visible with isPublic | ⟨user, caller, creator⟩
      · exact .inl isPublic
      · exact .inr ⟨user, caller, fun isPrivate => .inl (creator isPrivate)⟩
    · refine ⟨.inr ⟨user, caller, fun _ => .inr admin⟩, ?_⟩
      intro archived
      rw [normal] at archived
      cases archived
  · rintro ⟨isPublic | ⟨user, caller, accepted⟩, archived⟩
    · exact .inl ⟨archived, .inl isPublic⟩
    · by_cases creator : memo.creatorId = user.id
      · exact .inl ⟨archived, .inr ⟨user, caller, fun _ => creator⟩⟩
      · by_cases isPrivate : memo.visibility = .isPrivate
        · -- An administrator who is not the creator sees no archived memo.
          refine .inr ⟨?_, isPrivate, user, caller, ?_⟩
          · cases status : memo.rowStatus with
            | normal => rfl
            | archived =>
                rcases archived status with ⟨owner, sameCaller, own⟩
                rw [caller] at sameCaller
                cases sameCaller
                exact absurd own creator
          · exact (accepted isPrivate).resolve_left creator
        · exact .inl ⟨archived, .inr ⟨user, caller, fun impossible => absurd impossible isPrivate⟩⟩

/-! ## Filtered relations -/

/-- The expression of the text that restricts relations. -/
def memoFilterExpr (viewer : Option User) : Expr :=
  match viewer with
  | none =>
      .callExpr none "_==_" [.identExpr "visibility", .constExpr (.stringValue "PUBLIC")]
  | some user => visibilityExpr user.id

/-- The CEL parser reads the restricting text of this caller. -/
def ReadsMemoFilter (env : Environment) (viewer : Option User) : Prop :=
  env.celCompile (memoFilterText viewer) = .ok (memoFilterExpr viewer)

/-- Whoever the caller is. -/
def ReadsMemoFilters (env : Environment) (db : Database) (userId : Nat) : Prop :=
  forall viewer, fetchCurrentUser db userId = .ok viewer -> ReadsMemoFilter env viewer

/-- The restricting text with its literals. -/
def memoFilterSql (viewer : Option User) : SqlCondition Arg :=
  match viewer with
  | none => .compare .eq (.column ⟨"memo", "visibility"⟩) (.param (.string "PUBLIC"))
  | some user => visibilitySql user.id

variable {viewer : Option User} {relation : MemoRelation} {name : String} {message : RelationMessage}

theorem statement_memoFilter (reads : ReadsMemoFilter env viewer) :
    Exists fun statement =>
      env.engine.compileToStatement now (memoFilterText viewer) .sqlite 0 = .ok statement ∧
        statement.sql.isEmpty = false ∧
        statement.sql.params.map Placeholder.literal = statement.args ∧
        statement.sql.map Placeholder.literal = memoFilterSql viewer := by
  cases viewer with
  | none =>
      unfold Engine.compileToStatement Engine.compile
      have notBlank : (memoFilterText none).toList.all isSpace = false := rfl
      rw [notBlank]
      simp only [Environment.engine, ReadsMemoFilter] at reads ⊢
      simp only [reads]
      exact ⟨_, rfl, rfl, rfl, rfl⟩
  | some user =>
      have compiled : env.engine.compile now (visibilityFilter user.id) = _ :=
        compile_visibilityFilter reads now
      unfold Engine.compileToStatement
      simp only [memoFilterText, compiled]
      exact ⟨_, rfl, rfl, rfl, rfl⟩

/-- The two ends of a relation are tested against the ids that the
restricting text leaves. -/
theorem memoFilterTest_of_ids {ids : List Nat} (reads : ReadsMemoFilter env viewer)
    (selected : selectMemoIds env.rules db (memoFilterSql viewer) = .ok ids) :
    memoFilterTest env.engine env.rules now db (memoFilterText viewer) = .ok fun relation =>
      ids.contains relation.memoId && ids.contains relation.relatedMemoId := by
  rcases statement_memoFilter reads with ⟨statement, compiled, nonempty, literals, sql⟩
  have both := bindAll_literals [statement.sql, statement.sql] []
  simp only [List.flatMap_cons, List.flatMap_nil, List.append_nil, List.map_append, literals,
    List.map_cons, List.map_nil, sql] at both
  rw [memoFilterTest, compiled]
  simp only [ok_bind, nonempty, Bool.false_eq_true, if_false, both, selected]
  rfl

theorem visible_of_memoFilterSql {rules : TextRules} {memo : Memo} (caller : fetchCurrentUser db userId = .ok viewer)
    (holds : (memoFilterSql viewer).eval rules .sqlite (JoinedMemo.row ⟨memo, none, none⟩) =
      .ok .yes) : VisibilityAdmits db userId memo := by
  apply visibilityAdmits_iff.mpr
  cases viewer with
  | none => exact .inl (Visibility.string_injective (orderTruth_yes holds))
  | some user =>
      refine .inr ⟨user, caller, ?_⟩
      intro isPrivate
      rcases visibilitySql_yes holds with own | notPrivate
      · exact .inl own
      · exact absurd isPrivate notPrivate

/-- Both ends of a restricted relation are visible to the caller. -/
theorem listMemoRelations_visible {find : FindMemoRelation} {relations : List MemoRelation} (keyed : db.Keyed)
    (caller : fetchCurrentUser db userId = .ok viewer) (reads : ReadsMemoFilter env viewer)
    (filtered : find.memoFilter = some (memoFilterText viewer))
    (success : Store.listMemoRelations env.engine env.rules now db find = .ok relations)
    (member : relation ∈ relations) {memo : Memo} (stored : memo ∈ db.memos)
    (isEnd : memo.id = relation.memoId ∨ memo.id = relation.relatedMemoId) :
    VisibilityAdmits db userId memo := by
  rcases listMemoRelations_sound filtered success with ⟨test, tested, sound⟩
  rcases statement_memoFilter reads with ⟨statement, compiled, nonempty, literals, sql⟩
  rcases memoFilterTest_sound compiled nonempty literals tested (sound relation member).2.2
    memo.id isEnd with ⟨other, otherStored, sameId, holds⟩
  have same := eq_of_nodup_map keyed.memoIds otherStored stored sameId
  rw [sql, same] at holds
  exact visible_of_memoFilterSql caller holds

/-! ## Every path makes the visibility test -/

theorem memoOfName_eq_ok {code : Code} {context name : String} {joined : JoinedMemo}
    (keyed : db.Keyed) (success : memoOfName env now db code context name = .ok joined) :
    Exists fun uid => extractMemoUIDFromName name = .ok uid ∧ memoByUid db uid = some joined := by
  rcases bind_eq_ok.mp success with ⟨uid, extracted, continued⟩
  rcases bind_eq_ok.mp continued with ⟨found, queried, finished⟩
  have lookup := orStatus_eq_ok queried
  rw [getMemo_uid _ _ _ keyed] at lookup
  cases lookup
  refine ⟨uid, orStatus_eq_ok extracted, ?_⟩
  cases row : memoByUid db uid with
  | none => rw [row] at finished; cases finished
  | some other =>
      rw [row] at finished
      cases finished
      rfl

theorem visible_of_readAccess {memo : Memo}
    (success : checkMemoReadAccess db userId memo = .ok ()) : VisibilityAdmits db userId memo :=
  (admitsAlone_iff.mp (.inl success)).1

variable {memo : Memo}

theorem getMemo_visible {message : MemoMessage} (success : getMemo env now db userId name = .ok message) :
    VisibilityAdmits db userId message.memo := by
  rcases bind_eq_ok.mp success with ⟨joined, _, checking⟩
  rcases bind_eq_ok.mp checking with ⟨_, accessed, parents⟩
  rcases bind_eq_ok.mp parents with ⟨_, _, loading⟩
  rcases bind_eq_ok.mp loading with ⟨relations, _, finished⟩
  split at finished
  · cases finished
    exact visible_of_readAccess accessed
  · cases finished

theorem listMemoComments_visible {limit offset : Nat} {memos : List Memo} (keyed : db.Keyed)
    (reads : ReadsMemoFilters env db userId)
    (success : listMemoComments env now db userId name limit offset = .ok memos) (stored : memo ∈ db.memos)
    (member : memo ∈ memos) : VisibilityAdmits db userId memo := by
  rcases bind_eq_ok.mp success with ⟨joined, _, checking⟩
  rcases bind_eq_ok.mp checking with ⟨_, _, identifying⟩
  rcases bind_eq_ok.mp identifying with ⟨viewer, caller, listing⟩
  rw [currentUser_eq_ok] at caller
  rcases bind_eq_ok.mp listing with ⟨relations, listed, continued⟩
  split at continued
  · cases continued
    cases member
  · rename_i nonempty
    rcases bind_eq_ok.mp continued with ⟨rows, queried, finished⟩
    cases finished
    rcases List.mem_map.mp member with ⟨comment, kept, rfl⟩
    have inRows := (List.mem_filter.mp kept).1
    have noFilters : AllBind env.engine now .sqlite [] :=
      fun _ impossible => absurd impossible List.not_mem_nil
    rcases listMemos_sound noFilters (orStatus_eq_ok queried) comment inRows with
      ⟨row, _, same, _, pushes⟩
    have ids := (FindMemo.meets_of_pushes pushes).idList
      (fun empty => nonempty (List.isEmpty_iff.mpr (List.map_eq_nil_iff.mp empty)))
    have sameId : comment.memo.id = row.memo.id := by
      rcases same with rfl | rfl <;> rfl
    rcases List.mem_map.mp ids with ⟨relation, inPage, isEnd⟩
    have inList : relation ∈ relations := by
      unfold pageOfRelations at inPage
      split at inPage
      · exact List.mem_of_mem_take inPage
      · exact inPage
    exact listMemoRelations_visible keyed caller (reads viewer caller) rfl (orStatus_eq_ok listed)
      inList stored (.inl (sameId.trans isEnd.symm))

/-- The memo that a handler finds under a name is the stored one. -/
theorem memo_of_memoOfName {code : Code} {context name : String} {joined : JoinedMemo} (keyed : db.Keyed)
    (named : extractMemoUIDFromName name = .ok memo.uid) (stored : memo ∈ db.memos)
    (found : memoOfName env now db code context name = .ok joined) : joined.memo = memo := by
  rcases memoOfName_eq_ok keyed found with ⟨uid, extracted, lookup⟩
  rw [named] at extracted
  cases extracted
  rcases exists_memoByUid keyed stored with ⟨row, sameLookup, same⟩
  rw [lookup] at sameLookup
  cases sameLookup
  exact same

theorem listMemoAttachments_visible {list : List Attachment} (keyed : db.Keyed)
    (named : extractMemoUIDFromName name = .ok memo.uid) (stored : memo ∈ db.memos)
    (success : listMemoAttachments env now db userId name = .ok list) :
    VisibilityAdmits db userId memo := by
  rcases bind_eq_ok.mp success with ⟨joined, found, checking⟩
  rcases bind_eq_ok.mp checking with ⟨_, visible, _⟩
  rw [memo_of_memoOfName keyed named stored found] at visible
  apply checkVisibility_eq_ok.mpr
  rcases checkVisibility_eq_ok.mp visible with isPublic | ⟨user, caller, accepted⟩
  · exact .inl isPublic
  · exact .inr ⟨user, currentUser_eq_ok.mpr (orStatus_eq_ok caller), accepted⟩

theorem listMemoReactions_visible {list : List Reaction} (keyed : db.Keyed)
    (named : extractMemoUIDFromName name = .ok memo.uid) (stored : memo ∈ db.memos)
    (success : listMemoReactions env now db userId name = .ok list) :
    VisibilityAdmits db userId memo := by
  rcases bind_eq_ok.mp success with ⟨joined, found, checking⟩
  rcases bind_eq_ok.mp checking with ⟨_, visible, _⟩
  rw [memo_of_memoOfName keyed named stored found] at visible
  exact visible

theorem convertMemoRelationFromStore_ids (keyed : db.Keyed)
    (success : convertMemoRelationFromStore env now db relation = .ok message) :
    message.memo.id = relation.memoId ∧ message.relatedMemo.id = relation.relatedMemoId := by
  unfold convertMemoRelationFromStore at success
  rw [getMemo_id _ _ _ keyed, getMemo_id _ _ _ keyed] at success
  simp only [bind, Except.bind] at success
  cases first : memoById db relation.memoId with
  | none => rw [first] at success; cases success
  | some source =>
      cases second : memoById db relation.relatedMemoId with
      | none => rw [first, second] at success; cases success
      | some target =>
          rw [first, second] at success
          cases success
          exact ⟨(memoById_eq_some first).2, (memoById_eq_some second).2⟩

/-- The ends of a relation that is listed either way are visible. -/
theorem ends_visible {outFind inFind : FindMemoRelation} {outgoing incoming : List MemoRelation} (keyed : db.Keyed)
    (caller : fetchCurrentUser db userId = .ok viewer) (reads : ReadsMemoFilter env viewer)
    (outFiltered : outFind.memoFilter = some (memoFilterText viewer))
    (inFiltered : inFind.memoFilter = some (memoFilterText viewer))
    (outListed : Store.listMemoRelations env.engine env.rules now db outFind = .ok outgoing)
    (inListed : Store.listMemoRelations env.engine env.rules now db inFind = .ok incoming)
    (listed : relation ∈ outgoing ∨ relation ∈ incoming)
    (ids : message.memo.id = relation.memoId ∧ message.relatedMemo.id = relation.relatedMemoId)
    (stored : memo ∈ db.memos) (isEnd : message.memo.id = memo.id ∨ message.relatedMemo.id = memo.id) :
    VisibilityAdmits db userId memo := by
  have relationEnd : memo.id = relation.memoId ∨ memo.id = relation.relatedMemoId := by
    rcases isEnd with same | same
    · exact .inl (same.symm.trans ids.1)
    · exact .inr (same.symm.trans ids.2)
  rcases listed with out | inc
  · exact listMemoRelations_visible keyed caller reads outFiltered outListed out stored relationEnd
  · exact listMemoRelations_visible keyed caller reads inFiltered inListed inc stored relationEnd

theorem listMemoRelations_disclosed_visible {messages : List RelationMessage} (keyed : db.Keyed)
    (reads : ReadsMemoFilters env db userId) (success : listMemoRelations env now db userId name = .ok messages)
    (member : message ∈ messages) (stored : memo ∈ db.memos)
    (isEnd : message.memo.id = memo.id ∨ message.relatedMemo.id = memo.id) :
    VisibilityAdmits db userId memo := by
  rcases bind_eq_ok.mp success with ⟨joined, _, identifying⟩
  rcases bind_eq_ok.mp identifying with ⟨viewer, caller, listing⟩
  rw [currentUser_eq_ok] at caller
  rcases bind_eq_ok.mp listing with ⟨outgoing, outListed, continued⟩
  rcases bind_eq_ok.mp continued with ⟨incoming, inListed, converting⟩
  rcases exists_of_mem_mapM (orStatus_eq_ok converting) member with ⟨relation, inBoth, converted⟩
  exact ends_visible keyed caller (reads viewer caller) rfl rfl (orStatus_eq_ok outListed)
    (orStatus_eq_ok inListed) (List.mem_append.mp inBoth) (convertMemoRelationFromStore_ids keyed converted)
    stored isEnd

theorem relationMessage_ids {known : List Memo} (built : relationMessage known relation = some message) :
    message.memo.id = relation.memoId ∧ message.relatedMemo.id = relation.relatedMemoId := by
  rcases Option.bind_eq_some_iff.mp built with ⟨source, sourceFound, continued⟩
  rcases Option.bind_eq_some_iff.mp continued with ⟨target, targetFound, finished⟩
  cases finished
  have sourceKept := List.find?_some sourceFound
  have targetKept := List.find?_some targetFound
  exact ⟨of_decide_eq_true sourceKept, of_decide_eq_true targetKept⟩

theorem batchConvertMemoRelations_visible {includeSnippets : Bool} {memos : List Memo}
    {messages : List RelationMessage} (keyed : db.Keyed) (reads : ReadsMemoFilters env db userId)
    (success : batchConvertMemoRelations env now db userId includeSnippets memos = .ok messages)
    (member : message ∈ messages) (stored : memo ∈ db.memos)
    (isEnd : message.memo.id = memo.id ∨ message.relatedMemo.id = memo.id) :
    VisibilityAdmits db userId memo := by
  unfold batchConvertMemoRelations at success
  split at success
  · cases success
    cases member
  · rcases bind_eq_ok.mp success with ⟨viewer, caller, listing⟩
    rcases bind_eq_ok.mp listing with ⟨outgoing, outListed, continued⟩
    rcases bind_eq_ok.mp continued with ⟨incoming, inListed, fetching⟩
    rcases bind_eq_ok.mp fetching with ⟨known, _, finished⟩
    cases finished
    rcases List.mem_filterMap.mp member with ⟨relation, merged, built⟩
    have inEither : relation ∈ outgoing ∨ relation ∈ incoming := by
      have flat := List.mem_eraseDups.mp merged
      simpa using flat
    exact ends_visible keyed caller (reads viewer caller) rfl rfl outListed inListed inEither
      (relationMessage_ids built) stored isEnd

/-- Whatever the path, a disclosed memo is visible to the caller. -/
theorem discloses_visible {path : ReadPath} (keyed : db.Keyed)
    (reads : ReadsMemoFilters env db userId) (stored : memo ∈ db.memos)
    (discloses : Discloses env now db userId memo path) : VisibilityAdmits db userId memo := by
  cases path with
  | getMemo name =>
      rcases discloses with ⟨message, success, rfl⟩
      exact getMemo_visible success
  | comments name limit offset =>
      rcases discloses with ⟨memos, success, member⟩
      exact listMemoComments_visible keyed reads success stored member
  | attachments name =>
      rcases discloses with ⟨named, list, success⟩
      exact listMemoAttachments_visible keyed named stored success
  | reactions name =>
      rcases discloses with ⟨named, list, success⟩
      exact listMemoReactions_visible keyed named stored success
  | relations name =>
      rcases discloses with ⟨messages, success, message, member, isEnd⟩
      exact listMemoRelations_disclosed_visible keyed reads success member stored isEnd
  | related includeSnippets memos =>
      rcases discloses with ⟨messages, success, message, member, isEnd⟩
      exact batchConvertMemoRelations_visible keyed reads success member stored isEnd

/-- The list of attachments asks for no more than the visibility. -/
theorem listMemoAttachments_discloses (keyed : db.Keyed) (named : extractMemoUIDFromName name = .ok memo.uid)
    (stored : memo ∈ db.memos) (visible : VisibilityAdmits db userId memo) :
    Discloses env now db userId memo (.attachments name) := by
  rcases exists_memoByUid keyed stored with ⟨joined, lookup, rfl⟩
  refine ⟨named, listAttachments db joined.memo.id, ?_⟩
  have found : memoOfName env now db .internal "failed to get memo: " name = .ok joined := by
    have queried := getMemo_uid env.engine env.rules now keyed joined.memo.uid
    rw [lookup] at queried
    unfold memoOfName
    simp only [named, orStatus, bind, Except.bind, queried]
    rfl
  have passes : checkVisibility
      (orStatus .internal "failed to get user: " (fetchCurrentUser db userId))
      (refusedUnlessSuperUser joined.memo) joined.memo = .ok () := by
    apply checkVisibility_eq_ok.mpr
    rcases checkVisibility_eq_ok.mp visible with isPublic | ⟨user, caller, accepted⟩
    · exact .inl isPublic
    · refine .inr ⟨user, ?_, accepted⟩
      rw [currentUser_eq_ok.mp caller]
      rfl
  unfold listMemoAttachments
  rw [found]
  simp only [bind, Except.bind, passes]
  rfl

/-! ## Agreement -/

/-- The paths disclose a memo only as `GetMemo` would exactly when, for a
caller whom the visibility of the memo admits, the archive rule and the parent
admit the caller too. -/
theorem disclosure_agreement (keyed : db.Keyed) (reads : ReadsMemoFilters env db userId)
    (stored : memo ∈ db.memos) (plain : PlainUid memo.uid) :
    (forall path, Discloses env now db userId memo path -> Admits db userId memo) ↔
      (VisibilityAdmits db userId memo ->
        (memo.rowStatus = .archived -> OwnedBy db userId memo) ∧
          ParentAdmits db userId memo) := by
  constructor
  · intro agree visible
    have admits := agree _ (listMemoAttachments_discloses keyed
      (extractMemoUIDFromName_buildMemoName plain) stored visible)
    exact ⟨(admitsAlone_iff.mp admits.self).2, admits.parent⟩
  · intro sufficient path discloses
    have visible := discloses_visible keyed reads stored discloses
    rcases sufficient visible with ⟨archived, parent⟩
    exact ⟨admitsAlone_iff.mpr ⟨visible, archived⟩, parent⟩

/-! ## An archived memo -/

/-- A public memo that its creator has archived. -/
def archivedMemo : Memo := { privateMemo with rowStatus := .archived, visibility := .isPublic }

def picture (memoId : Nat) : Attachment :=
  { id := 1, uid := "picture", creatorId := 1, updatedTs := 0, memoId := some memoId }

def archivedMemoDatabase : Database where
  users := [alice]
  memos := [archivedMemo]
  attachments := [picture 1]

theorem archivedMemoDatabase_keyed : archivedMemoDatabase.Keyed :=
  ⟨by decide, by decide⟩

theorem archivedMemo_plain : PlainUid archivedMemo.uid :=
  ⟨by decide, by decide⟩

/-- A compiler that reads the restricting text of an anonymous caller. -/
def anonymousEnvironment : Environment where
  celCompile := fun text =>
    if text = memoFilterText none then .ok (memoFilterExpr none) else .error "unknown"
  rules := binaryRules
  unmarshalPageToken := fun _ => .error "malformed"

theorem anonymousEnvironment_reads {db : Database} : ReadsMemoFilters anonymousEnvironment db 0 := by
  intro viewer caller
  cases caller
  rfl

/-- An anonymous caller lists the attachments of an archived memo. -/
theorem archivedMemo_disclosed :
    ¬ forall (env : Environment) (now : Int) (db : Database) (userId : Nat) (memo : Memo)
        (path : ReadPath),
      db.Keyed -> ReadsMemoFilters env db userId -> memo ∈ db.memos -> PlainUid memo.uid ->
      Discloses env now db userId memo path -> Admits db userId memo := by
  intro claimed
  have stored : archivedMemo ∈ archivedMemoDatabase.memos := List.mem_singleton.mpr rfl
  have visible : VisibilityAdmits archivedMemoDatabase 0 archivedMemo := rfl
  have disclosed : Discloses anonymousEnvironment 0 archivedMemoDatabase 0 archivedMemo
      (.attachments (buildMemoName archivedMemo.uid)) :=
    listMemoAttachments_discloses archivedMemoDatabase_keyed
      (extractMemoUIDFromName_buildMemoName archivedMemo_plain) stored visible
  have admits := claimed anonymousEnvironment 0 archivedMemoDatabase 0 archivedMemo _
    archivedMemoDatabase_keyed anonymousEnvironment_reads stored archivedMemo_plain disclosed
  rcases (admitsAlone_iff.mp admits.self).2 rfl with ⟨user, caller, _⟩
  cases caller

/-- A public comment with a picture, on a public memo. -/
def openComment : Memo := { privateMemo with id := 2, uid := "open", visibility := .isPublic }

def openCommentDatabase : Database where
  users := [alice]
  memos := [{ openComment with id := 1, uid := "parent" }, openComment]
  relations := [⟨2, 1, .comment⟩]
  attachments := [picture 2]

/-- An anonymous caller reads the comment with its picture, and no path goes
further than `GetMemo`. -/
theorem disclosure_agreement_open :
    listMemoAttachments anonymousEnvironment 0 openCommentDatabase 0 "memos/open" = .ok [picture 2] ∧
      Discloses anonymousEnvironment 0 openCommentDatabase 0 openComment (.attachments "memos/open") ∧
      forall path, Discloses anonymousEnvironment 0 openCommentDatabase 0 openComment path ->
        Admits openCommentDatabase 0 openComment := by
  have keyed : openCommentDatabase.Keyed := ⟨by decide, by decide⟩
  have plain : PlainUid openComment.uid := ⟨by decide, by decide⟩
  have stored : openComment ∈ openCommentDatabase.memos := List.mem_cons_of_mem _ List.mem_cons_self
  have listed : listMemoAttachments anonymousEnvironment 0 openCommentDatabase 0 "memos/open" =
      .ok [picture 2] := by
    decide +kernel
  refine ⟨listed, ⟨by decide +kernel, _, listed⟩, ?_⟩
  refine (disclosure_agreement keyed anonymousEnvironment_reads stored plain).mpr fun _ => ⟨nofun, ?_⟩
  intro joined uid found child
  have row : memoByUid openCommentDatabase openComment.uid = some ⟨openComment, some alice, some "parent"⟩ := by
    decide +kernel
  cases row.symm.trans found
  cases child
  exact ⟨⟨{ openComment with id := 1, uid := "parent" }, some alice, none⟩, by decide +kernel, .inl rfl⟩

end Service
end Memos
