import Memos.Service.ListMemos
import Memos.Service.Names
import Memos.Store.Relation

namespace Memos
namespace Service

open Library Memos.Filter Store

/-!
# The read paths of a memo

Every handler that returns data of a memo decides for itself who may read it.
`checkMemoReadAccess` is the rule of `GetMemo`; the lists of attachments and
of reactions test the visibility only, and the lists of comments and relations
restrict a query by a filter text.
-/

variable (env : Environment) (now : Int) (db : Database) (userId : Nat)

/-! ## The checks -/

/-- The visibility test that the handlers share.  They differ in how they look
the caller up and in which callers they refuse a private memo. -/
def checkVisibility (caller : Except Status (Option User)) (refused : User -> Bool)
    (memo : Memo) : Except Status Unit :=
  if memo.visibility = .isPublic then .ok ()
  else
    match caller with
    | .error status => .error status
    | .ok none => .error ⟨.unauthenticated, "user not authenticated"⟩
    | .ok (some user) =>
        if memo.visibility = .isPrivate ∧ refused user then
          .error ⟨.permissionDenied, "permission denied"⟩
        else .ok ()

/-- Archived memos are only visible to their creator. -/
def checkArchived (memo : Memo) : Except Status Unit :=
  if memo.rowStatus = .archived then
    match currentUser db userId with
    | .error status => .error status
    | .ok none => .error ⟨.notFound, "memo not found"⟩
    | .ok (some user) =>
        if memo.creatorId = user.id then .ok () else .error ⟨.notFound, "memo not found"⟩
  else .ok ()

def checkMemoReadAccess (memo : Memo) : Except Status Unit := do
  checkArchived db userId memo
  checkVisibility (currentUser db userId) (fun user => memo.creatorId ≠ user.id) memo

/-- `isSuperUser` -/
def isSuperUser (user : User) : Bool := user.role = .admin

/-- Neither the creator nor an administrator. -/
def refusedUnlessSuperUser (memo : Memo) (user : User) : Bool :=
  memo.creatorId ≠ user.id && !isSuperUser user

/-- The memo that a name refers to. -/
def memoOfName (code : Code) (context name : String) : Except Status JoinedMemo := do
  let uid ← orStatus .invalidArgument "invalid memo name: " (extractMemoUIDFromName name)
  match ← orStatus code context (Store.getMemo env.engine env.rules now db { uid := some uid }) with
  | some joined => return joined
  | none => .error ⟨.notFound, "memo not found"⟩

/-- The check of `GetMemo` on the parent of a comment. -/
def checkParent (parentUid : Option String) : Except Status Unit :=
  match parentUid with
  | none => .ok ()
  | some uid => do
      match ← orStatus .internal "failed to get parent memo"
          (Store.getMemo env.engine env.rules now db { uid := some uid }) with
      | none => .error ⟨.notFound, "memo not found"⟩
      | some parent => checkMemoReadAccess db userId parent.memo

/-! ## Relations in responses -/

/-- The filter text that restricts relations and comments. -/
def memoFilterText (viewer : Option User) : String :=
  match viewer with
  | none => "visibility == \"PUBLIC\""
  | some user => visibilityFilter user.id

/-- A relation in a response: the names and snippets of its two ends, which
are functions of the memos. -/
structure RelationMessage where
  memo : Memo
  relatedMemo : Memo
  type : MemoRelationType

/-- `mergeMemoRelations` -/
def mergeMemoRelations (groups : List (List MemoRelation)) : List MemoRelation :=
  groups.flatten.eraseDups

/-- The memos that the relations mention and that are not at hand. -/
def neededIds (relations : List MemoRelation) (memos : List Memo) : List Nat :=
  (relations.flatMap fun relation => [relation.memoId, relation.relatedMemoId]).eraseDups.filter
    fun id => ¬ (memos.any fun memo => memo.id = id)

/-- The memos at hand and the related memos that the store returns. -/
def relationMemos (includeSnippets : Bool) (relations : List MemoRelation) (memos : List Memo) :
    Except String (List Memo) :=
  let ids := neededIds relations memos
  if ids.isEmpty then .ok memos
  else
    (fun rows => memos ++ rows.map JoinedMemo.memo) <$>
      Store.listMemos env.engine env.rules now db
        { idList := ids, excludeContent := !includeSnippets }

/-- The message of a relation, when both of its ends are known. -/
def relationMessage (known : List Memo) (relation : MemoRelation) : Option RelationMessage := do
  let memo ← known.find? fun memo => memo.id = relation.memoId
  let related ← known.find? fun memo => memo.id = relation.relatedMemoId
  return ⟨memo, related, relation.type⟩

/-- `batchConvertMemoRelations`: the relations of some memos in both
directions. -/
def batchConvertMemoRelations (includeSnippets : Bool) (memos : List Memo) :
    Except String (List RelationMessage) :=
  if memos.isEmpty then .ok []
  else do
    let viewer ← fetchCurrentUser db userId
    let ids := memos.map Memo.id
    let outgoing ← listMemoRelations env.engine env.rules now db
      { sourceMemoIdList := ids, memoFilter := some (memoFilterText viewer) }
    let incoming ← listMemoRelations env.engine env.rules now db
      { relatedMemoIdList := ids, memoFilter := some (memoFilterText viewer) }
    let relations := mergeMemoRelations [outgoing, incoming]
    let known ← relationMemos env now db includeSnippets relations memos
    return relations.filterMap (relationMessage known)

/-- `convertMemoRelationFromStore` -/
def convertMemoRelationFromStore (relation : MemoRelation) : Except String RelationMessage := do
  match ← Store.getMemo env.engine env.rules now db { id := some relation.memoId },
      ← Store.getMemo env.engine env.rules now db { id := some relation.relatedMemoId } with
  | some memo, some related => return ⟨memo.memo, related.memo, relation.type⟩
  | _, _ => .error "nil memo"

/-! ## The handlers -/

/-- What `GetMemo` returns. -/
structure MemoMessage where
  memo : Memo
  reactions : List Reaction
  attachments : List Attachment
  relations : List RelationMessage

def getMemo (name : String) : Except Status MemoMessage := do
  let joined ← memoOfName env now db .unknown "" name
  checkMemoReadAccess db userId joined.memo
  checkParent env now db userId joined.parentUid
  let relations ← orStatus .unknown "failed to load memo relations: "
    (batchConvertMemoRelations env now db userId true [joined.memo])
  if (userById db joined.memo.creatorId).isSome then
    return ⟨joined.memo, listReactions db name, listAttachments db joined.memo.id, relations⟩
  else .error ⟨.notFound, "memo creator not found"⟩

/-- One relation more than the limit means that there is a next page. -/
def pageOfRelations (limit : Nat) (relations : List MemoRelation) : List MemoRelation :=
  if relations.length = limit + 1 then relations.take limit else relations

/-- The memos of the response, without what is loaded for them. -/
def listMemoComments (name : String) (limit offset : Nat) : Except Status (List Memo) := do
  let joined ← memoOfName env now db .internal "failed to get memo" name
  checkMemoReadAccess db userId joined.memo
  let viewer ← currentUser db userId
  let relations ← orStatus .internal "failed to list memo relations"
    (listMemoRelations env.engine env.rules now db
      { relatedMemoId := some joined.memo.id, type := some .comment
        memoFilter := some (memoFilterText viewer), limit := some (limit + 1)
        offset := some offset })
  if (pageOfRelations limit relations).isEmpty then return []
  else
    let memos ← orStatus .internal "failed to list memos"
      (Store.listMemos env.engine env.rules now db
        { idList := (pageOfRelations limit relations).map MemoRelation.memoId })
    return (memos.filter fun comment => (userById db comment.memo.creatorId).isSome).map
      JoinedMemo.memo

def listMemoAttachments (name : String) : Except Status (List Attachment) := do
  let joined ← memoOfName env now db .internal "failed to get memo: " name
  checkVisibility (orStatus .internal "failed to get user: " (fetchCurrentUser db userId))
    (refusedUnlessSuperUser joined.memo) joined.memo
  return listAttachments db joined.memo.id

def listMemoReactions (name : String) : Except Status (List Reaction) := do
  let joined ← memoOfName env now db .internal "failed to get memo: " name
  checkVisibility (currentUser db userId) (refusedUnlessSuperUser joined.memo) joined.memo
  return listReactions db name

/-- A name that no memo has makes the handler fail on a nil memo. -/
def listMemoRelations (name : String) : Except Status (List RelationMessage) := do
  let joined ← memoOfName env now db .internal "failed to get memo" name
  let viewer ← currentUser db userId
  let outgoing ← orStatus .internal "failed to list memo relations: "
    (Store.listMemoRelations env.engine env.rules now db
      { memoId := some joined.memo.id, memoFilter := some (memoFilterText viewer) })
  let incoming ← orStatus .internal "failed to list related memo relations: "
    (Store.listMemoRelations env.engine env.rules now db
      { relatedMemoId := some joined.memo.id, memoFilter := some (memoFilterText viewer) })
  orStatus .internal "failed to convert memo relation"
    ((outgoing ++ incoming).mapM (convertMemoRelationFromStore env now db))

end Service
end Memos
