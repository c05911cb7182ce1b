import Mathlib.Data.List.Count
import Memos.Markdown.Mentions
import Memos.Service.Disclosure

namespace Memos
namespace Service
namespace MentionInbox

open Library Store

/-!
# The inbox rows of mentions

When the content of a memo is written, the users that it mentions for the first
time are told.  The names are taken from the Markdown in lower case and looked
up as they are stored, while sign-up also admits names with capital letters.
-/

/-- What the service takes from outside: the names of the mention nodes in a
text, the lower case of a character, the encoder of the messages and the order
in which a map is iterated. -/
structure Surroundings where
  mentionNames : String -> List String
  lower : Char -> Char
  marshal : InboxMessage -> String
  iterate : List User -> List User
  mentionNames_empty : mentionNames "" = []
  iterate_perm : forall targets, (iterate targets).Perm targets

variable (surroundings : Surroundings) (db : Database)

/-! ## The targets -/

def toLower (name : String) : String := String.ofList (name.toList.map surroundings.lower)

/-- The mentions of `ExtractAll`. -/
def extractMentions (content : String) : List String :=
  ((surroundings.mentionNames content).map (toLower surroundings)).eraseDups

/-- `ListUsers` with names and a row status. -/
def listUsers (usernameList : List String) (rowStatus : RowStatus) : List User :=
  db.users.filter fun user => user.username ∈ usernameList ∧ user.rowStatus = rowStatus

/-- An assignment to the map of targets, which has the ids as its keys. -/
def setTarget (targets : List User) (user : User) : List User :=
  (targets.filter fun other => other.id ≠ user.id) ++ [user]

def resolveMentionTargets (content : String) : List User :=
  if content = "" then []
  else
    let mentions := extractMentions surroundings content
    if mentions.isEmpty then [] else (listUsers db mentions .normal).foldl setTarget []

/-! ## The dispatch -/

def canUserAccessMentionContext (target : User) (memo : Memo) (relatedMemo : Option Memo) : Bool :=
  if relatedMemo.any fun related => related.visibility = .isPrivate ∧ target.id ≠ related.creatorId then
    false
  else if memo.visibility = .isPrivate ∧ target.id ≠ memo.creatorId then false
  else true

def shouldSkipMentionInbox (target : User) (memo : Memo) (relatedMemo : Option Memo) : Bool :=
  if target.id = memo.creatorId then true
  else if relatedMemo.any fun related =>
      target.id = related.creatorId ∧ memo.visibility ≠ .isPrivate ∧
        memo.creatorId ≠ related.creatorId then true
  else !canUserAccessMentionContext target memo relatedMemo

/-- The message of a mention. -/
def mentionMessage (memo : Memo) (relatedMemo : Option Memo) : InboxMessage :=
  ⟨.memoMention, some (.memoMention ⟨memo.id, (relatedMemo.map Memo.id).getD 0⟩)⟩

/-- The database with a new row in the inbox of the target.  An e-mail is tried
as well, which no table shows. -/
def createInboxWithEmailNotification (memo : Memo) (relatedMemo : Option Memo) (target : User) :
    Database :=
  { db with
    inbox := db.inbox ++ [⟨db.sequences.inbox + 1, memo.creatorId, target.id,
      surroundings.marshal (mentionMessage memo relatedMemo)⟩]
    sequences := { db.sequences with inbox := db.sequences.inbox + 1 } }

/-- The row is that of the store. -/
theorem createInbox_eq (memo : Memo) (relatedMemo : Option Memo) (target : User) :
    createInbox memo.creatorId target.id (surroundings.marshal (mentionMessage memo relatedMemo)) =
      Transaction.execute fun db =>
        createInboxWithEmailNotification surroundings db memo relatedMemo target := rfl

/-- The loop over the targets. -/
def notifyTargets (memo : Memo) (relatedMemo : Option Memo) (previousTargets : List User) :
    List User -> Database -> Database
  | [], db => db
  | target :: targets, db =>
      if previousTargets.any fun previous => previous.id = target.id then
        notifyTargets memo relatedMemo previousTargets targets db
      else if shouldSkipMentionInbox target memo relatedMemo then
        notifyTargets memo relatedMemo previousTargets targets db
      else
        notifyTargets memo relatedMemo previousTargets targets
          (createInboxWithEmailNotification surroundings db memo relatedMemo target)

def dispatchMemoMentionNotifications (memo : Memo) (relatedMemo : Option Memo)
    (previousContent : String) : Database :=
  let currentTargets := resolveMentionTargets surroundings db memo.content
  if currentTargets.isEmpty then db
  else
    notifyTargets surroundings memo relatedMemo
      (resolveMentionTargets surroundings db previousContent)
      (surroundings.iterate currentTargets) db

/-- The parent of a memo, as `buildUpdatedMemoState` finds it. -/
def parentMemo (joined : JoinedMemo) : Option Memo :=
  joined.parentUid.bind fun uid => (memoByUid db uid).map JoinedMemo.memo

/-- What `UpdateMemo` does about mentions, after it has written the content. -/
def dispatchAfterUpdate (joined : JoinedMemo) (previousContent : String) : Database :=
  dispatchMemoMentionNotifications surroundings db joined.memo (parentMemo db joined) previousContent

/-! ## Who is told -/

variable {surroundings db}

theorem foldl_setTarget {targets users : List User} (ids : ((targets ++ users).map User.id).Nodup) :
    users.foldl setTarget targets = targets ++ users := by
  induction users generalizing targets with
  | nil => simp
  | cons user rest ih =>
      have apart : forall other, other ∈ targets -> other.id ≠ user.id := by
        intro other member same
        rw [List.map_append, List.nodup_append] at ids
        exact ids.2.2 other.id (List.mem_map_of_mem member) user.id (by simp) same
      have set : setTarget targets user = targets ++ [user] := by
        rw [setTarget, List.filter_eq_self.mpr]
        intro other member
        simpa using apart other member
      rw [List.foldl_cons, set, ih (by simpa using ids)]
      simp

theorem listUsers_ids (userIds : (db.users.map User.id).Nodup) (usernames : List String)
    (rowStatus : RowStatus) : ((listUsers db usernames rowStatus).map User.id).Nodup :=
  userIds.sublist (List.filter_sublist.map _)

theorem extractMentions_empty : extractMentions surroundings "" = [] := by
  simp [extractMentions, surroundings.mentionNames_empty]

theorem resolveMentionTargets_eq (userIds : (db.users.map User.id).Nodup) (content : String) :
    resolveMentionTargets surroundings db content =
      listUsers db (extractMentions surroundings content) .normal := by
  have none_ : listUsers db [] .normal = [] := by simp [listUsers]
  rw [resolveMentionTargets]
  split
  case isTrue empty => rw [empty, extractMentions_empty, none_]
  · dsimp only
    split
    case isTrue empty => rw [List.isEmpty_iff.mp empty, none_]
    · exact foldl_setTarget (listUsers_ids userIds _ _)

/-- The targets that get a row. -/
def toldTargets (memo : Memo) (relatedMemo : Option Memo) (previousTargets targets : List User) :
    List User :=
  targets.filter fun target =>
    !(previousTargets.any fun previous => previous.id = target.id) &&
      !shouldSkipMentionInbox target memo relatedMemo

/-- The loop appends a row for each of these targets and leaves the other tables
alone. -/
theorem notifyTargets_eq (surroundings : Surroundings) (memo : Memo) (relatedMemo : Option Memo) (previousTargets targets : List User)
    (db : Database) :
    Exists fun rows =>
      notifyTargets surroundings memo relatedMemo previousTargets targets db =
        { db with
          inbox := db.inbox ++ rows
          sequences := { db.sequences with inbox := db.sequences.inbox + rows.length } } ∧
      rows.map Inbox.receiverId = (toldTargets memo relatedMemo previousTargets targets).map User.id ∧
      forall row, row ∈ rows -> row.senderId = memo.creatorId ∧
        row.message = surroundings.marshal (mentionMessage memo relatedMemo) := by
  induction targets generalizing db with
  | nil => exact ⟨[], by simp [notifyTargets], rfl, fun _ impossible => absurd impossible List.not_mem_nil⟩
  | cons target rest ih =>
      rw [notifyTargets, toldTargets, List.filter_cons]
      split
      case isTrue known => simpa [known, toldTargets] using ih db
      case isFalse unknown =>
        split
        case isTrue skipped => simpa [skipped, toldTargets] using ih db
        case isFalse reached =>
          rcases ih (createInboxWithEmailNotification surroundings db memo relatedMemo
            target) with ⟨rows, same, receivers, mentions⟩
          refine ⟨⟨db.sequences.inbox + 1, memo.creatorId, target.id,
            surroundings.marshal (mentionMessage memo relatedMemo)⟩ :: rows, ?_, ?_, ?_⟩
          · rw [same]
            simp [createInboxWithEmailNotification]
            omega
          · simp [unknown, reached, receivers, toldTargets]
          · intro row member
            rcases List.mem_cons.mp member with rfl | later
            · exact ⟨rfl, rfl⟩
            · exact mentions row later

/-- The names are in a text and were not in the one before it. -/
def NewlyNamed (names : String -> List String) (user : User) (content previousContent : String) : Prop :=
  user.username ∈ names content ∧ user.username ∉ names previousContent

/-- An active user whom the checks of the dispatch let through. -/
def Reachable (memo : Memo) (relatedMemo : Option Memo) (user : User) : Prop :=
  user.rowStatus = .normal ∧ shouldSkipMentionInbox user memo relatedMemo = false

theorem mem_toldTargets (userIds : (db.users.map User.id).Nodup) {memo : Memo}
    {relatedMemo : Option Memo} {previousContent : String} {user : User} (stored : user ∈ db.users) :
    user ∈ toldTargets memo relatedMemo
        (listUsers db (extractMentions surroundings previousContent) .normal)
        (listUsers db (extractMentions surroundings memo.content) .normal) ↔
      NewlyNamed (extractMentions surroundings) user memo.content previousContent ∧
        Reachable memo relatedMemo user := by
  have known : (listUsers db (extractMentions surroundings previousContent) .normal).any
      (fun previous => previous.id = user.id) = true ↔
        user.username ∈ extractMentions surroundings previousContent ∧ user.rowStatus = .normal := by
    rw [List.any_eq_true]
    constructor
    · rintro ⟨previous, listed, same⟩
      rcases List.mem_filter.mp listed with ⟨previousStored, holds⟩
      rw [eq_of_nodup_map userIds previousStored stored (of_decide_eq_true same)] at holds
      exact of_decide_eq_true holds
    · intro holds
      exact ⟨user, List.mem_filter.mpr ⟨stored, decide_eq_true holds⟩, decide_eq_true rfl⟩
  rw [toldTargets, List.mem_filter, Bool.and_eq_true, Bool.not_eq_true', Bool.not_eq_true',
    ← Bool.not_eq_true, known, listUsers, List.mem_filter, decide_eq_true_eq, NewlyNamed, Reachable]
  tauto

/-- The rows that an update creates. -/
theorem dispatch_rows (surroundings : Surroundings) (userIds : (db.users.map User.id).Nodup) (memo : Memo) (relatedMemo : Option Memo)
    (previousContent : String) :
    Exists fun rows =>
      dispatchMemoMentionNotifications surroundings db memo relatedMemo previousContent =
        { db with
          inbox := db.inbox ++ rows
          sequences := { db.sequences with inbox := db.sequences.inbox + rows.length } } ∧
      (rows.map Inbox.receiverId).Perm ((toldTargets memo relatedMemo
        (listUsers db (extractMentions surroundings previousContent) .normal)
        (listUsers db (extractMentions surroundings memo.content) .normal)).map User.id) ∧
      forall row, row ∈ rows -> row.senderId = memo.creatorId ∧
        row.message = surroundings.marshal (mentionMessage memo relatedMemo) := by
  rw [dispatchMemoMentionNotifications, resolveMentionTargets_eq userIds, resolveMentionTargets_eq userIds]
  dsimp only
  split
  case isTrue empty =>
    rw [List.isEmpty_iff.mp empty]
    exact ⟨[], by simp, List.Perm.refl _, fun _ impossible => absurd impossible List.not_mem_nil⟩
  · rcases notifyTargets_eq surroundings memo relatedMemo
      (listUsers db (extractMentions surroundings previousContent) .normal)
      (surroundings.iterate (listUsers db (extractMentions surroundings memo.content) .normal)) db with
      ⟨rows, same, receivers, mentions⟩
    refine ⟨rows, same, ?_, mentions⟩
    rw [receivers]
    exact ((surroundings.iterate_perm _).filter _).map _

/-! ## Exactness -/

/-- The rule of `GetMemo` for a user. -/
def MayRead (db : Database) (joined : JoinedMemo) (user : User) : Prop :=
  checkMemoReadAccess db user.id joined.memo = .ok () ∧
    forall uid, joined.parentUid = some uid -> Exists fun parent =>
      memoByUid db uid = some parent ∧ checkMemoReadAccess db user.id parent.memo = .ok ()

/-- An active user whose name, as it is stored, the new content mentions and the
old one did not, who is neither the author nor the parent's creator and who may
read the memo. -/
structure Due (surroundings : Surroundings) (db : Database) (joined : JoinedMemo)
    (previousContent : String) (user : User) : Prop where
  active : user.rowStatus = .normal
  named : NewlyNamed surroundings.mentionNames user joined.memo.content previousContent
  notAuthor : user.id ≠ joined.memo.creatorId
  notParentCreator : forall parent, parentMemo db joined = some parent -> user.id ≠ parent.creatorId
  reads : MayRead db joined user

/-- The update creates one row for each of these users and none for others, and
none when it runs again. -/
def Exact (surroundings : Surroundings) (db : Database) (joined : JoinedMemo)
    (previousContent : String) (after : Database) : Prop :=
  (Exists fun rows => after.inbox = db.inbox ++ rows ∧
    (forall row, row ∈ rows -> row.senderId = joined.memo.creatorId ∧
      row.message = surroundings.marshal (mentionMessage joined.memo (parentMemo db joined))) ∧
    (forall row, row ∈ rows -> Exists fun user => user ∈ db.users ∧ row.receiverId = user.id) ∧
    forall user, user ∈ db.users ->
      (Due surroundings db joined previousContent user ->
        (rows.map Inbox.receiverId).count user.id = 1) ∧
      (¬ Due surroundings db joined previousContent user ->
        (rows.map Inbox.receiverId).count user.id = 0)) ∧
  dispatchAfterUpdate surroundings after joined joined.memo.content = after

theorem dispatch_again (surroundings : Surroundings) (userIds : (db.users.map User.id).Nodup)
    (joined : JoinedMemo) :
    dispatchAfterUpdate surroundings db joined joined.memo.content = db := by
  rcases dispatch_rows surroundings userIds joined.memo (parentMemo db joined)
    joined.memo.content with ⟨rows, same, receivers, _⟩
  have none_ : rows = [] := by
    cases rows with
    | nil => rfl
    | cons row rest =>
        have received := receivers.subset (List.mem_map_of_mem List.mem_cons_self)
        rcases List.mem_map.mp received with ⟨user, told, _⟩
        have stored : user ∈ db.users := List.mem_of_mem_filter (List.mem_of_mem_filter told)
        have named := ((mem_toldTargets userIds stored).mp told).1
        exact absurd named.1 named.2
  rw [dispatchAfterUpdate, same, none_]
  simp

theorem exact_iff_told (userIds : (db.users.map User.id).Nodup) (joined : JoinedMemo)
    (previousContent : String) :
    Exact surroundings db joined previousContent
        (dispatchAfterUpdate surroundings db joined previousContent) ↔
      forall user, user ∈ db.users ->
        (NewlyNamed (extractMentions surroundings) user joined.memo.content previousContent ∧
          Reachable joined.memo (parentMemo db joined) user ↔
            Due surroundings db joined previousContent user) := by
  rcases dispatch_rows surroundings userIds joined.memo (parentMemo db joined)
    previousContent with ⟨rows, same, receivers, mentions⟩
  have kept : ((dispatchAfterUpdate surroundings db joined previousContent).users.map User.id).Nodup := by
    rw [dispatchAfterUpdate, same]
    exact userIds
  have again := dispatch_again surroundings kept joined
  have toldIds : ((toldTargets joined.memo (parentMemo db joined)
      (listUsers db (extractMentions surroundings previousContent) .normal)
      (listUsers db (extractMentions surroundings joined.memo.content) .normal)).map User.id).Nodup :=
    (listUsers_ids userIds _ _).sublist (List.filter_sublist.map _)
  -- a user gets at most one row, and gets it exactly if the loop tells the user
  have counted : forall user, user ∈ db.users ->
      ((rows.map Inbox.receiverId).count user.id = 1 ↔
        NewlyNamed (extractMentions surroundings) user joined.memo.content previousContent ∧
          Reachable joined.memo (parentMemo db joined) user) ∧
      (rows.map Inbox.receiverId).count user.id ≤ 1 := by
    intro user stored
    rw [receivers.count_eq, ← mem_toldTargets userIds stored]
    refine ⟨?_, List.nodup_iff_count_le_one.mp toldIds _⟩
    have isTold : user.id ∈ (toldTargets joined.memo (parentMemo db joined)
        (listUsers db (extractMentions surroundings previousContent) .normal)
        (listUsers db (extractMentions surroundings joined.memo.content) .normal)).map User.id ↔
          user ∈ toldTargets joined.memo (parentMemo db joined)
            (listUsers db (extractMentions surroundings previousContent) .normal)
            (listUsers db (extractMentions surroundings joined.memo.content) .normal) := by
      constructor
      · intro member
        rcases List.mem_map.mp member with ⟨other, told, sameId⟩
        have otherStored := List.mem_of_mem_filter (List.mem_of_mem_filter told)
        rw [← eq_of_nodup_map userIds otherStored stored sameId]
        exact told
      · exact List.mem_map_of_mem
    rw [← isTold]
    constructor
    · intro once
      exact List.count_pos_iff.mp (by omega)
    · exact List.count_eq_one_of_mem toldIds
  have strangers : forall row, row ∈ rows -> Exists fun user => user ∈ db.users ∧ row.receiverId = user.id := by
    intro row member
    rcases List.mem_map.mp (receivers.subset (List.mem_map_of_mem member)) with ⟨user, told, sameId⟩
    exact ⟨user, List.mem_of_mem_filter (List.mem_of_mem_filter told), sameId.symm⟩
  rw [Exact, and_iff_left again, dispatchAfterUpdate, same]
  constructor
  · rintro ⟨other, sameRows, _, _, counts⟩ user stored
    obtain rfl : rows = other := List.append_cancel_left sameRows
    rw [← (counted user stored).1]
    constructor
    · intro once
      by_contra notDue
      rw [(counts user stored).2 notDue] at once
      cases once
    · exact (counts user stored).1
  · intro exact_
    refine ⟨rows, rfl, mentions, strangers, fun user stored => ⟨fun due => ?_, fun notDue => ?_⟩⟩
    · exact (counted user stored).1.mpr ((exact_ user stored).mpr due)
    · have notOnce := mt (fun once => (exact_ user stored).mp ((counted user stored).1.mp once)) notDue
      have atMost := (counted user stored).2
      omega

/-! ## When the update is exact -/

/-- The memo or its parent is archived. -/
def Shelved (db : Database) (joined : JoinedMemo) : Prop :=
  joined.memo.rowStatus = .archived ∨ Exists fun parent =>
    parentMemo db joined = some parent ∧ parent.rowStatus = .archived

theorem shouldSkipMentionInbox_eq_false {target : User} {memo : Memo} {relatedMemo : Option Memo} :
    shouldSkipMentionInbox target memo relatedMemo = false ↔
      (target.id ≠ memo.creatorId ∧ memo.visibility ≠ .isPrivate) ∧
        forall parent, relatedMemo = some parent ->
          target.id ≠ parent.creatorId ∧ parent.visibility ≠ .isPrivate := by
  cases relatedMemo with
  | none =>
      simp [shouldSkipMentionInbox, canUserAccessMentionContext]
      tauto
  | some parent =>
      by_cases author : target.id = memo.creatorId
      · simp [shouldSkipMentionInbox, author]
      · by_cases parentCreator : target.id = parent.creatorId
        · have differ : memo.creatorId ≠ parent.creatorId := fun same =>
            author (parentCreator.trans same.symm)
          by_cases isPrivate : memo.visibility = .isPrivate <;>
            simp [shouldSkipMentionInbox, canUserAccessMentionContext, parentCreator, differ, isPrivate,
              differ.symm]
        · simp [shouldSkipMentionInbox, canUserAccessMentionContext, author, parentCreator]
          tauto

theorem parentUid_stored {joined : JoinedMemo} (member : joined ∈ db.joinedMemos) {uid : String}
    (parent : joined.parentUid = some uid) : Exists fun found => memoByUid db uid = some found := by
  rcases List.mem_flatMap.mp member with ⟨memo, _, inJoin⟩
  rcases List.mem_flatMap.mp inJoin with ⟨creator, _, inComments⟩
  rcases List.mem_flatMap.mp inComments with ⟨relation, _, inParents⟩
  rcases List.mem_map.mp inParents with ⟨row, isParent, rfl⟩
  rcases Option.map_eq_some_iff.mp parent with ⟨parentRow, rfl, rfl⟩
  have stored : parentRow ∈ db.memos := by
    rw [leftJoin] at isParent
    split at isParent
    · cases List.mem_singleton.mp isParent
    · rcases List.mem_map.mp isParent with ⟨_, inTable, same⟩
      rw [← Option.some.inj same]
      exact List.mem_of_mem_filter inTable
  rcases Database.exists_joinedMemos stored with ⟨found, inTable, same⟩
  cases lookup : memoByUid db parentRow.uid with
  | some found => exact ⟨found, rfl⟩
  | none =>
      have missing := List.find?_eq_none.mp lookup found inTable
      rw [same] at missing
      exact absurd (beq_self_eq_true _) missing

theorem fetchCurrentUser_of_stored (userIds : (db.users.map User.id).Nodup) {user : User}
    (stored : user ∈ db.users) (numbered : user.id ≠ 0) (active : user.rowStatus = .normal) :
    fetchCurrentUser db user.id = .ok (some user) := by
  have found : userById db user.id = some user := by
    cases lookup : userById db user.id with
    | none => simpa using List.find?_eq_none.mp lookup user stored
    | some other =>
        have sameId : other.id = user.id := by simpa using List.find?_some lookup
        rw [eq_of_nodup_map userIds (List.mem_of_find?_eq_some lookup) stored sameId]
  simp [fetchCurrentUser, numbered, found, active]

/-- Somebody else's memo is read if it is neither archived nor private. -/
theorem readAccess_iff {user : User} {memo : Memo}
    (caller : fetchCurrentUser db user.id = .ok (some user)) (other : user.id ≠ memo.creatorId) :
    checkMemoReadAccess db user.id memo = .ok () ↔
      memo.rowStatus ≠ .archived ∧ memo.visibility ≠ .isPrivate := by
  have notOwned : ¬ OwnedBy db user.id memo := by
    rintro ⟨viewer, fetched, owner⟩
    rw [caller] at fetched
    cases fetched
    exact other owner.symm
  have visible : checkVisibility (currentUser db user.id) (fun user => memo.creatorId ≠ user.id) memo =
      .ok () ↔ memo.visibility ≠ .isPrivate := by
    rw [checkVisibility_eq_ok]
    constructor
    · rintro (isPublic | ⟨viewer, fetched, accepted⟩) isPrivate
      · rw [isPrivate] at isPublic
        cases isPublic
      · rw [currentUser_eq_ok, caller] at fetched
        cases fetched
        have owner : memo.creatorId = user.id := by simpa using accepted isPrivate
        exact other owner.symm
    · intro notPrivate
      exact Or.inr ⟨user, currentUser_eq_ok.mpr caller, fun isPrivate => absurd isPrivate notPrivate⟩
  rw [checkMemoReadAccess, bind_eq_ok, ← visible]
  constructor
  · rintro ⟨_, archived, continued⟩
    exact ⟨fun isArchived => notOwned (checkArchived_eq_ok.mp archived isArchived), continued⟩
  · rintro ⟨notArchived, continued⟩
    exact ⟨(), checkArchived_eq_ok.mpr fun isArchived => absurd isArchived notArchived, continued⟩

theorem due_iff (userIds : (db.users.map User.id).Nodup) {user : User} (stored : user ∈ db.users)
    (numbered : user.id ≠ 0) {joined : JoinedMemo} (member : joined ∈ db.joinedMemos)
    (previousContent : String) :
    Due surroundings db joined previousContent user ↔
      NewlyNamed surroundings.mentionNames user joined.memo.content previousContent ∧
        Reachable joined.memo (parentMemo db joined) user ∧ ¬ Shelved db joined := by
  have parentOf : forall parent, parentMemo db joined = some parent ↔
      Exists fun uid => joined.parentUid = some uid ∧
        Exists fun found => memoByUid db uid = some found ∧ found.memo = parent := by
    intro parent
    simp [parentMemo, Option.bind_eq_some_iff]
  rw [Reachable, shouldSkipMentionInbox_eq_false, Shelved, not_or, not_exists]
  constructor
  · intro due
    have caller := fetchCurrentUser_of_stored userIds stored numbered due.active
    have self := (readAccess_iff caller due.notAuthor).mp due.reads.1
    have above : forall parent, parentMemo db joined = some parent ->
        parent.rowStatus ≠ .archived ∧ parent.visibility ≠ .isPrivate := by
      intro parent isParent
      rw [← readAccess_iff caller (due.notParentCreator parent isParent)]
      rcases (parentOf parent).mp isParent with ⟨uid, parentUid, found, lookup, rfl⟩
      rcases due.reads.2 uid parentUid with ⟨other, sameLookup, access⟩
      rw [lookup] at sameLookup
      cases sameLookup
      exact access
    refine ⟨due.named, ⟨due.active, ⟨due.notAuthor, self.2⟩, fun parent isParent => ?_⟩, self.1,
      fun parent isParent => (above parent isParent.1).1 isParent.2⟩
    exact ⟨due.notParentCreator parent isParent, (above parent isParent).2⟩
  · rintro ⟨named, ⟨active, self, above⟩, notArchived, parentNotArchived⟩
    have caller := fetchCurrentUser_of_stored userIds stored numbered active
    refine ⟨active, named, self.1, fun parent isParent => (above parent isParent).1,
      (readAccess_iff caller self.1).mpr ⟨notArchived, self.2⟩, fun uid parentUid => ?_⟩
    rcases parentUid_stored member parentUid with ⟨found, lookup⟩
    have isParent := (parentOf found.memo).mpr ⟨uid, parentUid, found, lookup, rfl⟩
    have visible := above found.memo isParent
    exact ⟨found, lookup, (readAccess_iff caller visible.1).mpr
      ⟨fun archived => parentNotArchived found.memo ⟨isParent, archived⟩, visible.2⟩⟩

/-- An update tells exactly the users that it should if, among the active users
who are not skipped, the names in lower case are as newly in the content as the
names that are written there, and none is when the memo or its parent is
archived. -/
theorem mentions_exact_iff (surroundings : Surroundings) {db : Database}
    (userIds : (db.users.map User.id).Nodup) (numbered : forall user, user ∈ db.users -> user.id ≠ 0)
    {joined : JoinedMemo} (member : joined ∈ db.joinedMemos) (previousContent : String) :
    Exact surroundings db joined previousContent
        (dispatchAfterUpdate surroundings db joined previousContent) ↔
      forall user, user ∈ db.users -> Reachable joined.memo (parentMemo db joined) user ->
        (Shelved db joined ->
          ¬ NewlyNamed (extractMentions surroundings) user joined.memo.content previousContent) ∧
        (¬ Shelved db joined ->
          (NewlyNamed (extractMentions surroundings) user joined.memo.content previousContent ↔
            NewlyNamed surroundings.mentionNames user joined.memo.content previousContent)) := by
  rw [exact_iff_told userIds]
  refine forall_congr' fun user => forall_congr' fun stored => ?_
  rw [due_iff userIds stored (numbered user stored) member]
  tauto

/-! ## A name with a capital letter -/

/-- Plain text, with names in ASCII. -/
def plainText : Surroundings where
  mentionNames := fun content =>
    (Markdown.Mentions.serverMentions Unicode.asciiOnly content.toList).map String.ofList
  lower := Char.toLower
  marshal := fun _ => ""
  iterate := id
  mentionNames_empty := by decide
  iterate_perm := fun _ => List.Perm.refl _

def mentionedUser (username : String) : User := ⟨2, .normal, username, .user⟩

/-- A public memo that mentions a user. -/
def mentionDatabase (username content : String) : Database where
  users := [alice, mentionedUser username]
  memos := [{ privateMemo with visibility := .isPublic, content := content }]

/-- The only joined row. -/
def mentionRow (content : String) : JoinedMemo :=
  ⟨{ privateMemo with visibility := .isPublic, content := content }, some alice, none⟩

theorem mentions_exact_lowerCase :
    Exact plainText (mentionDatabase "bob" "@bob") (mentionRow "@bob") ""
      (dispatchAfterUpdate plainText (mentionDatabase "bob" "@bob") (mentionRow "@bob") "") := by
  refine (mentions_exact_iff plainText (by decide) (by decide) (by decide) "").mpr ?_
  have written : plainText.mentionNames "@bob" = ["bob"] ∧ plainText.mentionNames "" = [] := by decide
  have lowered : extractMentions plainText "@bob" = ["bob"] ∧ extractMentions plainText "" = [] := by
    decide
  have current : (mentionRow "@bob").memo.content = "@bob" := rfl
  have notShelved : ¬ Shelved (mentionDatabase "bob" "@bob") (mentionRow "@bob") := by
    rintro (archived | ⟨parent, isParent, _⟩)
    · cases archived
    · cases isParent
  intro user _ _
  refine ⟨fun shelved => absurd shelved notShelved, fun _ => ?_⟩
  rw [NewlyNamed, NewlyNamed, current, written.1, written.2, lowered.1, lowered.2]

/-- The name Bob is looked up as bob. -/
theorem capital_mention_lost :
    ¬ Exact plainText (mentionDatabase "Bob" "@Bob") (mentionRow "@Bob") ""
      (dispatchAfterUpdate plainText (mentionDatabase "Bob" "@Bob") (mentionRow "@Bob") "") := by
  rintro ⟨⟨rows, same, _, _, counts⟩, _⟩
  have none_ : rows = [] := by
    have unchanged : (dispatchAfterUpdate plainText (mentionDatabase "Bob" "@Bob") (mentionRow "@Bob")
        "").inbox = [] := by decide
    rw [unchanged] at same
    exact same.symm
  have counted := (counts (mentionedUser "Bob") (by decide)).1
  rw [none_] at counted
  have due : Due plainText (mentionDatabase "Bob" "@Bob") (mentionRow "@Bob") "" (mentionedUser "Bob") := by
    refine ⟨rfl, ⟨by decide, by decide⟩, by decide, ?_, rfl, ?_⟩
    · intro parent isParent
      cases isParent
    · intro uid isParent
      cases isParent
  exact absurd (counted due) (by decide)

end MentionInbox
end Service
end Memos
