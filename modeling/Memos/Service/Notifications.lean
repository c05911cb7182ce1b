import Memos.Service.Disclosure
import Memos.Store.UserDelete

namespace Memos
namespace Service
namespace Notifications

open Library Memos.Filter Store

/-!
# Notifications

A row of the inbox refers to memos by their ids.  The list of notifications
and the e-mails look the memos up again and tell the receiver their names, and
the list their snippets too.  Both ask `canViewerAccessMemo` first.
-/

/-! ## Memos by their ids -/

section Lookup

variable (env : Environment) (now : Int) (db : Database)

/-- `listMemosByID` of the service. -/
def listMemosByID (ids : List Nat) : Except String (Nat -> Option Memo) :=
  if ids.isEmpty then .ok fun _ => none
  else
    (fun rows id => (rows.map JoinedMemo.memo).find? fun memo => memo.id = id) <$>
      Store.listMemos env.engine env.rules now db { idList := ids.eraseDups }

variable {env now db}

theorem anyEqual_ids (rules : TextRules) (id : Nat) (ids : List Nat) :
    anyEqual rules .sqlite true (.int id) (ids.map fun (other : Nat) => .int (other : Int)) =
      .ok (.ofBool (ids.contains id)) := by
  induction ids with
  | nil => rfl
  | cons first rest ih =>
      have order : (compare (id : Int) first == .eq) = (id == first) := by
        rw [Bool.eq_iff_iff, beq_iff_eq, beq_iff_eq, Std.compare_eq_iff_eq, Int.ofNat_inj]
      rw [List.map_cons, anyEqual, ih, List.contains_cons, ← order]
      change Except.ok ((Truth.ofBool (compare (id : Int) first == .eq)).or (.ofBool (rest.contains id))) = _
      rw [Truth.or_ofBool]

theorem whereClause_ids (engine : Engine) {ids : List Nat} (some_ : ids ≠ []) :
    whereClause engine now { idList := ids } = .ok (pushIn ⟨"memo", "id"⟩ (ids.map idArg) ⟨[.verum], []⟩) := by
  have listed : (ids.map idArg).isEmpty = false := by simpa using some_
  simp [whereClause, appendConditions, FindMemo.pushes, pushList, pushField, listed, ok_bind, pure,
    Except.pure]

/-- The query for some ids finds the rows that have one of them. -/
theorem listMemos_ids (env : Environment) (now : Int) (db : Database) {ids : List Nat} (some_ : ids ≠ []) :
    Exists fun rows => Store.listMemos env.engine env.rules now db { idList := ids } = .ok rows ∧
      forall joined, joined ∈ rows ↔ joined ∈ db.joinedMemos ∧ joined.memo.id ∈ ids := by
  have bound : bindAll (pushIn ⟨"memo", "id"⟩ (ids.map idArg) ⟨[.verum], []⟩).conjuncts
      (pushIn ⟨"memo", "id"⟩ (ids.map idArg) ⟨[.verum], []⟩).args =
        some ([.verum, .inList (.column ⟨"memo", "id"⟩) (ids.map idArg)], []) := by
    have positional : Positional (pushIn ⟨"memo", "id"⟩ (ids.map idArg) ⟨[.verum], []⟩) :=
      (pushIn_pushes ⟨"memo", "id"⟩ (ids.map idArg)).positional _ rfl
    rw [positional.bindAll]
    simp [pushIn, SqlCondition.map, placeholdersFrom_literal]
    rfl
  have known : forall joined, joined ∈ db.joinedMemos ->
      conjunctionTruth env.rules joined.row
        [.verum, .inList (.column ⟨"memo", "id"⟩) (ids.map idArg)] =
          .ok (.ofBool (ids.contains joined.memo.id)) := by
    intro joined _
    have listed : SqlCondition.eval env.rules .sqlite joined.row
        (.inList (.column ⟨"memo", "id"⟩) (ids.map idArg)) =
          .ok (.ofBool (ids.contains joined.memo.id)) := by
      rw [← anyEqual_ids env.rules]
      simp [SqlCondition.eval, idArg, Arg.value, Function.comp_def]
      rfl
    rw [conjunctionTruth, conjunctionTruth, listed]
    cases ids.contains joined.memo.id <;> rfl
  refine ⟨_, listMemos_of_rows _ (whereClause_ids env.engine some_) bound (selectRows_of_known known), ?_⟩
  simp [FindMemo.page, List.mem_mergeSort]

/-- What is looked up for some ids is what the table has under them. -/
theorem listMemosByID_eq (env : Environment) (now : Int) (keyed : db.Keyed) (ids : List Nat) :
    Exists fun lookup => listMemosByID env now db ids = .ok lookup ∧
      forall id, lookup id = if id ∈ ids then (memoById db id).map JoinedMemo.memo else none := by
  rw [listMemosByID]
  cases ids with
  | nil => exact ⟨_, rfl, fun id => by simp⟩
  | cons first rest =>
      have some_ : (first :: rest).eraseDups ≠ [] := by simp [List.eraseDups_cons]
      rcases listMemos_ids env now db some_ with ⟨rows, listed, members⟩
      simp only [List.isEmpty_cons, Bool.false_eq_true, if_false, listed]
      simp only [List.mem_eraseDups] at members
      refine ⟨_, rfl, fun id => ?_⟩
      dsimp only
      cases looked : (rows.map JoinedMemo.memo).find? fun memo => memo.id = id with
      | none =>
          have missing : forall joined, joined ∈ rows -> joined.memo.id ≠ id := fun joined member =>
            by simpa using List.find?_eq_none.mp looked joined.memo (List.mem_map_of_mem member)
          split
          case isTrue requested =>
            cases found : memoById db id with
            | none => rfl
            | some joined =>
                rcases memoById_eq_some found with ⟨stored, same⟩
                exact absurd same (missing joined ((members joined).mpr ⟨stored, same ▸ requested⟩))
          · rfl
      | some memo =>
          have same : memo.id = id := by simpa using List.find?_some looked
          rcases List.mem_map.mp (List.mem_of_find?_eq_some looked) with ⟨row, listedRow, rfl⟩
          rcases (members row).mp listedRow with ⟨stored, requested⟩
          rw [if_pos (same ▸ requested)]
          cases found : memoById db id with
          | none =>
              have missing := List.find?_eq_none.mp found row stored
              simp [same] at missing
          | some joined =>
              rcases memoById_eq_some found with ⟨joinedStored, sameJoined⟩
              rw [Option.map_some, memo_eq_of_id keyed stored joinedStored (same.trans sameJoined.symm)]

end Lookup

/-! ## The gate -/

/-- Both packages have this test. -/
def canViewerAccessMemo (viewer : Option User) (memo : Option Memo) : Bool :=
  match memo with
  | none => false
  | some memo =>
      if viewer.any isSuperUser then true
      else if memo.visibility = .isPrivate then viewer.any fun user => user.id = memo.creatorId
      else if memo.visibility = .isProtected then viewer.isSome
      else true

/-- The memo of an id, if there is one and the viewer passes the gate. -/
def accessible (viewer : User) (lookup : Nat -> Option Memo) (id : Nat) : Option Memo :=
  (lookup id).filter fun memo => canViewerAccessMemo (some viewer) (some memo)

/-! ## The list of notifications -/

/-- What a payload tells of a memo. -/
structure NotifiedMemo where
  name : String
  snippet : String
deriving DecidableEq

inductive NotificationPayload where
  | memoComment (memo related : NotifiedMemo)
  | memoMention (memo : NotifiedMemo) (related : Option NotifiedMemo)
deriving DecidableEq

structure UserNotification where
  name : String
  sender : String
  type : InboxMessageType
  payload : Option NotificationPayload
deriving DecidableEq

/-- The ids that a message refers to. -/
def collectInboxMemoIDs (message : InboxMessage) : List Nat :=
  match message.type with
  | .memoComment => (message.getMemoComment.map fun memos => [memos.memoId, memos.relatedMemoId]).getD []
  | .memoMention => (message.getMemoMention.map fun memos => [memos.memoId, memos.relatedMemoId]).getD []
  | .unspecified => []

section List

-- The Markdown service makes the snippets; its parser has no error path.
variable (snippet : String -> String)

def memoNotificationSnippet (memo : Memo) : String :=
  if memo.content = "" then "" else snippet memo.content

def notifiedMemo (memo : Memo) : NotifiedMemo :=
  ⟨buildMemoName memo.uid, memoNotificationSnippet snippet memo⟩

def convertMemoCommentNotificationPayload (viewer : User) (message : InboxMessage)
    (memosByID : Nat -> Option Memo) : Option NotificationPayload := do
  let memoComment ← message.getMemoComment
  let commentMemo ← accessible viewer memosByID memoComment.memoId
  let relatedMemo ← accessible viewer memosByID memoComment.relatedMemoId
  return .memoComment (notifiedMemo snippet commentMemo) (notifiedMemo snippet relatedMemo)

def convertMemoMentionNotificationPayload (viewer : User) (message : InboxMessage)
    (memosByID : Nat -> Option Memo) : Option NotificationPayload := do
  let memoMention ← message.getMemoMention
  let memo ← accessible viewer memosByID memoMention.memoId
  let relatedMemo := if memoMention.relatedMemoId ≠ 0 then
      accessible viewer memosByID memoMention.relatedMemoId
    else none
  return .memoMention (notifiedMemo snippet memo) (relatedMemo.map (notifiedMemo snippet))

/-- A notification of a row whose message is decoded. -/
def convertInboxToUserNotificationWithUsersAndMemos (db : Database) (row : Inbox)
    (message : InboxMessage) (viewer : User) (memosByID : Nat -> Option Memo) :
    Except Status UserNotification :=
  match userById db row.receiverId, userById db row.senderId with
  | none, _ => .error ⟨.notFound, "notification receiver not found"⟩
  | some _, none => .error ⟨.notFound, "notification sender not found"⟩
  | some receiver, some sender =>
      .ok {
        name := "users/" ++ receiver.username ++ "/notifications/" ++ toString row.id
        sender := "users/" ++ sender.username
        type := message.type
        payload := match message.type with
          | .memoComment => convertMemoCommentNotificationPayload snippet viewer message memosByID
          | .memoMention => convertMemoMentionNotificationPayload snippet viewer message memosByID
          | .unspecified => none }

def convertInboxToUserNotification (env : Environment) (now : Int) (db : Database) (row : Inbox)
    (message : InboxMessage) (viewer : User) : Except Status UserNotification :=
  match listMemosByID env now db (collectInboxMemoIDs message) with
  | .error cause => .error ⟨.internal, "failed to list notification memos: " ++ cause⟩
  | .ok memosByID =>
      convertInboxToUserNotificationWithUsersAndMemos snippet db row message viewer memosByID

/-- The decoded rows of a receiver. -/
def listInboxes (protojson : Protojson) (db : Database) (receiverId : Nat) :
    Except String (List (Inbox × InboxMessage)) :=
  (db.inbox.filter fun row => row.receiverId = receiverId).mapM fun row =>
    (fun message => (row, message)) <$> protojson.inboxMessage row.message

/-- A row whose users are gone and a row of no known type are skipped. -/
def convertInboxes (db : Database) (viewer : User) (memosByID : Nat -> Option Memo) :
    List (Inbox × InboxMessage) -> Except Status (List UserNotification)
  | [] => .ok []
  | (row, message) :: rest =>
      match convertInboxToUserNotificationWithUsersAndMemos snippet db row message viewer memosByID with
      | .error status =>
          if status.code = .notFound then convertInboxes db viewer memosByID rest
          else .error ⟨.internal, "failed to convert inbox: " ++ status.message⟩
      | .ok notification =>
          (fun others => if notification.type = .unspecified then others else notification :: others) <$>
            convertInboxes db viewer memosByID rest

/-- `ListUserNotifications` of the user that the parent resolves to. -/
def listUserNotifications (env : Environment) (now : Int) (protojson : Protojson) (db : Database)
    (userId : Nat) (parent : Except String User) : Except Status (List UserNotification) := do
  let user ← orStatus .invalidArgument "invalid user name: " parent
  match ← orStatus .internal "failed to get current user: " (fetchCurrentUser db userId) with
  | none => .error ⟨.unauthenticated, "user not authenticated"⟩
  | some currentUser =>
      if currentUser.id ≠ user.id then .error ⟨.permissionDenied, "permission denied"⟩
      else do
        let inboxes ← orStatus .internal "failed to list inboxes: " (listInboxes protojson db user.id)
        let memosByID ← orStatus .internal "failed to list notification memos: "
          (listMemosByID env now db (inboxes.flatMap fun inbox => collectInboxMemoIDs inbox.2))
        convertInboxes snippet db currentUser memosByID inboxes

end List

/-! ## E-mails -/

/-- The columns of a user that only e-mails need. -/
structure Contact where
  email : String
  nickname : String

/-- The settings of the instance that decide about e-mails. -/
structure EmailSetting where
  enabled : Bool
  smtpHost : String
  smtpPort : Int
  fromEmail : String
  replyTo : String

/-- `Validate` of the SMTP configuration. -/
def EmailSetting.validate (setting : EmailSetting) : Except String Unit :=
  if setting.smtpHost = "" then .error "SMTP host is required"
  else if setting.smtpPort ≤ 0 ∨ 65535 < setting.smtpPort then
    .error "SMTP port must be between 1 and 65535"
  else if setting.fromEmail = "" then .error "from email is required"
  else .ok ()

/-- What surrounds the tables when an e-mail is made. -/
structure Mailing where
  setting : Option EmailSetting
  instanceUrl : String
  contacts : Nat -> Contact

/-- `strings.TrimSpace(text) == ""` -/
def isBlank (text : String) : Bool := text.toList.all isSpace

/-- The address of the instance without white space around it and without
trailing slashes. -/
def Mailing.baseURL (mailing : Mailing) : String :=
  let trimmed := ((mailing.instanceUrl.toList.dropWhile isSpace).reverse.dropWhile isSpace).reverse
  String.ofList (trimmed.reverse.dropWhile (· = '/')).reverse

/-- The link of an e-mail. -/
inductive MemoUrl where
  | memo (uid : String)
  | comment (relatedUid commentUid : String)
deriving DecidableEq

def MemoUrl.text (baseURL : String) : MemoUrl -> String
  | .memo uid => baseURL ++ "/memos/" ++ uid
  | .comment relatedUid commentUid => baseURL ++ "/memos/" ++ relatedUid ++ "#" ++ commentUid

structure EmailMessage where
  recipient : String
  subject : String
  greeting : List String
  url : MemoUrl
  closing : String
  replyTo : String
deriving DecidableEq

def EmailMessage.body (baseURL : String) (message : EmailMessage) : String :=
  "\n".intercalate (message.greeting ++ ["", "Open in Memos:", message.url.text baseURL, "", message.closing])

def displayNameForEmail (mailing : Mailing) (user : User) : String :=
  if !isBlank (mailing.contacts user.id).nickname then (mailing.contacts user.id).nickname
  else if !isBlank user.username then user.username
  else "there"

def Mailing.memoURL (mailing : Mailing) (memo : Memo) : Option MemoUrl :=
  if memo.uid = "" ∨ mailing.baseURL = "" then none else some (.memo memo.uid)

def Mailing.memoCommentURL (mailing : Mailing) (relatedMemo commentMemo : Memo) : Option MemoUrl :=
  if relatedMemo.uid = "" ∨ commentMemo.uid = "" ∨ mailing.baseURL = "" then none
  else some (.comment relatedMemo.uid commentMemo.uid)

section Mail

variable (mailing : Mailing)

def buildMemoCommentEmailMessage (message : InboxMessage) (receiver : User) (senderName : String)
    (memosByID : Nat -> Option Memo) : Option EmailMessage := do
  let payload ← message.getMemoComment
  let commentMemo ← accessible receiver memosByID payload.memoId
  let relatedMemo ← accessible receiver memosByID payload.relatedMemoId
  let url ← mailing.memoCommentURL relatedMemo commentMemo
  return {
    recipient := (mailing.contacts receiver.id).email
    subject := "[Memos] " ++ senderName ++ " commented on your memo"
    greeting := ["Hi " ++ displayNameForEmail mailing receiver ++ ",", "",
      senderName ++ " commented on your memo."]
    url := url
    closing := "You are receiving this because you own this memo."
    replyTo := "" }

def buildMemoMentionEmailMessage (message : InboxMessage) (receiver : User) (senderName : String)
    (memosByID : Nat -> Option Memo) : Option EmailMessage := do
  let payload ← message.getMemoMention
  let memo ← accessible receiver memosByID payload.memoId
  let url ← mailing.memoURL memo
  return {
    recipient := (mailing.contacts receiver.id).email
    subject := "[Memos] " ++ senderName ++ " mentioned you in a memo"
    greeting := ["Hi " ++ displayNameForEmail mailing receiver ++ ",", "",
      senderName ++ " mentioned you in a memo."]
    url := url
    closing := "You are receiving this because you were mentioned in this memo."
    replyTo := "" }

def buildInboxEmailMessage (message : InboxMessage) (receiver sender : User)
    (memosByID : Nat -> Option Memo) : Option EmailMessage :=
  match message.type with
  | .memoComment =>
      buildMemoCommentEmailMessage mailing message receiver (displayNameForEmail mailing sender) memosByID
  | .memoMention =>
      buildMemoMentionEmailMessage mailing message receiver (displayNameForEmail mailing sender) memosByID
  | .unspecified => none

/-- `listMemosByID` of the dispatcher, which leaves out the id zero. -/
def listMailedMemosByID (env : Environment) (now : Int) (db : Database) (ids : List Nat) :
    Except String (Nat -> Option Memo) :=
  listMemosByID env now db (ids.filter fun id => id ≠ 0)

/-- The e-mail that is sent for a row, if any. -/
def dispatchInboxEmail (env : Environment) (now : Int) (db : Database) (row : Inbox)
    (message : InboxMessage) : Except String (Option EmailMessage) :=
  match mailing.setting with
  | none => .ok none
  | some setting =>
      if !setting.enabled ∨ mailing.baseURL = "" then .ok none
      else match userById db row.receiverId, userById db row.senderId with
        | some receiver, some sender =>
            if isBlank (mailing.contacts receiver.id).email then .ok none
            else do
              let memosByID ← listMailedMemosByID env now db (collectInboxMemoIDs message)
              match buildInboxEmailMessage mailing message receiver sender memosByID with
              | none => .ok none
              | some mail => do
                  setting.validate
                  return some { mail with replyTo := setting.replyTo }
        | _, _ => .ok none

end Mail

/-! ## What a row tells -/

def NotificationPayload.memos : NotificationPayload -> List NotifiedMemo
  | .memoComment memo related => [memo, related]
  | .memoMention memo related => memo :: related.toList

/-- The memos of the payload. -/
def UserNotification.told (notification : UserNotification) : List NotifiedMemo :=
  (notification.payload.map NotificationPayload.memos).getD []

/-- The payload has the name of the memo, and with it the snippet. -/
def UserNotification.Names (notification : UserNotification) (memo : Memo) : Prop :=
  buildMemoName memo.uid ∈ notification.told.map NotifiedMemo.name

def MemoUrl.uids : MemoUrl -> List String
  | .memo uid => [uid]
  | .comment relatedUid commentUid => [relatedUid, commentUid]

/-- The link of the e-mail has the uid of the memo. -/
def EmailMessage.Names (mail : EmailMessage) (memo : Memo) : Prop := memo.uid ∈ mail.url.uids

/-- A row tells its receiver of a memo, in a notification or by e-mail. -/
def Tells (env : Environment) (now : Int) (snippet : String -> String) (mailing : Mailing)
    (db : Database) (row : Inbox) (message : InboxMessage) (memo : Memo) : Prop :=
  (Exists fun viewer => fetchCurrentUser db row.receiverId = .ok (some viewer) ∧
    Exists fun notification =>
      convertInboxToUserNotification snippet env now db row message viewer = .ok notification ∧
        notification.Names memo) ∨
  Exists fun mail => dispatchInboxEmail mailing env now db row message = .ok (some mail) ∧ mail.Names memo

/-- The memo that the table has under an id. -/
def storedMemo (db : Database) (id : Nat) : Option Memo := (memoById db id).map JoinedMemo.memo

/-- The two memos of a comment, if the gate lets both through. -/
def commentMemos (viewer : User) (lookup : Nat -> Option Memo) (message : InboxMessage) : List Memo :=
  (do let memos ← message.getMemoComment
      let commentMemo ← accessible viewer lookup memos.memoId
      let relatedMemo ← accessible viewer lookup memos.relatedMemoId
      return [commentMemo, relatedMemo] : Option (List Memo)).getD []

/-- The memo of a mention, if the gate lets it through. -/
def mentionMemos (viewer : User) (lookup : Nat -> Option Memo) (message : InboxMessage) : List Memo :=
  (do let memos ← message.getMemoMention
      let memo ← accessible viewer lookup memos.memoId
      return [memo] : Option (List Memo)).getD []

/-- The related memo of a mention, if the gate lets both through. -/
def mentionRelated (viewer : User) (lookup : Nat -> Option Memo) (message : InboxMessage) : List Memo :=
  (do let memos ← message.getMemoMention
      let _ ← accessible viewer lookup memos.memoId
      let related ← accessible viewer lookup memos.relatedMemoId
      return if memos.relatedMemoId = 0 then [] else [related] : Option (List Memo)).getD []

/-- The memos that the gate lets into a notification. -/
def shownMemos (viewer : User) (lookup : Nat -> Option Memo) (message : InboxMessage) : List Memo :=
  match message.type with
  | .memoComment => commentMemos viewer lookup message
  | .memoMention => mentionMemos viewer lookup message ++ mentionRelated viewer lookup message
  | .unspecified => []

/-- The memos that the gate lets into an e-mail. -/
def mailedMemos (viewer : User) (lookup : Nat -> Option Memo) (message : InboxMessage) : List Memo :=
  match message.type with
  | .memoComment => commentMemos viewer lookup message
  | .memoMention => mentionMemos viewer lookup message
  | .unspecified => []

variable {viewer : User} {message : InboxMessage} {snippet : String -> String} {row : Inbox}
  {lookup : Nat -> Option Memo} {memo : Memo} {mailing : Mailing}

/-- Lookups that agree on the ids of a message show and mail the same memos. -/
theorem memos_congr {first second : Nat -> Option Memo}
    (same : forall id, id ∈ collectInboxMemoIDs message -> first id = second id) :
    shownMemos viewer first message = shownMemos viewer second message ∧
      mailedMemos viewer first message = mailedMemos viewer second message := by
  rw [shownMemos, shownMemos, mailedMemos, mailedMemos]
  rw [collectInboxMemoIDs] at same
  cases type : message.type with
  | unspecified => exact ⟨rfl, rfl⟩
  | memoComment =>
      cases payload : message.getMemoComment with
      | none => simp [commentMemos, payload]
      | some memos =>
          simp [type, payload] at same
          simp [commentMemos, accessible, payload, same.1, same.2]
  | memoMention =>
      cases payload : message.getMemoMention with
      | none => simp [mentionMemos, mentionRelated, payload]
      | some memos =>
          simp [type, payload] at same
          simp [mentionMemos, mentionRelated, accessible, payload, same.1, same.2]

/-- A notification tells of the shown memos. -/
theorem told_convertInbox {db : Database} {notification : UserNotification}
    (success : convertInboxToUserNotificationWithUsersAndMemos snippet db row message viewer lookup =
      .ok notification) :
    notification.told = (shownMemos viewer lookup message).map (notifiedMemo snippet) := by
  rw [convertInboxToUserNotificationWithUsersAndMemos] at success
  split at success
  · cases success
  · cases success
  · cases success
    rw [UserNotification.told, shownMemos]
    cases message.type with
    | unspecified => rfl
    | memoComment =>
        dsimp only
        rw [convertMemoCommentNotificationPayload, commentMemos]
        cases message.getMemoComment with
        | none => rfl
        | some memos =>
            simp only [Option.bind_eq_bind, Option.bind_some]
            cases accessible viewer lookup memos.memoId with
            | none => rfl
            | some commentMemo =>
                cases accessible viewer lookup memos.relatedMemoId <;> rfl
    | memoMention =>
        dsimp only
        rw [convertMemoMentionNotificationPayload, mentionMemos, mentionRelated]
        cases message.getMemoMention with
        | none => rfl
        | some memos =>
            simp only [Option.bind_eq_bind, Option.bind_some]
            cases accessible viewer lookup memos.memoId with
            | none => rfl
            | some memo =>
                by_cases zero : memos.relatedMemoId = 0
                · simp [zero, NotificationPayload.memos]
                  cases accessible viewer lookup 0 <;> rfl
                · cases accessible viewer lookup memos.relatedMemoId <;>
                    simp [zero, NotificationPayload.memos]

variable {env : Environment} {now : Int} {db : Database}

theorem accessible_eq_some {id : Nat} :
    accessible viewer lookup id = some memo ↔
      lookup id = some memo ∧ canViewerAccessMemo (some viewer) (some memo) = true := by
  simp [accessible]

theorem storedMemo_mem {id : Nat} (found : storedMemo db id = some memo) :
    memo ∈ db.memos := by
  rcases Option.map_eq_some_iff.mp found with ⟨joined, looked, rfl⟩
  exact Database.mem_joinedMemos (memoById_eq_some looked).1

/-- A shown memo comes from the lookup, through the gate. -/
theorem mem_shownMemos (shown : memo ∈ shownMemos viewer lookup message) :
    (Exists fun id => lookup id = some memo) ∧ canViewerAccessMemo (some viewer) (some memo) = true := by
  have single : forall id other, accessible viewer lookup id = some other -> memo = other ->
      (Exists fun id => lookup id = some memo) ∧
        canViewerAccessMemo (some viewer) (some memo) = true := by
    rintro id other found rfl
    exact ⟨⟨id, (accessible_eq_some.mp found).1⟩, (accessible_eq_some.mp found).2⟩
  rw [shownMemos] at shown
  cases type : message.type with
  | unspecified => simp [type] at shown
  | memoComment =>
      simp only [type, commentMemos] at shown
      cases payload : message.getMemoComment with
      | none => simp [payload] at shown
      | some memos =>
          cases first : accessible viewer lookup memos.memoId with
          | none => simp [payload, first] at shown
          | some commentMemo =>
              cases second : accessible viewer lookup memos.relatedMemoId with
              | none => simp [payload, first, second] at shown
              | some relatedMemo =>
                  simp [payload, first, second] at shown
                  rcases shown with same | same
                  · exact single _ _ first same
                  · exact single _ _ second same
  | memoMention =>
      simp only [type, mentionMemos, mentionRelated, List.mem_append] at shown
      cases payload : message.getMemoMention with
      | none => simp [payload] at shown
      | some memos =>
          cases first : accessible viewer lookup memos.memoId with
          | none => simp [payload, first] at shown
          | some mentioned =>
              cases second : accessible viewer lookup memos.relatedMemoId with
              | none =>
                  simp [payload, first, second] at shown
                  exact single _ _ first shown
              | some relatedMemo =>
                  simp [payload, first, second] at shown
                  rcases shown with same | ⟨_, same⟩
                  · exact single _ _ first same
                  · exact single _ _ second same

theorem mailedMemos_shown (mailed : memo ∈ mailedMemos viewer lookup message) :
    memo ∈ shownMemos viewer lookup message := by
  rw [mailedMemos] at mailed
  rw [shownMemos]
  cases type : message.type with
  | unspecified => simp [type] at mailed
  | memoComment => simpa [type] using mailed
  | memoMention =>
      simp only [type] at mailed
      exact List.mem_append_left _ mailed

/-- The name of a stored memo stands among the told ones only for itself. -/
theorem name_mem_iff (keyed : db.Keyed) {memos : List Memo} (stored : forall memo, memo ∈ memos -> memo ∈ db.memos)
    (member : memo ∈ db.memos) :
    buildMemoName memo.uid ∈ (memos.map (notifiedMemo snippet)).map NotifiedMemo.name ↔
      memo ∈ memos := by
  simp only [List.map_map, List.mem_map, Function.comp_def, notifiedMemo]
  constructor
  · rintro ⟨other, told, same⟩
    simp only [buildMemoName, String.append_right_inj] at same
    rwa [← eq_of_nodup_map keyed.memoUids (stored other told) member same]
  · exact fun told => ⟨memo, told, rfl⟩

/-- A notification of a row is made if its users are there, and names the shown
memos. -/
theorem notification_names_iff (keyed : db.Keyed) (member : memo ∈ db.memos) :
    (Exists fun notification =>
      convertInboxToUserNotification snippet env now db row message viewer = .ok notification ∧
        notification.Names memo) ↔
      ((userById db row.receiverId).isSome = true ∧ (userById db row.senderId).isSome = true) ∧
        memo ∈ shownMemos viewer (storedMemo db) message := by
  rcases listMemosByID_eq env now keyed (collectInboxMemoIDs message) with ⟨lookup, listed, agrees⟩
  have shown : shownMemos viewer lookup message = shownMemos viewer (storedMemo db) message :=
    (memos_congr fun id member => by rw [agrees, if_pos member, storedMemo]).1
  have stored : forall other, other ∈ shownMemos viewer (storedMemo db) message -> other ∈ db.memos := by
    intro other told
    rcases (mem_shownMemos told).1 with ⟨id, found⟩
    exact storedMemo_mem found
  rw [convertInboxToUserNotification, listed]
  constructor
  · rintro ⟨notification, success, names⟩
    rw [UserNotification.Names, told_convertInbox success, shown, name_mem_iff keyed stored member] at names
    refine ⟨?_, names⟩
    simp only [convertInboxToUserNotificationWithUsersAndMemos] at success
    split at success
    · cases success
    · cases success
    case h_3 receiver sender first second => simp [first, second]
  · rintro ⟨⟨first, second⟩, told⟩
    rcases Option.isSome_iff_exists.mp first with ⟨receiver, receiverFound⟩
    rcases Option.isSome_iff_exists.mp second with ⟨sender, senderFound⟩
    have success : Exists fun notification => convertInboxToUserNotificationWithUsersAndMemos snippet
        db row message viewer lookup = .ok notification := by
      simp only [convertInboxToUserNotificationWithUsersAndMemos, receiverFound, senderFound]
      exact ⟨_, rfl⟩
    rcases success with ⟨notification, success⟩
    refine ⟨notification, success, ?_⟩
    rw [UserNotification.Names, told_convertInbox success, shown, name_mem_iff keyed stored member]
    exact told

/-! ## E-mails that are sent -/

/-- Whatever the row is about, an e-mail to the receiver goes out. -/
def Mailing.Sends (mailing : Mailing) (receiver : User) : Prop :=
  Exists fun setting => mailing.setting = some setting ∧ setting.enabled = true ∧
    mailing.baseURL ≠ "" ∧ isBlank (mailing.contacts receiver.id).email = false ∧
    setting.validate = .ok ()

/-- The dispatcher finds no memo under the id zero. -/
def mailLookup (db : Database) (id : Nat) : Option Memo :=
  if id = 0 then none else storedMemo db id

/-- An e-mail is made if the gate lets memos through that have links, and its
link names them. -/
theorem buildInboxEmailMessage_names (addressed : mailing.baseURL ≠ "") {receiver sender : User} {uid : String} :
    (Exists fun mail => buildInboxEmailMessage mailing message receiver sender lookup = some mail ∧
      uid ∈ mail.url.uids) ↔
      (forall memo, memo ∈ mailedMemos receiver lookup message -> memo.uid ≠ "") ∧
        uid ∈ (mailedMemos receiver lookup message).map Memo.uid := by
  rw [buildInboxEmailMessage, mailedMemos]
  cases message.type with
  | unspecified => simp
  | memoComment =>
      simp only [buildMemoCommentEmailMessage, commentMemos]
      cases message.getMemoComment with
      | none => simp
      | some memos =>
          cases first : accessible receiver lookup memos.memoId with
          | none => simp [first]
          | some commentMemo =>
              cases second : accessible receiver lookup memos.relatedMemoId with
              | none => simp [first, second]
              | some relatedMemo =>
                  by_cases linked : relatedMemo.uid = "" ∨ commentMemo.uid = ""
                  · rcases linked with empty | empty <;>
                      simp [first, second, Mailing.memoCommentURL, empty]
                  · rw [not_or] at linked
                    simp [first, second, Mailing.memoCommentURL, linked, addressed, MemoUrl.uids, or_comm]
  | memoMention =>
      simp only [buildMemoMentionEmailMessage, mentionMemos]
      cases message.getMemoMention with
      | none => simp
      | some memos =>
          cases first : accessible receiver lookup memos.memoId with
          | none => simp [first]
          | some memo =>
              by_cases linked : memo.uid = ""
              · simp [first, Mailing.memoURL, linked]
              · simp [first, Mailing.memoURL, linked, addressed, MemoUrl.uids]

theorem buildInboxEmailMessage_uids {receiver sender : User} (keyed : db.Keyed)
    (stored : forall other, other ∈ mailedMemos receiver lookup message -> other ∈ db.memos)
    (member : memo ∈ db.memos) (addressed : mailing.baseURL ≠ "") :
    (Exists fun mail => buildInboxEmailMessage mailing message receiver sender lookup = some mail ∧
      mail.Names memo) ↔
      (forall other, other ∈ mailedMemos receiver lookup message -> other.uid ≠ "") ∧
        memo ∈ mailedMemos receiver lookup message := by
  have named : memo.uid ∈ (mailedMemos receiver lookup message).map Memo.uid ↔
      memo ∈ mailedMemos receiver lookup message := by
    constructor
    · intro listed
      rcases List.mem_map.mp listed with ⟨other, told, same⟩
      rwa [← eq_of_nodup_map keyed.memoUids (stored other told) member same]
    · exact List.mem_map_of_mem
  rw [← named]
  exact buildInboxEmailMessage_names addressed

/-- An e-mail of a row goes out if its users are there and e-mails are sent at
all, and names the mailed memos. -/
theorem mail_names_iff (keyed : db.Keyed) (member : memo ∈ db.memos) :
    (Exists fun mail => dispatchInboxEmail mailing env now db row message = .ok (some mail) ∧
      mail.Names memo) ↔
      Exists fun receiver => userById db row.receiverId = some receiver ∧
        (userById db row.senderId).isSome = true ∧ mailing.Sends receiver ∧
        (forall other, other ∈ mailedMemos receiver (mailLookup db) message -> other.uid ≠ "") ∧
        memo ∈ mailedMemos receiver (mailLookup db) message := by
  rcases listMemosByID_eq env now keyed ((collectInboxMemoIDs message).filter fun id => id ≠ 0) with
    ⟨lookup, listed, agrees⟩
  have fetched : listMailedMemosByID env now db (collectInboxMemoIDs message) = .ok lookup := listed
  have same : forall receiver, mailedMemos receiver lookup message =
      mailedMemos receiver (mailLookup db) message := by
    intro receiver
    refine (memos_congr ?_).2
    intro id collected
    rw [agrees, mailLookup, storedMemo]
    by_cases zero : id = 0 <;> simp [zero, collected]
  have stored : forall receiver other, other ∈ mailedMemos receiver (mailLookup db) message ->
      other ∈ db.memos := by
    intro receiver other told
    rcases (mem_shownMemos (mailedMemos_shown told)).1 with ⟨id, found⟩
    rw [mailLookup] at found
    split at found
    · cases found
    · exact storedMemo_mem found
  constructor
  · rintro ⟨mail, sent, names⟩
    rw [dispatchInboxEmail] at sent
    split at sent
    · cases sent
    case h_2 setting configured =>
      split at sent
      · cases sent
      case isFalse switched =>
        simp only [Bool.not_eq_true', not_or, Bool.not_eq_false] at switched
        split at sent
        case h_1 receiver sender receiverFound senderFound =>
          split at sent
          · cases sent
          case isFalse address =>
            simp only [fetched, ok_bind] at sent
            split at sent
            · cases sent
            case h_2 built made =>
              rcases bind_eq_ok.mp sent with ⟨_, valid, finished⟩
              cases finished
              have made : Exists fun mail => buildInboxEmailMessage mailing message receiver sender
                  lookup = some mail ∧ mail.Names memo := ⟨built, made, names⟩
              rw [buildInboxEmailMessage_uids keyed (same receiver ▸ stored receiver) member switched.2,
                same receiver] at made
              exact ⟨receiver, receiverFound, by simp [senderFound], ⟨setting, configured, switched.1,
                switched.2, by simpa using address, valid⟩, made⟩
        · cases sent
  · rintro ⟨receiver, receiverFound, senderFound, ⟨setting, configured, enabled, addressed, address,
      valid⟩, made⟩
    rcases Option.isSome_iff_exists.mp senderFound with ⟨sender, senderFound⟩
    rw [← same receiver] at made
    have built : Exists fun mail => buildInboxEmailMessage mailing message receiver sender lookup =
        some mail ∧ mail.Names memo :=
      (buildInboxEmailMessage_uids keyed (same receiver ▸ stored receiver) member addressed).mpr made
    rcases built with ⟨mail, built, names⟩
    refine ⟨{ mail with replyTo := setting.replyTo }, ?_, names⟩
    simp [dispatchInboxEmail, configured, enabled, addressed, receiverFound, senderFound, address,
      fetched, ok_bind, built, valid, pure, Except.pure]

/-! ## The list -/

theorem fetchCurrentUser_userById {userId : Nat} (caller : fetchCurrentUser db userId = .ok (some viewer)) :
    userById db userId = some viewer := by
  rw [fetchCurrentUser] at caller
  split at caller
  · cases caller
  · split at caller
    · cases caller
    case h_2 user found =>
      split at caller
      · cases caller
      · cases caller
        exact found

theorem convertInboxes_mem {inboxes : List (Inbox × InboxMessage)} {notifications : List UserNotification}
    {notification : UserNotification} (success : convertInboxes snippet db viewer lookup inboxes = .ok notifications)
    (member : notification ∈ notifications) :
    Exists fun inbox => inbox ∈ inboxes ∧
      convertInboxToUserNotificationWithUsersAndMemos snippet db inbox.1 inbox.2 viewer lookup =
        .ok notification := by
  induction inboxes generalizing notifications with
  | nil =>
      cases success
      cases member
  | cons inbox rest ih =>
      rw [convertInboxes] at success
      split at success
      · split at success
        · rcases ih success member with ⟨other, listed, converted⟩
          exact ⟨other, List.mem_cons_of_mem _ listed, converted⟩
        · cases success
      case h_2 made converted =>
        rcases map_eq_ok.mp success with ⟨others, remaining, rfl⟩
        have cases_ : notification = made ∨ notification ∈ others := by
          split at member
          · exact Or.inr member
          · exact List.mem_cons.mp member
        rcases cases_ with rfl | later
        · exact ⟨inbox, List.mem_cons_self, converted⟩
        · rcases ih remaining later with ⟨other, listed, otherConverted⟩
          exact ⟨other, List.mem_cons_of_mem _ listed, otherConverted⟩

/-- A notification that is made from a larger lookup tells the same. -/
theorem convertInbox_told (keyed : db.Keyed) {notification : UserNotification}
    (agrees : forall id, id ∈ collectInboxMemoIDs message -> lookup id = storedMemo db id)
    (success : convertInboxToUserNotificationWithUsersAndMemos snippet db row message viewer lookup =
      .ok notification) :
    Exists fun own => convertInboxToUserNotification snippet env now db row message viewer = .ok own ∧
      own.told = notification.told := by
  rcases listMemosByID_eq env now keyed (collectInboxMemoIDs message) with ⟨own, listed, ownAgrees⟩
  have same : shownMemos viewer own message = shownMemos viewer lookup message :=
    (memos_congr fun id member => by rw [ownAgrees, if_pos member, agrees id member, storedMemo]).1
  have made : Exists fun other => convertInboxToUserNotificationWithUsersAndMemos snippet db row message
      viewer own = .ok other := by
    rw [convertInboxToUserNotificationWithUsersAndMemos] at success ⊢
    split at success
    · cases success
    · cases success
    · exact ⟨_, rfl⟩
  rcases made with ⟨other, converted⟩
  refine ⟨other, by rw [convertInboxToUserNotification, listed]; exact converted, ?_⟩
  rw [told_convertInbox converted, told_convertInbox success, same]

/-- What the list tells of a memo, it tells in the notification of a row. -/
theorem listUserNotifications_tells {snippet : String -> String} {mailing : Mailing}
    {protojson : Protojson} {userId : Nat} {parent : Except String User}
    {notifications : List UserNotification} {notification : UserNotification} {memo : Memo} (keyed : db.Keyed)
    (success : listUserNotifications snippet env now protojson db userId parent = .ok notifications)
    (listed : notification ∈ notifications) (names : notification.Names memo) :
    Exists fun row => row ∈ db.inbox ∧ row.receiverId = userId ∧ Exists fun message =>
      protojson.inboxMessage row.message = .ok message ∧
        Tells env now snippet mailing db row message memo := by
  rcases bind_eq_ok.mp success with ⟨user, _, identifying⟩
  rcases bind_eq_ok.mp identifying with ⟨viewer, identified, continued⟩
  cases viewer with
  | none => cases continued
  | some viewer =>
      have caller : fetchCurrentUser db userId = .ok (some viewer) := orStatus_eq_ok identified
      have sameId : viewer.id = userId := by
        have kept := List.find?_some (fetchCurrentUser_userById caller)
        simpa using kept
      dsimp only at continued
      split at continued
      · cases continued
      case isFalse own =>
        rcases bind_eq_ok.mp continued with ⟨inboxes, rows, looking⟩
        rcases bind_eq_ok.mp looking with ⟨lookup, looked, converting⟩
        rcases convertInboxes_mem converting listed with ⟨⟨row, message⟩, member, converted⟩
        rcases exists_of_mem_mapM (orStatus_eq_ok rows) member with ⟨stored, selected, decoded⟩
        rcases map_eq_ok.mp decoded with ⟨_, decoded, same⟩
        cases same
        rcases List.mem_filter.mp selected with ⟨inTable, received⟩
        have receiver : row.receiverId = userId := by
          rw [← sameId, not_not.mp own]
          simpa using received
        refine ⟨row, inTable, receiver, message, decoded, Or.inl ⟨viewer, receiver ▸ caller, ?_⟩⟩
        have agrees : forall id, id ∈ collectInboxMemoIDs message -> lookup id = storedMemo db id := by
          intro id collected
          rcases listMemosByID_eq env now keyed (inboxes.flatMap fun inbox => collectInboxMemoIDs inbox.2)
            with ⟨other, same, agrees⟩
          rw [orStatus_eq_ok looked] at same
          cases same
          rw [agrees, if_pos (List.mem_flatMap.mpr ⟨_, member, collected⟩), storedMemo]
        rcases convertInbox_told keyed agrees converted with ⟨own, made, told⟩
        exact ⟨own, made, by rw [UserNotification.Names, told]; exact names⟩

/-! ## Readable memos -/

/-- A memo that the gate lets into a notification or an e-mail of the row. -/
def LetThrough (mailing : Mailing) (db : Database) (row : Inbox) (message : InboxMessage)
    (memo : Memo) : Prop :=
  (userById db row.senderId).isSome = true ∧
    ((Exists fun viewer => fetchCurrentUser db row.receiverId = .ok (some viewer) ∧
      memo ∈ shownMemos viewer (storedMemo db) message) ∨
    Exists fun receiver => userById db row.receiverId = some receiver ∧ mailing.Sends receiver ∧
      (forall other, other ∈ mailedMemos receiver (mailLookup db) message -> other.uid ≠ "") ∧
      memo ∈ mailedMemos receiver (mailLookup db) message)

/-- What the gate does not ask: a receiver who cannot sign in gets public memos
only, an archived memo goes to its creator, and the parent of a comment is
readable too. -/
structure StillReadable (db : Database) (receiverId : Nat) (memo : Memo) : Prop where
  signedIn : (forall viewer, fetchCurrentUser db receiverId ≠ .ok (some viewer)) ->
    memo.visibility = .isPublic
  archived : memo.rowStatus = .archived -> OwnedBy db receiverId memo
  parent : ParentAdmits db receiverId memo

theorem tells_iff (keyed : db.Keyed) (member : memo ∈ db.memos) :
    Tells env now snippet mailing db row message memo ↔ LetThrough mailing db row message memo := by
  rw [Tells, LetThrough, mail_names_iff keyed member]
  simp only [notification_names_iff keyed member]
  constructor
  · rintro (⟨viewer, caller, ⟨_, sender⟩, shown⟩ | ⟨receiver, found, sender, rest⟩)
    · exact ⟨sender, Or.inl ⟨viewer, caller, shown⟩⟩
    · exact ⟨sender, Or.inr ⟨receiver, found, rest⟩⟩
  · rintro ⟨sender, ⟨viewer, caller, shown⟩ | ⟨receiver, found, rest⟩⟩
    · exact Or.inl ⟨viewer, caller, ⟨by rw [fetchCurrentUser_userById caller]; rfl, sender⟩, shown⟩
    · exact Or.inr ⟨receiver, found, sender, rest⟩

/-- The gate asks for the visibility. -/
theorem canViewerAccessMemo_iff :
    canViewerAccessMemo (some viewer) (some memo) = true ↔
      (memo.visibility = .isPrivate -> memo.creatorId = viewer.id ∨ viewer.role = .admin) := by
  by_cases admin : viewer.role = .admin
  · simp [canViewerAccessMemo, isSuperUser, admin]
  · by_cases isPrivate : memo.visibility = .isPrivate
    · simp [canViewerAccessMemo, isSuperUser, admin, isPrivate, eq_comm]
    · simp [canViewerAccessMemo, isSuperUser, admin, isPrivate]

/-- Whoever is signed in sees what the gate lets through. -/
theorem visible_of_letThrough (through : LetThrough mailing db row message memo)
    (caller : fetchCurrentUser db row.receiverId = .ok (some viewer)) :
    VisibilityAdmits db row.receiverId memo := by
  have gate : canViewerAccessMemo (some viewer) (some memo) = true := by
    rcases through.2 with ⟨other, sameCaller, shown⟩ | ⟨receiver, found, _, _, mailed⟩
    · rw [caller] at sameCaller
      cases sameCaller
      exact (mem_shownMemos shown).2
    · rw [fetchCurrentUser_userById caller] at found
      cases found
      exact (mem_shownMemos (mailedMemos_shown mailed)).2
  exact visibilityAdmits_iff.mpr (Or.inr ⟨viewer, caller, canViewerAccessMemo_iff.mp gate⟩)

theorem stillReadable_of_admits {userId : Nat} (admits : Admits db userId memo) :
    StillReadable db userId memo := by
  rcases admitsAlone_iff.mp admits.self with ⟨visible, archived⟩
  refine ⟨fun absent => ?_, archived, admits.parent⟩
  rcases visibilityAdmits_iff.mp visible with isPublic | ⟨viewer, caller, _⟩
  · exact isPublic
  · exact absurd caller (absent viewer)

/-- A row tells its receiver of readable memos only, exactly if every memo that
the gate lets through is still readable. -/
theorem notifications_readable_iff (keyed : db.Keyed) (env : Environment) (now : Int)
    (snippet : String -> String) (mailing : Mailing) (row : Inbox) (message : InboxMessage) :
    (forall memo, memo ∈ db.memos -> Tells env now snippet mailing db row message memo ->
      Admits db row.receiverId memo) ↔
      forall memo, memo ∈ db.memos -> LetThrough mailing db row message memo ->
        StillReadable db row.receiverId memo := by
  constructor
  · intro readable memo member through
    exact stillReadable_of_admits (readable memo member ((tells_iff keyed member).mpr through))
  · intro current memo member told
    have through := (tells_iff keyed member).mp told
    have still := current memo member through
    refine ⟨admitsAlone_iff.mpr ⟨?_, still.archived⟩, still.parent⟩
    by_cases absent : forall viewer, fetchCurrentUser db row.receiverId ≠ .ok (some viewer)
    · exact visibilityAdmits_iff.mpr (Or.inl (still.signedIn absent))
    · rw [not_forall] at absent
      rcases absent with ⟨viewer, caller⟩
      exact visible_of_letThrough through (not_not.mp caller)

/-! ## An archived memo -/

def bob : User := ⟨2, .normal, "bob", .user⟩

/-- Bob was mentioned in the memo with id one. -/
def mentionRow : Inbox := ⟨1, 1, 2, ""⟩

def mentionMessage : InboxMessage := ⟨.memoMention, some (.memoMention ⟨1, 0⟩)⟩

def noMailing : Mailing := ⟨none, "", fun _ => ⟨"", ""⟩⟩

/-- A public memo, or one that its author has archived since. -/
def mentionDatabase (status : RowStatus) : Database where
  users := [alice, bob]
  memos := [{ privateMemo with visibility := .isPublic, rowStatus := status }]
  inbox := [mentionRow]

theorem mentionDatabase_keyed (status : RowStatus) : (mentionDatabase status).Keyed :=
  ⟨by simp [mentionDatabase], by simp [mentionDatabase]⟩

/-- The memo of `mentionDatabase`. -/
def mentionMemo (status : RowStatus) : Memo := { privateMemo with visibility := .isPublic, rowStatus := status }

theorem mention_told (status : RowStatus) :
    Tells anonymousEnvironment 0 id noMailing (mentionDatabase status) mentionRow mentionMessage (mentionMemo status) :=
  (tells_iff (mentionDatabase_keyed status) (List.mem_singleton.mpr rfl)).mpr
    ⟨rfl, Or.inl ⟨bob, rfl, List.mem_singleton.mpr rfl⟩⟩

theorem listUserNotifications_tells_mention : Exists fun row => Exists fun message =>
    Tells anonymousEnvironment 0 id noMailing (mentionDatabase .normal) row message
      (mentionMemo .normal) := by
  rcases listMemosByID_eq anonymousEnvironment 0 (mentionDatabase_keyed .normal) [1, 0] with
    ⟨lookup, looked, agrees⟩
  cases funext agrees
  have success : listUserNotifications id anonymousEnvironment 0
      ⟨fun _ => .ok mentionMessage, fun _ => .ok ()⟩ (mentionDatabase .normal) 2 (.ok bob) =
        .ok [⟨"users/bob/notifications/1", "users/alice", .memoMention,
          some (.memoMention (notifiedMemo id (mentionMemo .normal)) none)⟩] := by
    unfold listUserNotifications
    change orStatus .internal "failed to list notification memos: "
      (listMemosByID anonymousEnvironment 0 (mentionDatabase .normal) [1, 0]) >>= (fun lookup =>
        convertInboxes id (mentionDatabase .normal) bob lookup [(mentionRow, mentionMessage)]) = _
    rw [looked]
    rfl
  rcases listUserNotifications_tells (mentionDatabase_keyed .normal) success List.mem_cons_self
    List.mem_cons_self with ⟨row, _, _, message, _, told⟩
  exact ⟨row, message, told⟩

/-- The memo is readable while it is public. -/
theorem notifications_readable_mention :
    Tells anonymousEnvironment 0 id noMailing (mentionDatabase .normal) mentionRow mentionMessage
        (mentionMemo .normal) ∧
      Admits (mentionDatabase .normal) 2 (mentionMemo .normal) := by
  refine ⟨mention_told .normal, ?_⟩
  apply (notifications_readable_iff (mentionDatabase_keyed .normal) anonymousEnvironment 0 id noMailing
    mentionRow mentionMessage).mpr
  · intro memo member _
    rw [List.mem_singleton.mp member]
    refine ⟨fun _ => rfl, ?_, ?_⟩
    · intro archived
      cases archived
    · intro joined uid found parent
      cases found
      cases parent
  · exact List.mem_singleton.mpr rfl
  · exact mention_told .normal

/-- The notification goes on to tell of an archived memo. -/
theorem archived_mention_told :
    ¬ forall memo, memo ∈ (mentionDatabase .archived).memos ->
      Tells anonymousEnvironment 0 id noMailing (mentionDatabase .archived) mentionRow mentionMessage memo ->
        Admits (mentionDatabase .archived) 2 memo := by
  intro readable
  have still := stillReadable_of_admits
    (readable (mentionMemo .archived) (List.mem_singleton.mpr rfl) (mention_told .archived))
  rcases still.archived rfl with ⟨user, caller, own⟩
  cases caller
  revert own
  decide

end Notifications
end Service
end Memos
