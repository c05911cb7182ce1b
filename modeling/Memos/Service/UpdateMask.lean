import Memos.Service.AttachmentPasses
import Memos.Service.Broadcasts
import Memos.Service.Forest
import Memos.Service.MemoRelations
import Memos.Service.MentionInbox

namespace Memos
namespace Service
namespace UpdateMask

open Library Memos.Filter Store Handler
open MemoAttachments (linkedTo settled)
open MemoRelations (MayEdit rewritten)
open MentionInbox (Surroundings)
open AttachmentPages (MayChoose)
open AttachmentPasses (untimed)

/-!
# The update mask

`UpdateMemo` walks over the paths of its mask with the memo, its payload and
the previous content in its hands.  Two masks that name the same paths lead to
the same rows, unless a repeated path acts on what it has done before.
-/

/-! ## The handler -/

/-- What may differ between two runs from one state: the clock, and the order in
which the targets of mentions are iterated.  The order of attachments of one
second depends on the rows, and the runs find the same. -/
structure Circumstances where
  now : Int
  clock : Nat -> Nat -> Int
  iterate : List User -> List User
  iterate_perm : forall targets, (iterate targets).Perm targets

/-- The mentions, with the order of this run. -/
def Circumstances.surroundings (circumstances : Circumstances) (surroundings : Surroundings) : Surroundings :=
  { surroundings with iterate := circumstances.iterate, iterate_perm := circumstances.iterate_perm }

section Handler

variable (backend : Backend) (surroundings : Surroundings) (order : List Attachment -> List Attachment)
  (circumstances : Circumstances) (userId : Nat)

/-- What the path at a place of the mask finds. -/
def Circumstances.moment (place : Nat) : Moment :=
  ⟨circumstances.now, order, circumstances.clock place⟩

def updatePaths (user : User) (parentUid : Option String) (input : MemoInput) :
    Nat -> List String -> Updating -> Request Updating
  | _, [], state => pure state
  | place, path :: paths, state => do
      let next ← updatePath backend (circumstances.moment order place) user parentUid input state path
      updatePaths user parentUid input (place + 1) paths next

/-- The inbox rows of the mentions are only created when the content is updated. -/
def toldMentions (updated : JoinedMemo) (state : Updating) (db : Database) : Database :=
  if state.contentUpdated = true then
    MentionInbox.dispatchAfterUpdate (circumstances.surroundings surroundings) db updated state.previousContent
  else db

/-- The mentions are told best effort: a failure is only logged.  This is a run
in which none occurs. -/
def dispatchMentions (updated : JoinedMemo) (state : Updating) : Request Unit := fun world =>
  (.ok (), ⟨toldMentions surroundings circumstances updated state world.state, world.plans⟩)

/-- `UpdateMemo`, for a memo whose payload has this location.  The result is the
location that the payload has afterwards. -/
def updateMemo (location : Option Location) (name : String) (mask : List String) (input : MemoInput) :
    Request (Option Location) := do
  let uid ← memoUidOf name
  require (mask ≠ []) ⟨.invalidArgument, "update mask is required"⟩
  let joined ← memoOfUid uid (internal "failed to get memo: ") ⟨.notFound, "memo not found"⟩
  let user ← authenticated userId "failed to get current user"
  require (canModifyMemo user joined.memo) permissionDenied
  let state ← updatePaths backend order circumstances user joined.parentUid input 0 mask
    { update := { id := joined.memo.id }, memo := joined.memo, location := location }
  call (Store.updateMemo state.update) (internal "failed to update memo")
  let found ← Broadcasts.memoOfId joined.memo.id
  let updated ← Broadcasts.memoOfId found.memo.id
  respond backend updated.memo "failed to build updated memo state"
  dispatchMentions surroundings circumstances updated state
  return if state.update.payload.isSome then state.location else location

end Handler

/-! ## What a mask writes -/

section Written

variable (backend : Backend) (base : Database) (memo : Memo) (parentUid : Option String) (input : MemoInput)
  (now : Int) (mask : List String)

/-- The payload of the new content. -/
def extracted : MemoPayload :=
  match backend.rebuildMemoPayload input.content with
  | .ok payload => payload
  | .error _ => memo.payload

/-- A comment takes the visibility of its parent. -/
def newVisibility : Visibility :=
  match parentUid with
  | none => input.visibility
  | some uid => ((base.memos.find? fun row => row.uid = uid).map Memo.visibility).getD input.visibility

/-- The payload in the hands of the handler, less its location. -/
def newPayload : MemoPayload := if "content" ∈ mask then extracted backend memo input else memo.payload

/-- The columns that a mask writes. -/
def written : UpdateMemo where
  id := memo.id
  createdTs := if "create_time" ∈ mask then some (input.createTime.getD 0) else none
  updatedTs := if "update_time" ∈ mask then some (input.updateTime.getD now) else none
  rowStatus := if "state" ∈ mask then some input.state else none
  content := if "content" ∈ mask then some input.content else none
  visibility := if "visibility" ∈ mask then some (newVisibility base parentUid input) else none
  pinned := if "pinned" ∈ mask then some input.pinned else none
  payload :=
    if "content" ∈ mask ∨ "location" ∈ mask then some (newPayload backend memo input mask) else none

/-- The content that the handler compares the mentions with: a second `content`
overwrites it with the new one. -/
def comparedContent : String :=
  if mask.count "content" ≤ 1 then memo.content else input.content

/-- The state of the handler after the paths of a mask. -/
structure Progress (location : Option Location) (state : Updating) : Prop where
  update : state.update = written backend base memo parentUid input now mask
  held : state.memo =
    { memo with
      content := if "content" ∈ mask then input.content else memo.content
      payload := newPayload backend memo input mask }
  location : state.location = if "location" ∈ mask then input.location else location
  contentUpdated : state.contentUpdated = decide ("content" ∈ mask)
  previousContent : "content" ∈ mask -> state.previousContent = comparedContent memo input mask

end Written

/-! ## The walk -/

section Walk

variable {backend : Backend} {circumstances : Circumstances} {base : Database} {user : User} {memo : Memo}
  {parentUid : Option String} {input : MemoInput} {location : Option Location} {done : List String}
  {state : Updating}

theorem progress_start : Progress backend base memo parentUid input circumstances.now [] location
    { update := { id := memo.id }, memo := memo, location := location } where
  update := by simp [written]
  held := by simp [newPayload]
  location := by simp
  contentUpdated := by simp
  previousContent := fun impossible => absurd impossible List.not_mem_nil

/-- A path that writes nothing into the row of the memo. -/
theorem Progress.other {path : String} (others : path ≠ "content" ∧ path ≠ "visibility" ∧ path ≠ "pinned" ∧
      path ≠ "state" ∧ path ≠ "create_time" ∧ path ≠ "update_time" ∧ path ≠ "location")
    (progress : Progress backend base memo parentUid input circumstances.now done location state) :
    Progress backend base memo parentUid input circumstances.now (done ++ [path]) location state := by
  rcases others with ⟨content, visibility, pinned, rowState, createTime, updateTime, place⟩
  have same : forall column, column ≠ path -> (column ∈ done ++ [path] ↔ column ∈ done) := by
    intro column other
    simp [other]
  have count : (done ++ [path]).count "content" = done.count "content" := by
    rw [List.count_append, List.count_singleton]
    simp [content]
  have payload : newPayload backend memo input (done ++ [path]) = newPayload backend memo input done := by
    simp only [newPayload, same _ content.symm]
  refine ⟨?_, ?_, ?_, ?_, ?_⟩
  · rw [progress.update]
    simp only [written, payload, same _ content.symm, same _ visibility.symm, same _ pinned.symm,
      same _ rowState.symm, same _ createTime.symm, same _ updateTime.symm, same _ place.symm]
  · rw [progress.held, payload]
    simp only [same _ content.symm]
  · rw [progress.location]
    simp only [same _ place.symm]
  · rw [progress.contentUpdated]
    simp only [same _ content.symm]
  · intro updated
    rw [progress.previousContent ((same _ content.symm).mp updated), comparedContent, comparedContent, count]

/-- What a path leaves as it is when it only writes a column. -/
theorem Progress.column {path : String} {update : UpdateMemo} (content : path ≠ "content")
    (place : path ≠ "location")
    (progress : Progress backend base memo parentUid input circumstances.now done location state)
    (writes : update = written backend base memo parentUid input circumstances.now (done ++ [path])) :
    Progress backend base memo parentUid input circumstances.now (done ++ [path]) location
      { state with update := update } where
  update := writes
  held := by
    rw [progress.held]
    simp [newPayload, content.symm]
  location := by
    rw [progress.location]
    simp [place.symm]
  contentUpdated := by
    rw [progress.contentUpdated]
    simp [content.symm]
  previousContent := by
    intro updated
    have earlier : "content" ∈ done := by simpa [content.symm] using updated
    rw [progress.previousContent earlier, comparedContent, comparedContent, List.count_append,
      List.count_singleton]
    simp [content]

theorem Progress.content (progress : Progress backend base memo parentUid input circumstances.now done location state)
    {payload : MemoPayload} (rebuilt : backend.rebuildMemoPayload input.content = .ok payload) :
    Progress backend base memo parentUid input circumstances.now (done ++ ["content"]) location
      { state with
        update := { state.update with content := some input.content, payload := some payload }
        memo := { state.memo with content := input.content, payload := payload }
        previousContent := state.memo.content
        contentUpdated := true } where
  update := by
    rw [progress.update]
    simp [written, newPayload, extracted, rebuilt]
  held := by
    rw [progress.held]
    simp [newPayload, extracted, rebuilt]
  location := by
    rw [progress.location]
    simp
  contentUpdated := by simp
  previousContent := by
    intro _
    rw [progress.held, comparedContent, List.count_append, List.count_singleton]
    by_cases earlier : "content" ∈ done
    · have positive := List.count_pos_iff.mpr earlier
      rw [if_pos earlier, if_neg (by simp only [beq_self_eq_true, if_true]; omega)]
    · rw [if_neg earlier, List.count_eq_zero.mpr earlier]
      rfl

theorem Progress.place (progress : Progress backend base memo parentUid input circumstances.now done location state) :
    Progress backend base memo parentUid input circumstances.now (done ++ ["location"]) location
      { state with
        update := { state.update with payload := some state.memo.payload }
        location := input.location } where
  update := by
    rw [progress.update, progress.held]
    simp [written, newPayload]
  held := by
    rw [progress.held]
    simp [newPayload]
  location := by simp
  contentUpdated := by
    rw [progress.contentUpdated]
    simp
  previousContent := by
    intro updated
    have earlier : "content" ∈ done := by simpa using updated
    rw [progress.previousContent earlier, comparedContent, comparedContent, List.count_append,
      List.count_singleton]
    simp

end Walk

/-! ## The tables on the way -/

section Tables

variable {backend : Backend} {circumstances : Circumstances} {base : Database} {user : User} {memo : Memo}
  {parentUid : Option String} {input : MemoInput} {location : Option Location} {done : List String}
  {group : String -> String} {order : List Attachment -> List Attachment} {α : Type}

/-- The tables after the paths of a mask, before the row of the memo is
written. -/
structure Midway (backend : Backend) (order : List Attachment -> List Attachment)
    (group : String -> String) (base : Database) (memo : Memo) (input : MemoInput)
    (done : List String) (db : Database) : Prop where
  memos : db.memos = base.memos
  users : db.users = base.users
  inbox : db.inbox = base.inbox
  relations : db.relations =
    if "relations" ∈ done then rewritten base.memos memo.ref input.relations base.relations
    else base.relations
  passed : AttachmentPasses.Passed backend order group memo.id input.attachments base (done.count "attachments") db

/-- A path of another table leaves these tables. -/
theorem Midway.append {path : String} {db : Database} (midway : Midway backend order group base memo input done db)
    (relations : path ≠ "relations") (attachments : path ≠ "attachments") :
    Midway backend order group base memo input (done ++ [path]) db where
  memos := midway.memos
  users := midway.users
  inbox := midway.inbox
  relations := by
    rw [midway.relations]
    simp [relations.symm]
  passed := by
    rw [List.count_append, List.count_singleton]
    simp only [beq_iff_eq, if_neg attachments, Nat.add_zero]
    exact midway.passed

/-- What a handler does from one state it does from each of several. -/
theorem ends_each {pre : Database -> Prop} {handler : Request α} {post : α -> Database -> Prop}
    {failed : Status -> Database -> Prop}
    (valid : forall db, pre db -> Ends (fun state => state = db) handler post failed) :
    Ends pre handler post failed :=
  fun world given => valid world.state given world rfl

theorem ends_and {pre other : Database -> Prop} {handler : Request α} {post further : α -> Database -> Prop}
    (left : Ends pre handler post fun _ _ => True) (right : Ends other handler further fun _ _ => True) :
    Ends (fun db => pre db ∧ other db) handler (fun value db => post value db ∧ further value db)
      fun _ _ => True := by
  intro world given
  have ofLeft := left world given.1
  have ofRight := right world given.2
  rcases ran : handler world with ⟨outcome, after⟩
  rw [ran] at ofLeft ofRight
  cases outcome with
  | ok value => exact ⟨ofLeft, ofRight⟩
  | error status => trivial

/-- Setting the relations leaves these tables. -/
theorem ends_relations_frame {users : List User} {inbox : List Inbox} {attachments : List Attachment}
    {relations : List RelationInput} :
    Ends (fun db : Database => db.users = users ∧ db.inbox = inbox ∧ db.attachments = attachments)
      (setMemoRelationsInternal memo relations)
      (fun _ db => db.users = users ∧ db.inbox = inbox ∧ db.attachments = attachments)
      fun _ _ => True := by
  refine ends_bind (?_ : Ends _ _ (fun _ db => db.users = users ∧ db.inbox = inbox ∧
    db.attachments = attachments) _) fun _ => ?_
  · refine ends_weaken (ends_execute fun _ _ _ => trivial) (fun _ given => given) ?_ fun _ _ given => given
    rintro _ db ⟨before, given, rfl⟩
    exact given
  · refine triple_iff_ends.mp (triple_forEach fun relation _ => triple_iff_ends.mpr ?_)
    unfold setMemoRelation
    refine ends_ite (fun _ => ends_pure fun _ given => given) fun _ =>
      ends_ite (fun _ => ends_pure fun _ given => given) fun _ => ?_
    refine ends_bind (ends_lift fun _ _ _ _ => trivial) fun uid => ?_
    refine ends_bind (ends_query fun _ _ _ => trivial) fun row => ?_
    refine ends_bind (ends_found fun _ _ _ => trivial) fun related => ?_
    refine ends_weaken (ends_execute fun _ _ _ => trivial) (fun _ given => given) ?_ fun _ _ given => given
    rintro _ db ⟨before, given, rfl⟩
    split
    · exact given.1.1.1
    · exact given.1.1.1

theorem Midway.keys {db : Database} (midway : Midway backend order group base memo input done db) (keys : base.PrimaryKeys) :
    db.PrimaryKeys where
  memoIds := by
    rw [midway.memos]
    exact keys.memoIds
  memoUids := by
    rw [midway.memos]
    exact keys.memoUids
  attachmentIds := midway.passed.ids
  inboxIds := by
    rw [midway.inbox]
    exact keys.inboxIds

/-- The path of the relations. -/
theorem ends_relations (keyed : base.Keyed) {held : Memo} (same : held.ref = memo.ref) :
    Ends (Midway backend order group base memo input done) (setMemoRelationsInternal held input.relations)
      (fun _ => Midway backend order group base memo input (done ++ ["relations"])) fun _ _ => True := by
  refine ends_each fun db midway => ?_
  have rewrites := @MemoRelations.ends_setMemoRelationsInternal base held db.relations input.relations keyed
  have frame := @ends_relations_frame held db.users db.inbox db.attachments input.relations
  refine ends_weaken (ends_and rewrites frame) ?_ ?_ fun _ _ given => given
  · rintro _ rfl
    exact ⟨⟨midway.memos, rfl⟩, rfl, rfl, rfl⟩
  · rintro _ after ⟨⟨memos, relations⟩, users, inbox, attachments⟩
    refine ⟨memos, users.trans midway.users, inbox.trans midway.inbox, ?_, ?_⟩
    · have member : "relations" ∈ done ++ ["relations"] := by simp
      rw [relations, same, midway.relations]
      simp only [member, if_true]
      split
      · exact MemoRelations.rewritten_rewritten
      · rfl
    · have passed := midway.passed
      rw [List.count_append, List.count_singleton]
      exact passed.of_attachments attachments

/-- The path of the attachments. -/
theorem ends_attachments (keys : base.PrimaryKeys) {held : Memo} (same : held.id = memo.id)
    (grouped : forall row, backend.motionGroup row = group row.payload) (chosen : MayChoose order)
    {clock : Nat -> Int} :
    Ends (Midway backend order group base memo input done)
      (MemoAttachments.setMemoAttachmentsInternal backend order clock user held input.attachments)
      (fun _ => Midway backend order group base memo input (done ++ ["attachments"])) fun _ _ => True := by
  refine ends_each fun db midway => ?_
  refine ends_weaken MemoAttachments.ends_setMemoAttachmentsInternal (fun _ given => given) ?_
    fun _ _ _ => trivial
  rintro _ after ⟨requested, requests, _, _, rfl⟩
  have passed := @AttachmentPasses.Passed.settled group memo.id backend order clock base db
    input.attachments requested _ midway.passed requests (midway.keys keys) chosen grouped
  refine ⟨midway.memos, midway.users, midway.inbox, ?_, ?_⟩
  · rw [show (settled backend order clock db held.id requested).relations = db.relations from rfl,
      midway.relations]
    simp
  · rw [same, List.count_append, List.count_singleton]
    exact passed

end Tables

section Loop

variable {backend : Backend} {circumstances : Circumstances} {base : Database} {user : User} {memo : Memo}
  {parentUid : Option String} {input : MemoInput} {location : Option Location} {group : String -> String}
  {order : List Attachment -> List Attachment}

theorem ends_updatedVisibility (keyed : base.Keyed) {done : List String} :
    Ends (Midway backend order group base memo input done) (updatedVisibility parentUid input)
      (fun visibility db => Midway backend order group base memo input done db ∧
        visibility = newVisibility base parentUid input) fun _ _ => True := by
  unfold updatedVisibility newVisibility
  cases parentUid with
  | none => exact ends_pure fun _ given => ⟨given, rfl⟩
  | some uid =>
      refine ends_bind (ends_query fun _ _ _ => trivial) fun row => ?_
      refine ends_bind (ends_found fun _ _ _ => trivial) fun parent => ?_
      refine ends_pure ?_
      rintro db ⟨⟨midway, found⟩, rfl⟩
      have stored := MemoRelations.At.find keyed ⟨midway.memos, rfl⟩ (Except.ok.inj found)
      refine ⟨midway, ?_⟩
      dsimp only
      rw [stored]
      rfl

/-- One path keeps the walk on its way. -/
theorem ends_updatePath (keys : base.PrimaryKeys)
    (grouped : forall row, backend.motionGroup row = group row.payload) (chosen : MayChoose order)
    {done : List String} {state : Updating} {path : String}
    (progress : Progress backend base memo parentUid input circumstances.now done location state) (place : Nat) :
    Ends (Midway backend order group base memo input done)
      (updatePath backend (circumstances.moment order place) user parentUid input state path)
      (fun next db => Progress backend base memo parentUid input circumstances.now (done ++ [path]) location next ∧
        Midway backend order group base memo input (done ++ [path]) db) fun _ _ => True := by
  have writes : forall {next : Updating}, path ≠ "relations" -> path ≠ "attachments" ->
      Progress backend base memo parentUid input circumstances.now (done ++ [path]) location next ->
      Ends (Midway backend order group base memo input done) (pure next : Request Updating)
        (fun next db => Progress backend base memo parentUid input circumstances.now (done ++ [path]) location next ∧
          Midway backend order group base memo input (done ++ [path]) db) fun _ _ => True :=
    fun relations attachments after => ends_pure fun _ midway => ⟨after, midway.append relations attachments⟩
  unfold updatePath
  refine ends_ite (fun isContent => ?_) fun content => ends_ite (fun isVisibility => ?_) fun visibility =>
    ends_ite (fun isPinned => ?_) fun pinned => ends_ite (fun isState => ?_) fun rowState =>
    ends_ite (fun isCreateTime => ?_) fun createTime => ends_ite (fun isUpdateTime => ?_) fun updateTime =>
    ends_ite (fun _ => ends_throw fun _ _ => trivial) fun _ => ends_ite (fun isLocation => ?_) fun placed =>
    ends_ite (fun isAttachments => ?_) fun attachments => ends_ite (fun isRelations => ?_) fun relations => ?_
  · subst isContent
    refine ends_bind (ends_lift fun _ _ _ _ => trivial) fun limit => ?_
    refine ends_bind (ends_require fun _ _ _ => trivial) fun _ => ?_
    refine ends_bind (ends_lift fun _ _ _ _ => trivial) fun payload => ?_
    refine ends_pure fun db given => ⟨progress.content given.2, ?_⟩
    exact given.1.1.1.append (by decide) (by decide)
  · subst isVisibility
    refine ends_bind (ends_updatedVisibility keys.toKeyed) fun value => ends_pure fun db given => ?_
    refine ⟨progress.column (by decide) (by decide) ?_, given.1.append (by decide) (by decide)⟩
    rw [given.2, progress.update]
    simp [written, newPayload]
  · subst isPinned
    refine writes (by decide) (by decide) (progress.column (by decide) (by decide) ?_)
    rw [progress.update]
    simp [written, newPayload]
  · subst isState
    refine writes (by decide) (by decide) (progress.column (by decide) (by decide) ?_)
    rw [progress.update]
    simp [written, newPayload]
  · subst isCreateTime
    refine writes (by decide) (by decide) (progress.column (by decide) (by decide) ?_)
    rw [progress.update]
    simp [written, newPayload]
  · subst isUpdateTime
    refine writes (by decide) (by decide) (progress.column (by decide) (by decide) ?_)
    rw [progress.update]
    simp [written, newPayload, Circumstances.moment]
  · subst isLocation
    exact writes (by decide) (by decide) progress.place
  · subst isAttachments
    have held : state.memo.id = memo.id := by rw [progress.held]
    refine ends_bind (ends_attachments keys held grouped chosen) fun _ => ends_pure fun db midway => ?_
    exact ⟨progress.other (by decide), midway⟩
  · subst isRelations
    have held : state.memo.ref = memo.ref := by
      rw [progress.held]
      rfl
    refine ends_bind (ends_relations keys.toKeyed held) fun _ => ends_pure fun db midway => ?_
    exact ⟨progress.other (by decide), midway⟩
  · exact writes relations attachments
      (progress.other ⟨content, visibility, pinned, rowState, createTime, updateTime, placed⟩)

/-- The walk over the mask. -/
theorem ends_updatePaths (keys : base.PrimaryKeys)
    (grouped : forall row, backend.motionGroup row = group row.payload) (chosen : MayChoose order)
    {done paths : List String} {state : Updating}
    (progress : Progress backend base memo parentUid input circumstances.now done location state) (place : Nat) :
    Ends (Midway backend order group base memo input done)
      (updatePaths backend order circumstances user parentUid input place paths state)
      (fun next db => Progress backend base memo parentUid input circumstances.now (done ++ paths) location next ∧
        Midway backend order group base memo input (done ++ paths) db) fun _ _ => True := by
  induction paths generalizing done state place with
  | nil =>
      rw [List.append_nil]
      exact ends_pure fun db midway => ⟨progress, midway⟩
  | cons path paths ih =>
      refine ends_bind (ends_updatePath keys grouped chosen progress place) fun next =>
        ends_given (fun _ given => given.1) fun after => ?_
      have rest := @ih (done ++ [path]) next after (place + 1)
      rw [List.append_assoc] at rest
      exact ends_weaken rest (fun _ given => given.2) (fun _ _ given => given) fun _ _ given => given

end Loop

/-! ## The request as a whole -/

section Request

variable {backend : Backend} {surroundings : Surroundings} {circumstances : Circumstances} {base : Database}
  {userId : Nat} {name : String} {mask : List String} {input : MemoInput} {location : Option Location}
  {group : String -> String} {order : List Attachment -> List Attachment}

/-- The tables with the row of the memo written. -/
def withRow (update : UpdateMemo) (db : Database) : Database :=
  { db with memos := db.memos.map update.apply }

/-- The update of a request. -/
def updateOf (backend : Backend) (circumstances : Circumstances) (base : Database) (joined : JoinedMemo)
    (input : MemoInput) (mask : List String) : UpdateMemo :=
  written backend base joined.memo joined.parentUid input circumstances.now mask

/-- What a request that succeeds has done. -/
structure Outcome (order : List Attachment -> List Attachment) (group : String -> String)
    (backend : Backend) (surroundings : Surroundings)
    (circumstances : Circumstances) (base : Database) (joined : JoinedMemo) (mask : List String)
    (input : MemoInput) (location : Option Location) (result : Option Location) (after : Database) :
    Prop where
  location : result = if "location" ∈ mask then input.location else location
  tables : Exists fun middle => Midway backend order group base joined.memo input mask middle ∧
    Exists fun updated =>
      memoById (withRow (updateOf backend circumstances base joined input mask) middle) joined.memo.id =
        some updated ∧
      after =
        if "content" ∈ mask then
          MentionInbox.dispatchAfterUpdate (circumstances.surroundings surroundings)
            (withRow (updateOf backend circumstances base joined input mask) middle) updated
            (comparedContent joined.memo input mask)
        else withRow (updateOf backend circumstances base joined input mask) middle

theorem ends_memoOfId {start : Database} {id : Nat} :
    Ends (fun db => db = start) (Broadcasts.memoOfId id)
      (fun joined db => db = start ∧ memoById start id = some joined) fun _ _ => True := by
  unfold Broadcasts.memoOfId
  refine ends_bind (ends_query fun _ _ _ => trivial) fun row => ?_
  refine ends_weaken (ends_found fun _ _ _ => trivial) (fun _ given => given) ?_ fun _ _ given => given
  rintro joined db ⟨⟨rfl, found⟩, rfl⟩
  exact ⟨rfl, Except.ok.inj found⟩

theorem ends_updateMemo (keys : base.PrimaryKeys) (uids : (base.attachments.map Attachment.uid).Nodup)
    (grouped : forall row, backend.motionGroup row = group row.payload) (chosen : MayChoose order) :
    Ends (fun db => db = base)
      (updateMemo backend surroundings order circumstances userId location name mask input)
      (fun result after => Exists fun user => Exists fun joined => MayEdit base userId name user joined ∧
        Outcome order group backend surroundings circumstances base joined mask input location result after)
      fun _ _ => True := by
  refine MemoAttachments.ends_masked (fun _ => trivial) fun joined named found => ?_
  refine ends_bind (MemoAttachments.ends_authenticated fun _ => trivial) fun user => ?_
  refine ends_bind (ends_require fun _ _ _ => trivial) fun _ => ?_
  refine ends_given (fun _ given => And.intro given.1.2 given.2) fun known => ?_
  have start : Midway backend order group base joined.memo input [] base :=
    ⟨rfl, rfl, rfl, rfl, AttachmentPasses.passed_start keys.attachmentIds uids⟩
  refine ends_bind (ends_weaken (ends_updatePaths keys grouped chosen progress_start 0)
    (fun _ given => by rw [given.1.1]; exact start) (fun _ _ given => given) fun _ _ given => given)
    fun state => ?_
  refine ends_given (fun _ given => given.1) fun progress => ?_
  refine ends_bind (ends_execute fun _ _ _ => trivial) fun _ => ends_each fun before written => ?_
  rcases written with ⟨middle, ⟨_, midway⟩, isBefore⟩
  refine ends_bind ends_memoOfId fun again => ends_given (fun _ given => given.2) fun isFound => ?_
  refine ends_bind (ends_weaken ends_memoOfId (fun _ given => given.1) (fun _ _ given => given)
    fun _ _ given => given) fun updated => ends_given (fun _ given => given.2) fun isUpdated => ?_
  refine ends_bind (ends_weaken (ends_query fun _ _ _ => trivial) (fun _ given => given.1)
    (fun _ _ given => given.1) fun _ _ given => given) fun _ => ?_
  have sameId : again.memo.id = joined.memo.id := (memoById_eq_some isFound).2
  have isRow : memoById before joined.memo.id = some updated := by
    rw [← sameId]
    exact isUpdated
  have writes : before = withRow (updateOf backend circumstances base joined input mask) middle := by
    rw [isBefore, progress.update]
    rfl
  have told : Ends (fun db => db = before)
      (dispatchMentions surroundings circumstances updated state)
      (fun _ db => db = toldMentions surroundings circumstances updated state before)
      fun _ _ => True := by
    intro world same
    rw [← same]
    rfl
  refine ends_bind told fun _ => ends_pure fun after same => ?_
  refine ⟨user, joined, ⟨known.1, named, found, known.2⟩, ?_, middle, midway, updated, ?_, ?_⟩
  · rw [progress.update, progress.location]
    simp only [written, List.nil_append]
    by_cases placed : "location" ∈ mask
    · simp [placed]
    · by_cases content : "content" ∈ mask
      · simp [placed, content]
      · simp [placed, content]
  · rw [← writes]
    exact isRow
  · rw [same, toldMentions, progress.contentUpdated, ← writes, List.nil_append]
    by_cases content : "content" ∈ mask
    · rw [progress.previousContent content]
      simp [content]
    · simp [content]

end Request

/-! ## The joined rows afterwards -/

section Afterwards

variable {base db : Database} {update : UpdateMemo}

theorem apply_creatorId (memo : Memo) : (update.apply memo).creatorId = memo.creatorId := by
  unfold UpdateMemo.apply
  split <;> rfl

theorem leftJoin_map {α β : Type} (change : α -> β) (matching : List α) :
    leftJoin (matching.map change) = (leftJoin matching).map (Option.map change) := by
  cases matching <;> simp [leftJoin]

/-- The comment relations of a memo. -/
def commentsOf (db : Database) (id : Nat) : List MemoRelation :=
  db.relations.filter fun relation => relation.memoId = id ∧ relation.type = .comment

/-- Setting the relations of a memo leaves all comment relations. -/
theorem comments_rewritten {memos : List Memo} {ref : MemoRef} {inputs : List RelationInput}
    {relations : List MemoRelation} (id : Nat) :
    ((rewritten memos ref inputs relations).filter fun relation => relation.memoId = id ∧ relation.type = .comment) =
      relations.filter fun relation => relation.memoId = id ∧ relation.type = .comment := by
  have others : forall rows : List MemoRelation,
      (rows.filter fun relation => relation.memoId = id ∧ relation.type = .comment) =
        (rows.filter fun relation => ¬ MemoRelations.OwnReference ref relation).filter fun relation =>
          relation.memoId = id ∧ relation.type = .comment := by
    intro rows
    rw [List.filter_filter]
    refine List.filter_congr fun relation _ => ?_
    by_cases comment : relation.memoId = id ∧ relation.type = .comment
    · have notOwn : ¬ MemoRelations.OwnReference ref relation := by
        rintro ⟨_, isReference⟩
        rw [comment.2] at isReference
        cases isReference
      rw [decide_eq_true comment, decide_eq_true notOwn, Bool.and_true]
    · rw [decide_eq_false comment, Bool.false_and]
  have own : forall relation, relation ∈ inputs.filterMap (MemoRelations.askedFor memos ref) ->
      MemoRelations.OwnReference ref relation := by
    intro relation member
    rcases List.mem_filterMap.mp member with ⟨input, _, asked⟩
    rcases MemoRelations.askedFor_eq_some.mp asked with ⟨_, _, _, _, _, _, rfl⟩
    exact ⟨rfl, rfl⟩
  unfold rewritten
  rw [others, MemoRelations.filter_insertAll own, ← others, ← others]

/-- Writing the row of a memo changes the joined rows in that row only. -/
theorem joinedMemos_withRow (memos : db.memos = base.memos) (users : db.users = base.users)
    (comments : forall id, commentsOf db id = commentsOf base id) :
    (withRow update db).joinedMemos =
      base.joinedMemos.map fun joined => { joined with memo := update.apply joined.memo } := by
  have joins : forall memo, (withRow update db).joinMemo (update.apply memo) =
      (base.joinMemo memo).map fun joined => { joined with memo := update.apply joined.memo } := by
    intro memo
    have sameComments := comments memo.id
    unfold commentsOf at sameComments
    have parents : forall relation : Option MemoRelation,
        ((base.memos.map update.apply).filter fun parent =>
          relation.map MemoRelation.relatedMemoId = some parent.id) =
        (base.memos.filter fun parent =>
          relation.map MemoRelation.relatedMemoId = some parent.id).map update.apply := by
      intro relation
      rw [List.filter_map]
      simp only [Function.comp_def, UpdateMemo.apply_id]
    unfold Database.joinMemo withRow
    dsimp only
    rw [memos, users, UpdateMemo.apply_id, apply_creatorId, sameComments, List.map_flatMap]
    refine List.flatMap_congr fun creator _ => ?_
    rw [List.map_flatMap]
    refine List.flatMap_congr fun relation _ => ?_
    rw [parents, leftJoin_map, List.map_map, List.map_map]
    refine List.map_congr_left fun parent _ => ?_
    cases parent with
    | none => rfl
    | some parent => simp
  have rows : (withRow update db).memos = base.memos.map update.apply := by
    rw [withRow, memos]
  unfold Database.joinedMemos
  rw [rows, List.flatMap_map, List.map_flatMap]
  exact List.flatMap_congr fun memo _ => joins memo

/-- The lookups afterwards are the lookups before, with the row that is
written. -/
theorem memoById_withRow (memos : db.memos = base.memos) (users : db.users = base.users)
    (comments : forall id, commentsOf db id = commentsOf base id) (id : Nat) :
    memoById (withRow update db) id =
      (memoById base id).map fun joined => { joined with memo := update.apply joined.memo } := by
  unfold memoById
  rw [joinedMemos_withRow memos users comments, List.find?_map]
  simp only [Function.comp_def, UpdateMemo.apply_id]

theorem memoByUid_withRow (memos : db.memos = base.memos) (users : db.users = base.users)
    (comments : forall id, commentsOf db id = commentsOf base id) (uid : String) :
    memoByUid (withRow update db) uid =
      (memoByUid base uid).map fun joined => { joined with memo := update.apply joined.memo } := by
  unfold memoByUid
  rw [joinedMemos_withRow memos users comments, List.find?_map]
  simp only [Function.comp_def, UpdateMemo.apply_uid]

/-- A memo that is found by its uid is found by its id. -/
theorem memoById_of_memoByUid (keyed : base.Keyed) {joined : JoinedMemo}
    (found : memoByUid base joined.memo.uid = some joined) : memoById base joined.memo.id = some joined := by
  rw [← found]
  have stored := Database.mem_joinedMemos (memoByUid_eq_some found).1
  unfold memoById memoByUid
  rw [← List.head?_filter, ← List.head?_filter]
  refine congrArg List.head? (List.filter_congr fun row member => ?_)
  have inTable := Database.mem_joinedMemos member
  rw [Bool.eq_iff_iff, beq_iff_eq, beq_iff_eq]
  constructor
  · intro sameId
    rw [eq_of_nodup_map keyed.memoIds inTable stored sameId]
  · intro sameUid
    rw [eq_of_nodup_map keyed.memoUids inTable stored sameUid]

/-- The parent of a memo is older, so the update of the memo leaves it. -/
theorem parentMemo_older (sound : base.Sound) (forest : Forest base) {joined : JoinedMemo}
    (member : joined ∈ base.joinedMemos) {parent : Memo}
    (isParent : MentionInbox.parentMemo base joined = some parent) : parent.id < joined.memo.id := by
  rcases Option.bind_eq_some_iff.mp isParent with ⟨uid, parentUid, found⟩
  rcases Option.map_eq_some_iff.mp found with ⟨parentRow, lookup, rfl⟩
  rw [forest.joinedMemos sound] at member
  rcases List.mem_map.mp member with ⟨memo, stored, rfl⟩
  rcases Option.map_eq_some_iff.mp parentUid with ⟨direct, isDirect, sameUid⟩
  rcases (forest.parentOf_eq_some sound).mp isDirect with ⟨directStored, comment⟩
  rcases memoByUid_eq_some lookup with ⟨parentJoined, isUid⟩
  rw [eq_of_nodup_map sound.memoUids (Database.mem_joinedMemos parentJoined) directStored
    (isUid.trans sameUid.symm)]
  exact forest.older _ _ comment

theorem parentMemo_withRow (sound : base.Sound) (forest : Forest base) {joined : JoinedMemo}
    (memos : db.memos = base.memos) (users : db.users = base.users)
    (comments : forall id, commentsOf db id = commentsOf base id) (member : joined ∈ base.joinedMemos)
    (own : update.id = joined.memo.id) :
    MentionInbox.parentMemo (withRow update db) { joined with memo := update.apply joined.memo } =
      MentionInbox.parentMemo base joined := by
  have mapped : MentionInbox.parentMemo (withRow update db) { joined with memo := update.apply joined.memo } =
      (MentionInbox.parentMemo base joined).map update.apply := by
    unfold MentionInbox.parentMemo
    dsimp only
    cases joined.parentUid with
    | none => rfl
    | some uid =>
        rw [Option.bind_some, Option.bind_some, memoByUid_withRow memos users comments, Option.map_map,
          Option.map_map]
        rfl
  rw [mapped]
  cases isParent : MentionInbox.parentMemo base joined with
  | none => rfl
  | some parent =>
      have older := parentMemo_older sound forest member isParent
      rw [Option.map_some, UpdateMemo.apply, if_neg]
      rw [own]
      exact Nat.ne_of_lt older

end Afterwards

/-! ## What two requests leave -/

section Rows

variable {backend : Backend} {surroundings : Surroundings} {base : Database} {joined : JoinedMemo}
  {mask other : List String} {input : MemoInput}

/-- The row of the memo without a timestamp that the request takes from its
clock. -/
def unclocked (memoId : Nat) (input : MemoInput) (mask : List String) (memo : Memo) : Memo :=
  if memo.id = memoId ∧ "update_time" ∈ mask ∧ input.updateTime = none then { memo with updatedTs := 0 }
  else memo

/-- The row of an attachment without a timestamp that the request takes from
its clock. -/
def unstamped (memoId : Nat) (mask : List String) (row : Attachment) : Attachment :=
  if row.memoId = some memoId ∧ "attachments" ∈ mask then untimed row else row

/-- An inbox row without its id. -/
def contents (row : Inbox) : Nat × Nat × String := (row.senderId, row.receiverId, row.message)

/-- The same rows and the same location, except for timestamps of the clock and
the order in which inbox rows are numbered. -/
structure SameOutcome (memoId : Nat) (input : MemoInput) (mask : List String)
    (firstLocation secondLocation : Option Location) (first second : Database) : Prop where
  location : firstLocation = secondLocation
  memos : first.memos.map (unclocked memoId input mask) = second.memos.map (unclocked memoId input mask)
  attachments : first.attachments.map (unstamped memoId mask) = second.attachments.map (unstamped memoId mask)
  relations : first.relations = second.relations
  inbox : (first.inbox.map contents).Perm (second.inbox.map contents)

/-- The memo as the dispatch of mentions sees it. -/
def dispatched (base : Database) (joined : JoinedMemo) (input : MemoInput) (mask : List String) : Memo :=
  { joined.memo with
    content := if "content" ∈ mask then input.content else joined.memo.content
    visibility := if "visibility" ∈ mask then newVisibility base joined.parentUid input
      else joined.memo.visibility }

/-- A user whom the new content mentions and the stored content does not, and
whom the checks of the dispatch let through. -/
def Told (surroundings : Surroundings) (base : Database) (joined : JoinedMemo) (input : MemoInput)
    (mask : List String) (user : User) : Prop :=
  MentionInbox.NewlyNamed (MentionInbox.extractMentions surroundings) user input.content joined.memo.content ∧
    MentionInbox.Reachable (dispatched base joined input mask) (MentionInbox.parentMemo base joined) user

theorem written_congr {memo : Memo} {parentUid : Option String} {now : Int}
    (samePaths : forall path, path ∈ mask ↔ path ∈ other) :
    written backend base memo parentUid input now mask = written backend base memo parentUid input now other := by
  simp only [written, newPayload, samePaths]

theorem unclocked_apply {memo row : Memo} {parentUid : Option String} {now later : Int} :
    unclocked memo.id input mask ((written backend base memo parentUid input now mask).apply row) =
      unclocked memo.id input mask ((written backend base memo parentUid input later mask).apply row) := by
  unfold unclocked
  rw [UpdateMemo.apply_id, UpdateMemo.apply_id]
  unfold UpdateMemo.apply
  by_cases same : row.id = memo.id
  · by_cases masked : "update_time" ∈ mask
    · cases time : input.updateTime with
      | none => simp [written, same, masked, time]
      | some time => simp [written, same, masked, time]
    · simp [written, masked]
  · simp [written, same]

theorem untimed_unstamped {memoId : Nat} (row : Attachment) :
    untimed (unstamped memoId mask row) = untimed row := by
  unfold unstamped
  split <;> rfl

/-- Rows that differ only in timestamps are the same if they were not linked. -/
theorem unstamped_eq_iff {memoId : Nat} {first second rows : List Attachment}
    (distinct : (rows.map Attachment.uid).Nodup)
    (ofFirst : forall row, row ∈ first -> (row.memoId = some memoId -> "attachments" ∉ mask) -> row ∈ rows)
    (ofSecond : forall row, row ∈ second -> (row.memoId = some memoId -> "attachments" ∉ mask) -> row ∈ rows) :
    first.map (unstamped memoId mask) = second.map (unstamped memoId mask) ↔
      first.map untimed = second.map untimed := by
  have again : forall list : List Attachment, list.map untimed = (list.map (unstamped memoId mask)).map untimed := by
    intro list
    rw [List.map_map]
    exact List.map_congr_left fun row _ => (untimed_unstamped row).symm
  refine ⟨fun same => by rw [again, same, ← again], fun same => ?_⟩
  clear again
  induction first generalizing second with
  | nil =>
      cases second with
      | nil => rfl
      | cons => cases same
  | cons row first ih =>
      cases second with
      | nil => cases same
      | cons twin second =>
          rw [List.map_cons, List.map_cons, List.cons.injEq] at same
          have rest := ih (fun row member => ofFirst row (List.mem_cons_of_mem _ member))
            (fun row member => ofSecond row (List.mem_cons_of_mem _ member)) same.2
          have sameLink : row.memoId = twin.memoId := (congrArg Attachment.memoId same.1 :)
          have sameUid : row.uid = twin.uid := (congrArg Attachment.uid same.1 :)
          rw [List.map_cons, List.map_cons, rest]
          congr 1
          unfold unstamped
          rw [sameLink]
          split
          next => exact same.1
          next free =>
            have notLinked : twin.memoId = some memoId -> "attachments" ∉ mask :=
              fun linked masked => free ⟨linked, masked⟩
            refine eq_of_nodup_map distinct (ofFirst row List.mem_cons_self ?_)
              (ofSecond twin List.mem_cons_self notLinked) sameUid
            rw [sameLink]
            exact notLinked

/-- The users that an update tells, in the order of the table. -/
def toldBy (surroundings : Surroundings) (base : Database) (joined : JoinedMemo) (input : MemoInput)
    (mask : List String) : List User :=
  if "content" ∈ mask then
    MentionInbox.toldTargets (dispatched base joined input mask) (MentionInbox.parentMemo base joined)
      (MentionInbox.listUsers base
        (MentionInbox.extractMentions surroundings (comparedContent joined.memo input mask)) .normal)
      (MentionInbox.listUsers base (MentionInbox.extractMentions surroundings input.content) .normal)
  else []

/-- The checks of the dispatch read the creator and the visibility. -/
theorem toldTargets_congr {memo other : Memo} {parent : Option Memo} {previous targets : List User}
    (creator : memo.creatorId = other.creatorId) (visibility : memo.visibility = other.visibility) :
    MentionInbox.toldTargets memo parent previous targets = MentionInbox.toldTargets other parent previous targets := by
  simp only [MentionInbox.toldTargets, MentionInbox.shouldSkipMentionInbox,
    MentionInbox.canUserAccessMentionContext, creator, visibility]

end Rows

/-! ## Two requests -/

section TwoRequests

variable {backend : Backend} {surroundings : Surroundings} {circumstances : Circumstances} {base : Database}
  {userId : Nat} {name : String} {joined : JoinedMemo} {mask : List String} {input : MemoInput}
  {location result : Option Location} {group : String -> String} {after : Database}
  {order : List Attachment -> List Attachment}

/-- The tables that a request leaves, in terms of those that it found. -/
structure Left (order : List Attachment -> List Attachment) (group : String -> String) (backend : Backend) (surroundings : Surroundings)
    (circumstances : Circumstances) (base : Database) (joined : JoinedMemo) (mask : List String)
    (input : MemoInput) (after : Database) : Prop where
  memos : after.memos = base.memos.map (updateOf backend circumstances base joined input mask).apply
  relations : after.relations =
    if "relations" ∈ mask then rewritten base.memos joined.memo.ref input.relations base.relations
    else base.relations
  passed : AttachmentPasses.Passed backend order group joined.memo.id input.attachments base (mask.count "attachments") after
  inbox : Exists fun rows => after.inbox = base.inbox ++ rows ∧
    (rows.map Inbox.receiverId).Perm ((toldBy surroundings base joined input mask).map User.id) ∧
    forall row, row ∈ rows -> row.senderId = joined.memo.creatorId ∧
      row.message = surroundings.marshal (MentionInbox.mentionMessage joined.memo (MentionInbox.parentMemo base joined))

theorem Midway.comments {middle : Database} (midway : Midway backend order group base joined.memo input mask middle) (id : Nat) :
    commentsOf middle id = commentsOf base id := by
  unfold commentsOf
  rw [midway.relations]
  split
  next => exact comments_rewritten id
  next => rfl

/-- The row that is read after the update. -/
theorem Midway.updated {middle : Database} {updated : JoinedMemo} {update : UpdateMemo} (keyed : base.Keyed)
    (found : memoByUid base joined.memo.uid = some joined)
    (midway : Midway backend order group base joined.memo input mask middle)
    (isRow : memoById (withRow update middle) joined.memo.id = some updated) :
    updated = { joined with memo := update.apply joined.memo } := by
  rw [memoById_withRow midway.memos midway.users midway.comments, memoById_of_memoByUid keyed found] at isRow
  exact (Option.some.inj isRow).symm

theorem updated_content (content : "content" ∈ mask) :
    ((updateOf backend circumstances base joined input mask).apply joined.memo).content = input.content := by
  rw [UpdateMemo.apply, if_pos (show joined.memo.id = (updateOf _ _ _ joined _ _).id from rfl)]
  simp [updateOf, written, content]

theorem updated_visibility :
    ((updateOf backend circumstances base joined input mask).apply joined.memo).visibility =
      (dispatched base joined input mask).visibility := by
  rw [UpdateMemo.apply, if_pos (show joined.memo.id = (updateOf _ _ _ joined _ _).id from rfl)]
  by_cases visibility : "visibility" ∈ mask
  · simp [updateOf, written, dispatched, visibility]
  · simp [updateOf, written, dispatched, visibility]

theorem Outcome.left (sound : base.Sound) (forest : Forest base)
    (found : memoByUid base joined.memo.uid = some joined)
    (outcome : Outcome order group backend surroundings circumstances base joined mask input location result after) :
    Left order group backend surroundings circumstances base joined mask input after := by
  rcases outcome.tables with ⟨middle, midway, updated, isRow, rfl⟩
  have passed : forall db : Database, db.attachments = middle.attachments ->
      AttachmentPasses.Passed backend order group joined.memo.id input.attachments base (mask.count "attachments") db := by
    intro db same
    exact midway.passed.of_attachments same
  obtain rfl := midway.updated sound.toKeyed found isRow
  have member := (memoByUid_eq_some found).1
  have parent := parentMemo_withRow sound forest midway.memos midway.users midway.comments member
    (show (updateOf backend circumstances base joined input mask).id = joined.memo.id from rfl)
  by_cases content : "content" ∈ mask
  · have users : (withRow (updateOf backend circumstances base joined input mask) middle).users = base.users :=
      midway.users
    rcases @MentionInbox.dispatch_rows
      (withRow (updateOf backend circumstances base joined input mask) middle)
      (circumstances.surroundings surroundings) (by rw [users]; exact sound.userIds)
      ((updateOf backend circumstances base joined input mask).apply joined.memo)
      (MentionInbox.parentMemo base joined) (comparedContent joined.memo input mask) with
      ⟨rows, same, receivers, mentions⟩
    rw [if_pos content, MentionInbox.dispatchAfterUpdate, parent, same]
    refine ⟨congrArg (List.map _) midway.memos, midway.relations, passed _ rfl, rows, ?_, ?_, ?_⟩
    · exact congrArg (· ++ rows) midway.inbox
    · have creator : ((updateOf backend circumstances base joined input mask).apply joined.memo).creatorId =
          (dispatched base joined input mask).creatorId := apply_creatorId joined.memo
      have listed : forall names,
          MentionInbox.listUsers (withRow (updateOf backend circumstances base joined input mask) middle) names
            .normal = MentionInbox.listUsers base names .normal := by
        intro names
        rw [MentionInbox.listUsers, users, MentionInbox.listUsers]
      rw [updated_content content, toldTargets_congr creator updated_visibility, listed, listed] at receivers
      rw [toldBy, if_pos content]
      exact receivers
    · intro row member
      rcases mentions row member with ⟨sender, message⟩
      rw [apply_creatorId] at sender
      refine ⟨sender, message.trans ?_⟩
      rw [MentionInbox.mentionMessage, UpdateMemo.apply_id]
      rfl
  · rw [if_neg content]
    refine ⟨congrArg (List.map _) midway.memos, midway.relations, passed _ rfl, [], ?_, ?_, ?_⟩
    · exact midway.inbox.trans (List.append_nil _).symm
    · rw [toldBy, if_neg content]
      exact List.Perm.refl _
    · exact fun _ impossible => absurd impossible List.not_mem_nil

end TwoRequests

/-! ## When the masks agree -/

section Agreement

variable {backend : Backend} {surroundings : Surroundings} {base : Database} {joined : JoinedMemo}
  {mask other : List String} {input : MemoInput} {group : String -> String}
  {first second : Circumstances} {afterFirst afterSecond : Database}
  {order : List Attachment -> List Attachment}

theorem dispatched_congr (samePaths : forall path, path ∈ mask ↔ path ∈ other) :
    dispatched base joined input mask = dispatched base joined input other := by
  simp only [dispatched, samePaths]

theorem toldBy_congr (samePaths : forall path, path ∈ mask ↔ path ∈ other)
    (repeated : 1 < mask.count "content" ↔ 1 < other.count "content") :
    toldBy surroundings base joined input mask = toldBy surroundings base joined input other := by
  have compared : comparedContent joined.memo input mask = comparedContent joined.memo input other := by
    simp only [comparedContent, ← Nat.not_lt, repeated]
  simp only [toldBy, compared, dispatched_congr samePaths, samePaths]

theorem mem_toldBy (userIds : (base.users.map User.id).Nodup) (content : "content" ∈ mask) {user : User}
    (stored : user ∈ base.users) :
    user ∈ toldBy surroundings base joined input mask ↔
      MentionInbox.NewlyNamed (MentionInbox.extractMentions surroundings) user input.content
          (comparedContent joined.memo input mask) ∧
        MentionInbox.Reachable (dispatched base joined input mask) (MentionInbox.parentMemo base joined) user := by
  have written : (dispatched base joined input mask).content = input.content := if_pos content
  have told := @MentionInbox.mem_toldTargets surroundings base userIds (dispatched base joined input mask)
    (MentionInbox.parentMemo base joined) (comparedContent joined.memo input mask) user stored
  rw [written] at told
  rw [toldBy, if_pos content]
  exact told

theorem toldBy_stored {user : User} (told : user ∈ toldBy surroundings base joined input mask) :
    user ∈ base.users := by
  unfold toldBy at told
  split at told
  next => exact List.mem_of_mem_filter (List.mem_of_mem_filter told)
  next => exact absurd told List.not_mem_nil

/-- A second `content` compares the new content with itself. -/
theorem toldBy_repeated (userIds : (base.users.map User.id).Nodup) (repeated : 1 < mask.count "content") :
    toldBy surroundings base joined input mask = [] := by
  have content : "content" ∈ mask := List.count_pos_iff.mp (by omega)
  refine List.eq_nil_iff_forall_not_mem.mpr fun user told => ?_
  have named := ((mem_toldBy userIds content (toldBy_stored told)).mp told).1
  rw [comparedContent, if_neg (Nat.not_le.mpr repeated)] at named
  exact named.2 named.1

theorem toldBy_once (userIds : (base.users.map User.id).Nodup) (content : "content" ∈ mask)
    (once : ¬ 1 < mask.count "content") :
    toldBy surroundings base joined input mask = [] ↔
      forall user, user ∈ base.users -> ¬ Told surroundings base joined input mask user := by
  have told : forall user, user ∈ base.users ->
      (user ∈ toldBy surroundings base joined input mask ↔ Told surroundings base joined input mask user) := by
    intro user stored
    rw [mem_toldBy userIds content stored, comparedContent, if_pos (Nat.not_lt.mp once), Told]
  rw [List.eq_nil_iff_forall_not_mem]
  constructor
  · exact fun none_ user stored isTold => none_ user ((told user stored).mpr isTold)
  · exact fun none_ user inList => none_ user (toldBy_stored inList) ((told user (toldBy_stored inList)).mp inList)

/-- The same users are told exactly if both masks compare with the same content
or there is nobody to tell. -/
theorem toldBy_perm_iff (userIds : (base.users.map User.id).Nodup)
    (samePaths : forall path, path ∈ mask ↔ path ∈ other) :
    ((toldBy surroundings base joined input mask).map User.id).Perm
        ((toldBy surroundings base joined input other).map User.id) ↔
      (1 < mask.count "content" ↔ 1 < other.count "content") ∨
        forall user, user ∈ base.users -> ¬ Told surroundings base joined input mask user := by
  have sameTold : forall user, Told surroundings base joined input other user ↔
      Told surroundings base joined input mask user := by
    intro user
    rw [Told, Told, dispatched_congr samePaths]
  by_cases repeated : 1 < mask.count "content"
  · by_cases alsoRepeated : 1 < other.count "content"
    · rw [toldBy_repeated userIds repeated, toldBy_repeated userIds alsoRepeated]
      simp [repeated, alsoRepeated]
    · have content : "content" ∈ other := (samePaths _).mp (List.count_pos_iff.mp (by omega))
      have none_ := @toldBy_once surroundings base joined other input userIds content alsoRepeated
      simp only [sameTold] at none_
      rw [toldBy_repeated userIds repeated, List.map_nil, List.nil_perm, List.map_eq_nil_iff, none_]
      simp [repeated, alsoRepeated]
  · by_cases alsoRepeated : 1 < other.count "content"
    · have content : "content" ∈ mask := (samePaths _).mpr (List.count_pos_iff.mp (by omega))
      rw [toldBy_repeated userIds alsoRepeated, List.map_nil, List.perm_nil, List.map_eq_nil_iff,
        toldBy_once userIds content repeated]
      simp [repeated, alsoRepeated]
    · have same : 1 < mask.count "content" ↔ 1 < other.count "content" := by simp [repeated, alsoRepeated]
      rw [toldBy_congr samePaths same]
      simp [same]

/-- The inboxes are the same up to the order exactly if the same users are
told. -/
theorem inbox_perm_iff (left : Left order group backend surroundings first base joined mask input afterFirst)
    (right : Left order group backend surroundings second base joined other input afterSecond) :
    (afterFirst.inbox.map contents).Perm (afterSecond.inbox.map contents) ↔
      ((toldBy surroundings base joined input mask).map User.id).Perm
        ((toldBy surroundings base joined input other).map User.id) := by
  rcases left.inbox with ⟨rows, isFirst, receivers, mentions⟩
  rcases right.inbox with ⟨others, isSecond, otherReceivers, otherMentions⟩
  have told : forall {list : List Inbox}, (forall row, row ∈ list -> row.senderId = joined.memo.creatorId ∧
      row.message = surroundings.marshal
        (MentionInbox.mentionMessage joined.memo (MentionInbox.parentMemo base joined))) ->
      list.map contents = (list.map Inbox.receiverId).map fun receiver =>
        (joined.memo.creatorId, receiver, surroundings.marshal
          (MentionInbox.mentionMessage joined.memo (MentionInbox.parentMemo base joined))) := by
    intro list all
    rw [List.map_map]
    refine List.map_congr_left fun row member => ?_
    rw [contents, (all row member).1, (all row member).2]
    rfl
  have sameReceivers : (rows.map contents).Perm (others.map contents) ↔
      (rows.map Inbox.receiverId).Perm (others.map Inbox.receiverId) := by
    constructor
    · intro same
      have mapped := same.map fun row => row.2.1
      rw [List.map_map, List.map_map] at mapped
      exact mapped
    · intro same
      rw [told mentions, told otherMentions]
      exact same.map _
  rw [isFirst, isSecond, List.map_append, List.map_append, List.perm_append_left_iff, sameReceivers]
  constructor
  · exact fun same => receivers.symm.trans (same.trans otherReceivers)
  · exact fun same => receivers.trans (same.trans otherReceivers.symm)

theorem attachments_eq_iff (distinct : (base.attachments.map Attachment.uid).Nodup)
    (samePaths : forall path, path ∈ mask ↔ path ∈ other)
    (surveyed : 1 < mask.count "attachments" ∨ 1 < other.count "attachments" ->
      AttachmentPasses.Surveyed base joined.memo.id input.attachments)
    (left : Left order group backend surroundings first base joined mask input afterFirst)
    (right : Left order group backend surroundings second base joined other input afterSecond) :
    afterFirst.attachments.map (unstamped joined.memo.id mask) =
        afterSecond.attachments.map (unstamped joined.memo.id mask) ↔
      (1 < mask.count "attachments" ↔ 1 < other.count "attachments") ∨
        forall row, row ∈ base.attachments -> row.uid ∈ AttachmentPasses.uidsOf input.attachments ->
          AttachmentPasses.Stays group joined.memo.id (AttachmentPasses.uidsOf input.attachments)
            base.attachments row := by
  have kept : forall {paths : List String} {db : Database}, ("attachments" ∈ paths ↔ "attachments" ∈ mask) ->
      AttachmentPasses.Passed backend order group joined.memo.id input.attachments base (paths.count "attachments") db ->
      forall row, row ∈ db.attachments -> (row.memoId = some joined.memo.id -> "attachments" ∉ mask) ->
        row ∈ base.attachments := by
    intro paths db same passed row stored free
    by_cases masked : "attachments" ∈ mask
    · exact passed.elsewhere row stored fun linked => free linked masked
    · have absent : "attachments" ∉ paths := fun inPaths => masked (same.mp inPaths)
      rw [← passed.untouched (List.count_eq_zero.mpr absent)]
      exact stored
  have some_ : 0 < mask.count "attachments" ↔ 0 < other.count "attachments" := by
    rw [List.count_pos_iff, List.count_pos_iff, samePaths]
  rw [unstamped_eq_iff distinct (kept Iff.rfl left.passed) (kept (samePaths _).symm right.passed)]
  exact AttachmentPasses.passes_eq_iff some_ distinct surveyed left.passed right.passed

/-- Two requests whose masks name the same paths leave the same exactly if a
repetition of the content or of the attachments makes no difference. -/
theorem sameOutcome_iff (userIds : (base.users.map User.id).Nodup)
    (distinct : (base.attachments.map Attachment.uid).Nodup)
    (samePaths : forall path, path ∈ mask ↔ path ∈ other)
    (surveyed : 1 < mask.count "attachments" ∨ 1 < other.count "attachments" ->
      AttachmentPasses.Surveyed base joined.memo.id input.attachments)
    {location firstResult secondResult : Option Location}
    (isFirst : firstResult = if "location" ∈ mask then input.location else location)
    (isSecond : secondResult = if "location" ∈ other then input.location else location)
    (left : Left order group backend surroundings first base joined mask input afterFirst)
    (right : Left order group backend surroundings second base joined other input afterSecond) :
    SameOutcome joined.memo.id input mask firstResult secondResult afterFirst afterSecond ↔
      ((1 < mask.count "content" ↔ 1 < other.count "content") ∨
        forall user, user ∈ base.users -> ¬ Told surroundings base joined input mask user) ∧
      ((1 < mask.count "attachments" ↔ 1 < other.count "attachments") ∨
        forall row, row ∈ base.attachments -> row.uid ∈ AttachmentPasses.uidsOf input.attachments ->
          AttachmentPasses.Stays group joined.memo.id (AttachmentPasses.uidsOf input.attachments)
            base.attachments row) := by
  rw [← toldBy_perm_iff userIds samePaths, ← inbox_perm_iff left right,
    ← attachments_eq_iff distinct samePaths surveyed left right]
  refine ⟨fun same => ⟨same.inbox, same.attachments⟩, fun same => ⟨?_, ?_, same.2, ?_, same.1⟩⟩
  · rw [isFirst, isSecond]
    simp only [samePaths]
  · rw [left.memos, right.memos, List.map_map, List.map_map]
    refine List.map_congr_left fun row _ => ?_
    rw [Function.comp, Function.comp, updateOf, updateOf, ← written_congr samePaths]
    exact unclocked_apply
  · rw [left.relations, right.relations]
    simp only [samePaths]

end Agreement

/-! ## Requests that succeed -/

section Success

variable {backend : Backend} {surroundings : Surroundings} {base : Database} {joined : JoinedMemo}
  {userId : Nat} {name : String} {mask other : List String} {input : MemoInput} {group : String -> String}
  {first second : Circumstances} {location firstResult secondResult : Option Location}
  {firstPlans secondPlans : List (List (Option String))} {order : List Attachment -> List Attachment}

/-- A request that succeeds, for the memo that it names. -/
theorem outcome_of_success (keys : base.PrimaryKeys) (distinct : (base.attachments.map Attachment.uid).Nodup)
    (grouped : forall row, backend.motionGroup row = group row.payload) (chosen : MayChoose order)
    (named : extractMemoUIDFromName name = .ok joined.memo.uid)
    (found : memoByUid base joined.memo.uid = some joined)
    (succeeds : (updateMemo backend surroundings order first userId location name mask input ⟨base, firstPlans⟩).1 =
      .ok firstResult) :
    Outcome order group backend surroundings first base joined mask input location firstResult
      (updateMemo backend surroundings order first userId location name mask input ⟨base, firstPlans⟩).2.state := by
  have ends := @ends_updateMemo backend surroundings first base userId name mask input location group order
    keys distinct grouped chosen ⟨base, firstPlans⟩ rfl
  rcases ran : updateMemo backend surroundings order first userId location name mask input ⟨base, firstPlans⟩ with
    ⟨reply, world⟩
  rw [ran] at ends succeeds
  obtain rfl : reply = .ok firstResult := succeeds
  rcases ends with ⟨user, sameJoined, edits, outcome⟩
  have sameName := edits.named
  rw [named] at sameName
  have sameRow := edits.found
  rw [← Except.ok.inj sameName, found] at sameRow
  rw [Option.some.inj sameRow]
  exact outcome

/-- Over a reachable database, two requests that succeed and whose masks name
the same paths leave the same exactly if a repetition of the content or of the
attachments makes no difference. -/
theorem updateMask_iff {permitted : Database -> Operation -> Prop} (reached : Reaches permitted {} base)
    (distinct : (base.attachments.map Attachment.uid).Nodup)
    (grouped : forall row, backend.motionGroup row = group row.payload) (chosen : MayChoose order)
    (named : extractMemoUIDFromName name = .ok joined.memo.uid)
    (found : memoByUid base joined.memo.uid = some joined)
    (surveyed : 1 < mask.count "attachments" ∨ 1 < other.count "attachments" ->
      AttachmentPasses.Surveyed base joined.memo.id input.attachments)
    (samePaths : forall path, path ∈ mask ↔ path ∈ other)
    (firstSucceeds : (updateMemo backend surroundings order first userId location name mask input
      ⟨base, firstPlans⟩).1 = .ok firstResult)
    (secondSucceeds : (updateMemo backend surroundings order second userId location name other input
      ⟨base, secondPlans⟩).1 = .ok secondResult) :
    SameOutcome joined.memo.id input mask firstResult secondResult
        (updateMemo backend surroundings order first userId location name mask input ⟨base, firstPlans⟩).2.state
        (updateMemo backend surroundings order second userId location name other input ⟨base, secondPlans⟩).2.state ↔
      ((1 < mask.count "content" ↔ 1 < other.count "content") ∨
        forall user, user ∈ base.users -> ¬ Told surroundings base joined input mask user) ∧
      ((1 < mask.count "attachments" ↔ 1 < other.count "attachments") ∨
        forall row, row ∈ base.attachments -> row.uid ∈ AttachmentPasses.uidsOf input.attachments ->
          AttachmentPasses.Stays group joined.memo.id (AttachmentPasses.uidsOf input.attachments)
            base.attachments row) := by
  rcases reaches_forest reached with ⟨sound, forest⟩
  have ofFirst := outcome_of_success sound.toPrimaryKeys distinct grouped chosen named found firstSucceeds
  have ofSecond := outcome_of_success sound.toPrimaryKeys distinct grouped chosen named found secondSucceeds
  exact sameOutcome_iff sound.userIds distinct samePaths surveyed ofFirst.location ofSecond.location
    (ofFirst.left sound forest found) (ofSecond.left sound forest found)

end Success

/-! ## A content that is written twice -/

section Twice

/-- Two users and a memo of the first. -/
def sharedOperations : List Operation :=
  [.changeAccounts [alice, MentionInbox.mentionedUser "bob"] [] [],
    .createMemo "a" { content := "", visibility := .isPublic }]

def sharedMemo : JoinedMemo := ⟨⟨1, "a", .normal, 1, 1, 1, "", .isPublic, false, ⟨none, []⟩⟩, some alice, none⟩

/-- The clock and the order of a run. -/
def plainRun : Circumstances where
  now := 2
  clock := fun _ _ => 2
  iterate := id
  iterate_perm := List.Perm.refl

def mentioning : MemoInput := { content := "@bob", visibility := .isPublic, pinned := true }

/-- An update of the memo by its creator. -/
def updatedBy (mask : List String) : Except Status (Option Location) × World Database :=
  updateMemo quietBackend MentionInbox.plainText byUpdatedTs plainRun 1 none "memos/a" mask mentioning
    ⟨runFrom {} sharedOperations, []⟩

theorem updatedBy_pinned : SameOutcome 1 mentioning ["content", "pinned"] none none
    (updatedBy ["content", "pinned"]).2.state (updatedBy ["pinned", "content", "pinned"]).2.state := by
  have reached : Reaches (fun _ _ => True) {} (runFrom {} sharedOperations) := reaches_runFrom fun _ _ _ => trivial
  have samePaths : forall path, path ∈ ["content", "pinned"] ↔ path ∈ ["pinned", "content", "pinned"] := by
    intro path
    simp only [List.mem_cons, List.not_mem_nil, or_false]
    tauto
  have found : memoByUid (runFrom {} sharedOperations) "a" = some sharedMemo := by decide +kernel
  have distinct : ((runFrom {} sharedOperations).attachments.map Attachment.uid).Nodup := by decide +kernel
  have named : extractMemoUIDFromName "memos/a" = .ok sharedMemo.memo.uid := by decide +kernel
  have firstSucceeds : (updatedBy ["content", "pinned"]).1 = .ok none := by decide +kernel
  have secondSucceeds : (updatedBy ["pinned", "content", "pinned"]).1 = .ok none := by decide +kernel
  unfold updatedBy at firstSucceeds secondSucceeds ⊢
  refine (@updateMask_iff quietBackend MentionInbox.plainText (runFrom {} sharedOperations) sharedMemo 1
    "memos/a" ["content", "pinned"] ["pinned", "content", "pinned"] mentioning (fun _ => "") plainRun plainRun
    none none none [] [] byUpdatedTs (fun _ _ => True) reached distinct (fun _ => rfl)
    AttachmentPages.descending_byUpdatedTs named found (fun repeated => absurd repeated (by decide)) samePaths
    firstSucceeds secondSucceeds).mpr ⟨Or.inl ?_, Or.inl ?_⟩
  · decide
  · decide

/-- A second `content` in the mask loses the inbox row. -/
theorem updatedBy_twice :
    (updatedBy ["content"]).1 = .ok none ∧ (updatedBy ["content", "content"]).1 = .ok none ∧
      ¬ SameOutcome 1 mentioning ["content"] none none
        (updatedBy ["content"]).2.state (updatedBy ["content", "content"]).2.state := by
  refine ⟨by decide +kernel, by decide +kernel, fun same => ?_⟩
  have lengths : (updatedBy ["content"]).2.state.inbox.length = 1 ∧
      (updatedBy ["content", "content"]).2.state.inbox.length = 0 := by decide +kernel
  have sameLength := same.inbox.length_eq
  rw [List.length_map, List.length_map, lengths.1, lengths.2] at sameLength
  cases sameLength

end Twice

end UpdateMask
end Service
end Memos
