import Memos.Library.Interleaving

namespace Memos
namespace Service
namespace PayloadRuns

open Library

/-!
# The payload of a memo

`UpdateMemo` and the payload runner read the row of a memo, compute a payload
from what they read and write it back with one `UPDATE`.  The reads and writes
of several of them interleave.  A payload stays that of the content when
nobody changes the content or the location between a read and the write that
it leads to.
-/

variable {Extracted Location : Type}

/-! ## The rows -/

/-- `MemoPayload`: the tags and the property, as `ExtractAll` gives them, and
the location. -/
structure Payload (Extracted Location : Type) where
  extracted : Extracted
  location : Option Location
deriving DecidableEq

/-- The columns of a memo that the payload depends on. -/
structure MemoRow (Extracted Location : Type) where
  content : String
  payload : Payload Extracted Location
deriving DecidableEq

/-- `store.UpdateMemo`.  Two fields are not in the source: the row that the
update was computed from, and the location when the request asks for one. -/
structure MemoUpdate (Extracted Location : Type) where
  id : Nat
  content : Option String := none
  payload : Option (Payload Extracted Location) := none
  source : MemoRow Extracted Location
  located : Option (Option Location) := none

/-- The row after the `UPDATE`. -/
def MemoUpdate.apply (update : MemoUpdate Extracted Location) (row : MemoRow Extracted Location) :
    MemoRow Extracted Location where
  content := update.content.getD row.content
  payload := update.payload.getD row.payload

/-- The rows by id, with the updates so far. -/
structure MemoRows (Extracted Location : Type) where
  memos : Nat -> Option (MemoRow Extracted Location)
  log : List (MemoUpdate Extracted Location) := []

/-- The location of the last update that was asked for one. -/
def lastLocation (id : Nat) (initial : Option Location)
    (log : List (MemoUpdate Extracted Location)) : Option Location :=
  log.foldl (fun location update =>
    if update.id = id then update.located.getD location else location) initial

theorem lastLocation_append (id : Nat) (initial : Option Location)
    (log : List (MemoUpdate Extracted Location)) (update : MemoUpdate Extracted Location) :
    lastLocation id initial (log ++ [update]) =
      if update.id = id then update.located.getD (lastLocation id initial log)
      else lastLocation id initial log := by
  unfold lastLocation
  rw [List.foldl_append]
  rfl

/-! ## The steps -/

/-- The steps of a request and of the runner.  What happens outside the memo
table (the caller, the parent, attachments and relations) may only fail. -/
inductive MemoOperation (Extracted Location : Type) where
  | getMemo (id : Nat)
  | listMemos (offset : Nat)
  | updateMemo (update : MemoUpdate Extracted Location)
  | contentLengthLimit
  | elsewhere (what : String)

def MemoReply : MemoOperation Extracted Location -> Type
  | .getMemo _ => Except String (Option (MemoRow Extracted Location))
  | .listMemos _ => Except String (List (Nat × MemoRow Extracted Location))
  | .updateMemo _ => Except String Unit
  | .contentLengthLimit => Except String Nat
  | .elsewhere _ => Except String Unit

abbrev MemoProgram (Extracted Location α : Type) : Type :=
  Program (MemoOperation Extracted Location) MemoReply α

/-- A batch of the runner is a list of stored rows.  An update that fails
changes nothing. -/
def MemoEffect : Pool.Effect (MemoRows Extracted Location) (MemoOperation Extracted Location)
    MemoReply
  | before, .getMemo id, reply, after =>
      after = before ∧ forall row, reply = .ok row -> row = before.memos id
  | before, .listMemos _, reply, after =>
      after = before ∧ forall list, reply = .ok list -> forall entry, entry ∈ list ->
        before.memos entry.1 = some entry.2
  | before, .updateMemo update, .ok _, after =>
      after = ⟨Function.update before.memos update.id ((before.memos update.id).map update.apply),
        before.log ++ [update]⟩
  | before, .updateMemo _, .error _, after => after = before
  | before, .contentLengthLimit, _, after => after = before
  | before, .elsewhere _, _, after => after = before

def step (operation : MemoOperation Extracted Location) :
    MemoProgram Extracted Location (MemoReply operation) :=
  .perform operation .done

/-! ## `UpdateMemo` -/

variable (extract : String -> Except String Extracted)

/-- `RebuildMemoPayload` -/
def rebuildMemoPayload (memo : MemoRow Extracted Location) :
    Except String (MemoRow Extracted Location) :=
  match extract memo.content with
  | .error cause => .error ("failed to extract markdown metadata: " ++ cause)
  | .ok extracted => .ok { memo with payload := { memo.payload with extracted := extracted } }

structure UpdateRequest (Location : Type) where
  id : Nat
  mask : List String
  content : String
  location : Option Location

/-- The memo in the hands of the handler, and the update that it builds up.  The
payload of the update is the one of the memo, as they are one object. -/
structure Updating (Extracted Location : Type) where
  memo : MemoRow Extracted Location
  content : Option String := none
  payload : Option (Payload Extracted Location) := none
  located : Option (Option Location) := none

/-- A step elsewhere, after which the update is as before. -/
def outside (what : String) (state : Updating Extracted Location) :
    MemoProgram Extracted Location (Except String (Updating Extracted Location)) := do
  match ← step (.elsewhere what) with
  | .error cause => return .error cause
  | .ok () => return .ok state

def updateContent (request : UpdateRequest Location) (state : Updating Extracted Location) :
    MemoProgram Extracted Location (Except String (Updating Extracted Location)) := do
  match ← step .contentLengthLimit with
  | .error _ => return .error "failed to get content length limit"
  | .ok limit =>
      if limit < request.content.utf8ByteSize then
        return .error ("content too long (max " ++ toString limit ++ " characters)")
      else
        match rebuildMemoPayload extract { state.memo with content := request.content } with
        | .error cause => return .error ("failed to rebuild memo payload: " ++ cause)
        | .ok memo =>
            return .ok { state with
              memo := memo, content := some memo.content, payload := some memo.payload }

def updateLocation (request : UpdateRequest Location) (state : Updating Extracted Location) :
    Updating Extracted Location :=
  let payload := { state.memo.payload with location := request.location }
  { state with
    memo := { state.memo with payload := payload }
    payload := some payload
    located := some request.location }

/-- One path of the update mask.  The paths of other columns change neither the
content nor the payload. -/
def updatePath (request : UpdateRequest Location) (state : Updating Extracted Location)
    (path : String) : MemoProgram Extracted Location (Except String (Updating Extracted Location)) :=
  if path = "content" then updateContent extract request state
  else if path = "visibility" then outside "parent memo" state
  else if path = "display_time" then return .error "display_time is not supported"
  else if path = "location" then return .ok (updateLocation request state)
  else if path = "attachments" then outside "attachments" state
  else if path = "relations" then outside "relations" state
  else return .ok state

def updatePaths (request : UpdateRequest Location) : List String -> Updating Extracted Location ->
    MemoProgram Extracted Location (Except String (Updating Extracted Location))
  | [], state => return .ok state
  | path :: paths, state => do
      match ← updatePath extract request state path with
      | .error cause => return .error cause
      | .ok next => updatePaths request paths next

/-- The final update and the reads of the response. -/
def writeMemo (id : Nat) (source : MemoRow Extracted Location) (state : Updating Extracted Location) :
    MemoProgram Extracted Location (Except String Unit) := do
  let update : MemoUpdate Extracted Location :=
    { id := id, content := state.content, payload := state.payload, source := source
      located := state.located }
  match ← step (.updateMemo update) with
  | .error _ => return .error "failed to update memo"
  | .ok _ =>
      match ← step (.getMemo id) with
      | .error cause => return .error ("failed to get memo: " ++ cause)
      | .ok _ => return .ok ()

def updateMemo (request : UpdateRequest Location) :
    MemoProgram Extracted Location (Except String Unit) :=
  if request.mask = [] then return .error "update mask is required"
  else do
    match ← step (.getMemo request.id) with
    | .error cause => return .error ("failed to get memo: " ++ cause)
    | .ok none => return .error "memo not found"
    | .ok (some memo) =>
        match ← step (.elsewhere "current user") with
        | .error cause => return .error cause
        | .ok _ =>
            match ← updatePaths extract request request.mask { memo := memo } with
            | .error cause => return .error cause
            | .ok state => writeMemo request.id memo state

/-! ## The runner -/

/-- The loop over a batch.  A memo that fails is skipped. -/
def rebuildBatch : List (Nat × MemoRow Extracted Location) -> MemoProgram Extracted Location Unit
  | [] => return ()
  | (id, memo) :: rest =>
      match rebuildMemoPayload extract memo with
      | .error _ => rebuildBatch rest
      | .ok rebuilt => do
          let _ ← step (.updateMemo { id := id, payload := some rebuilt.payload, source := memo })
          rebuildBatch rest

/-- `RunOnce`, for at most this many batches. -/
def runOnce : Nat -> Nat -> MemoProgram Extracted Location Unit
  | 0, _ => return ()
  | batches + 1, offset => do
      match ← step (.listMemos offset) with
      | .error _ => return ()
      | .ok [] => return ()
      | .ok (memo :: memos) => do
          rebuildBatch extract (memo :: memos)
          runOnce batches (offset + (memo :: memos).length)

/-- The programs that write payloads. -/
inductive MemoCall (Location : Type) where
  | update (request : UpdateRequest Location)
  | run (batches : Nat)

def MemoCall.program : MemoCall Location -> MemoProgram Extracted Location Unit
  | .update request => do
      let _ ← updateMemo extract request
      return ()
  | .run batches => runOnce extract batches 0

/-! ## Updates that fit their source -/

/-- The payload of an update is that of the content that it leads to, where
its source has the content and the location that the update leaves alone. -/
def Derived (update : MemoUpdate Extracted Location) : Prop :=
  match update.payload with
  | none => update.content = none ∧ update.located = none
  | some payload =>
      extract (update.content.getD update.source.content) = .ok payload.extracted ∧
        payload.location = update.located.getD update.source.payload.location

/-- The payload of the row is that of its content. -/
def Consistent (row : MemoRow Extracted Location) : Prop :=
  extract row.content = .ok row.payload.extracted

/-- What the handler holds fits the row that it has read. -/
structure Fitting (source : MemoRow Extracted Location) (state : Updating Extracted Location) :
    Prop where
  content : extract (state.content.getD source.content) = .ok state.memo.payload.extracted
  location : state.memo.payload.location = state.located.getD source.payload.location
  payload : (state.payload = none ∧ state.content = none ∧ state.located = none) ∨
    state.payload = some state.memo.payload

/-- The demand on an operation. -/
def Demanded : MemoOperation Extracted Location -> Prop
  | .updateMemo update => Derived extract update
  | _ => True

/-- The expectation of a reply. -/
def Expected : (operation : MemoOperation Extracted Location) -> MemoReply operation -> Prop
  | .getMemo _, reply => forall row, reply = .ok (some row) -> Consistent extract row
  | _, _ => True

abbrev Ensures {α : Type} (wanted : α -> Prop) (program : MemoProgram Extracted Location α) : Prop :=
  program.Ensures (Demanded extract) (Expected extract) wanted

variable {extract} {source : MemoRow Extracted Location} {state : Updating Extracted Location}
  {request : UpdateRequest Location}

theorem ensures_step {operation : MemoOperation Extracted Location} (demanded : Demanded extract operation) :
    Ensures extract (Expected extract operation) (step operation) :=
  ⟨demanded, fun _ expected => expected⟩

theorem rebuildMemoPayload_ok {memo rebuilt : MemoRow Extracted Location}
    (done : rebuildMemoPayload extract memo = .ok rebuilt) :
    rebuilt.content = memo.content ∧ rebuilt.payload.location = memo.payload.location ∧
      extract memo.content = .ok rebuilt.payload.extracted := by
  unfold rebuildMemoPayload at done
  split at done
  · cases done
  · rename_i extracted parsed
    cases done
    exact ⟨rfl, rfl, parsed⟩

/-- The handler goes on with a state that fits, or fails. -/
def FittingResult (extract : String -> Except String Extracted) (source : MemoRow Extracted Location) :
    Except String (Updating Extracted Location) -> Prop
  | .error _ => True
  | .ok state => Fitting extract source state

theorem ensures_outside (what : String) (fits : Fitting extract source state) :
    Ensures extract (FittingResult extract source) (outside what state) := by
  refine Program.Ensures.bind (ensures_step trivial) fun reply _ => ?_
  cases reply with
  | error cause => exact trivial
  | ok done => exact fits

theorem ensures_updateContent (fits : Fitting extract source state) :
    Ensures extract (FittingResult extract source) (updateContent extract request state) := by
  refine Program.Ensures.bind (ensures_step trivial) fun reply _ => ?_
  cases reply with
  | error cause => exact trivial
  | ok limit =>
      dsimp only
      split
      · exact trivial
      · split
        · exact trivial
        · rename_i memo rebuilt
          rcases rebuildMemoPayload_ok rebuilt with ⟨sameContent, sameLocation, parsed⟩
          refine ⟨?_, ?_, .inr rfl⟩
          · rw [Option.getD_some, sameContent]
            exact parsed
          · rw [sameLocation]
            exact fits.location

theorem fitting_updateLocation (fits : Fitting extract source state) :
    Fitting extract source (updateLocation request state) where
  content := fits.content
  location := rfl
  payload := .inr rfl

theorem ensures_updatePath (fits : Fitting extract source state) (path : String) :
    Ensures extract (FittingResult extract source) (updatePath extract request state path) := by
  unfold updatePath
  split
  · exact ensures_updateContent fits
  · split
    · exact ensures_outside _ fits
    · split
      · exact trivial
      · split
        · exact fitting_updateLocation fits
        · split
          · exact ensures_outside _ fits
          · split
            · exact ensures_outside _ fits
            · exact fits

theorem ensures_updatePaths (paths : List String) (fits : Fitting extract source state) :
    Ensures extract (FittingResult extract source) (updatePaths extract request paths state) := by
  induction paths generalizing state with
  | nil => exact fits
  | cons path rest ih =>
      refine Program.Ensures.bind (ensures_updatePath fits path) fun result fitted => ?_
      cases result with
      | error cause => exact trivial
      | ok next => exact ih fitted

theorem ensures_writeMemo (id : Nat) (fits : Fitting extract source state) :
    Ensures extract (fun _ => True) (writeMemo id source state) := by
  refine Program.Ensures.bind (ensures_step ?_) fun reply _ => ?_
  · rcases fits.payload with ⟨noPayload, noContent, noLocation⟩ | payload
    · simp only [Demanded, Derived, noPayload]
      exact ⟨noContent, noLocation⟩
    · simp only [Demanded, Derived, payload]
      exact ⟨fits.content, fits.location⟩
  · cases reply with
    | error cause => exact trivial
    | ok done =>
        refine Program.Ensures.bind (ensures_step trivial) fun reply _ => ?_
        cases reply <;> exact trivial

theorem ensures_updateMemo (request : UpdateRequest Location) :
    Ensures extract (fun _ => True) (updateMemo extract request) := by
  unfold updateMemo
  split
  · exact trivial
  · refine Program.Ensures.bind (ensures_step trivial) fun reply expected => ?_
    rcases reply with cause | _ | memo
    · exact trivial
    · exact trivial
    · refine Program.Ensures.bind (ensures_step trivial) fun reply _ => ?_
      cases reply with
      | error cause => exact trivial
      | ok done =>
          -- Nothing has been changed yet.
          have fits : Fitting extract memo { memo := memo } :=
            ⟨expected memo rfl, rfl, .inl ⟨rfl, rfl, rfl⟩⟩
          refine Program.Ensures.bind (ensures_updatePaths request.mask fits) fun result fitted => ?_
          cases result with
          | error cause => exact trivial
          | ok state => exact ensures_writeMemo request.id fitted

theorem ensures_rebuildBatch (memos : List (Nat × MemoRow Extracted Location)) :
    Ensures extract (fun _ => True) (rebuildBatch extract memos) := by
  induction memos with
  | nil => exact trivial
  | cons entry rest ih =>
      rcases entry with ⟨id, memo⟩
      unfold rebuildBatch
      split
      · exact ih
      · rename_i rebuilt done
        rcases rebuildMemoPayload_ok done with ⟨_, sameLocation, parsed⟩
        refine Program.Ensures.bind (ensures_step ?_) fun _ _ => ih
        exact ⟨parsed, sameLocation⟩

theorem ensures_runOnce (batches offset : Nat) :
    Ensures extract (fun _ => True) (runOnce extract batches offset :
      MemoProgram Extracted Location Unit) := by
  induction batches generalizing offset with
  | zero => exact trivial
  | succ batches ih =>
      refine Program.Ensures.bind (ensures_step trivial) fun reply _ => ?_
      rcases reply with cause | _ | ⟨memo, memos⟩
      · exact trivial
      · exact trivial
      · exact Program.Ensures.bind (ensures_rebuildBatch _) fun _ _ => ih _

theorem ensures_program (call : MemoCall Location) :
    Ensures extract (fun _ => True) (call.program extract) := by
  cases call with
  | update request =>
      exact Program.Ensures.bind (ensures_updateMemo request) fun _ _ => trivial
  | run batches => exact ensures_runOnce batches 0

/-! ## Runs -/

variable (extract)

/-- Nobody has changed what the update takes from its source: a content with
another result of `ExtractAll`, unless the update sets the content, or a
location, unless the request asks for one. -/
def Undisturbed (stored : MemoRow Extracted Location) (update : MemoUpdate Extracted Location) :
    Prop :=
  update.payload = none ∨
    ((update.content = none -> extract stored.content = extract update.source.content) ∧
      (update.located = none -> stored.payload.location = update.source.payload.location))

/-- A row with the payload of its content and this location. -/
def RightAt (location : Option Location) (row : MemoRow Extracted Location) : Prop :=
  Consistent extract row ∧ row.payload.location = location

variable {extract}

/-- An update keeps a row right if and only if it is undisturbed. -/
theorem rightAt_apply_iff {update : MemoUpdate Extracted Location}
    {stored : MemoRow Extracted Location} {location : Option Location}
    (derived : Derived extract update) (right : RightAt extract location stored) :
    RightAt extract (update.located.getD location) (update.apply stored) ↔
      Undisturbed extract stored update := by
  rcases update with ⟨id, content, payload, source, located⟩
  rcases right with ⟨consistent, rfl⟩
  cases payload with
  | none =>
      rcases derived with ⟨rfl, rfl⟩
      exact ⟨fun _ => .inl rfl, fun _ => ⟨consistent, rfl⟩⟩
  | some payload =>
      rcases derived with ⟨parsed, placed⟩
      have contents : extract (content.getD stored.content) = .ok payload.extracted ↔
          (content = none -> extract stored.content = extract source.content) := by
        cases content with
        | none =>
            rw [← parsed]
            exact ⟨fun same _ => same, fun same => same rfl⟩
        | some text => exact ⟨fun _ impossible => (by cases impossible), fun _ => parsed⟩
      have locations : payload.location = located.getD stored.payload.location ↔
          (located = none -> stored.payload.location = source.payload.location) := by
        cases located with
        | none =>
            rw [placed]
            exact ⟨fun same _ => same.symm, fun same => (same rfl).symm⟩
        | some asked => exact ⟨fun _ impossible => (by cases impossible), fun _ => placed⟩
      constructor
      · rintro ⟨right, placedRight⟩
        exact .inr ⟨contents.mp right, locations.mp placedRight⟩
      · rintro (impossible | ⟨sameContent, sameLocation⟩)
        · cases impossible
        · exact ⟨contents.mpr sameContent, locations.mpr sameLocation⟩

section Runs

variable {ι : Type} [DecidableEq ι]

abbrev MemoPool (ι Extracted Location : Type) : Type :=
  Pool (MemoRows Extracted Location) ι (MemoOperation Extracted Location) MemoReply Unit

/-- All programs before their first step. -/
def start (extract : String -> Except String Extracted)
    (initial : Nat -> Option (MemoRow Extracted Location)) (calls : ι -> MemoCall Location) :
    MemoPool ι Extracted Location where
  shared := { memos := initial }
  programs := fun index => (calls index).program extract

/-- An update runs only when it is undisturbed. -/
def UndisturbedStep (extract : String -> Except String Extracted)
    (pool : MemoPool ι Extracted Location) (_ : ι) :
    (operation : MemoOperation Extracted Location) -> MemoReply operation ->
      MemoRows Extracted Location -> Prop
  | .updateMemo update, .ok _, _ => forall stored, pool.shared.memos update.id = some stored ->
      Undisturbed extract stored update
  | _, _, _ => True

/-- Every step is possible at any time. -/
def AnyTime (_ : MemoPool ι Extracted Location) (_ : ι)
    (operation : MemoOperation Extracted Location) (_ : MemoReply operation)
    (_ : MemoRows Extracted Location) : Prop := True

abbrev Reaches (permitted : MemoPool ι Extracted Location -> ι ->
      (operation : MemoOperation Extracted Location) -> MemoReply operation ->
      MemoRows Extracted Location -> Prop)
    (before after : MemoPool ι Extracted Location) : Prop :=
  Pool.Run MemoEffect (fun _ _ => False) permitted before after

/-- Every payload is that of its content, with the location that was asked for
last. -/
def PayloadsRight (extract : String -> Except String Extracted)
    (initial : Nat -> Option (MemoRow Extracted Location)) (rows : MemoRows Extracted Location) :
    Prop :=
  forall id row, rows.memos id = some row -> Exists fun first => initial id = some first ∧
    RightAt extract (lastLocation id first.payload.location rows.log) row

variable {initial : Nat -> Option (MemoRow Extracted Location)}

/-- One update that nobody has disturbed. -/
theorem PayloadsRight.update {rows : MemoRows Extracted Location}
    {update : MemoUpdate Extracted Location} (right : PayloadsRight extract initial rows)
    (derived : Derived extract update)
    (undisturbed : forall stored, rows.memos update.id = some stored ->
      Undisturbed extract stored update) :
    PayloadsRight extract initial
      ⟨Function.update rows.memos update.id ((rows.memos update.id).map update.apply),
        rows.log ++ [update]⟩ := by
  intro id row found
  dsimp only at found ⊢
  by_cases same : id = update.id
  · subst same
    rw [Function.update_self] at found
    rcases Option.map_eq_some_iff.mp found with ⟨stored, old, rfl⟩
    rcases right _ stored old with ⟨first, started, rightStored⟩
    refine ⟨first, started, ?_⟩
    rw [lastLocation_append, if_pos rfl]
    exact (rightAt_apply_iff derived rightStored).mpr (undisturbed stored old)
  · rw [Function.update_of_ne same] at found
    rcases right id row found with ⟨first, started, rightStored⟩
    refine ⟨first, started, ?_⟩
    rw [lastLocation_append, if_neg fun other => same other.symm]
    exact rightStored

omit [DecidableEq ι] in
/-- A step of the programs. -/
theorem payloadsRight_operates (pool : MemoPool ι Extracted Location) (index : ι)
    (operation : MemoOperation Extracted Location) (reply : MemoReply operation)
    (after : MemoRows Extracted Location) (right : PayloadsRight extract initial pool.shared)
    (demanded : Demanded extract operation) (effective : MemoEffect pool.shared operation reply after)
    (allowed : UndisturbedStep extract pool index operation reply after) :
    PayloadsRight extract initial after ∧ Expected extract operation reply := by
  cases operation with
  | getMemo id =>
      rcases effective with ⟨rfl, answers⟩
      refine ⟨right, fun row replied => ?_⟩
      rcases right id row (answers _ replied).symm with ⟨first, _, consistent, _⟩
      exact consistent
  | listMemos offset =>
      rcases effective with ⟨rfl, _⟩
      exact ⟨right, trivial⟩
  | updateMemo update =>
      refine ⟨?_, trivial⟩
      cases reply with
      | error cause =>
          cases effective
          exact right
      | ok done =>
          cases effective
          exact right.update demanded allowed
  | contentLengthLimit =>
      cases effective
      exact ⟨right, trivial⟩
  | elsewhere what =>
      cases effective
      exact ⟨right, trivial⟩

/-- Along a run of undisturbed updates every payload is that of its content, and
every location is the one that was asked for last. -/
theorem payloads_right (extract : String -> Except String Extracted)
    (initial : Nat -> Option (MemoRow Extracted Location)) (calls : ι -> MemoCall Location)
    (last : MemoPool ι Extracted Location)
    (consistent : forall id row, initial id = some row -> Consistent extract row)
    (run : Reaches (UndisturbedStep extract) (start extract initial calls) last) :
    PayloadsRight extract initial last.shared := by
  have started : PayloadsRight extract initial (start extract initial calls).shared :=
    fun id row found => ⟨row, found, consistent id row found, rfl⟩
  have ensured := Pool.Run.ensures run started (fun index => ensures_program (calls index))
    (fun _ _ _ impossible => absurd impossible id) payloadsRight_operates
  exact ensured.1

/-! ## A stale payload -/

/-- The tags of the contents in use here. -/
def tagsOf (content : String) : Except String (List String) :=
  .ok (if content = "#work" then ["work"] else [])

def plainMemo : MemoRow (List String) String := ⟨"plain", ⟨[], none⟩⟩

def oneMemo : Nat -> Option (MemoRow (List String) String) :=
  Function.update (fun _ => none) 1 (some plainMemo)

/-- One request sets the location and another one the content. -/
def placeAndRewrite : Bool -> MemoCall String
  | false => .update ⟨1, ["location"], "", some "home"⟩
  | true => .update ⟨1, ["content"], "#work", none⟩

theorem consistent_oneMemo (id : Nat) (row : MemoRow (List String) String)
    (stored : oneMemo id = some row) : Consistent tagsOf row := by
  by_cases same : id = 1
  · subst same
    cases stored
    rfl
  · rw [oneMemo, Function.update_of_ne same] at stored
    cases stored

/-- The rewritten content keeps the tags of the old one. -/
theorem payloads_stale : ¬ forall (extract : String -> Except String (List String))
    (initial : Nat -> Option (MemoRow (List String) String)) (calls : Bool -> MemoCall String)
    (last : MemoPool Bool (List String) String),
    (forall id row, initial id = some row -> Consistent extract row) ->
      Reaches AnyTime (start extract initial calls) last ->
      (forall index, last.programs index = .done ()) ->
      PayloadsRight extract initial last.shared := by
  intro right
  have begun : Reaches AnyTime (start tagsOf oneMemo placeAndRewrite)
      (start tagsOf oneMemo placeAndRewrite) := .refl
  have read := begun.operation false rfl (.ok (some plainMemo)) ⟨oneMemo, []⟩
    ⟨rfl, fun _ same => by cases same; rfl⟩ trivial
  have allowed := read.operation false rfl (.ok ()) _ rfl trivial
  have readAgain := allowed.operation true rfl (.ok (some plainMemo)) ⟨oneMemo, []⟩
    ⟨rfl, fun _ same => by cases same; rfl⟩ trivial
  have allowedAgain := readAgain.operation true rfl (.ok ()) _ rfl trivial
  have limited := allowedAgain.operation true rfl (.ok 8192) _ rfl trivial
  have rewritten := limited.operation true rfl (.ok ()) _ rfl trivial
  have returned := rewritten.operation true rfl (.ok (some ⟨"#work", ⟨["work"], none⟩⟩)) _
    ⟨rfl, fun _ same => by cases same; rfl⟩ trivial
  have placed := returned.operation false rfl (.ok ()) _ rfl trivial
  have returnedAgain := placed.operation false rfl (.ok (some ⟨"#work", ⟨[], some "home"⟩⟩)) _
    ⟨rfl, fun _ same => by cases same; rfl⟩ trivial
  have final := right tagsOf oneMemo placeAndRewrite _ consistent_oneMemo returnedAgain
    (by intro index; cases index <;> rfl)
  rcases final 1 ⟨"#work", ⟨[], some "home"⟩⟩ rfl with ⟨first, _, consistent, _⟩
  have rebuilt : tagsOf "#work" = .ok ["work"] := rfl
  have kept : tagsOf "#work" = .ok [] := consistent
  rw [rebuilt] at kept
  cases kept

/-- One request after the other. -/
theorem payloads_right_rewritten : Exists fun last =>
    Reaches (UndisturbedStep tagsOf) (start tagsOf oneMemo placeAndRewrite) last ∧
      last.shared.memos 1 = some ⟨"#work", ⟨["work"], some "home"⟩⟩ ∧
      PayloadsRight tagsOf oneMemo last.shared := by
  have begun : Reaches (UndisturbedStep tagsOf) (start tagsOf oneMemo placeAndRewrite)
      (start tagsOf oneMemo placeAndRewrite) := .refl
  have read := begun.operation true rfl (.ok (some plainMemo)) ⟨oneMemo, []⟩
    ⟨rfl, fun _ same => by cases same; rfl⟩ trivial
  have allowed := read.operation true rfl (.ok ()) _ rfl trivial
  have limited := allowed.operation true rfl (.ok 8192) _ rfl trivial
  have rewritten := limited.operation true rfl (.ok ()) _ rfl fun stored found => by
    cases found
    exact .inr ⟨fun impossible => (by cases impossible), fun _ => rfl⟩
  have readAgain := rewritten.operation false rfl
    (.ok (some ⟨"#work", ⟨["work"], none⟩⟩)) _ ⟨rfl, fun _ same => by cases same; rfl⟩ trivial
  have allowedAgain := readAgain.operation false rfl (.ok ()) _ rfl trivial
  have placed := allowedAgain.operation false rfl (.ok ()) _ rfl fun stored found => by
    cases found
    exact .inr ⟨fun _ => rfl, fun impossible => by cases impossible⟩
  exact ⟨_, placed, rfl,
    payloads_right tagsOf oneMemo placeAndRewrite _ consistent_oneMemo placed⟩

end Runs

end PayloadRuns
end Service
end Memos
