import Mathlib.Data.List.Basic
import Memos.Library.Labelled

namespace Memos
namespace Web
namespace MemoUpdates

open Library

/-!
# Optimistic updates of memos

An update of a memo is shown in every cached query before the server answers.
It remembers one copy of the memo, and puts it back everywhere when it fails.
Updates of one memo may overlap: the copy that is put back can then have the
fields of another update that has failed, or be older than what the server has
confirmed.  Fields that the copy does not have stay as they are.
-/

variable {Field Value : Type}

/-! ## Objects and queries -/

/-- A memo as an object: a field may be absent, or be there and undefined. -/
structure Memo (Field Value : Type) where
  name : String
  fields : Field -> Option (Option Value)

/-- `{ ...memo, ...update }` -/
def Memo.spread (memo update : Memo Field Value) : Memo Field Value where
  name := update.name
  fields field := (update.fields field).or (memo.fields field)

structure ListMemosResponse (Field Value : Type) where
  memos : List (Memo Field Value)
  nextPageToken : String

/-- The data of a cached query, other than those of single memos. -/
inductive Collection (Field Value : Type) where
  | list (response : ListMemosResponse Field Value)
  | infinite (pages : List (ListMemosResponse Field Value))
  | other

def patchMemoListResponse (response : ListMemosResponse Field Value) (update : Memo Field Value) :
    ListMemosResponse Field Value :=
  { response with
    memos := response.memos.map fun memo =>
      if memo.name ≠ update.name then memo else memo.spread update }

def patchMemoListQueryData (data : Collection Field Value) (update : Memo Field Value) :
    Collection Field Value :=
  match data with
  | .list response => .list (patchMemoListResponse response update)
  | .infinite pages => .infinite (pages.map fun page => patchMemoListResponse page update)
  | .other => .other

def findMemoInListResponse (response : ListMemosResponse Field Value) (name : String) :
    Option (Memo Field Value) :=
  response.memos.find? fun memo => memo.name = name

def findMemoInQueryData (data : Collection Field Value) (name : String) : Option (Memo Field Value) :=
  match data with
  | .list response => findMemoInListResponse response name
  | .infinite pages => pages.findSome? fun page => findMemoInListResponse page name
  | .other => none

def Collection.memos : Collection Field Value -> List (Memo Field Value)
  | .list response => response.memos
  | .infinite pages => pages.flatMap ListMemosResponse.memos
  | .other => []

/-- The cached queries of memos: the details by the name of the memo, and the
collections. -/
structure Cache (Field Value : Type) where
  details : String -> Option (Memo Field Value)
  collections : List (Collection Field Value)

namespace Cache

def findMemoInCollectionQueries (cache : Cache Field Value) (name : String) :
    Option (Memo Field Value) :=
  cache.collections.findSome? fun data => findMemoInQueryData data name

def patchMemoInCollectionQueries (cache : Cache Field Value) (update : Memo Field Value) :
    Cache Field Value :=
  { cache with collections := cache.collections.map fun data => patchMemoListQueryData data update }

/-- `setQueryData(memoKeys.detail(name), memo)` -/
def setDetail (cache : Cache Field Value) (name : String) (memo : Memo Field Value) :
    Cache Field Value :=
  { cache with details := fun other => if other = name then some memo else cache.details other }

/-! ## The mutation -/

/-- The optimistic update, and the copy that is kept.  An update without a name
has the empty one. -/
def onMutate (cache : Cache Field Value) (update : Memo Field Value) :
    Cache Field Value × Option (Memo Field Value) :=
  if update.name = "" then (cache, none)
  else
    let previousMemo := (cache.details update.name).or (cache.findMemoInCollectionQueries update.name)
    let shown :=
      match previousMemo with
      | none => cache
      | some previousMemo => cache.setDetail update.name (previousMemo.spread update)
    (shown.patchMemoInCollectionQueries update, previousMemo)

/-- Without a kept copy the queries are only marked for a later fetch. -/
def onError (cache : Cache Field Value) (update : Memo Field Value)
    (previousMemo : Option (Memo Field Value)) : Cache Field Value :=
  match previousMemo with
  | none => cache
  | some previousMemo =>
      if update.name = "" then cache
      else (cache.setDetail update.name previousMemo).patchMemoInCollectionQueries previousMemo

def onSuccess (cache : Cache Field Value) (updatedMemo : Memo Field Value) : Cache Field Value :=
  (cache.setDetail updatedMemo.name updatedMemo).patchMemoInCollectionQueries updatedMemo

/-- The copies of memos in the collections. -/
def copies (cache : Cache Field Value) : List (Memo Field Value) :=
  cache.collections.flatMap Collection.memos

end Cache

/-! ## Runs -/

/-- An update that the server has not answered. -/
structure Mutation (Field Value : Type) where
  id : Nat
  update : Memo Field Value
  previousMemo : Option (Memo Field Value)

/-- What the order of the events tells: the last confirmed value of each memo,
whether it is what the views show, and which updates started from it. -/
structure History (Field Value : Type) where
  confirmed : String -> Memo Field Value
  fresh : String -> Bool
  rooted : String -> List Nat

namespace History

def started (history : History Field Value) (id : Nat) (name : String) (cached : Bool) :
    History Field Value :=
  if cached then
    { history with
      fresh := fun other => if other = name then false else history.fresh other
      rooted := fun other =>
        if other = name ∧ history.fresh name then id :: history.rooted other else history.rooted other }
  else history

def succeeded (history : History Field Value) (memo : Memo Field Value) : History Field Value where
  confirmed other := if other = memo.name then memo else history.confirmed other
  fresh other := if other = memo.name then true else history.fresh other
  rooted other := if other = memo.name then [] else history.rooted other

def failed (history : History Field Value) (id : Nat) (name : String) (cached : Bool) :
    History Field Value :=
  if cached then
    { history with
      fresh := fun other => if other = name then id ∈ history.rooted name else history.fresh other }
  else history

end History

structure System (Field Value : Type) where
  cache : Cache Field Value
  pending : List (Mutation Field Value)
  nextId : Nat
  history : History Field Value

/-- An update starts, or the server's answer to one arrives. -/
inductive Event (Field Value : Type) where
  | start (update : Memo Field Value)
  | succeed (id : Nat) (updatedMemo : Memo Field Value)
  | fail (id : Nat)

namespace System

def find (system : System Field Value) (id : Nat) : Option (Mutation Field Value) :=
  system.pending.find? fun mutation => mutation.id = id

def without (system : System Field Value) (id : Nat) : List (Mutation Field Value) :=
  system.pending.filter fun mutation => mutation.id ≠ id

/-- One event.  The server answers an update with the memo it has updated. -/
def step (system : System Field Value) : Event Field Value -> Option (System Field Value)
  | .start update =>
      let mutated := system.cache.onMutate update
      some {
        cache := mutated.1
        pending := system.pending ++ [{ id := system.nextId, update, previousMemo := mutated.2 }]
        nextId := system.nextId + 1
        history := system.history.started system.nextId update.name mutated.2.isSome }
  | .succeed id updatedMemo =>
      (system.find id).bind fun mutation =>
        if updatedMemo.name = mutation.update.name then
          some { system with
            cache := system.cache.onSuccess updatedMemo
            pending := system.without id
            history := system.history.succeeded updatedMemo }
        else none
  | .fail id =>
      (system.find id).map fun mutation =>
        { system with
          cache := system.cache.onError mutation.update mutation.previousMemo
          pending := system.without id
          history := system.history.failed id mutation.update.name mutation.previousMemo.isSome }

/-! ## Rolling back -/

/-- The memo looks like the value. -/
def Shows (memo value : Memo Field Value) : Prop :=
  ∀ field, (memo.fields field).join = (value.fields field).join

/-- Every view of the memo shows its last confirmed value. -/
def ShowsConfirmed (system : System Field Value) (name : String) : Prop :=
  (∀ memo, system.cache.details name = some memo -> Shows memo (system.history.confirmed name)) ∧
    ∀ memo, memo ∈ system.cache.copies -> memo.name = name ->
      Shows memo (system.history.confirmed name)

def Idle (system : System Field Value) (name : String) : Prop :=
  ∀ mutation, mutation ∈ system.pending -> mutation.update.name ≠ name

/-- The views of every memo that no update is pending of show its last confirmed
value. -/
def RolledBack (system : System Field Value) : Prop :=
  ∀ name, system.Idle name -> system.ShowsConfirmed name

/-- No update has been made, and every view shows the confirmed values. -/
structure Coherent (system : System Field Value) : Prop where
  pending : system.pending = []
  fresh : ∀ name, system.history.fresh name = true
  rooted : ∀ name, system.history.rooted name = []
  named : ∀ memo, memo ∈ system.cache.copies -> memo.name ≠ ""
  details : ∀ name memo, system.cache.details name = some memo -> memo.name = name
  shows : ∀ name, system.ShowsConfirmed name

/-- The update is the only pending one of the memo. -/
def Alone (system : System Field Value) (id : Nat) (name : String) : Prop :=
  ∀ mutation, mutation ∈ system.pending -> mutation.update.name = name -> mutation.id = id

/-- The value has every field that a copy of the memo in a collection shows. -/
def Covers (system : System Field Value) (value : Memo Field Value) : Prop :=
  ∀ memo, memo ∈ system.cache.copies -> memo.name = value.name ->
    ∀ field, (memo.fields field).join ≠ none -> value.fields field ≠ none

/-- The last pending update of a memo fails only when it was started from the
confirmed value and none has succeeded since, and the value that its answer leads
to has all fields that are shown. -/
def Restores (system : System Field Value) : Event Field Value -> Prop
  | .start _ => True
  | .succeed id updatedMemo => system.Alone id updatedMemo.name -> system.Covers updatedMemo
  | .fail id =>
      ∀ mutation, system.find id = some mutation -> system.Alone id mutation.update.name ->
        match mutation.previousMemo with
        | none => system.history.fresh mutation.update.name = true
        | some previousMemo =>
            id ∈ system.history.rooted mutation.update.name ∧ system.Covers previousMemo

end System

/-! ## The copies -/

def Memo.patched (memo update : Memo Field Value) : Memo Field Value :=
  if memo.name ≠ update.name then memo else memo.spread update

theorem memos_patch (data : Collection Field Value) (update : Memo Field Value) :
    (patchMemoListQueryData data update).memos = data.memos.map fun memo => memo.patched update := by
  cases data with
  | list response => rfl
  | infinite pages =>
      rw [patchMemoListQueryData, Collection.memos, Collection.memos, List.flatMap_map,
        List.map_flatMap]
      rfl
  | other => rfl

theorem findMemoInQueryData_eq (data : Collection Field Value) (name : String) :
    findMemoInQueryData data name = data.memos.find? fun memo => memo.name = name := by
  cases data with
  | list response => rfl
  | infinite pages =>
      rw [findMemoInQueryData, Collection.memos, List.find?_flatMap]
      rfl
  | other => rfl

namespace Cache

theorem copies_patch (cache : Cache Field Value) (update : Memo Field Value) :
    (cache.patchMemoInCollectionQueries update).copies =
      cache.copies.map fun memo => memo.patched update := by
  rw [copies, patchMemoInCollectionQueries, List.flatMap_map, copies, List.map_flatMap]
  exact congrArg (fun body => List.flatMap body cache.collections)
    (funext fun data => memos_patch data update)

theorem findMemoInCollectionQueries_eq (cache : Cache Field Value) (name : String) :
    cache.findMemoInCollectionQueries name = cache.copies.find? fun memo => memo.name = name := by
  rw [findMemoInCollectionQueries, copies, List.find?_flatMap]
  exact congrArg (fun body => List.findSome? body cache.collections)
    (funext fun data => findMemoInQueryData_eq data name)

/-- A patched copy keeps its name, and only copies of the memo are changed. -/
theorem mem_copies_patch {cache : Cache Field Value} {update copy : Memo Field Value}
    (member : copy ∈ (cache.patchMemoInCollectionQueries update).copies) :
    Exists fun memo => memo ∈ cache.copies ∧ memo.name = copy.name ∧
      copy = if memo.name = update.name then memo.spread update else memo := by
  rw [copies_patch] at member
  rcases List.mem_map.mp member with ⟨memo, isCopy, rfl⟩
  refine ⟨memo, isCopy, ?_, ?_⟩
  · unfold Memo.patched
    split
    · rfl
    · rename_i same
      exact not_not.mp same
  · unfold Memo.patched
    by_cases same : memo.name = update.name
    · rw [if_pos same, if_neg (not_not.mpr same)]
    · rw [if_neg same, if_pos same]

end Cache

namespace System

theorem Shows.trans {memo value other : Memo Field Value} (first : Shows memo value)
    (second : Shows value other) : Shows memo other := fun field => (first field).trans (second field)

/-- A copy that shows no more than the value has looks like it when it is spread
over the copy. -/
theorem shows_spread {memo value : Memo Field Value}
    (covers : ∀ field, (memo.fields field).join ≠ none -> value.fields field ≠ none) :
    Shows (memo.spread value) value := by
  intro field
  rw [Memo.spread]
  dsimp only
  cases present : value.fields field with
  | some content => rfl
  | none =>
      rw [Option.none_or]
      by_contra shown
      exact covers field shown present

/-! ## The invariant -/

/-- The pending updates have numbers of their own, which have all been given. -/
structure Numbered (pending : List (Mutation Field Value)) (nextId : Nat) : Prop where
  older : ∀ mutation, mutation ∈ pending -> mutation.id < nextId
  unique : ∀ first second, first ∈ pending -> second ∈ pending -> first.id = second.id ->
    first = second

/-- What holds between the events of a run. -/
structure Sound (system : System Field Value) : Prop where
  idle : ∀ name, system.Idle name -> system.history.fresh name = true ∧
    ∀ memo, memo ∈ system.cache.copies -> memo.name = name ->
      Shows memo (system.history.confirmed name)
  named : ∀ memo, memo ∈ system.cache.copies -> memo.name ≠ ""
  detailNames : ∀ name memo, system.cache.details name = some memo -> memo.name = name
  freshDetail : ∀ name memo, system.history.fresh name = true ->
    system.cache.details name = some memo -> Shows memo (system.history.confirmed name)
  freshCopies : ∀ name memo, system.history.fresh name = true ->
    system.cache.details name = none -> memo ∈ system.cache.copies -> memo.name = name ->
      Shows memo (system.history.confirmed name)
  older : ∀ name id, id ∈ system.history.rooted name -> id < system.nextId
  numbered : Numbered system.pending system.nextId
  kept : ∀ mutation previousMemo, mutation ∈ system.pending ->
    mutation.previousMemo = some previousMemo ->
      mutation.update.name ≠ "" ∧ previousMemo.name = mutation.update.name ∧
        (mutation.id ∈ system.history.rooted mutation.update.name ->
          Shows previousMemo (system.history.confirmed mutation.update.name))
  uncached : ∀ mutation memo, mutation ∈ system.pending -> mutation.previousMemo = none ->
    memo ∈ system.cache.copies -> memo.name ≠ mutation.update.name

variable {system : System Field Value} {name : String} {id : Nat}

theorem Sound.rolledBack (sound : system.Sound) : system.RolledBack := by
  intro name idle
  rcases sound.idle name idle with ⟨fresh, copies⟩
  exact ⟨fun memo => sound.freshDetail name memo fresh, copies⟩

theorem Coherent.sound (coherent : system.Coherent) : system.Sound where
  idle name _ := ⟨coherent.fresh name, (coherent.shows name).2⟩
  named := coherent.named
  detailNames := coherent.details
  freshDetail name memo _ := (coherent.shows name).1 memo
  freshCopies name memo _ _ := (coherent.shows name).2 memo
  older name id member := by
    rw [coherent.rooted] at member
    contradiction
  numbered := by
    rw [coherent.pending]
    exact ⟨fun _ member => absurd member List.not_mem_nil,
      fun _ _ member => absurd member List.not_mem_nil⟩
  kept mutation previousMemo member := by
    rw [coherent.pending] at member
    contradiction
  uncached mutation memo member := by
    rw [coherent.pending] at member
    contradiction

/-! ## Steps -/

/-- An event that sets the detail of one memo, patches its copies, and changes
nothing about the others. -/
theorem Sound.touch {system next : System Field Value} (sound : system.Sound) {detail value : Memo Field Value}
    (cache : next.cache = (system.cache.setDetail name detail).patchMemoInCollectionQueries value)
    (detailName : detail.name = name) (valueName : value.name = name) (elsewhere : ∀ other, other ≠ name ->
      next.history.confirmed other = system.history.confirmed other ∧
        next.history.fresh other = system.history.fresh other ∧
        next.history.rooted other = system.history.rooted other)
    (pending : ∀ mutation, mutation.update.name ≠ name ->
      (mutation ∈ next.pending ↔ mutation ∈ system.pending)) (ids : system.nextId ≤ next.nextId)
    (older : ∀ id, id ∈ next.history.rooted name -> id < next.nextId)
    (numbered : Numbered next.pending next.nextId) (idle : next.Idle name -> next.history.fresh name = true ∧
      ∀ memo, memo ∈ system.cache.copies -> memo.name = name ->
        Shows (memo.spread value) (next.history.confirmed name))
    (fresh : next.history.fresh name = true -> Shows detail (next.history.confirmed name))
    (kept : ∀ mutation previousMemo, mutation ∈ next.pending -> mutation.update.name = name ->
      mutation.previousMemo = some previousMemo ->
        name ≠ "" ∧ previousMemo.name = name ∧
          (mutation.id ∈ next.history.rooted name ->
            Shows previousMemo (next.history.confirmed name)))
    (uncached : ∀ mutation, mutation ∈ next.pending -> mutation.update.name = name ->
      mutation.previousMemo = none -> mutation ∈ system.pending) : next.Sound := by
  have details (other : String) : next.cache.details other =
      if other = name then some detail else system.cache.details other := by
    rw [cache]
    rfl
  have copy {memo : Memo Field Value} (member : memo ∈ next.cache.copies) :
      Exists fun before => before ∈ system.cache.copies ∧ before.name = memo.name ∧
        memo = if before.name = name then before.spread value else before := by
    rw [cache] at member
    have found := Cache.mem_copies_patch member
    rw [valueName] at found
    exact found
  have otherCopy {memo : Memo Field Value} (member : memo ∈ next.cache.copies)
      (other : memo.name ≠ name) : memo ∈ system.cache.copies := by
    rcases copy member with ⟨before, isCopy, sameName, memo_eq⟩
    rw [if_neg fun same => other (sameName.symm.trans same)] at memo_eq
    rw [memo_eq]
    exact isCopy
  constructor
  · intro other otherIdle
    by_cases same : other = name
    · subst same
      rcases idle otherIdle with ⟨isFresh, shown⟩
      refine ⟨isFresh, fun memo member memoName => ?_⟩
      rcases copy member with ⟨before, isCopy, sameName, memo_eq⟩
      rw [memoName] at sameName
      rw [memo_eq, if_pos sameName]
      exact shown before isCopy sameName
    · rcases elsewhere other same with ⟨confirmed, sameFresh, _⟩
      have before : system.Idle other := by
        intro mutation member isOther
        exact otherIdle mutation
          ((pending mutation fun isName => same (isOther.symm.trans isName)).mpr member) isOther
      rcases sound.idle other before with ⟨isFresh, shown⟩
      rw [confirmed, sameFresh]
      refine ⟨isFresh, fun memo member memoName => ?_⟩
      exact shown memo (otherCopy member fun isName => same (memoName.symm.trans isName)) memoName
  · intro memo member
    rcases copy member with ⟨before, isCopy, sameName, _⟩
    rw [← sameName]
    exact sound.named before isCopy
  · intro other memo found
    rw [details] at found
    split at found
    · rename_i same
      obtain rfl := Option.some.inj found
      rw [detailName, same]
    · exact sound.detailNames other memo found
  · intro other memo isFresh found
    rw [details] at found
    by_cases same : other = name
    · subst same
      rw [if_pos rfl] at found
      obtain rfl := Option.some.inj found
      exact fresh isFresh
    · rcases elsewhere other same with ⟨confirmed, sameFresh, _⟩
      rw [if_neg same] at found
      rw [sameFresh] at isFresh
      rw [confirmed]
      exact sound.freshDetail other memo isFresh found
  · intro other memo isFresh missing member memoName
    rw [details] at missing
    by_cases same : other = name
    · rw [if_pos same] at missing
      contradiction
    · rcases elsewhere other same with ⟨confirmed, sameFresh, _⟩
      rw [if_neg same] at missing
      rw [sameFresh] at isFresh
      rw [confirmed]
      exact sound.freshCopies other memo isFresh missing
        (otherCopy member fun isName => same (memoName.symm.trans isName)) memoName
  · intro other id member
    by_cases same : other = name
    · subst same
      exact older id member
    · rw [(elsewhere other same).2.2] at member
      exact Nat.lt_of_lt_of_le (sound.older other id member) ids
  · exact numbered
  · intro mutation previousMemo member isKept
    by_cases same : mutation.update.name = name
    · rw [same]
      exact kept mutation previousMemo member same isKept
    · rcases elsewhere _ same with ⟨confirmed, _, sameRooted⟩
      rw [confirmed, sameRooted]
      exact sound.kept mutation previousMemo ((pending mutation same).mp member) isKept
  · intro mutation memo member isKept memberCopy
    rcases copy memberCopy with ⟨before, isCopy, sameName, _⟩
    rw [← sameName]
    refine sound.uncached mutation before ?_ isKept isCopy
    by_cases same : mutation.update.name = name
    · exact uncached mutation member same isKept
    · exact (pending mutation same).mp member

/-- An event that changes nothing that is shown. -/
theorem Sound.leave {system next : System Field Value} (sound : system.Sound)
    (details : next.cache.details = system.cache.details)
    (copies : next.cache.copies = system.cache.copies) (history : next.history = system.history)
    (ids : system.nextId ≤ next.nextId) (numbered : Numbered next.pending next.nextId)
    (idle : ∀ name, next.Idle name -> system.history.fresh name = true ∧
      ∀ memo, memo ∈ system.cache.copies -> memo.name = name ->
        Shows memo (system.history.confirmed name))
    (kept : ∀ mutation previousMemo, mutation ∈ next.pending ->
      mutation.previousMemo = some previousMemo -> mutation ∈ system.pending)
    (uncached : ∀ mutation memo, mutation ∈ next.pending -> mutation.previousMemo = none ->
      memo ∈ system.cache.copies -> memo.name ≠ mutation.update.name) : next.Sound := by
  constructor
  · rw [history, copies]
    exact idle
  · rw [copies]
    exact sound.named
  · rw [details]
    exact sound.detailNames
  · rw [details, history]
    exact sound.freshDetail
  · rw [details, copies, history]
    exact sound.freshCopies
  · rw [history]
    exact fun name id member => Nat.lt_of_lt_of_le (sound.older name id member) ids
  · exact numbered
  · rw [history]
    exact fun mutation previousMemo member isKept =>
      sound.kept mutation previousMemo (kept mutation previousMemo member isKept) isKept
  · rw [copies]
    exact uncached

/-- The kept copy is one of the memo, and shows its confirmed value if the views
do. -/
theorem Sound.previous (sound : system.Sound) {previousMemo : Memo Field Value}
    (found : (system.cache.details name).or (system.cache.findMemoInCollectionQueries name) =
      some previousMemo) :
    previousMemo.name = name ∧
      (system.history.fresh name = true -> Shows previousMemo (system.history.confirmed name)) := by
  cases detail : system.cache.details name with
  | some memo =>
      rw [detail, Option.some_or] at found
      obtain rfl := Option.some.inj found
      exact ⟨sound.detailNames name memo detail, fun fresh => sound.freshDetail name memo fresh detail⟩
  | none =>
      rw [detail, Option.none_or, Cache.findMemoInCollectionQueries_eq] at found
      have sameName : previousMemo.name = name :=
        of_decide_eq_true
          (@List.find?_some _ (fun memo : Memo Field Value => decide (memo.name = name)) _ _ found)
      have isCopy := List.mem_of_find?_eq_some found
      exact ⟨sameName, fun fresh => sound.freshCopies name previousMemo fresh detail isCopy sameName⟩

/-- The pending updates with a new one. -/
def adding (system : System Field Value) (update : Memo Field Value)
    (previousMemo : Option (Memo Field Value)) : List (Mutation Field Value) :=
  system.pending ++ [{ id := system.nextId, update, previousMemo }]

variable {update : Memo Field Value} {mutation : Mutation Field Value}

theorem mem_adding {previousMemo : Option (Memo Field Value)} (member : mutation ∈ system.adding update previousMemo) :
    mutation ∈ system.pending ∨ mutation = { id := system.nextId, update, previousMemo } := by
  rcases List.mem_append.mp member with old | last
  · exact Or.inl old
  · exact Or.inr (List.mem_singleton.mp last)

theorem Numbered.adding (numbered : Numbered system.pending system.nextId) (update : Memo Field Value)
    (previousMemo : Option (Memo Field Value)) :
    Numbered (system.adding update previousMemo) (system.nextId + 1) := by
  constructor
  · intro mutation member
    rcases mem_adding member with old | rfl
    · exact Nat.lt_succ_of_lt (numbered.older mutation old)
    · exact Nat.lt_succ_self _
  · intro first second firstMember secondMember sameId
    rcases mem_adding firstMember with firstOld | rfl
    · rcases mem_adding secondMember with secondOld | rfl
      · exact numbered.unique first second firstOld secondOld sameId
      · exact absurd sameId (Nat.ne_of_lt (numbered.older first firstOld))
    · rcases mem_adding secondMember with secondOld | rfl
      · exact absurd sameId.symm (Nat.ne_of_lt (numbered.older second secondOld))
      · rfl

/-- An update of a memo that is not cached changes nothing. -/
theorem Sound.startUncached (sound : system.Sound) {cache : Cache Field Value}
    (details : cache.details = system.cache.details) (copies : cache.copies = system.cache.copies)
    (elsewhere : ∀ memo, memo ∈ system.cache.copies -> memo.name ≠ update.name) :
    Sound { cache, pending := system.adding update none, nextId := system.nextId + 1,
            history := system.history } := by
  refine sound.leave details copies rfl (Nat.le_succ _) (sound.numbered.adding update _) ?_ ?_ ?_
  · intro name idle
    exact sound.idle name fun mutation member => idle mutation (List.mem_append_left _ member)
  · intro mutation previousMemo member isKept
    rcases mem_adding member with old | rfl
    · exact old
    · contradiction
  · intro mutation memo member isKept isCopy
    rcases mem_adding member with old | rfl
    · exact sound.uncached mutation memo old isKept isCopy
    · exact elsewhere memo isCopy

/-- An update started from the views is rooted if they are fresh. -/
theorem mem_rooted_started {history : History Field Value} {id other : Nat} :
    other ∈ (history.started id name true).rooted name ↔
      (other = id ∧ history.fresh name = true) ∨ other ∈ history.rooted name := by
  unfold History.started
  rw [if_pos rfl]
  dsimp only
  by_cases fresh : history.fresh name = true
  · rw [if_pos ⟨rfl, fresh⟩, List.mem_cons]
    simp only [fresh, and_true]
  · rw [if_neg fun both => fresh both.2]
    simp only [fresh, and_false, false_or, Bool.false_eq_true]

theorem Sound.startCached (sound : system.Sound) {update previousMemo : Memo Field Value} (named : update.name ≠ "")
    (found : (system.cache.details update.name).or
      (system.cache.findMemoInCollectionQueries update.name) = some previousMemo) :
    Sound {
      cache := (system.cache.setDetail update.name
        (previousMemo.spread update)).patchMemoInCollectionQueries update
      pending := system.adding update (some previousMemo)
      nextId := system.nextId + 1
      history := system.history.started system.nextId update.name true } := by
  rcases sound.previous found with ⟨previousName, previousShows⟩
  have stale : (system.history.started system.nextId update.name true).fresh update.name = false :=
    if_pos rfl
  refine sound.touch rfl rfl rfl ?_ ?_ (Nat.le_succ _) ?_ (sound.numbered.adding update _) ?_ ?_ ?_ ?_
  · intro other different
    exact ⟨rfl, if_neg different, if_neg fun both => different both.1⟩
  · intro mutation different
    refine ⟨fun member => ?_, List.mem_append_left _⟩
    rcases mem_adding member with old | rfl
    · exact old
    · exact absurd rfl different
  · intro id member
    rcases mem_rooted_started.mp member with ⟨rfl, _⟩ | old
    · exact Nat.lt_succ_self _
    · exact Nat.lt_succ_of_lt (sound.older _ id old)
  · intro idle
    exact absurd rfl (idle _ (List.mem_append_right _ (List.mem_singleton_self _)))
  · intro fresh
    exact absurd (stale.symm.trans fresh) (by decide)
  · intro mutation kept member sameName isKept
    refine ⟨named, ?_⟩
    rcases mem_adding member with old | rfl
    · rcases sound.kept mutation kept old isKept with ⟨_, keptName, shows⟩
      rw [sameName] at shows
      refine ⟨keptName.trans sameName, fun isRooted => ?_⟩
      rcases mem_rooted_started.mp isRooted with ⟨isNew, _⟩ | before
      · exact absurd isNew (Nat.ne_of_lt (sound.numbered.older mutation old))
      · exact shows before
    · obtain rfl := Option.some.inj isKept
      refine ⟨previousName, fun isRooted => ?_⟩
      rcases mem_rooted_started.mp isRooted with ⟨_, fresh⟩ | before
      · exact previousShows fresh
      · exact absurd (sound.older _ _ before) (Nat.lt_irrefl _)
  · intro mutation member _ isKept
    rcases mem_adding member with old | rfl
    · exact old
    · contradiction

theorem Sound.start {system next : System Field Value} (sound : system.Sound)
    (steps : system.step (.start update) = some next) : next.Sound := by
  obtain rfl := Option.some.inj steps
  by_cases unnamed : update.name = ""
  · have mutated : system.cache.onMutate update = (system.cache, none) := if_pos unnamed
    rw [mutated]
    refine sound.startUncached rfl rfl fun memo isCopy => ?_
    rw [unnamed]
    exact sound.named memo isCopy
  · cases found : (system.cache.details update.name).or
        (system.cache.findMemoInCollectionQueries update.name) with
    | none =>
        have mutated : system.cache.onMutate update =
            (system.cache.patchMemoInCollectionQueries update, none) := by
          rw [Cache.onMutate, if_neg unnamed, found]
        have missing := (Option.or_eq_none_iff.mp found).2
        rw [Cache.findMemoInCollectionQueries_eq, List.find?_eq_none] at missing
        have elsewhere (memo : Memo Field Value) (isCopy : memo ∈ system.cache.copies) :
            memo.name ≠ update.name := fun same => missing memo isCopy (decide_eq_true same)
        rw [mutated]
        refine sound.startUncached rfl ?_ elsewhere
        calc
          (system.cache.patchMemoInCollectionQueries update).copies =
              system.cache.copies.map (fun memo => memo.patched update) :=
            Cache.copies_patch system.cache update
          _ = system.cache.copies.map id :=
            List.map_congr_left fun memo isCopy => if_pos (elsewhere memo isCopy)
          _ = system.cache.copies := List.map_id _
    | some previousMemo =>
        have mutated : system.cache.onMutate update =
            ((system.cache.setDetail update.name (previousMemo.spread update)).patchMemoInCollectionQueries
              update, some previousMemo) := by
          rw [Cache.onMutate, if_neg unnamed, found]
        rw [mutated]
        exact sound.startCached unnamed found

/-! ## Settling -/

theorem mem_without :
    mutation ∈ system.without id ↔ mutation ∈ system.pending ∧ mutation.id ≠ id := by
  rw [without, List.mem_filter, decide_eq_true_eq]

theorem find_spec (found : system.find id = some mutation) :
    mutation ∈ system.pending ∧ mutation.id = id :=
  ⟨List.mem_of_find?_eq_some found,
    of_decide_eq_true
      (@List.find?_some _ (fun mutation : Mutation Field Value => decide (mutation.id = id)) _ _ found)⟩

theorem Numbered.without (numbered : Numbered system.pending system.nextId) (id : Nat) :
    Numbered (system.without id) system.nextId where
  older mutation member := numbered.older mutation (mem_without.mp member).1
  unique first second firstMember secondMember :=
    numbered.unique first second (mem_without.mp firstMember).1 (mem_without.mp secondMember).1

/-- The answer to an update leaves those of other memos pending. -/
theorem Numbered.mem_without_iff (numbered : Numbered system.pending system.nextId)
    {mutation other : Mutation Field Value} (member : mutation ∈ system.pending)
    (different : other.update.name ≠ mutation.update.name) :
    other ∈ system.without mutation.id ↔ other ∈ system.pending := by
  rw [mem_without]
  refine ⟨And.left, fun isPending => ⟨isPending, fun sameId => ?_⟩⟩
  exact different (by rw [numbered.unique other mutation isPending member sameId])

/-- A memo is idle when its only pending update is answered. -/
theorem alone_of_idle (idle : ∀ mutation, mutation ∈ system.without id -> mutation.update.name ≠ name) :
    system.Alone id name := by
  intro mutation member isName
  by_contra different
  exact idle mutation (mem_without.mpr ⟨member, different⟩) isName

theorem Sound.succeed {system next : System Field Value} (sound : system.Sound) {updatedMemo : Memo Field Value}
    (steps : system.step (.succeed id updatedMemo) = some next) (restores : system.Restores (.succeed id updatedMemo)) :
    next.Sound := by
  rcases Option.bind_eq_some_iff.mp steps with ⟨mutation, found, answered⟩
  obtain ⟨member, rfl⟩ := find_spec found
  split at answered
  · rename_i sameName
    obtain rfl := Option.some.inj answered
    have confirmed : (system.history.succeeded updatedMemo).confirmed updatedMemo.name = updatedMemo :=
      if_pos rfl
    have noneRooted : (system.history.succeeded updatedMemo).rooted updatedMemo.name = [] := if_pos rfl
    refine sound.touch rfl rfl rfl ?_ ?_ (Nat.le_refl _) ?_ ?_ ?_ ?_ ?_ ?_
    · intro other different
      exact ⟨if_neg different, if_neg different, if_neg different⟩
    · intro other different
      rw [sameName] at different
      exact sound.numbered.mem_without_iff member different
    · intro other isRooted
      dsimp only at isRooted
      rw [noneRooted] at isRooted
      contradiction
    · exact sound.numbered.without _
    · intro idle
      refine ⟨if_pos rfl, fun memo isCopy memoName => ?_⟩
      dsimp only
      rw [confirmed]
      exact shows_spread (restores (alone_of_idle idle) memo isCopy memoName)
    · intro _ field
      dsimp only
      rw [confirmed]
    · intro other previousMemo isPending isName isKept
      rcases sound.kept other previousMemo (mem_without.mp isPending).1 isKept with
        ⟨named, keptName, _⟩
      rw [isName] at named keptName
      refine ⟨named, keptName, fun isRooted => ?_⟩
      dsimp only at isRooted
      rw [noneRooted] at isRooted
      contradiction
    · exact fun other isPending _ _ => (mem_without.mp isPending).1
  · contradiction

theorem Sound.fail {system next : System Field Value} (sound : system.Sound)
    (steps : system.step (.fail id) = some next) (restores : system.Restores (.fail id)) :
    next.Sound := by
  rcases Option.map_eq_some_iff.mp steps with ⟨mutation, found, rfl⟩
  have condition := restores mutation found
  obtain ⟨member, rfl⟩ := find_spec found
  cases isKept : mutation.previousMemo with
  | none =>
      rw [isKept] at condition
      refine sound.leave rfl rfl rfl (Nat.le_refl _) (sound.numbered.without _) ?_ ?_ ?_
      · intro name idle
        by_cases isName : mutation.update.name = name
        · subst isName
          refine ⟨condition (alone_of_idle idle), fun memo isCopy memoName => ?_⟩
          exact absurd memoName (sound.uncached mutation memo member isKept isCopy)
        · refine sound.idle name fun other isPending otherName => ?_
          refine idle other ((sound.numbered.mem_without_iff member ?_).mpr isPending) otherName
          exact fun same => isName (same.symm.trans otherName)
      · exact fun other _ isPending _ => (mem_without.mp isPending).1
      · exact fun other memo isPending => sound.uncached other memo (mem_without.mp isPending).1
  | some previousMemo =>
      rw [isKept] at condition
      rcases sound.kept mutation previousMemo member isKept with ⟨named, keptName, shows⟩
      have restored : system.cache.onError mutation.update (some previousMemo) =
          (system.cache.setDetail mutation.update.name previousMemo).patchMemoInCollectionQueries
            previousMemo := if_neg named
      have freshHere : (system.history.failed mutation.id mutation.update.name true).fresh
          mutation.update.name = decide (mutation.id ∈ system.history.rooted mutation.update.name) :=
        if_pos rfl
      refine sound.touch restored keptName keptName ?_ ?_ (Nat.le_refl _) ?_
        (sound.numbered.without _) ?_ ?_ ?_ ?_
      · intro other different
        exact ⟨rfl, if_neg different, rfl⟩
      · exact fun other different => sound.numbered.mem_without_iff member different
      · exact sound.older mutation.update.name
      · intro idle
        rcases condition (alone_of_idle idle) with ⟨isRooted, covers⟩
        refine ⟨freshHere.trans (decide_eq_true isRooted), fun memo isCopy memoName => ?_⟩
        exact (shows_spread (covers memo isCopy (memoName.trans keptName.symm))).trans (shows isRooted)
      · intro fresh
        exact shows (of_decide_eq_true (freshHere.symm.trans fresh))
      · intro other kept isPending isName otherKept
        have before := sound.kept other kept (mem_without.mp isPending).1 otherKept
        rw [isName] at before
        exact before
      · exact fun other isPending _ _ => (mem_without.mp isPending).1

/-- Every event of the condition keeps the invariant. -/
theorem Sound.step {system next : System Field Value} {event : Event Field Value}
    (sound : system.Sound) (steps : system.step event = some next)
    (restores : system.Restores event) : next.Sound := by
  cases event with
  | start update => exact sound.start steps
  | succeed id updatedMemo => exact sound.succeed steps restores
  | fail id => exact sound.fail steps restores

/-- In a run whose events meet the condition, every memo with no pending update is
shown as it was last confirmed, in every state that is reached. -/
theorem updates_rolledBack {system : System Field Value} (coherent : system.Coherent)
    (events : List (Event Field Value))
    (meets : Throughout step (fun before event _ => before.Restores event) system events) :
    Throughout step (fun _ _ after => after.RolledBack) system events :=
  throughout_of_invariant (fun _ _ _ sound steps restores => sound.step steps restores)
    (fun _ _ _ sound => sound.rolledBack) coherent.sound meets

/-! ## Overlapping updates -/

/-- A memo with one field, which may be absent. -/
def memoA (content : Option String) : Memo Unit String where
  name := "memos/a"
  fields _ := content.map some

/-- The memo in a list and in an infinite list. -/
def listed (content : Option String) : System Unit String where
  cache := {
    details := fun _ => none
    collections := [.list { memos := [memoA content], nextPageToken := "" },
      .infinite [{ memos := [memoA content], nextPageToken := "" }]] }
  pending := []
  nextId := 0
  history := { confirmed := fun _ => memoA content, fresh := fun _ => true, rooted := fun _ => [] }

theorem coherent_listed (content : Option String) : (listed content).Coherent := by
  have only (memo : Memo Unit String) (isCopy : memo ∈ (listed content).cache.copies) :
      memo = memoA content := by
    have member : memo ∈ [memoA content, memoA content] := isCopy
    rcases List.mem_cons.mp member with same | rest
    · exact same
    · exact List.mem_singleton.mp rest
  constructor
  · rfl
  · exact fun _ => rfl
  · exact fun _ => rfl
  · intro memo isCopy
    rw [only memo isCopy]
    exact (by decide : "memos/a" ≠ "")
  · intro name memo found
    contradiction
  · intro name
    refine ⟨fun memo found => by contradiction, fun memo isCopy _ field => ?_⟩
    rw [only memo isCopy]
    rfl

/-- The later update fails before the earlier one. -/
theorem nested_rolledBack :
    Throughout step (fun _ _ after => after.RolledBack) (listed (some "old"))
      [.start (memoA (some "first")), .start (memoA (some "second")), .fail 1, .fail 0] := by
  refine updates_rolledBack (coherent_listed (some "old")) _ ⟨trivial, trivial, ?_, ?_, trivial⟩
  · intro mutation found alone
    obtain rfl := Option.some.inj found
    have same : 0 = 1 := alone _ List.mem_cons_self rfl
    contradiction
  · intro mutation found _
    obtain rfl := Option.some.inj found
    exact ⟨List.mem_cons_self, fun _ _ _ _ _ absent => by contradiction⟩

/-- The later of two updates fails last, and brings back what the earlier one had
shown; and a field that the memo did not have stays in the lists. -/
theorem overlapping_not_rolledBack :
    ((listed (some "old")).Coherent ∧
      ¬ Throughout step (fun _ _ after => after.RolledBack) (listed (some "old"))
        [.start (memoA (some "first")), .start (memoA (some "second")), .fail 0, .fail 1]) ∧
    ((listed none).Coherent ∧
      ¬ Throughout step (fun _ _ after => after.RolledBack) (listed none)
        [.start (memoA (some "first")), .fail 0]) := by
  refine ⟨⟨coherent_listed _, ?_⟩, ⟨coherent_listed _, ?_⟩⟩
  · rintro ⟨_, _, _, rolledBack, _⟩
    have idle := rolledBack "memos/a" fun mutation member => absurd member List.not_mem_nil
    have shown : some "first" = some "old" := idle.1 (memoA (some "first")) rfl ()
    contradiction
  · rintro ⟨_, rolledBack, _⟩
    have idle := rolledBack "memos/a" fun mutation member => absurd member List.not_mem_nil
    have shown : some "first" = none := idle.2 (memoA (some "first")) List.mem_cons_self rfl ()
    contradiction

end System

end MemoUpdates
end Web
end Memos
