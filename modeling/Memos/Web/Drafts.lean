import Memos.Library.JsonText
import Mathlib.Data.List.Induction
import Mathlib.Data.Nat.Find
import Mathlib.Logic.Function.Basic

namespace Memos
namespace Web
namespace Drafts

open Library JsonText

/-!
# Drafts of the editor

Drafts are kept in the local storage, one for each key.  A save waits for a
timer, which a later save, an immediate one or a clear of the key cancels.  What
is written is the content itself; what is read may also be an envelope of
earlier versions, so that a draft with the text of an envelope is not read as it
was saved.
-/

/-! ## The cache -/

def structuredCacheEntryKind : JsString := js "memos.editor-cache"

/-- A literal that the parser rounds to the number 1: half a unit in the last
place above it, a quarter below. -/
def roundsToOne (value : Rat) : Bool :=
  1 - mkRat 1 (2 ^ 54) ≤ value && value ≤ 1 + mkRat 1 (2 ^ 53)

/-- The content of an envelope of the version 1. -/
def envelopeContent (raw : JsString) : Option JsString :=
  match parse raw with
  | none => none
  | some parsed =>
      match parsed.property (js "kind"), parsed.property (js "version"),
        parsed.property (js "content") with
      | some (.string kind), some (.number version), some (.string content) =>
          if kind = structuredCacheEntryKind ∧ roundsToOne version = true then some content else none
      | _, _, _ => none

def deserializeContent (raw : JsString) : JsString := (envelopeContent raw).getD raw

/-- White space and line ends, as `trim` has them. -/
def isSpace (c : UInt16) : Bool :=
  c ∈ [0x9, 0xA, 0xB, 0xC, 0xD, 0x20, 0xA0, 0x1680, 0x2028, 0x2029, 0x202F, 0x205F, 0x3000, 0xFEFF] ||
    (0x2000 ≤ c && c ≤ 0x200A)

/-- `trim` leaves nothing. -/
def isBlank (content : JsString) : Bool := content.all isSpace

/-- A timer of the browser, with what its callback captures. -/
structure Timer where
  id : Nat
  key : JsString
  content : JsString
deriving DecidableEq

structure Cache where
  localStorage : JsString -> Option JsString := fun _ => none
  pendingSaves : List (JsString × Nat) := []
  timers : List Timer := []
  /-- The next result of `setTimeout`. -/
  nextTimer : Nat := 0

namespace Cache

def pendingSave (cache : Cache) (key : JsString) : Option Nat :=
  (cache.pendingSaves.find? fun pending => pending.1 = key).map Prod.snd

/-- `writeEntry` -/
def writeEntry (cache : Cache) (key content : JsString) : Cache :=
  { cache with
    localStorage := Function.update cache.localStorage key (if isBlank content then none else some content) }

def clearTimeout (cache : Cache) (id : Nat) : Cache :=
  { cache with timers := cache.timers.filter fun timer => timer.id ≠ id }

def deletePending (cache : Cache) (key : JsString) : Cache :=
  { cache with pendingSaves := cache.pendingSaves.filter fun pending => pending.1 ≠ key }

/-- The timer that waits for the key is cancelled. -/
def cancel (cache : Cache) (key : JsString) : Cache :=
  match cache.pendingSave key with
  | some id => cache.clearTimeout id
  | none => cache

def save (cache : Cache) (key content : JsString) : Cache :=
  let cache := cache.cancel key
  { cache.deletePending key with
    pendingSaves := (cache.deletePending key).pendingSaves ++ [(key, cache.nextTimer)]
    timers := cache.timers ++ [{ id := cache.nextTimer, key, content }]
    nextTimer := cache.nextTimer + 1 }

def saveNow (cache : Cache) (key content : JsString) : Cache :=
  ((cache.cancel key).deletePending key).writeEntry key content

def load (cache : Cache) (key : JsString) : JsString :=
  match cache.localStorage key with
  | none => []
  | some raw => if raw = [] then [] else deserializeContent raw

def clear (cache : Cache) (key : JsString) : Cache :=
  let cache := (cache.cancel key).deletePending key
  { cache with localStorage := Function.update cache.localStorage key none }

def clearAll (cache : Cache) : Cache :=
  { cache with
    pendingSaves := []
    timers := cache.timers.filter fun timer => timer.id ∉ cache.pendingSaves.map Prod.snd }

/-- The callback of a timer that is due, unless it was cancelled. -/
def fire (cache : Cache) (id : Nat) : Cache :=
  match cache.timers.find? fun timer => timer.id = id with
  | none => cache
  | some timer =>
      ((cache.clearTimeout id).deletePending timer.key).writeEntry timer.key timer.content

end Cache

/-! ## Runs -/

inductive Event where
  | save (key content : JsString)
  | saveNow (key content : JsString)
  | load (key : JsString)
  | clear (key : JsString)
  | clearAll
  | fire (id : Nat)
deriving DecidableEq

def step (cache : Cache) : Event -> Cache
  | .save key content => cache.save key content
  | .saveNow key content => cache.saveNow key content
  | .load _ => cache
  | .clear key => cache.clear key
  | .clearAll => cache.clearAll
  | .fire id => cache.fire id

/-- The cache of a browser after its calls and firings so far. -/
def cacheAfter (history : List Event) : Cache := history.foldl step {}

/-! ## What a run has saved -/

def Event.isSave : Event -> Bool
  | .save _ _ => true
  | _ => false

/-- The timer of the debounced save at this place. -/
def timerOf (history : List Event) (place : Nat) : Nat := (history.take place).countP Event.isSave

/-- An event that a pending save of the key does not survive. -/
def Event.Cancels (key : JsString) : Event -> Prop
  | .save other _ | .saveNow other _ | .clear other => other = key
  | .clearAll => True
  | .load _ | .fire _ => False

/-- The call at this place saves the content under the key, at once or by a
timer that fires before anything cancels it. -/
def Counts (history : List Event) (place : Nat) (key content : JsString) : Prop :=
  history[place]? = some (.saveNow key content) ∨
    history[place]? = some (.save key content) ∧
      ∀ (later : Nat) (event : Event), place < later -> history[later]? = some event ->
        event.Cancels key -> Exists fun fired =>
          place < fired ∧ fired < later ∧ history[fired]? = some (.fire (timerOf history place))

/-- The last content that counts and that no clear of the key follows; the empty
text when there is none or it is blank. -/
def LastOf (counts : Nat -> JsString -> Prop) (history : List Event) (key value : JsString) : Prop :=
  (Exists fun place => Exists fun content => counts place content ∧
    (∀ later : Nat, place < later -> history[later]? ≠ some (.clear key)) ∧
    (∀ later other, place < later -> ¬ counts later other) ∧
    value = if isBlank content then [] else content) ∨
  value = [] ∧ ∀ place content, counts place content ->
    Exists fun later : Nat => place < later ∧ history[later]? = some (.clear key)

/-- The last content that was saved under the key after its last clear. -/
def LastSaved (history : List Event) (key value : JsString) : Prop :=
  LastOf (fun place content => Counts history place key content) history key value

/-- The content is the text of an envelope of another one. -/
def Misread (content : JsString) : Prop :=
  Exists fun inner => envelopeContent content = some inner ∧ inner ≠ content

/-! ## The draft of one key -/

/-- What a key holds, and the save that waits for its timer. -/
structure Draft where
  settled : JsString := []
  waiting : Option (Nat × JsString) := none

namespace Draft

def settle (content : JsString) : Draft := { settled := if isBlank content then [] else content }

/-- What an event does to the draft of a key; a save starts the next timer. -/
def step (key : JsString) (nextTimer : Nat) (draft : Draft) : Event -> Draft
  | .save other content =>
      if other = key then { draft with waiting := some (nextTimer, content) } else draft
  | .saveNow other content => if other = key then settle content else draft
  | .load _ => draft
  | .clear other => if other = key then {} else draft
  | .clearAll => { draft with waiting := none }
  | .fire id =>
      match draft.waiting with
      | some (waiting, content) => if waiting = id then settle content else draft
      | none => draft

end Draft

/-- The cache keeps the draft of each key. -/
structure Represents (cache : Cache) (drafts : JsString -> Draft) : Prop where
  stored : ∀ key, cache.localStorage key =
    if (drafts key).settled = [] then none else some (drafts key).settled
  pending : ∀ key id, (key, id) ∈ cache.pendingSaves ↔
    (drafts key).waiting.map Prod.fst = some id
  timers : ∀ timer, timer ∈ cache.timers ↔
    (drafts timer.key).waiting = some (timer.id, timer.content)
  distinct : ∀ key other id content others, (drafts key).waiting = some (id, content) ->
    (drafts other).waiting = some (id, others) -> key = other
  fresh : ∀ key id content, (drafts key).waiting = some (id, content) -> id < cache.nextTimer

namespace Represents

variable {cache : Cache} {drafts : JsString -> Draft}

theorem pendingSave_eq (represents : Represents cache drafts) (key : JsString) :
    cache.pendingSave key = (drafts key).waiting.map Prod.fst := by
  rw [Cache.pendingSave]
  cases found : cache.pendingSaves.find? fun pending => pending.1 = key with
  | none =>
      cases waiting : (drafts key).waiting with
      | none => rfl
      | some save =>
          have member := (represents.pending key save.1).mpr (by rw [waiting]; rfl)
          have missed := List.find?_eq_none.mp found _ member
          exact absurd (decide_eq_true rfl) missed
  | some pending =>
      have isKey : decide (pending.1 = key) = true :=
        @List.find?_some _ (fun pending : JsString × Nat => decide (pending.1 = key)) pending _ found
      have same := of_decide_eq_true isKey
      have member := List.mem_of_find?_eq_some found
      rw [Option.map_some, <- same]
      exact ((represents.pending pending.1 pending.2).mp member).symm

/-- Cancelling leaves the timers of the other keys. -/
theorem mem_cancel (represents : Represents cache drafts) (key : JsString) (timer : Timer) :
    timer ∈ (cache.cancel key).timers ↔ timer ∈ cache.timers ∧ timer.key ≠ key := by
  rw [Cache.cancel, represents.pendingSave_eq]
  cases waiting : (drafts key).waiting with
  | none =>
      constructor
      · intro member
        refine ⟨member, ?_⟩
        rintro rfl
        have impossible := (represents.timers timer).mp member
        rw [waiting] at impossible
        contradiction
      · exact fun both => both.1
  | some save =>
      dsimp only [Option.map_some, Cache.clearTimeout]
      rw [List.mem_filter, decide_eq_true_eq]
      refine and_congr_right fun member => not_congr ?_
      have isTimer := (represents.timers timer).mp member
      constructor
      · intro same
        rw [same] at isTimer
        exact represents.distinct _ _ _ _ _ isTimer waiting
      · intro same
        rw [same, waiting] at isTimer
        exact (congrArg Prod.fst (Option.some.inj isTimer)).symm

theorem mem_deletePending (cache : Cache) (key other : JsString) (id : Nat) :
    (other, id) ∈ (cache.deletePending key).pendingSaves ↔
      (other, id) ∈ cache.pendingSaves ∧ other ≠ key := by
  rw [Cache.deletePending, List.mem_filter, decide_eq_true_eq]

theorem cancel_pendingSaves (cache : Cache) (key : JsString) :
    (cache.cancel key).pendingSaves = cache.pendingSaves := by
  rw [Cache.cancel]
  split <;> rfl

theorem cancel_localStorage (cache : Cache) (key : JsString) :
    (cache.cancel key).localStorage = cache.localStorage := by
  rw [Cache.cancel]
  split <;> rfl

theorem cancel_nextTimer (cache : Cache) (key : JsString) :
    (cache.cancel key).nextTimer = cache.nextTimer := by
  rw [Cache.cancel]
  split <;> rfl

/-- The draft of one key is replaced by a settled one. -/
theorem settle_key {settled : Cache} (represents : Represents cache drafts) (key : JsString)
    (value : JsString)
    (stored : settled.localStorage =
      Function.update cache.localStorage key (if value = [] then none else some value))
    (pending : ∀ other id, (other, id) ∈ settled.pendingSaves ↔
      (other, id) ∈ cache.pendingSaves ∧ other ≠ key)
    (timers : ∀ timer, timer ∈ settled.timers ↔ timer ∈ cache.timers ∧ timer.key ≠ key)
    (next : settled.nextTimer = cache.nextTimer) :
    Represents settled (Function.update drafts key { settled := value }) := by
  have waiting (other : JsString) (save : Nat × JsString) :
      (Function.update drafts key { settled := value } other).waiting = some save ↔
        (drafts other).waiting = some save ∧ other ≠ key := by
    by_cases same : other = key
    · subst same
      rw [Function.update_self]
      constructor
      · intro impossible
        contradiction
      · exact fun both => absurd rfl both.2
    · rw [Function.update_of_ne same]
      exact ⟨fun equal => ⟨equal, same⟩, fun both => both.1⟩
  constructor
  · intro other
    rw [stored]
    by_cases same : other = key
    · subst same
      rw [Function.update_self, Function.update_self]
    · rw [Function.update_of_ne same, Function.update_of_ne same]
      exact represents.stored other
  · intro other id
    rw [pending, represents.pending]
    simp only [Option.map_eq_some_iff, waiting]
    constructor
    · rintro ⟨⟨save, equal, id_eq⟩, different⟩
      exact ⟨save, ⟨equal, different⟩, id_eq⟩
    · rintro ⟨save, ⟨equal, different⟩, id_eq⟩
      exact ⟨⟨save, equal, id_eq⟩, different⟩
  · intro timer
    rw [timers, represents.timers, waiting]
  · intro one other id content others isWaiting otherWaiting
    exact represents.distinct one other id content others ((waiting _ _).mp isWaiting).1
      ((waiting _ _).mp otherWaiting).1
  · intro other id content isWaiting
    rw [next]
    exact represents.fresh other id content ((waiting _ _).mp isWaiting).1

theorem blank_eq (content : JsString) :
    (if isBlank content then none else some content) =
      if (if isBlank content then [] else content) = [] then none
      else some (if isBlank content then [] else content) := by
  by_cases blank : isBlank content = true
  · rw [if_pos blank, if_pos blank, if_pos rfl]
  · have nonempty : content ≠ [] := by
      rintro rfl
      exact blank rfl
    rw [if_neg blank, if_neg blank, if_neg nonempty]

theorem saveNow (represents : Represents cache drafts) (key content : JsString) :
    Represents (cache.saveNow key content) (Function.update drafts key (Draft.settle content)) := by
  refine represents.settle_key key (if isBlank content then [] else content) ?_ ?_ ?_ ?_
  · rw [<- blank_eq, Cache.saveNow, Cache.writeEntry, Cache.deletePending, cancel_localStorage]
  · intro other id
    rw [<- cancel_pendingSaves cache key]
    exact mem_deletePending _ key other id
  · exact represents.mem_cancel key
  · exact cancel_nextTimer cache key

theorem clear (represents : Represents cache drafts) (key : JsString) :
    Represents (cache.clear key) (Function.update drafts key {}) := by
  refine represents.settle_key key [] ?_ ?_ ?_ ?_
  · rw [if_pos rfl, Cache.clear, Cache.deletePending, cancel_localStorage]
  · intro other id
    rw [<- cancel_pendingSaves cache key]
    exact mem_deletePending _ key other id
  · exact represents.mem_cancel key
  · exact cancel_nextTimer cache key

theorem fire (represents : Represents cache drafts) {timer : Timer}
    (found : (cache.timers.find? fun one => one.id = timer.id) = some timer) :
    Represents (cache.fire timer.id)
      (Function.update drafts timer.key (Draft.settle timer.content)) := by
  have isTimer := (represents.timers timer).mp (List.mem_of_find?_eq_some found)
  refine represents.settle_key timer.key (if isBlank timer.content then [] else timer.content)
    ?_ ?_ ?_ ?_
  · rw [<- blank_eq, Cache.fire, found]
    rfl
  · intro other id
    rw [Cache.fire, found]
    exact mem_deletePending _ timer.key other id
  · intro other
    rw [Cache.fire, found]
    dsimp only [Cache.writeEntry, Cache.deletePending, Cache.clearTimeout]
    rw [List.mem_filter, decide_eq_true_eq]
    refine and_congr_right fun member => not_congr ?_
    have otherTimer := (represents.timers other).mp member
    constructor
    · intro same
      rw [same] at otherTimer
      exact represents.distinct _ _ _ _ _ otherTimer isTimer
    · intro same
      rw [same, isTimer] at otherTimer
      exact (congrArg Prod.fst (Option.some.inj otherTimer)).symm
  · rw [Cache.fire, found]
    rfl

theorem save (represents : Represents cache drafts) (key content : JsString) :
    Represents (cache.save key content) (Function.update drafts key
      { drafts key with waiting := some (cache.nextTimer, content) }) := by
  constructor
  · intro other
    rw [show (cache.save key content).localStorage = cache.localStorage from
      cancel_localStorage cache key, represents.stored]
    by_cases same : other = key
    · subst same
      rw [Function.update_self]
    · rw [Function.update_of_ne same]
  · intro other id
    have member : (other, id) ∈ (cache.save key content).pendingSaves ↔
        ((other, id) ∈ cache.pendingSaves ∧ other ≠ key) ∨ (other, id) = (key, cache.nextTimer) := by
      rw [<- cancel_pendingSaves cache key, <- mem_deletePending, <- cancel_nextTimer cache key]
      exact List.mem_append.trans (or_congr_right List.mem_singleton)
    rw [member, represents.pending]
    by_cases same : other = key
    · subst same
      rw [Function.update_self]
      simp [eq_comm]
    · rw [Function.update_of_ne same]
      simp [same]
  · intro timer
    have member : timer ∈ (cache.save key content).timers ↔
        (timer ∈ cache.timers ∧ timer.key ≠ key) ∨
          timer = { id := cache.nextTimer, key, content } := by
      rw [<- represents.mem_cancel key, <- cancel_nextTimer cache key]
      exact List.mem_append.trans (or_congr_right List.mem_singleton)
    rw [member, represents.timers]
    rcases timer with ⟨id, other, text⟩
    by_cases same : other = key
    · subst same
      rw [Function.update_self]
      simp [eq_comm]
    · rw [Function.update_of_ne same]
      simp [same]
  · intro one other id text others isWaiting otherWaiting
    by_cases same : one = key <;> by_cases otherSame : other = key
    · rw [same, otherSame]
    · subst same
      rw [Function.update_self] at isWaiting
      rw [Function.update_of_ne otherSame] at otherWaiting
      have bound := represents.fresh _ _ _ otherWaiting
      have equal := congrArg Prod.fst (Option.some.inj isWaiting)
      dsimp only at equal
      omega
    · subst otherSame
      rw [Function.update_self] at otherWaiting
      rw [Function.update_of_ne same] at isWaiting
      have bound := represents.fresh _ _ _ isWaiting
      have equal := congrArg Prod.fst (Option.some.inj otherWaiting)
      dsimp only at equal
      omega
    · rw [Function.update_of_ne same] at isWaiting
      rw [Function.update_of_ne otherSame] at otherWaiting
      exact represents.distinct _ _ _ _ _ isWaiting otherWaiting
  · intro other id text isWaiting
    have next : (cache.save key content).nextTimer = cache.nextTimer + 1 :=
      congrArg (· + 1) (cancel_nextTimer cache key)
    rw [next]
    by_cases same : other = key
    · subst same
      rw [Function.update_self] at isWaiting
      have equal := congrArg Prod.fst (Option.some.inj isWaiting)
      dsimp only at equal
      omega
    · rw [Function.update_of_ne same] at isWaiting
      exact Nat.lt_succ_of_lt (represents.fresh _ _ _ isWaiting)

theorem clearAll (represents : Represents cache drafts) :
    Represents cache.clearAll fun key => { drafts key with waiting := none } := by
  constructor
  · exact represents.stored
  · intro key id
    simp [Cache.clearAll]
  · intro timer
    simp only [Cache.clearAll, List.mem_filter, decide_eq_true_eq, reduceCtorEq, iff_false, not_and,
      not_not]
    intro member
    have isTimer := (represents.timers timer).mp member
    refine List.mem_map.mpr ⟨(timer.key, timer.id), ?_, rfl⟩
    rw [represents.pending, isTimer]
    rfl
  · intro one other id text others isWaiting
    contradiction
  · intro other id text isWaiting
    contradiction

/-- An event that changes the draft of one key only. -/
theorem of_update {changed : Cache} {after : JsString -> Draft} {key : JsString} {draft : Draft}
    (represents : Represents changed (Function.update drafts key draft)) (atKey : after key = draft)
    (others : ∀ other, other ≠ key -> after other = drafts other) :
    Represents changed after := by
  have equal : Function.update drafts key draft = after := by
    funext other
    by_cases same : other = key
    · subst same
      rw [Function.update_self, atKey]
    · rw [Function.update_of_ne same, others other same]
  exact equal ▸ represents

/-- Every event does to the drafts what it does to the draft of each key. -/
theorem step (represents : Represents cache drafts) (event : Event) :
    Represents (Drafts.step cache event) fun key =>
      (drafts key).step key cache.nextTimer event := by
  cases event with
  | save key content =>
      refine (represents.save key content).of_update (if_pos rfl) fun other different => ?_
      exact if_neg (Ne.symm different)
  | saveNow key content =>
      refine (represents.saveNow key content).of_update (if_pos rfl) fun other different => ?_
      exact if_neg (Ne.symm different)
  | load key => exact represents
  | clear key =>
      refine (represents.clear key).of_update (if_pos rfl) fun other different => ?_
      exact if_neg (Ne.symm different)
  | clearAll => exact represents.clearAll
  | fire id =>
      cases found : cache.timers.find? fun timer => timer.id = id with
      | none =>
          have unchanged (key : JsString) :
              (drafts key).step key cache.nextTimer (.fire id) = drafts key := by
            rw [Draft.step]
            split
            · rename_i waiting content isWaiting
              have missed := List.find?_eq_none.mp found ⟨waiting, key, content⟩
                ((represents.timers _).mpr isWaiting)
              rw [if_neg fun same => missed (decide_eq_true same)]
            · rfl
          simp only [unchanged, Drafts.step, Cache.fire, found]
          exact represents
      | some timer =>
          have sameId : decide (timer.id = id) = true :=
            @List.find?_some _ (fun timer : Timer => decide (timer.id = id)) timer _ found
          obtain rfl := of_decide_eq_true sameId
          have isTimer := (represents.timers timer).mp (List.mem_of_find?_eq_some found)
          refine (represents.fire found).of_update ?_ fun other different => ?_
          · rw [Draft.step, isTimer]
            exact if_pos rfl
          · rw [Draft.step]
            split
            · rename_i waiting content isWaiting
              refine if_neg fun same => different ?_
              rw [same] at isWaiting
              exact represents.distinct _ _ _ _ _ isWaiting isTimer
            · rfl

end Represents

/-! ## The draft and the history -/

variable {history : List Event} {place : Nat} {event : Event} {key : JsString} {content : JsString}

theorem getElem?_append_one {event other : Event} :
    (history ++ [event])[place]? = some other ↔
      history[place]? = some other ∨ place = history.length ∧ event = other := by
  rcases Nat.lt_trichotomy place history.length with inside | last | outside
  · rw [List.getElem?_append_left inside]
    constructor
    · exact Or.inl
    · rintro (found | ⟨same, _⟩)
      · exact found
      · omega
  · subst last
    rw [List.getElem?_append_right (Nat.le_refl _), Nat.sub_self,
      List.getElem?_eq_none (Nat.le_refl _)]
    simp
  · rw [List.getElem?_eq_none (by rw [List.length_append, List.length_singleton]; omega),
      List.getElem?_eq_none (Nat.le_of_lt outside)]
    constructor
    · intro impossible
      contradiction
    · rintro (impossible | ⟨same, _⟩)
      · contradiction
      · omega

theorem place_lt (found : history[place]? = some event) : place < history.length :=
  (List.getElem?_eq_some_iff.mp found).1

theorem timerOf_append (event : Event) (inside : place ≤ history.length) :
    timerOf (history ++ [event]) place = timerOf history place := by
  rw [timerOf, timerOf, List.take_append_of_le_length inside]

/-- The save at this place waits for its timer: nothing has cancelled it, and
the timer has not fired. -/
def Waits (history : List Event) (key : JsString) (id : Nat) (content : JsString) : Prop :=
  Exists fun place => history[place]? = some (.save key content) ∧ timerOf history place = id ∧
    ∀ (later : Nat) (event : Event), place < later -> history[later]? = some event ->
      ¬ event.Cancels key ∧ event ≠ .fire id

/-- The save at this place was made at once, or its timer has fired. -/
def Made (history : List Event) (key : JsString) (place : Nat) (content : JsString) : Prop :=
  history[place]? = some (.saveNow key content) ∨
    history[place]? = some (.save key content) ∧ Exists fun fired => place < fired ∧
      history[fired]? = some (.fire (timerOf history place)) ∧
      ∀ (between : Nat) (event : Event), place < between -> between < fired ->
        history[between]? = some event -> ¬ event.Cancels key

/-- The draft of a key tells what the history has saved under it so far. -/
structure Tells (history : List Event) (key : JsString) (draft : Draft) : Prop where
  waiting : ∀ id content, draft.waiting = some (id, content) ↔ Waits history key id content
  settled : LastOf (Made history key) history key draft.settled

theorem waits_append {id : Nat} :
    Waits (history ++ [event]) key id content ↔
      (Waits history key id content ∧ ¬ event.Cancels key ∧ event ≠ .fire id) ∨
        event = .save key content ∧ id = history.countP Event.isSave := by
  constructor
  · rintro ⟨place, found, timer, quiet⟩
    rcases getElem?_append_one.mp found with earlier | ⟨rfl, rfl⟩
    · have inside := place_lt earlier
      rw [timerOf_append event (Nat.le_of_lt inside)] at timer
      refine Or.inl ⟨⟨place, earlier, timer, fun later other after atLater => ?_⟩,
        quiet history.length event inside (getElem?_append_one.mpr (Or.inr ⟨rfl, rfl⟩))⟩
      exact quiet later other after (getElem?_append_one.mpr (Or.inl atLater))
    · rw [timerOf_append _ (Nat.le_refl _), timerOf, List.take_length] at timer
      exact Or.inr ⟨rfl, timer.symm⟩
  · rintro (⟨⟨place, found, timer, quiet⟩, noCancel, noFire⟩ | ⟨rfl, rfl⟩)
    · refine ⟨place, getElem?_append_one.mpr (Or.inl found), ?_, fun later other after atLater => ?_⟩
      · rw [timerOf_append event (Nat.le_of_lt (place_lt found)), timer]
      · rcases getElem?_append_one.mp atLater with earlier | ⟨_, rfl⟩
        · exact quiet later other after earlier
        · exact ⟨noCancel, noFire⟩
    · refine ⟨history.length, getElem?_append_one.mpr (Or.inr ⟨rfl, rfl⟩), ?_,
        fun later other after atLater => ?_⟩
      · rw [timerOf_append _ (Nat.le_refl _), timerOf, List.take_length]
      · have inside := place_lt atLater
        rw [List.length_append, List.length_singleton] at inside
        omega

/-- What an event makes: its own content, or that of the save whose timer it
fires. -/
theorem made_append :
    Made (history ++ [event]) key place content ↔
      Made history key place content ∨ (place = history.length ∧ event = .saveNow key content) ∨
        history[place]? = some (.save key content) ∧ event = .fire (timerOf history place) ∧
          ∀ (later : Nat) (other : Event), place < later -> history[later]? = some other ->
            ¬ other.Cancels key := by
  constructor
  · rintro (found | ⟨found, fired, after, fires, quiet⟩)
    · rcases getElem?_append_one.mp found with earlier | last
      · exact Or.inl (Or.inl earlier)
      · exact Or.inr (Or.inl last)
    · have firedInside := place_lt fires
      rw [List.length_append, List.length_singleton] at firedInside
      rcases getElem?_append_one.mp found with earlier | ⟨rfl, _⟩
      · rw [timerOf_append event (Nat.le_of_lt (place_lt earlier))] at fires
        have quietBefore (between : Nat) (other : Event) (later : place < between)
            (before : between < fired) (atBetween : history[between]? = some other) :
            ¬ other.Cancels key :=
          quiet between other later before (getElem?_append_one.mpr (Or.inl atBetween))
        rcases getElem?_append_one.mp fires with earlierFire | ⟨rfl, fire⟩
        · exact Or.inl (Or.inr ⟨earlier, fired, after, earlierFire, quietBefore⟩)
        · exact Or.inr (Or.inr ⟨earlier, fire, fun later other isLater atLater =>
            quietBefore later other isLater (place_lt atLater) atLater⟩)
      · omega
  · rintro ((found | ⟨found, fired, after, fires, quiet⟩) | last | ⟨found, rfl, quiet⟩)
    · exact Or.inl (getElem?_append_one.mpr (Or.inl found))
    · refine Or.inr ⟨getElem?_append_one.mpr (Or.inl found), fired, after, ?_, ?_⟩
      · rw [timerOf_append event (Nat.le_of_lt (place_lt found))]
        exact getElem?_append_one.mpr (Or.inl fires)
      · intro between other later before atBetween
        rcases getElem?_append_one.mp atBetween with earlier | ⟨rfl, _⟩
        · exact quiet between other later before earlier
        · have inside := place_lt fires
          omega
    · exact Or.inl (getElem?_append_one.mpr (Or.inr last))
    · refine Or.inr ⟨getElem?_append_one.mpr (Or.inl found), history.length, place_lt found, ?_, ?_⟩
      · rw [timerOf_append _ (Nat.le_of_lt (place_lt found))]
        exact getElem?_append_one.mpr (Or.inr ⟨rfl, rfl⟩)
      · intro between other later before atBetween
        rcases getElem?_append_one.mp atBetween with earlier | ⟨rfl, _⟩
        · exact quiet between other later earlier
        · omega

theorem Made.inside (made : Made history key place content) : place < history.length := by
  rcases made with found | ⟨found, _⟩
  · exact place_lt found
  · exact place_lt found

/-- The event makes a content, which is the last one. -/
theorem lastOf_made (made : Made (history ++ [event]) key place content)
    (last : ∀ (later : Nat) (other : Event), place < later ->
      (history ++ [event])[later]? = some other -> ¬ other.Cancels key) :
    LastOf (Made (history ++ [event]) key) (history ++ [event]) key
      (if isBlank content then [] else content) := by
  refine Or.inl ⟨place, content, made, ?_, ?_, rfl⟩
  · intro later after cleared
    exact last later _ after cleared rfl
  · rintro later other after (found | ⟨found, _⟩)
    · exact last later _ after found rfl
    · exact last later _ after found rfl

/-- An event that makes nothing and is no clear of the key. -/
theorem lastOf_unchanged {key value : JsString} (last : LastOf (Made history key) history key value)
    (unmade : ∀ place content, Made (history ++ [event]) key place content ->
      Made history key place content) (noClear : event ≠ .clear key) :
    LastOf (Made (history ++ [event]) key) (history ++ [event]) key value := by
  rcases last with ⟨place, content, made, uncleared, isLast, value_eq⟩ | ⟨empty, cleared⟩
  · refine Or.inl ⟨place, content, made_append.mpr (Or.inl made), ?_, ?_, value_eq⟩
    · intro later after found
      rcases getElem?_append_one.mp found with earlier | ⟨_, same⟩
      · exact uncleared later after earlier
      · exact noClear same
    · exact fun later other after again => isLast later other after (unmade later other again)
  · refine Or.inr ⟨empty, fun place content made => ?_⟩
    rcases cleared place content (unmade place content made) with ⟨later, after, found⟩
    exact ⟨later, after, getElem?_append_one.mpr (Or.inl found)⟩

theorem Draft.step_waiting (key : JsString) (next : Nat) (draft : Draft) (event : Event) (id : Nat)
    (content : JsString) :
    (draft.step key next event).waiting = some (id, content) ↔
      (draft.waiting = some (id, content) ∧ ¬ event.Cancels key ∧ event ≠ .fire id) ∨
        event = .save key content ∧ id = next := by
  cases event with
  | save other text =>
      by_cases same : other = key
      · simp [Draft.step, Event.Cancels, same, eq_comm, and_comm]
      · simp [Draft.step, Event.Cancels, same]
  | saveNow other text =>
      by_cases same : other = key <;> simp [Draft.step, Draft.settle, Event.Cancels, same]
  | load other => simp [Draft.step, Event.Cancels]
  | clear other => by_cases same : other = key <;> simp [Draft.step, Event.Cancels, same]
  | clearAll => simp [Draft.step, Event.Cancels]
  | fire fired =>
      rw [Draft.step]
      split
      · rename_i waiting text isWaiting
        by_cases same : waiting = fired
        · subst same
          simp [Draft.settle, isWaiting]
          tauto
        · simp [same, isWaiting, Event.Cancels]
          rintro rfl rfl
          exact Ne.symm same
      · rename_i isWaiting
        simp [isWaiting]

theorem Tells.step {draft : Draft} (tells : Tells history key draft) (event : Event) :
    Tells (history ++ [event]) key (draft.step key (history.countP Event.isSave) event) := by
  refine ⟨fun id content => ?_, ?_⟩
  · rw [Draft.step_waiting, waits_append, tells.waiting]
  have noLater (later : Nat) (other : Event) (after : history.length < later)
      (found : (history ++ [event])[later]? = some other) : False := by
    have inside := place_lt found
    rw [List.length_append, List.length_singleton] at inside
    omega
  cases event with
  | save other content =>
      have settled : (draft.step key (history.countP Event.isSave) (.save other content)).settled =
          draft.settled := by
        rw [Draft.step]
        split <;> rfl
      rw [settled]
      refine lastOf_unchanged tells.settled (fun place text made => ?_) Event.noConfusion
      rcases made_append.mp made with earlier | ⟨_, same⟩ | ⟨_, same, _⟩
      · exact earlier
      · contradiction
      · contradiction
  | saveNow other content =>
      rw [Draft.step]
      by_cases same : other = key
      · subst same
        rw [if_pos rfl]
        exact lastOf_made (made_append.mpr (Or.inr (Or.inl ⟨rfl, rfl⟩)))
          fun later event after found => absurd (noLater later event after found) id
      · rw [if_neg same]
        refine lastOf_unchanged tells.settled (fun place text made => ?_) Event.noConfusion
        rcases made_append.mp made with earlier | ⟨_, equal⟩ | ⟨_, equal, _⟩
        · exact earlier
        · exact absurd (Event.saveNow.inj equal).1 same
        · contradiction
  | load other =>
      refine lastOf_unchanged tells.settled (fun place text made => ?_) Event.noConfusion
      rcases made_append.mp made with earlier | ⟨_, same⟩ | ⟨_, same, _⟩
      · exact earlier
      · contradiction
      · contradiction
  | clear other =>
      rw [Draft.step]
      by_cases same : other = key
      · subst same
        rw [if_pos rfl]
        refine Or.inr ⟨rfl, fun place content made => ⟨history.length, ?_,
          getElem?_append_one.mpr (Or.inr ⟨rfl, rfl⟩)⟩⟩
        rcases made_append.mp made with earlier | ⟨_, impossible⟩ | ⟨_, impossible, _⟩
        · exact earlier.inside
        · contradiction
        · contradiction
      · rw [if_neg same]
        refine lastOf_unchanged tells.settled (fun place text made => ?_)
          (fun equal => same (Event.clear.inj equal))
        rcases made_append.mp made with earlier | ⟨_, impossible⟩ | ⟨_, impossible, _⟩
        · exact earlier
        · contradiction
        · contradiction
  | clearAll =>
      refine lastOf_unchanged tells.settled (fun place text made => ?_) Event.noConfusion
      rcases made_append.mp made with earlier | ⟨_, same⟩ | ⟨_, same, _⟩
      · exact earlier
      · contradiction
      · contradiction
  | fire id =>
      -- The save that the timer belongs to waits until it fires.
      have fired (place : Nat) (content : JsString) (found : history[place]? = some (.save key content))
          (timer : timerOf history place = id)
          (quiet : ∀ (later : Nat) (other : Event), place < later ->
            history[later]? = some other -> ¬ other.Cancels key) :
          draft.waiting = some (id, content) ∨ Made history key place content := by
        by_cases before : Exists fun later => place < later ∧ history[later]? = some (.fire id)
        · rcases before with ⟨later, after, fires⟩
          exact Or.inr (Or.inr ⟨found, later, after, timer ▸ fires, fun between other isLater _ atBetween =>
            quiet between other isLater atBetween⟩)
        · refine Or.inl ((tells.waiting id content).mpr ⟨place, found, timer,
            fun later other after atLater => ⟨quiet later other after atLater, ?_⟩⟩)
          rintro rfl
          exact before ⟨later, after, atLater⟩
      rw [Draft.step]
      split
      · rename_i waiting content isWaiting
        by_cases same : waiting = id
        · subst same
          rw [if_pos rfl]
          rcases (tells.waiting waiting content).mp isWaiting with ⟨place, found, timer, quiet⟩
          refine lastOf_made (made_append.mpr (Or.inr (Or.inr ⟨found, by rw [timer],
            fun later other after atLater => (quiet later other after atLater).1⟩))) ?_
          intro later other after atLater
          rcases getElem?_append_one.mp atLater with earlier | ⟨_, rfl⟩
          · exact (quiet later other after earlier).1
          · exact not_false
        · rw [if_neg same]
          refine lastOf_unchanged tells.settled (fun place text made => ?_) Event.noConfusion
          rcases made_append.mp made with earlier | ⟨_, impossible⟩ | ⟨found, equal, quiet⟩
          · exact earlier
          · contradiction
          · rcases fired place text found (Event.fire.inj equal).symm quiet with waits | earlier
            · rw [isWaiting] at waits
              exact absurd (congrArg Prod.fst (Option.some.inj waits)) same
            · exact earlier
      · rename_i isWaiting
        refine lastOf_unchanged tells.settled (fun place text made => ?_) Event.noConfusion
        rcases made_append.mp made with earlier | ⟨_, impossible⟩ | ⟨found, equal, quiet⟩
        · exact earlier
        · contradiction
        · rcases fired place text found (Event.fire.inj equal).symm quiet with waits | earlier
          · rw [isWaiting] at waits
            contradiction
          · exact earlier

theorem step_nextTimer (cache : Cache) (event : Event) :
    (step cache event).nextTimer = cache.nextTimer + if event.isSave then 1 else 0 := by
  cases event with
  | save key content => exact congrArg (· + 1) (Represents.cancel_nextTimer cache key)
  | saveNow key content => exact Represents.cancel_nextTimer cache key
  | load key => rfl
  | clear key => exact Represents.cancel_nextTimer cache key
  | clearAll => rfl
  | fire id =>
      rw [step, Cache.fire]
      split <;> rfl

theorem tells_nil (key : JsString) : Tells [] key {} := by
  refine ⟨fun id content => ?_, Or.inr ⟨rfl, ?_⟩⟩
  · constructor
    · intro impossible
      contradiction
    · rintro ⟨place, found, _⟩
      contradiction
  · intro place content made
    exact absurd made.inside (Nat.not_lt_zero place)

theorem represents_nil : Represents {} fun _ => {} := by
  refine ⟨fun key => rfl, fun key id => ?_, fun timer => ?_, ?_, ?_⟩
  · exact iff_of_false List.not_mem_nil (by simp)
  · exact iff_of_false List.not_mem_nil (by simp)
  · intro key other id content others impossible
    contradiction
  · intro key id content impossible
    contradiction

/-- After every run the cache keeps a draft for each key, which tells what was
saved. -/
theorem cacheAfter_spec (history : List Event) :
    (cacheAfter history).nextTimer = history.countP Event.isSave ∧
      Exists fun drafts => Represents (cacheAfter history) drafts ∧
        ∀ key, Tells history key (drafts key) := by
  induction history using List.reverseRecOn with
  | nil => exact ⟨rfl, fun _ => {}, represents_nil, tells_nil⟩
  | append_singleton history event ih =>
      rcases ih with ⟨next, drafts, represents, tells⟩
      have after : cacheAfter (history ++ [event]) = step (cacheAfter history) event := by
        rw [cacheAfter, List.foldl_append]
        rfl
      rw [after]
      refine ⟨?_, _, represents.step event, fun key => ?_⟩
      · rw [step_nextTimer, next, List.countP_append, List.countP_singleton]
      · have told := (tells key).step event
        rwa [<- next] at told

/-- When no timer is left, what counts has been made. -/
theorem counts_iff_made (fired : ∀ id content, ¬ Waits history key id content) (place : Nat) (content : JsString) :
    Counts history place key content ↔ Made history key place content := by
  refine or_congr_right (and_congr_right fun found => ?_)
  constructor
  · intro survives
    -- The first event that fires or cancels the timer fires it.
    have ended : Exists fun later => place < later ∧ Exists fun event =>
        history[later]? = some event ∧
          (event.Cancels key ∨ event = .fire (timerOf history place)) := by
      by_contra waits
      refine fired (timerOf history place) content ⟨place, found, rfl, fun later event after atLater =>
        ⟨fun cancels => ?_, fun fires => ?_⟩⟩
      · exact waits ⟨later, after, event, atLater, Or.inl cancels⟩
      · exact waits ⟨later, after, event, atLater, Or.inr fires⟩
    classical
    rcases Nat.find_spec ended with ⟨after, event, atFirst, ends⟩
    have first (between : Nat) (before : between < Nat.find ended) := Nat.find_min ended before
    rcases ends with cancels | rfl
    · rcases survives _ event after atFirst cancels with ⟨earlier, later, before, fires⟩
      exact absurd ⟨later, _, fires, Or.inr rfl⟩ (first earlier before)
    · exact ⟨_, after, atFirst, fun between other later before atBetween cancels =>
        first between before ⟨later, other, atBetween, Or.inl cancels⟩⟩
  · rintro ⟨fired, after, fires, quiet⟩ later event isLater atLater cancels
    refine ⟨fired, after, ?_, fires⟩
    rcases Nat.lt_trichotomy fired later with before | same | behind
    · exact before
    · subst same
      rw [fires] at atLater
      rw [<- Option.some.inj atLater] at cancels
      exact absurd cancels id
    · exact absurd cancels (quiet later event isLater behind atLater)

theorem LastOf.unique {counts : Nat -> JsString -> Prop} {key value other : JsString}
    (single : ∀ place content another, counts place content -> counts place another ->
      content = another) (last : LastOf counts history key value) (again : LastOf counts history key other) :
    value = other := by
  rcases last with ⟨place, content, counted, uncleared, isLast, rfl⟩ | ⟨rfl, cleared⟩ <;>
    rcases again with ⟨otherPlace, another, otherCounted, otherUncleared, isOtherLast, rfl⟩ |
      ⟨rfl, otherCleared⟩
  · have same : place = otherPlace := by
      rcases Nat.lt_trichotomy place otherPlace with before | same | behind
      · exact absurd otherCounted (isLast otherPlace another before)
      · exact same
      · exact absurd counted (isOtherLast place content behind)
    subst same
    rw [single place content another counted otherCounted]
  · rcases otherCleared place content counted with ⟨later, after, found⟩
    exact absurd found (uncleared later after)
  · rcases cleared otherPlace another otherCounted with ⟨later, after, found⟩
    exact absurd found (otherUncleared later after)
  · rfl

theorem Counts.single {content another : JsString} (counted : Counts history place key content)
    (again : Counts history place key another) :
    content = another := by
  rcases counted with found | ⟨found, _⟩ <;> rcases again with foundAgain | ⟨foundAgain, _⟩ <;>
    rw [found] at foundAgain <;> cases foundAgain <;> rfl

/-- What is loaded when every timer has fired: the last content that was saved
under the key, unless that is itself the text of an envelope. -/
theorem load_iff (history : List Event) (fired : (cacheAfter history).timers = []) (key : JsString) :
    Exists fun value => LastSaved history key value ∧
      (∀ other, LastSaved history key other -> other = value) ∧
      ((cacheAfter history).load key = value ↔ ¬ Misread value) := by
  rcases (cacheAfter_spec history).2 with ⟨drafts, represents, tells⟩
  have told := tells key
  have noneWaits (id : Nat) (content : JsString) : ¬ Waits history key id content := by
    intro waits
    have member := (represents.timers ⟨id, key, content⟩).mpr ((told.waiting id content).mpr waits)
    rw [fired] at member
    exact absurd member List.not_mem_nil
  have made : (fun place content => Counts history place key content) = Made history key := by
    funext place content
    exact propext (counts_iff_made noneWaits place content)
  have last : LastSaved history key (drafts key).settled := by
    rw [LastSaved, made]
    exact told.settled
  refine ⟨(drafts key).settled, last, fun other again => ?_, ?_⟩
  · exact LastOf.unique (fun _ _ _ counted countedAgain => counted.single countedAgain) again last
  · have loaded : (cacheAfter history).load key = deserializeContent (drafts key).settled := by
      rw [Cache.load, represents.stored]
      by_cases empty : (drafts key).settled = []
      · rw [if_pos empty, empty]
        rfl
      · rw [if_neg empty]
        exact if_neg empty
    rw [loaded, deserializeContent, Misread]
    cases read : envelopeContent (drafts key).settled with
    | none => simp
    | some inner => simp

/-- A draft whose second save was still pending when all of them were
cancelled. -/
def cancelledSave : List Event :=
  [.save (js "k") (js "first"), .fire 0, .save (js "k") (js "second"), .clearAll, .fire 1]

theorem cancelledSave_load :
    Exists fun value => LastSaved cancelledSave (js "k") value ∧
      (∀ other, LastSaved cancelledSave (js "k") other -> other = value) ∧
      ((cacheAfter cancelledSave).load (js "k") = value ↔ ¬ Misread value) :=
  load_iff cancelledSave (by decide +kernel) (js "k")

/-- A draft with the text of an envelope. -/
def envelope : JsString :=
  stringify [(js "kind", .text structuredCacheEntryKind), (js "version", .number 1),
    (js "content", .text (js "x"))]

theorem envelope_misread :
    (cacheAfter [.saveNow (js "k") envelope]).timers = [] ∧
      LastSaved [.saveNow (js "k") envelope] (js "k") envelope ∧
      (cacheAfter [.saveNow (js "k") envelope]).load (js "k") = js "x" ∧ js "x" ≠ envelope := by
  have noLater (later : Nat) (event : Event) (after : 0 < later) :
      [Event.saveNow (js "k") envelope][later]? ≠ some event := by
    rw [List.getElem?_eq_none (by rw [List.length_singleton]; omega)]
    exact (Option.some_ne_none event).symm
  refine ⟨rfl, Or.inl ⟨0, envelope, Or.inl rfl, fun later after => noLater later _ after, ?_, ?_⟩, ?_, ?_⟩
  · rintro later other after (found | ⟨found, _⟩)
    · exact noLater later _ after found
    · exact noLater later _ after found
  · decide +kernel
  · decide +kernel
  · decide +kernel

end Drafts
end Web
end Memos
