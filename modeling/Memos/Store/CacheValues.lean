import Memos.Store.CacheSize

namespace Memos
namespace Store
namespace MemoryCache

open Library

/-!
# The values of the memory cache

However the calls interleave, a key holds the value of a call that has set it,
and no call that has started after the return of that one has set or deleted the
key and returned.
-/

variable {ι Value α β : Type} {config : Config} {calls : ι -> Call Value} {key : String}

/-! ## Who stores what -/

/-- The call sets the key to the value. -/
def Call.SetsTo (key : String) (value : Value) : Call Value -> Prop
  | .set other own => other = key ∧ own = value
  | .setWithTTL other own _ => other = key ∧ own = value
  | _ => False

/-- The call sets or deletes the key. -/
def Call.Changes (key : String) : Call Value -> Prop
  | .set other _ => other = key
  | .setWithTTL other _ _ => other = key
  | .delete other => other = key
  | _ => False

/-- A call stores only its own value, under its key and with its name. -/
def Stores (calls : ι -> Call Value) (self : ι) : Operation ι Value -> Prop
  | .store key item => item.setter = self ∧ (calls self).SetsTo key item.value
  | _ => True

/-- Whatever the replies, the call stores nothing else. -/
def OwnStores (calls : ι -> Call Value) (self : ι) (procedure : Procedure ι Value α) : Prop :=
  procedure.Ensures (Stores calls self) (fun _ _ => True) fun _ => True

section OwnStores

variable {self : ι}

theorem OwnStores.bind {procedure : Procedure ι Value α} {next : α -> Procedure ι Value β}
    (first : OwnStores calls self procedure) (rest : ∀ result, OwnStores calls self (next result)) :
    OwnStores calls self (procedure >>= next) :=
  Program.Ensures.bind first fun result _ => rest result

theorem ownStores_visitKeys {visit : α -> String -> Item ι Value -> Procedure ι Value α}
    (visits : ∀ state key item, OwnStores calls self (visit state key item)) (state : α) (keys : List String) :
    OwnStores calls self (visitKeys visit state keys) := by
  induction keys generalizing state with
  | nil => exact trivial
  | cons key keys ih =>
      refine ⟨trivial, ?_⟩
      intro found _
      cases found with
      | none => exact ih state
      | some item => exact (visits state key item).bind ih

theorem ownStores_deleteCandidates (count : Nat) (candidates : List KeyExpPair) :
    OwnStores calls self (deleteCandidates count candidates) := by
  induction candidates generalizing count with
  | nil => exact trivial
  | cons candidate candidates ih =>
      exact ⟨trivial, fun _ _ => ih (count + 1)⟩

theorem ownStores_subtract (count : Nat) :
    OwnStores calls self (if 0 < count then itemCountAdd (-count) else pure ()) := by
  by_cases some : 0 < count
  · rw [if_pos some]
    exact ⟨trivial, fun _ _ => trivial⟩
  · rw [if_neg some]
    exact trivial

theorem ownStores_cleanupOldest : OwnStores calls self (cleanupOldest config) := by
  refine ⟨trivial, ?_⟩
  intro count _
  change OwnStores calls self (if count ≤ config.maxItems then pure () else evictOldest config)
  by_cases within : count ≤ config.maxItems
  · rw [if_pos within]
    exact trivial
  · rw [if_neg within]
    refine ⟨trivial, ?_⟩
    intro keys _
    apply OwnStores.bind
    · apply ownStores_visitKeys
      intro candidates key item
      exact trivial
    intro candidates
    exact (ownStores_deleteCandidates 0 candidates).bind ownStores_subtract

theorem ownStores_setWithTTL {value : Value} {ttl : Int} (sets : (calls self).SetsTo key value) :
    OwnStores calls self (setWithTTL config self key value ttl) := by
  have limit : OwnStores calls self (checkLimit config) := by
    by_cases limited : 0 < config.maxItems
    · rw [checkLimit, if_pos limited]
      refine ⟨trivial, ?_⟩
      intro count _
      change OwnStores calls self (if config.maxItems < count then cleanupOldest config else pure ())
      by_cases exceeding : config.maxItems < count
      · rw [if_pos exceeding]
        exact ownStores_cleanupOldest
      · rw [if_neg exceeding]
        exact trivial
    · rw [checkLimit, if_neg limited]
      exact trivial
  have counts : OwnStores calls self (countKey key) := by
    refine ⟨trivial, ?_⟩
    intro found _
    cases found with
    | none => exact ⟨trivial, fun _ _ => trivial⟩
    | some item => exact ⟨trivial, fun _ _ => trivial⟩
  refine counts.bind fun _ => ⟨trivial, ?_⟩
  intro now _
  exact ⟨⟨rfl, sets⟩, fun _ _ => limit⟩

theorem ownStores_get : OwnStores calls self (get key) := by
  refine ⟨trivial, ?_⟩
  intro found _
  cases found with
  | none => exact trivial
  | some item =>
      refine ⟨trivial, ?_⟩
      intro time _
      change OwnStores calls self (if item.expiration < time then _ else _)
      by_cases expired : item.expiration < time
      · rw [if_pos expired]
        exact ⟨trivial, fun _ _ => ⟨trivial, fun _ _ => trivial⟩⟩
      · rw [if_neg expired]
        exact trivial

theorem ownStores_delete : OwnStores calls self (delete key) := by
  refine ⟨trivial, ?_⟩
  intro found _
  cases found with
  | none => exact trivial
  | some item => exact ⟨trivial, fun _ _ => trivial⟩

theorem ownStores_clear : OwnStores calls self clear := by
  refine ⟨trivial, ?_⟩
  intro keys _
  apply OwnStores.bind
  · apply ownStores_visitKeys
    intro count key item
    exact ⟨trivial, fun _ _ => trivial⟩
  · intro count
    exact ⟨trivial, fun _ _ => trivial⟩

theorem ownStores_cleanup : OwnStores calls self cleanup := by
  refine ⟨trivial, ?_⟩
  intro keys _
  refine (ownStores_visitKeys ?_ 0 keys).bind ownStores_subtract
  intro count key item
  refine ⟨trivial, ?_⟩
  intro time _
  change OwnStores calls self (if item.expiration < time then _ else _)
  by_cases expired : item.expiration < time
  · rw [if_pos expired]
    exact ⟨trivial, fun _ _ => trivial⟩
  · rw [if_neg expired]
    exact trivial

theorem ownStores_program (config : Config) (calls : ι -> Call Value) (self : ι) :
    OwnStores calls self (program config self (calls self)) := by
  refine ⟨trivial, fun _ _ => ?_⟩
  have ends (result : Result Value) : OwnStores calls self (pure result) := trivial
  cases call : calls self with
  | set key value =>
      apply OwnStores.bind (ownStores_setWithTTL ?_) fun _ => ends .finished
      rw [call]
      exact ⟨rfl, rfl⟩
  | setWithTTL key value ttl =>
      apply OwnStores.bind (ownStores_setWithTTL ?_) fun _ => ends .finished
      rw [call]
      exact ⟨rfl, rfl⟩
  | get key => exact ownStores_get.bind fun value => ends (.found value)
  | delete key => exact ownStores_delete.bind fun _ => ends .finished
  | clear => exact ownStores_clear.bind fun _ => ends .finished
  | size => exact ⟨trivial, fun _ _ => trivial⟩
  | cleanup => exact ownStores_cleanup.bind fun _ => ends .finished
  | cleanupOldest => exact ownStores_cleanupOldest.bind fun _ => ends .finished

end OwnStores

/-! ## Overwriting -/

/-- Before it ends, the call stores its own item under the key or deletes the key. -/
def Overwrites (key : String) (self : ι) : Procedure ι Value α -> Prop
  | .done _ => False
  | .perform (.store other item) next => other = key ∧ item.setter = self ∨ Overwrites key self (next ())
  | .perform (.loadAndDelete other) next => other = key ∨ ∀ found, Overwrites key self (next found)
  | .perform .invoke next => Overwrites key self (next ())
  | .perform (.load _) next => ∀ found, Overwrites key self (next found)
  | .perform (.delete _) next => Overwrites key self (next ())
  | .perform .range next => ∀ keys, Overwrites key self (next keys)
  | .perform .now next => ∀ time, Overwrites key self (next time)
  | .perform (.addCount _) next => Overwrites key self (next ())
  | .perform .loadCount next => ∀ count, Overwrites key self (next count)
  | .perform (.storeCount _) next => Overwrites key self (next ())

theorem overwrites_setWithTTL (config : Config) (self : ι) (key : String) (value : Value) (ttl : Int)
    (next : Procedure ι Value α) : Overwrites key self (setWithTTL config self key value ttl >>= fun _ => next) := by
  intro found
  cases found with
  | none =>
      intro now
      exact .inl ⟨rfl, rfl⟩
  | some item =>
      intro now
      exact .inl ⟨rfl, rfl⟩

theorem overwrites_program {self : ι} {call : Call Value} (changes : call.Changes key) :
    Overwrites key self (program config self call) := by
  cases call with
  | set other value =>
      cases changes
      exact overwrites_setWithTTL config self key value config.defaultTTL (pure Result.finished)
  | setWithTTL other value ttl =>
      cases changes
      exact overwrites_setWithTTL config self key value ttl (pure Result.finished)
  | delete other => exact .inl changes
  | get _ | clear | size | cleanup | cleanupOldest => exact changes.elim

/-- What a step does to a key: it keeps its item or removes it, or stores one. -/
theorem lookup_of_accesses {operation : Operation ι Value} {reply : operation.Reply} {before after : Cache ι Value}
    {item : Item ι Value} (accesses : Accesses before operation reply after)
    (present : after.data.lookup key = some item) :
    operation = .store key item ∨ before.data.lookup key = some item ∧
      (∀ other, operation ≠ .store key other) ∧ operation ≠ .loadAndDelete key := by
  have kept (same : after.data = before.data) (noStore : ∀ other, operation ≠ .store key other)
      (noDelete : operation ≠ .loadAndDelete key) :
      operation = .store key item ∨ before.data.lookup key = some item ∧
        (∀ other, operation ≠ .store key other) ∧ operation ≠ .loadAndDelete key := by
    rw [same] at present
    exact .inr ⟨present, noStore, noDelete⟩
  cases operation with
  | invoke =>
      cases accesses
      exact kept rfl (by simp) (by simp)
  | load other => exact kept (congrArg Cache.data accesses.2) (by simp) (by simp)
  | range => exact kept (congrArg Cache.data accesses.2.2) (by simp) (by simp)
  | now => exact kept (congrArg Cache.data accesses.2) (by simp) (by simp)
  | loadCount => exact kept (congrArg Cache.data accesses.2) (by simp) (by simp)
  | addCount change =>
      cases accesses
      exact kept rfl (by simp) (by simp)
  | storeCount count =>
      cases accesses
      exact kept rfl (by simp) (by simp)
  | delete other =>
      cases accesses
      by_cases same : key = other
      · rw [same, Finmap.lookup_erase] at present
        cases present
      · rw [Finmap.lookup_erase_ne same] at present
        exact .inr ⟨present, by simp, by simp⟩
  | loadAndDelete other =>
      rcases accesses with ⟨_, rfl⟩
      by_cases same : key = other
      · rw [same, Finmap.lookup_erase] at present
        cases present
      · rw [Finmap.lookup_erase_ne same] at present
        refine .inr ⟨present, by simp, ?_⟩
        intro impossible
        cases impossible
        exact same rfl
  | store other stored =>
      cases accesses
      by_cases same : key = other
      · subst same
        rw [Finmap.lookup_insert] at present
        cases present
        exact .inl rfl
      · rw [Finmap.lookup_insert_of_ne _ same] at present
        refine .inr ⟨present, ?_, by simp⟩
        intro item impossible
        cases impossible
        exact same rfl

section Runs

variable [DecidableEq ι] {pool first last : CachePool ι Value}
  {permitted : CachePool ι Value -> ι -> (operation : Operation ι Value) -> operation.Reply -> Cache ι Value -> Prop}

/-- Every item belongs to a call that sets its key to its value. -/
def Signed (calls : ι -> Call Value) (cache : Cache ι Value) : Prop :=
  ∀ key item, cache.data.lookup key = some item -> (calls item.setter).SetsTo key item.value

theorem ownStores_of_run {clock : Int}
    (run : Pool.Run Accesses Ticks permitted (start config clock calls) last) (index : ι) :
    OwnStores calls index (last.programs index) :=
  run.demanded (fun self => ownStores_program config calls self) index

theorem signed_of_run {clock : Int}
    (run : Pool.Run Accesses Ticks permitted (start config clock calls) last) : Signed calls last.shared := by
  induction run with
  | refl =>
      intro key item present
      rw [start, Finmap.lookup_empty] at present
      cases present
  | tail run step ih =>
      cases step with
      | background change =>
          rcases change with ⟨later, _, rfl⟩
          exact ih
      | @operation index operation next reply after current effective allowed =>
          intro key item present
          rcases lookup_of_accesses effective present with rfl | ⟨old, _, _⟩
          · have own := ownStores_of_run run index
            rw [current] at own
            rcases own.1 with ⟨rfl, sets⟩
            exact sets
          · exact ih key item old

/-- As long as the item of a call that has returned is there, a call that changes
the key has still to overwrite it. -/
theorem overwrites_of_run {setter later : ι} (run : Pool.Run Accesses Ticks permitted first last)
    (own : ∀ index, OwnStores calls index (first.programs index))
    (returned : Ended (first.programs setter)) (overwrites : Overwrites key later (first.programs later)) :
    Ended (last.programs setter) ∧ ∀ item, last.shared.data.lookup key = some item -> item.setter = setter ->
      Overwrites key later (last.programs later) := by
  induction run with
  | refl => exact ⟨returned, fun _ _ _ => overwrites⟩
  | @tail middle last run step ih =>
      rcases ih with ⟨ended, stillOverwrites⟩
      cases step with
      | background change =>
          rcases change with ⟨later, _, rfl⟩
          exact ⟨ended, stillOverwrites⟩
      | @operation index operation next reply after current effective allowed =>
          have different : setter ≠ index := by
            rintro rfl
            rcases ended with ⟨result, ended⟩
            rw [ended] at current
            cases current
          constructor
          · dsimp only
            rw [Function.update_of_ne different]
            exact ended
          · intro item present isSetter
            rcases lookup_of_accesses effective present with rfl | ⟨old, noStore, noDelete⟩
            · have owned := Pool.Run.demanded run own index
              rw [current] at owned
              exact absurd (isSetter.symm.trans owned.1.1) different
            · have pending := stillOverwrites item old isSetter
              dsimp only
              by_cases same : later = index
              · subst same
                rw [Function.update_self]
                rw [current] at pending
                cases operation with
                | store other stored =>
                    rcases pending with ⟨rfl, _⟩ | pending
                    · exact absurd rfl (noStore stored)
                    · exact pending
                | loadAndDelete other =>
                    rcases pending with rfl | pending
                    · exact absurd rfl noDelete
                    · exact pending reply
                | invoke | delete other | addCount change | storeCount count => exact pending
                | load other | range | now | loadCount => exact pending reply
              · rw [Function.update_of_ne same]
                exact pending

/-- A key holds the value that some call has set it to.  No call that changes the
key has started after the return of that one and returned in its turn. -/
theorem latest_of_run {clock : Int} {item : Item ι Value}
    (before : Pool.Run Accesses Ticks permitted (start config clock calls) first)
    (after : Pool.Run Accesses Ticks permitted first last)
    (present : last.shared.data.lookup key = some item) (returned : Ended (first.programs item.setter))
    {later : ι} (changes : (calls later).Changes key)
    (unstarted : first.programs later = program config later (calls later)) : ¬ Ended (last.programs later) := by
  rintro ⟨result, ended⟩
  have own : ∀ index, OwnStores calls index (first.programs index) := ownStores_of_run before
  have overwrites : Overwrites key later (first.programs later) := by
    rw [unstarted]
    exact overwrites_program changes
  have pending := (overwrites_of_run after own returned overwrites).2 item present rfl
  rw [ended] at pending
  exact pending

end Runs

end MemoryCache
end Store
end Memos
