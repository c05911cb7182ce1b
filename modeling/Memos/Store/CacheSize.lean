import Mathlib.Data.Finsupp.Weight
import Memos.Store.MemoryCache

namespace Memos
namespace Store
namespace MemoryCache

open Library

/-!
# The size of the memory cache

The map and the counter change in separate steps, so between its steps a call
may have counted an item that it has still to store, or have deleted one that it
has still to subtract.  The counter is the number of keys as soon as no call has
anything left to do, provided that every call finds what it has looked up
before.
-/

variable {ι Value α : Type} {config : Config} {call : Call Value}

/-! ## What a call has still to do -/

def Ended (procedure : Procedure ι Value α) : Prop := Exists fun result => procedure = .done result

/-- The call stores a value, and checks the limit afterwards. -/
def Call.sets : Call Value -> Bool
  | .set _ _ => true
  | .setWithTTL _ _ _ => true
  | _ => false

def Call.clears : Call Value -> Bool
  | .clear => true
  | _ => false

/-- A setting call ends with nothing to evict. -/
def GivesUp (call : Call Value) (rest : Procedure ι Value α) (stores owed : Nat) : Prop :=
  call.sets = true ∧ Ended rest ∧ stores = 0 ∧ owed = 0

/-- The call has still to make some stores that are counted, to subtract some
deletions, and to check the limit for some of its stores.  A check is made when
the counter is found within the limit, when an item is evicted, or when the call
gives up. -/
def Promises (config : Config) (call : Call Value) : Procedure ι Value α -> Nat -> Nat -> Nat -> Prop
  | .done _, stores, owed, checks => stores = 0 ∧ owed = 0 ∧ (0 < config.maxItems -> checks = 0)
  | .perform .invoke next, stores, owed, checks =>
      (stores = 0 ∧ owed = 0 ∧ checks = 0) ∧ Promises config call (next ()) 0 0 0
  | .perform (.load _) next, stores, owed, checks => ∀ found,
      Promises config call (next found) stores owed checks ∨ GivesUp call (next found) stores owed
  | .perform (.delete _) next, stores, owed, checks =>
      Promises config call (next ()) (stores + 1) owed checks ∨
        Promises config call (next ()) stores (owed + 1) checks ∨
          Exists fun fewer => checks = fewer + 1 ∧ Promises config call (next ()) stores (owed + 1) fewer
  | .perform (.loadAndDelete _) next, stores, owed, checks =>
      Promises config call (next none) stores owed checks ∧
        ∀ item, Promises config call (next (some item)) stores (owed + 1) checks
  | .perform (.store _ _) next, stores, owed, checks =>
      Exists fun fewer => stores = fewer + 1 ∧ Promises config call (next ()) fewer owed (checks + 1)
  | .perform .range next, stores, owed, checks => ∀ keys,
      Promises config call (next keys) stores owed checks ∨ GivesUp call (next keys) stores owed
  | .perform .now next, stores, owed, checks => ∀ time,
      Promises config call (next time) stores owed checks
  | .perform (.addCount change) next, stores, owed, checks =>
      change = 1 ∧ Promises config call (next ()) (stores + 1) owed checks ∨
        Exists fun counted : Nat => Exists fun fewer => change = -counted ∧ owed = fewer + counted ∧
          Promises config call (next ()) stores fewer checks
  | .perform .loadCount next, stores, owed, checks => ∀ count,
      Promises config call (next count) stores owed checks ∨
        count ≤ config.maxItems ∧ Promises config call (next count) stores owed 0
  | .perform (.storeCount _) _, _, _, _ => False

/-- What the call has done to the map it has done to the counter. -/
def Level (config : Config) (call : Call Value) (rest : Procedure ι Value α) : Prop :=
  Exists fun checks => Promises config call rest 0 0 checks

theorem GivesUp.sum_eq {rest : Procedure ι Value α} {stores owed otherStores otherOwed otherChecks : Nat}
    (givesUp : GivesUp call rest stores owed)
    (promises : Promises config call rest otherStores otherOwed otherChecks) :
    stores + owed = otherStores + otherOwed := by
  rcases givesUp with ⟨_, ⟨result, rfl⟩, noStores, noneOwed⟩
  rcases promises with ⟨noOtherStores, noneOtherOwed, _⟩
  omega

/-- How much a call has still to do to the map and to the counter is determined
by its steps. -/
theorem Promises.sum_eq {rest : Procedure ι Value α} {stores owed checks otherStores otherOwed otherChecks : Nat}
    (first : Promises config call rest stores owed checks)
    (second : Promises config call rest otherStores otherOwed otherChecks) :
    stores + owed = otherStores + otherOwed := by
  induction rest generalizing stores owed checks otherStores otherOwed otherChecks with
  | done result =>
      rcases first with ⟨noStores, noneOwed, _⟩
      rcases second with ⟨noOtherStores, noneOtherOwed, _⟩
      omega
  | perform operation next ih =>
      cases operation with
      | invoke =>
          rcases first with ⟨⟨noStores, noneOwed, _⟩, _⟩
          rcases second with ⟨⟨noOtherStores, noneOtherOwed, _⟩, _⟩
          omega
      | load key =>
          rcases first none with first | gives <;> rcases second none with second | otherGives
          · exact ih none first second
          · exact (otherGives.sum_eq first).symm
          · exact gives.sum_eq second
          · rw [gives.2.2.1, gives.2.2.2, otherGives.2.2.1, otherGives.2.2.2]
      | range =>
          rcases first [] with first | gives <;> rcases second [] with second | otherGives
          · exact ih [] first second
          · exact (otherGives.sum_eq first).symm
          · exact gives.sum_eq second
          · rw [gives.2.2.1, gives.2.2.2, otherGives.2.2.1, otherGives.2.2.2]
      | now => exact ih 0 (first 0) (second 0)
      | loadCount =>
          rcases first 0 with first | ⟨_, first⟩ <;> rcases second 0 with second | ⟨_, second⟩ <;>
            exact ih 0 first second
      | delete key =>
          rcases first with first | first | ⟨_, _, first⟩ <;>
            rcases second with second | second | ⟨_, _, second⟩ <;>
              have same := ih () first second <;> omega
      | loadAndDelete key => exact ih none first.1 second.1
      | store key item =>
          rcases first with ⟨fewer, rfl, first⟩
          rcases second with ⟨otherFewer, rfl, second⟩
          have same := ih () first second
          omega
      | addCount change =>
          rcases first with ⟨isOne, first⟩ | ⟨counted, fewer, isCounted, rfl, first⟩ <;>
            rcases second with ⟨isOtherOne, second⟩ | ⟨otherCounted, otherFewer, isOtherCounted, rfl, second⟩ <;>
              have same := ih () first second <;> omega
      | storeCount count => exact first.elim

/-! ## The calls -/

section Calls

variable {β : Type} {next : α -> Procedure ι Value β} {checks : Nat}

/-- Collecting the items of the map leaves everything as it is. -/
theorem promises_collect {collect : α -> String -> Item ι Value -> α}
    (ends : ∀ state, Promises config call (next state) 0 0 checks ∨ GivesUp call (next state) 0 0)
    (state : α) (keys : List String) :
    Promises config call
        (visitKeys (fun state key item => pure (collect state key item)) state keys >>= next) 0 0 checks ∨
      GivesUp call
        (visitKeys (fun state key item => pure (collect state key item)) state keys >>= next) 0 0 := by
  induction keys generalizing state with
  | nil => exact ends state
  | cons key keys ih =>
      left
      intro found
      cases found with
      | none => exact ih state
      | some item => exact ih (collect state key item)

theorem promises_deleteCandidates {next : Nat -> Procedure ι Value β}
    (ends : ∀ deletedCount, Promises config call (next deletedCount) 0 deletedCount 0)
    (deletedCount : Nat) (candidates : List KeyExpPair) :
    Promises config call (deleteCandidates deletedCount candidates >>= next) 0 deletedCount 0 := by
  induction candidates generalizing deletedCount with
  | nil => exact ends deletedCount
  | cons candidate candidates ih => exact .inr (.inl (ih (deletedCount + 1)))

/-- The end of `cleanup` and of `cleanupOldest`. -/
theorem promises_subtract (count : Nat) (result : α) :
    Promises config call
      ((if 0 < count then itemCountAdd (-count) else pure ()) >>= fun _ => (pure result : Procedure ι Value α))
      0 count 0 := by
  by_cases some : 0 < count
  · rw [if_pos some]
    exact .inr ⟨count, 0, rfl, (Nat.zero_add count).symm, rfl, rfl, fun _ => rfl⟩
  · rw [if_neg some, Nat.eq_zero_of_not_pos some]
    exact ⟨rfl, rfl, fun _ => rfl⟩

theorem promises_evictOldest (result : α) (due : checks = 0 ∨ checks = 1 ∧ call.sets = true) :
    Promises config call (evictOldest config >>= fun _ => (pure result : Procedure ι Value α)) 0 0 checks := by
  simp only [evictOldest, dataRange, Program.bind_assoc, Program.perform_bind]
  intro keys
  apply promises_collect
  intro candidates
  cases candidates with
  | nil =>
      rcases due with rfl | ⟨_, sets⟩
      · exact .inl ⟨rfl, rfl, fun _ => rfl⟩
      · exact .inr ⟨sets, ⟨result, rfl⟩, rfl, rfl⟩
  | cons candidate candidates =>
      left
      rcases due with rfl | ⟨rfl, _⟩
      · apply promises_deleteCandidates
        intro count
        exact promises_subtract count result
      · refine .inr (.inr ⟨0, rfl, ?_⟩)
        apply promises_deleteCandidates
        intro count
        exact promises_subtract count result

/-- An eviction makes the check that is due. -/
theorem promises_cleanupOldest (result : α) (due : checks = 0 ∨ checks = 1 ∧ call.sets = true) :
    Promises config call (cleanupOldest config >>= fun _ => (pure result : Procedure ι Value α)) 0 0 checks := by
  intro count
  change Promises config call ((if count ≤ config.maxItems then pure () else evictOldest config) >>= _) 0 0 checks ∨
    count ≤ config.maxItems ∧
      Promises config call ((if count ≤ config.maxItems then pure () else evictOldest config) >>= _) 0 0 0
  by_cases within : count ≤ config.maxItems
  · right
    rw [if_pos within]
    exact ⟨within, rfl, rfl, fun _ => rfl⟩
  · left
    rw [if_neg within]
    exact promises_evictOldest result due

theorem promises_setWithTTL (self : ι) (key : String) (value : Value) (ttl : Int) (result : α)
    (sets : call.sets = true) :
    Promises config call
      (setWithTTL config self key value ttl >>= fun _ => (pure result : Procedure ι Value α)) 0 0 0 := by
  have stored (now : Int) : Promises config call
      ((dataStore key ⟨value, now + ttl, self⟩ : Procedure ι Value Unit) >>= fun _ =>
        checkLimit config >>= fun _ => (pure result : Procedure ι Value α)) 1 0 0 := by
    refine ⟨0, rfl, ?_⟩
    change Promises config call (checkLimit config >>= fun _ => (pure result : Procedure ι Value α)) 0 0 1
    by_cases limited : 0 < config.maxItems
    · rw [checkLimit, if_pos limited]
      intro count
      change Promises config call ((if config.maxItems < count then cleanupOldest config else pure ()) >>= _) 0 0 1 ∨
        count ≤ config.maxItems ∧
          Promises config call ((if config.maxItems < count then cleanupOldest config else pure ()) >>= _) 0 0 0
      by_cases exceeding : config.maxItems < count
      · left
        rw [if_pos exceeding]
        exact promises_cleanupOldest result (.inr ⟨rfl, sets⟩)
      · right
        rw [if_neg exceeding]
        exact ⟨Int.not_lt.mp exceeding, rfl, rfl, fun _ => rfl⟩
    · rw [checkLimit, if_neg limited]
      exact ⟨rfl, rfl, fun impossible => absurd impossible limited⟩
  intro found
  left
  cases found with
  | none => exact .inl ⟨rfl, stored⟩
  | some item => exact .inl stored

theorem promises_get (key : String) (result : Option Value -> α) :
    Promises config call (get key >>= fun value => (pure (result value) : Procedure ι Value α)) 0 0 0 := by
  intro found
  left
  cases found with
  | none => exact ⟨rfl, rfl, fun _ => rfl⟩
  | some item =>
      intro time
      change Promises config call ((if item.expiration < time then _ else _) >>= _) 0 0 0
      by_cases expired : item.expiration < time
      · rw [if_pos expired]
        exact .inr (.inl (.inr ⟨1, 0, rfl, rfl, rfl, rfl, fun _ => rfl⟩))
      · rw [if_neg expired]
        exact ⟨rfl, rfl, fun _ => rfl⟩

theorem promises_delete (key : String) (result : α) :
    Promises config call (delete key >>= fun _ => (pure result : Procedure ι Value α)) 0 0 0 := by
  refine ⟨⟨rfl, rfl, fun _ => rfl⟩, ?_⟩
  intro item
  exact .inr ⟨1, 0, rfl, rfl, rfl, rfl, fun _ => rfl⟩

/-- The items that `cleanup` deletes are subtracted at its end. -/
theorem promises_cleanup (result : α) :
    Promises config call (cleanup >>= fun _ => (pure result : Procedure ι Value α)) 0 0 0 := by
  simp only [cleanup, dataRange, Program.bind_assoc, Program.perform_bind]
  have visits (count : Nat) (keys : List String) : Promises config call
      (visitKeys (fun (count : Nat) key item => do
          let now ← timeNow
          if item.expiration < now then do
            dataDelete key
            pure (count + 1)
          else pure count) count keys >>= fun count =>
        (if 0 < count then itemCountAdd (-count) else pure ()) >>= fun _ =>
          (pure result : Procedure ι Value α)) 0 count 0 := by
    induction keys generalizing count with
    | nil => exact promises_subtract count result
    | cons key keys ih =>
        intro found
        left
        cases found with
        | none => exact ih count
        | some item =>
            simp only [Program.bind_assoc]
            intro time
            change Promises config call (((if item.expiration < time then _ else _) >>= _) >>= _) 0 count 0
            by_cases expired : item.expiration < time
            · rw [if_pos expired]
              exact .inr (.inl (ih (count + 1)))
            · rw [if_neg expired]
              exact ih count
  intro keys
  exact .inl (visits 0 keys)

theorem promises_program (self : ι) (other : call.clears = false) :
    Promises config call (program config self call) 0 0 0 := by
  refine ⟨⟨rfl, rfl, rfl⟩, ?_⟩
  cases call with
  | set key value => exact promises_setWithTTL self key value config.defaultTTL Result.finished rfl
  | setWithTTL key value ttl => exact promises_setWithTTL self key value ttl Result.finished rfl
  | get key => exact promises_get key Result.found
  | delete key => exact promises_delete key Result.finished
  | clear => cases other
  | size => exact fun count => .inl ⟨rfl, rfl, fun _ => rfl⟩
  | cleanup => exact promises_cleanup Result.finished
  | cleanupOldest => exact promises_cleanupOldest Result.finished (.inl rfl)

end Calls

/-! ## Steps of one call -/

/-- How a step of a call moves what it has still to do. -/
structure Moves (config : Config) (before after : Cache ι Value)
    (stores owed checks laterStores laterOwed laterChecks : Nat) : Prop where
  count : after.itemCount + (before.keyCount + stores + owed) =
    before.itemCount + (after.keyCount + laterStores + laterOwed)
  limit : after.keyCount + checks ≤ before.keyCount + laterChecks ∨ (after.keyCount : Int) ≤ config.maxItems

/-- What a call has looked up still holds when it acts: an item that it deletes is
there, a key that it stores is not, and a setting call gives up only while there
are not too many keys. -/
def Finds (config : Config) (call : Call Value) (before : Cache ι Value) (rest : Procedure ι Value α) :
    Operation ι Value -> Prop
  | .delete key => key ∈ before.data
  | .store key _ => key ∉ before.data
  | .load _ => call.sets = true -> Ended rest -> (before.keyCount : Int) ≤ config.maxItems
  | .range => call.sets = true -> Ended rest -> (before.keyCount : Int) ≤ config.maxItems
  | _ => True

variable {cache : Cache ι Value} {key : String}

theorem keyCount_erase (present : key ∈ cache.data) :
    Cache.keyCount { cache with data := cache.data.erase key } + 1 = cache.keyCount := by
  rw [Cache.keyCount, Finmap.keys_erase]
  exact Finset.card_erase_add_one (Finmap.mem_keys.mpr present)

theorem erase_of_absent (absent : key ∉ cache.data) :
    cache.data.erase key = cache.data := by
  apply Finmap.ext_lookup
  intro other
  by_cases same : other = key
  · rw [same, Finmap.lookup_erase, Finmap.lookup_eq_none.mpr absent]
  · exact Finmap.lookup_erase_ne same

theorem keyCount_insert (item : Item ι Value) (absent : key ∉ cache.data) :
    Cache.keyCount { cache with data := cache.data.insert key item } = cache.keyCount + 1 := by
  have keys : (cache.data.insert key item).keys = Insert.insert key cache.data.keys := by
    ext other
    rw [Finmap.mem_keys, Finmap.mem_insert, Finset.mem_insert, Finmap.mem_keys]
  rw [Cache.keyCount, keys]
  apply Finset.card_insert_of_notMem
  rw [Finmap.mem_keys]
  exact absent

/-- The map and the counter stay as they are, and so does what is to be done. -/
theorem Moves.still (cache : Cache ι Value) (stores owed checks : Nat) :
    Moves config cache cache stores owed checks stores owed checks :=
  ⟨rfl, .inl (Nat.le_refl _)⟩

/-- A call that finds what it has looked up goes on as it has promised. -/
theorem Promises.step {operation : Operation ι Value} {next : operation.Reply -> Procedure ι Value α}
    {reply : operation.Reply} {before after : Cache ι Value} {stores owed checks : Nat}
    (promises : Promises config call (.perform operation next) stores owed checks)
    (accesses : Accesses before operation reply after) (finds : Finds config call before (next reply) operation)
    (counted : (before.keyCount : Int) ≤ before.itemCount) :
    Exists fun laterStores => Exists fun laterOwed => Exists fun laterChecks =>
      Promises config call (next reply) laterStores laterOwed laterChecks ∧
        Moves config before after stores owed checks laterStores laterOwed laterChecks := by
  cases operation with
  | invoke =>
      rcases promises with ⟨⟨rfl, rfl, rfl⟩, promises⟩
      cases accesses
      exact ⟨0, 0, 0, promises, .still before 0 0 0⟩
  | load key =>
      rcases accesses with ⟨_, rfl⟩
      rcases promises reply with promises | ⟨sets, ⟨result, ended⟩, rfl, rfl⟩
      · exact ⟨stores, owed, checks, promises, .still after stores owed checks⟩
      · refine ⟨0, 0, 0, ?_, rfl, .inr (finds sets ⟨result, ended⟩)⟩
        rw [ended]
        exact ⟨rfl, rfl, fun _ => rfl⟩
  | range =>
      rcases accesses with ⟨_, _, rfl⟩
      rcases promises reply with promises | ⟨sets, ⟨result, ended⟩, rfl, rfl⟩
      · exact ⟨stores, owed, checks, promises, .still after stores owed checks⟩
      · refine ⟨0, 0, 0, ?_, rfl, .inr (finds sets ⟨result, ended⟩)⟩
        rw [ended]
        exact ⟨rfl, rfl, fun _ => rfl⟩
  | now =>
      rcases accesses with ⟨_, rfl⟩
      exact ⟨stores, owed, checks, promises reply, .still after stores owed checks⟩
  | delete key =>
      cases accesses
      have fewer := keyCount_erase finds
      rcases promises with promises | promises | ⟨fewerChecks, rfl, promises⟩
      · refine ⟨stores + 1, owed, checks, promises, ?_, ?_⟩
        · dsimp only
          omega
        · omega
      · refine ⟨stores, owed + 1, checks, promises, ?_, ?_⟩
        · dsimp only
          omega
        · omega
      · refine ⟨stores, owed + 1, fewerChecks, promises, ?_, ?_⟩
        · dsimp only
          omega
        · omega
  | loadAndDelete key =>
      rcases accesses with ⟨found, rfl⟩
      cases reply with
      | none =>
          have absent : key ∉ before.data := Finmap.lookup_eq_none.mp found.symm
          rw [erase_of_absent absent]
          exact ⟨stores, owed, checks, promises.1, .still before stores owed checks⟩
      | some item =>
          have fewer := keyCount_erase (Finmap.mem_of_lookup_eq_some found.symm)
          refine ⟨stores, owed + 1, checks, promises.2 item, ?_, ?_⟩
          · dsimp only
            omega
          · omega
  | store key item =>
      cases accesses
      have more := keyCount_insert item finds
      rcases promises with ⟨fewer, rfl, promises⟩
      refine ⟨fewer, owed, checks + 1, promises, ?_, ?_⟩
      · dsimp only
        omega
      · omega
  | addCount change =>
      cases accesses
      rcases promises with ⟨rfl, promises⟩ | ⟨counted, fewer, rfl, rfl, promises⟩
      · refine ⟨stores + 1, owed, checks, promises, ?_, .inl (Nat.le_refl _)⟩
        dsimp only [Cache.keyCount]
        omega
      · refine ⟨stores, fewer, checks, promises, ?_, .inl (Nat.le_refl _)⟩
        dsimp only [Cache.keyCount]
        omega
  | loadCount =>
      rcases accesses with ⟨rfl, rfl⟩
      rcases promises _ with promises | ⟨within, promises⟩
      · exact ⟨stores, owed, checks, promises, .still after stores owed checks⟩
      · exact ⟨stores, owed, 0, promises, rfl, .inr (counted.trans within)⟩
  | storeCount count => exact promises.elim

/-! ## All calls together -/

/-- `Clear` between its first step and its last one. -/
def Wipes : Procedure ι Value α -> Prop
  | .perform (.load _) next => ∀ found, Wipes (next found)
  | .perform (.delete _) next => Wipes (next ())
  | .perform .range next => ∀ keys, Wipes (next keys)
  | .perform (.storeCount count) next => count = 0 ∧ Ended (next ())
  | _ => False

theorem wipes_clear (result : α) : Wipes (clear >>= fun _ => (pure result : Procedure ι Value α)) := by
  simp only [clear, dataRange, Program.bind_assoc, Program.perform_bind]
  have visits (count : Nat) (keys : List String) :
      Wipes (visitKeys (fun (count : Nat) key (_ : Item ι Value) => do
        dataDelete key
        pure (count + 1)) count keys >>= fun _ => itemCountStore 0 >>= fun _ => pure result) := by
    induction keys generalizing count with
    | nil => exact ⟨rfl, result, rfl⟩
    | cons key keys ih =>
        intro found
        cases found with
        | none => exact ih count
        | some item => exact ih (count + 1)
  exact visits 0

section Pool

variable [DecidableEq ι] {calls : ι -> Call Value} {pool last : CachePool ι Value}

/-- The condition of a step.  A call finds what it has looked up before; and
`Clear` sets the counter when the map is empty and no call stands between its
change of the map and that of the counter. -/
structure Orderly (config : Config) (calls : ι -> Call Value) (pool : CachePool ι Value) (index : ι)
    (operation : Operation ι Value) (reply : operation.Reply) (_after : Cache ι Value) : Prop where
  finds : (calls index).clears = false -> ∀ next, pool.programs index = .perform operation next ->
    Finds config (calls index) pool.shared (next reply) operation
  resets : ∀ count, operation = .storeCount count -> pool.shared.keyCount = 0 ∧
    ∀ other, (calls other).clears = false -> Level config (calls other) (pool.programs other)

/-- What the calls have still to do explains the counter, and the number of keys
above the limit. -/
structure Accounts (config : Config) (calls : ι -> Call Value) (pool : CachePool ι Value)
    (stores owed checks : ι →₀ Nat) (wiped : Nat) : Prop where
  promised : ∀ index, (calls index).clears = false ->
    Promises config (calls index) (pool.programs index) (stores index) (owed index) (checks index)
  clearing : ∀ index, (calls index).clears = true ->
    (stores index = 0 ∧ owed index = 0 ∧ checks index = 0) ∧
      (pool.programs index = program config index (calls index) ∨ Wipes (pool.programs index) ∨
        Ended (pool.programs index))
  wiping : wiped = 0 ∨ Exists fun index => (calls index).clears = true ∧ Wipes (pool.programs index)
  count : pool.shared.itemCount = pool.shared.keyCount + stores.degree + owed.degree + wiped
  limit : 0 < config.maxItems -> (pool.shared.keyCount : Int) ≤ config.maxItems + checks.degree

def Accounted (config : Config) (calls : ι -> Call Value) (pool : CachePool ι Value) : Prop :=
  Exists fun stores => Exists fun owed => Exists fun checks => Exists fun wiped =>
    Accounts config calls pool stores owed checks wiped

omit [DecidableEq ι] in
theorem degree_update (shares : ι →₀ Nat) (index : ι) (share : Nat) :
    (shares.update index share).degree + shares index = shares.degree + share := by
  classical
  have whole : (shares.erase index).degree + shares index = shares.degree := by
    conv_rhs => rw [← Finsupp.erase_add_single index shares, map_add, Finsupp.degree_single]
  rw [Finsupp.update_eq_erase_add_single, map_add, Finsupp.degree_single]
  omega

omit [DecidableEq ι] in
theorem degree_eq_zero {shares : ι →₀ Nat} (all : ∀ index, shares index = 0) : shares.degree = 0 := by
  have none : shares = 0 := Finsupp.ext all
  rw [none, map_zero]

/-- The map and the counter after a step of a call other than `Clear`. -/
theorem Accounts.operates {stores owed checks : ι →₀ Nat} {wiped laterStores laterOwed laterChecks : Nat}
    {index : ι} {rest : Procedure ι Value (Result Value)} {after : Cache ι Value}
    (accounts : Accounts config calls pool stores owed checks wiped) (other : (calls index).clears = false)
    (promises : Promises config (calls index) rest laterStores laterOwed laterChecks)
    (moves : Moves config pool.shared after (stores index) (owed index) (checks index)
      laterStores laterOwed laterChecks) :
    Accounts config calls ⟨after, Function.update pool.programs index rest⟩ (stores.update index laterStores)
      (owed.update index laterOwed) (checks.update index laterChecks) wiped := by
  have different (clear : ι) (clears : (calls clear).clears = true) : clear ≠ index := by
    rintro rfl
    rw [clears] at other
    cases other
  constructor
  case promised =>
    intro caller isOther
    dsimp only
    by_cases same : caller = index
    · subst same
      rw [Function.update_self]
      simp only [Finsupp.update_apply, if_true]
      exact promises
    · rw [Function.update_of_ne same]
      simp only [Finsupp.update_apply, same, if_false]
      exact accounts.promised caller isOther
  case clearing =>
    intro clear clears
    dsimp only
    rw [Function.update_of_ne (different clear clears)]
    simp only [Finsupp.update_apply, different clear clears, if_false]
    exact accounts.clearing clear clears
  case wiping =>
    rcases accounts.wiping with none | ⟨clear, clears, wipes⟩
    · exact .inl none
    · refine .inr ⟨clear, clears, ?_⟩
      dsimp only
      rw [Function.update_of_ne (different clear clears)]
      exact wipes
  case count =>
    have count := accounts.count
    have moved := moves.count
    have storesMoved := degree_update stores index laterStores
    have owedMoved := degree_update owed index laterOwed
    dsimp only
    omega
  case limit =>
    intro limited
    have limit := accounts.limit limited
    have checksMoved := degree_update checks index laterChecks
    rcases moves.limit with fewer | within
    · dsimp only
      omega
    · dsimp only
      omega

/-- The map and the counter after a step of `Clear`. -/
theorem Accounts.clears {stores owed checks : ι →₀ Nat} {wiped later : Nat} {index : ι}
    {rest : Procedure ι Value (Result Value)} {after : Cache ι Value}
    (accounts : Accounts config calls pool stores owed checks wiped) (clears : (calls index).clears = true)
    (wipes : Wipes rest ∨ Ended rest) (wiping : later = 0 ∨ Wipes rest)
    (count : after.itemCount = after.keyCount + stores.degree + owed.degree + later)
    (fewer : after.keyCount ≤ pool.shared.keyCount) :
    Accounts config calls ⟨after, Function.update pool.programs index rest⟩ stores owed checks later where
  promised caller isOther := by
    have different : caller ≠ index := by
      rintro rfl
      rw [clears] at isOther
      cases isOther
    dsimp only
    rw [Function.update_of_ne different]
    exact accounts.promised caller isOther
  clearing clear isClear := by
    dsimp only
    by_cases same : clear = index
    · subst same
      rw [Function.update_self]
      exact ⟨(accounts.clearing clear isClear).1, .inr wipes⟩
    · rw [Function.update_of_ne same]
      exact accounts.clearing clear isClear
  wiping := by
    rcases wiping with none | wipes
    · exact .inl none
    · refine .inr ⟨index, clears, ?_⟩
      dsimp only
      rw [Function.update_self]
      exact wipes
  count := count
  limit limited := by
    have limit := accounts.limit limited
    dsimp only
    omega

variable {wiped : Nat}

omit [DecidableEq ι] in
/-- When `Clear` sets the counter, nobody has anything left to do. -/
theorem Accounts.level {stores owed checks : ι →₀ Nat}
    (accounts : Accounts config calls pool stores owed checks wiped)
    (level : ∀ other, (calls other).clears = false -> Level config (calls other) (pool.programs other)) :
    stores.degree = 0 ∧ owed.degree = 0 := by
  have nothing (index : ι) : stores index = 0 ∧ owed index = 0 := by
    cases clears : (calls index).clears with
    | true =>
        rcases (accounts.clearing index clears).1 with ⟨noStores, noneOwed, _⟩
        exact ⟨noStores, noneOwed⟩
    | false =>
        rcases level index clears with ⟨later, isLevel⟩
        have sum := (accounts.promised index clears).sum_eq isLevel
        omega
  exact ⟨degree_eq_zero fun index => (nothing index).1, degree_eq_zero fun index => (nothing index).2⟩

omit [DecidableEq ι] in
theorem clear_of_clears (clears : call.clears = true) : call = .clear := by
  cases call with
  | clear => rfl
  | set _ _ | setWithTTL _ _ _ | get _ | delete _ | size | cleanup | cleanupOldest => cases clears

/-- Every orderly step keeps the accounts. -/
theorem Accounts.step {stores owed checks : ι →₀ Nat} {next : CachePool ι Value}
    (accounts : Accounts config calls pool stores owed checks wiped)
    (step : Pool.Step Accesses Ticks (Orderly config calls) pool next) :
    Accounted config calls next := by
  cases step with
  | background change =>
      rcases change with ⟨later, _, rfl⟩
      exact ⟨stores, owed, checks, wiped, accounts.promised, accounts.clearing, accounts.wiping, accounts.count,
        accounts.limit⟩
  | @operation index operation rest reply after current effective allowed =>
      cases clears : (calls index).clears with
      | false =>
          have promises := accounts.promised index clears
          rw [current] at promises
          have counted : (pool.shared.keyCount : Int) ≤ pool.shared.itemCount := by
            have count := accounts.count
            omega
          rcases promises.step effective (allowed.finds clears rest current) counted with
            ⟨laterStores, laterOwed, laterChecks, goesOn, moves⟩
          exact ⟨_, _, _, _, accounts.operates clears goesOn moves⟩
      | true =>
          rcases (accounts.clearing index clears).2 with unstarted | wipes | ⟨result, ended⟩
          · rw [unstarted, program] at current
            cases current
            cases effective
            have wipes : Wipes (body config index (calls index)) := by
              rw [clear_of_clears clears]
              exact wipes_clear Result.finished
            exact ⟨stores, owed, checks, wiped,
              accounts.clears clears (.inl wipes) (.inr wipes) accounts.count (Nat.le_refl _)⟩
          · rw [current] at wipes
            cases operation with
            | load key =>
                rcases effective with ⟨_, rfl⟩
                exact ⟨stores, owed, checks, wiped, accounts.clears clears (.inl (wipes reply)) (.inr (wipes reply))
                  accounts.count (Nat.le_refl _)⟩
            | range =>
                rcases effective with ⟨_, _, rfl⟩
                exact ⟨stores, owed, checks, wiped, accounts.clears clears (.inl (wipes reply)) (.inr (wipes reply))
                  accounts.count (Nat.le_refl _)⟩
            | delete key =>
                cases effective
                by_cases present : key ∈ pool.shared.data
                · have fewer := keyCount_erase present
                  refine ⟨stores, owed, checks, wiped + 1,
                    accounts.clears clears (.inl wipes) (.inr wipes) ?_ (by omega)⟩
                  have count := accounts.count
                  dsimp only
                  omega
                · refine ⟨stores, owed, checks, wiped, accounts.clears clears (.inl wipes) (.inr wipes) ?_ ?_⟩
                  · rw [erase_of_absent present]
                    exact accounts.count
                  · rw [erase_of_absent present]
            | storeCount count =>
                cases effective
                rcases wipes with ⟨rfl, ended⟩
                rcases allowed.resets 0 rfl with ⟨noKeys, level⟩
                rcases accounts.level level with ⟨noStores, noneOwed⟩
                refine ⟨stores, owed, checks, 0, accounts.clears clears (.inr ended) (.inl rfl) ?_ (Nat.le_refl _)⟩
                rw [noStores, noneOwed]
                change (0 : Int) = pool.shared.keyCount + _ + _ + _
                rw [noKeys]
                rfl
            | invoke | loadAndDelete key | store key item | now | addCount change | loadCount => exact wipes.elim
          · rw [ended] at current
            cases current

omit [DecidableEq ι] in
theorem accounts_start (config : Config) (clock : Int) (calls : ι -> Call Value) :
    Accounts config calls (start config clock calls) 0 0 0 0 where
  promised index other := promises_program index other
  clearing index _ := ⟨⟨rfl, rfl, rfl⟩, .inl rfl⟩
  wiping := .inl rfl
  count := by
    rw [map_zero]
    rfl
  limit limited := by
    rw [map_zero]
    change (0 : Int) ≤ config.maxItems + 0
    omega

omit [DecidableEq ι] in
/-- When no operation is in flight, the counter is the number of keys. -/
theorem Accounts.idle {stores owed checks : ι →₀ Nat} (accounts : Accounts config calls pool stores owed checks wiped)
    (idle : Idle config calls pool) :
    pool.shared.itemCount = pool.shared.keyCount ∧
      (0 < config.maxItems -> pool.shared.itemCount ≤ config.maxItems) := by
  have nothing (index : ι) : (stores index = 0 ∧ owed index = 0) ∧ (0 < config.maxItems -> checks index = 0) := by
    cases clears : (calls index).clears with
    | true =>
        rcases (accounts.clearing index clears).1 with ⟨noStores, noneOwed, noChecks⟩
        exact ⟨⟨noStores, noneOwed⟩, fun _ => noChecks⟩
    | false =>
        have promises := accounts.promised index clears
        rcases idle index with ⟨result, ended⟩ | unstarted
        · rw [ended] at promises
          exact ⟨⟨promises.1, promises.2.1⟩, promises.2.2⟩
        · rw [unstarted] at promises
          exact ⟨⟨promises.1.1, promises.1.2.1⟩, fun _ => promises.1.2.2⟩
  have unwiped : wiped = 0 := by
    rcases accounts.wiping with none | ⟨clear, clears, wipes⟩
    · exact none
    · rcases idle clear with ⟨result, ended⟩ | unstarted
      · rw [ended] at wipes
        exact wipes.elim
      · rw [unstarted] at wipes
        exact wipes.elim
  have count := accounts.count
  rw [degree_eq_zero fun index => (nothing index).1.1, degree_eq_zero fun index => (nothing index).1.2, unwiped]
    at count
  have sizeIsCount : pool.shared.itemCount = pool.shared.keyCount := by omega
  refine ⟨sizeIsCount, ?_⟩
  intro limited
  have limit := accounts.limit limited
  rw [degree_eq_zero fun index => (nothing index).2 limited] at limit
  omega

/-- In an orderly run the counter is right whenever no operation is in flight. -/
theorem size_of_run {clock : Int}
    (run : Pool.Run Accesses Ticks (Orderly config calls) (start config clock calls) last)
    (idle : Idle config calls last) :
    last.shared.itemCount = last.shared.keyCount ∧
      (0 < config.maxItems -> last.shared.itemCount ≤ config.maxItems) := by
  have kept : Accounted config calls last := by
    apply run.induction ⟨0, 0, 0, 0, accounts_start config clock calls⟩
    rintro before after ⟨stores, owed, checks, wiped, accounts⟩ step
    exact accounts.step step
  rcases kept with ⟨stores, owed, checks, wiped, accounts⟩
  exact accounts.idle idle

end Pool

end MemoryCache
end Store
end Memos
