import Memos.Store.CacheEviction

namespace Memos
namespace Store
namespace MemoryCache

open Library

/-!
# What the memory cache accounts for

The size of the cache is right after orderly runs.  It drifts when two calls set
a new key at once, or when an item is deleted twice and subtracted twice.  The
values are right after all runs, and an eviction that runs alone evicts the
oldest items.
-/

variable {ι Value : Type} [DecidableEq ι]

/-- Every step is possible at any time. -/
def AnyTime (_ : CachePool ι Value) (_ : ι) (operation : Operation ι Value) (_ : operation.Reply)
    (_ : Cache ι Value) : Prop := True

/-- The pools that the calls reach when they begin with an empty cache. -/
abbrev Reaches (config : Config) (clock : Int) (calls : ι -> Call Value)
    (permitted : CachePool ι Value -> ι -> (operation : Operation ι Value) -> operation.Reply ->
      Cache ι Value -> Prop) (last : CachePool ι Value) : Prop :=
  Pool.Run Accesses Ticks permitted (start config clock calls) last

/-- Whenever no operation is in flight, the size is the number of keys and within
the limit, if there is one. -/
def SizeRight (config : Config) (clock : Int) (calls : ι -> Call Value)
    (permitted : CachePool ι Value -> ι -> (operation : Operation ι Value) -> operation.Reply ->
      Cache ι Value -> Prop) : Prop :=
  ∀ last, Reaches config clock calls permitted last -> Idle config calls last ->
    last.shared.itemCount = last.shared.keyCount ∧
      (0 < config.maxItems -> last.shared.itemCount ≤ config.maxItems)

/-- A key has the value of a call that has set it, and no call that changes the
key and has started after the return of that one has returned. -/
def ValuesRight (config : Config) (clock : Int) (calls : ι -> Call Value) : Prop :=
  ∀ first last, Reaches config clock calls AnyTime first -> Pool.Run Accesses Ticks AnyTime first last ->
    ∀ key item, last.shared.data.lookup key = some item ->
      (calls item.setter).SetsTo key item.value ∧
        (Ended (first.programs item.setter) -> ∀ later, (calls later).Changes key ->
          first.programs later = program config later (calls later) -> ¬ Ended (last.programs later))

/-- An eviction that runs alone evicts the oldest items, as many as are evicted at
once, if there are too many. -/
def EvictionRight (ι Value : Type) (config : Config) : Prop :=
  0 < config.maxItems -> ∀ before after : Cache ι Value, before.itemCount = before.keyCount ->
    Pool.Executes Accesses before (cleanupOldest config) () after ->
      after.itemCount = after.keyCount ∧ (before.itemCount ≤ config.maxItems -> after = before) ∧
        (config.maxItems < before.itemCount ->
          Exists fun evicted => EvictsOldest (threshold config) before after evicted)

omit [DecidableEq ι] in
theorem evictionRight (config : Config) : EvictionRight ι Value config := by
  intro limited before after sized executes
  rcases le_or_gt before.itemCount config.maxItems with within | exceeding
  · have same := cleanupOldest_within within executes
    refine ⟨?_, fun _ => same, fun exceeding => absurd exceeding (Int.not_lt.mpr within)⟩
    rw [same]
    exact sized
  · rcases cleanupOldest_evicts exceeding executes with ⟨evicted, evicts, counted⟩
    rw [Nat.min_eq_left (threshold_le limited exceeding sized)] at evicts
    refine ⟨?_, fun within => absurd within (Int.not_le.mpr exceeding), fun _ => ⟨evicted, evicts⟩⟩
    have keys := evicts.keyCount_eq
    omega

theorem valuesRight (config : Config) (clock : Int) (calls : ι -> Call Value) : ValuesRight config clock calls := by
  intro first last before after key item present
  constructor
  · exact signed_of_run (before.trans after) key item present
  · intro returned later changes unstarted
    exact latest_of_run before after present returned changes unstarted

/-- The size is right after orderly runs, the values after all runs, and the
eviction when it runs alone. -/
theorem cache_accounts (config : Config) (clock : Int) (calls : ι -> Call Value) :
    SizeRight config clock calls (Orderly config calls) ∧ ValuesRight config clock calls ∧
      EvictionRight ι Value config :=
  ⟨fun _ reaches idle => size_of_run reaches idle, valuesRight config clock calls, evictionRight config⟩

def oneItem : Config := ⟨60, 1⟩

/-- Two calls set two keys. -/
def twoSets : Bool -> Call Nat
  | false => .set "a" 1
  | true => .set "b" 2

/-- What a step finds that neither stores nor deletes nor ends its call. -/
theorem orderly_of_going {pool : CachePool Bool Nat} {index : Bool} {operation : Operation Bool Nat}
    {reply : operation.Reply} {after : Cache Bool Nat}
    (going : ∀ next, pool.programs index = .perform operation next ->
      Finds oneItem (twoSets index) pool.shared (next reply) operation)
    (noReset : ∀ count, operation ≠ .storeCount count) :
    Orderly oneItem twoSets pool index operation reply after :=
  ⟨fun _ => going, fun count reset => absurd reset (noReset count)⟩

/-- The two calls take turns, and the second evicts the item of the first. -/
theorem two_sets_counted : Exists fun last => Reaches oneItem 0 twoSets (Orderly oneItem twoSets) last ∧
    last.shared.data.lookup "a" = none ∧ (last.shared.data.lookup "b").map Item.value = some 2 ∧
    last.shared.itemCount = last.shared.keyCount ∧ last.shared.itemCount ≤ 1 := by
  have begun : Reaches oneItem 0 twoSets (Orderly oneItem twoSets) (start oneItem 0 twoSets) := .refl
  have first := begun.operation false rfl () _ rfl (orderly_of_going (fun _ _ => trivial) (by nofun))
  have second := first.operation true rfl () _ rfl (orderly_of_going (fun _ _ => trivial) (by nofun))
  have firstLoads := second.operation false rfl none _ ⟨rfl, rfl⟩
    (orderly_of_going (fun _ _ _ _ => by decide) (by nofun))
  have secondLoads := firstLoads.operation true rfl none _ ⟨rfl, rfl⟩
    (orderly_of_going (fun _ _ _ _ => by decide) (by nofun))
  have firstCounts := secondLoads.operation false rfl () _ rfl (orderly_of_going (fun _ _ => trivial) (by nofun))
  have firstReads := firstCounts.operation false rfl 0 _ ⟨rfl, rfl⟩ (orderly_of_going (fun _ _ => trivial) (by nofun))
  have firstStores := firstReads.operation false rfl () _ rfl (orderly_of_going (fun _ _ => Finmap.notMem_empty) (by nofun))
  have firstChecks := firstStores.operation false rfl 1 _ ⟨rfl, rfl⟩
    (orderly_of_going (fun _ _ => trivial) (by nofun))
  have secondCounts := firstChecks.operation true rfl () _ rfl (orderly_of_going (fun _ _ => trivial) (by nofun))
  have secondReads := secondCounts.operation true rfl 0 _ ⟨rfl, rfl⟩
    (orderly_of_going (fun _ _ => trivial) (by nofun))
  have secondStores := secondReads.operation true rfl () _ rfl
    (orderly_of_going (fun _ _ => (by decide : "b" ∉ (∅ : Finmap _).insert "a" (⟨1, 60, false⟩ : Item Bool Nat))) (by nofun))
  have secondChecks := secondStores.operation true rfl 2 _ ⟨rfl, rfl⟩
    (orderly_of_going (fun _ _ => trivial) (by nofun))
  have secondEvicts := secondChecks.operation true rfl 2 _ ⟨rfl, rfl⟩
    (orderly_of_going (fun _ _ => trivial) (by nofun))
  have ranges := secondEvicts.operation true rfl ["a", "b"] _ ⟨by decide, by decide, rfl⟩
    (orderly_of_going (by
      rintro _ current _ ⟨_, impossible⟩
      cases current
      cases impossible) (by nofun))
  have visitsFirst := ranges.operation true rfl (some ⟨1, 60, false⟩) _ ⟨rfl, rfl⟩
    (orderly_of_going (by
      rintro _ current _ ⟨_, impossible⟩
      cases current
      cases impossible) (by nofun))
  have visitsSecond := visitsFirst.operation true rfl (some ⟨2, 60, true⟩) _ ⟨rfl, rfl⟩
    (orderly_of_going (by
      rintro _ current _ ⟨_, impossible⟩
      cases current
      cases impossible) (by nofun))
  have deletes := visitsSecond.operation true rfl () _ rfl
    (orderly_of_going (fun _ _ => (by decide :
      "a" ∈ ((∅ : Finmap _).insert "a" (⟨1, 60, false⟩ : Item Bool Nat)).insert "b" ⟨2, 60, true⟩)) (by nofun))
  have subtracts := deletes.operation true rfl () _ rfl (orderly_of_going (fun _ _ => trivial) (by nofun))
  have right := (cache_accounts oneItem 0 twoSets).1 _ subtracts ?_
  · exact ⟨_, subtracts, rfl, rfl, right.1, right.2 (by decide)⟩
  · intro index
    cases index with
    | false => exact .inl ⟨.finished, rfl⟩
    | true => exact .inl ⟨.finished, rfl⟩

/-! ## Two calls at once -/

def tenItems : Config := ⟨60, 10⟩

/-- Two calls set the same key. -/
def bothSet (_ : Bool) : Call Nat := .set "a" 1

/-- Both find the key new, and both count it. -/
theorem counted_twice : Exists fun last => Reaches tenItems 0 bothSet AnyTime last ∧
    Idle tenItems bothSet last ∧ last.shared.itemCount = 2 ∧ last.shared.keyCount = 1 := by
  have begun : Reaches tenItems 0 bothSet AnyTime (start tenItems 0 bothSet) := .refl
  have first := begun.operation false rfl () _ rfl trivial
  have second := first.operation true rfl () _ rfl trivial
  have firstLoads := second.operation false rfl none _ ⟨rfl, rfl⟩ trivial
  have secondLoads := firstLoads.operation true rfl none _ ⟨rfl, rfl⟩ trivial
  have firstCounts := secondLoads.operation false rfl () _ rfl trivial
  have secondCounts := firstCounts.operation true rfl () _ rfl trivial
  have firstReads := secondCounts.operation false rfl 0 _ ⟨rfl, rfl⟩ trivial
  have firstStores := firstReads.operation false rfl () _ rfl trivial
  have firstChecks := firstStores.operation false rfl 2 _ ⟨rfl, rfl⟩ trivial
  have secondReads := firstChecks.operation true rfl 0 _ ⟨rfl, rfl⟩ trivial
  have secondStores := secondReads.operation true rfl () _ rfl trivial
  have secondChecks := secondStores.operation true rfl 2 _ ⟨rfl, rfl⟩ trivial
  refine ⟨_, secondChecks, ?_, rfl, rfl⟩
  intro index
  cases index with
  | false => exact .inl ⟨.finished, rfl⟩
  | true => exact .inl ⟨.finished, rfl⟩

theorem size_drifts : ¬ SizeRight tenItems 0 bothSet AnyTime := by
  intro right
  rcases counted_twice with ⟨last, reaches, idle, count, keys⟩
  have same := (right last reaches idle).1
  rw [count, keys] at same
  cases same

end MemoryCache
end Store
end Memos
