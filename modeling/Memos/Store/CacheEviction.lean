import Memos.Library.Selection
import Memos.Store.CacheValues

namespace Memos
namespace Store
namespace MemoryCache

open Library

/-!
# Eviction

An eviction that runs alone removes as many items as it may, and the ones that
expire first.
-/

variable {ι Value : Type} {config : Config} {before after : Cache ι Value}

/-! ## The candidates -/

/-- The newest candidate is found behind the ones that have been looked at. -/
theorem newestIdx_spec {seen rest : List KeyExpPair} {newest : Nat} {candidate : KeyExpPair}
    (there : seen[newest]? = some candidate)
    (greatest : ∀ pair, pair ∈ seen -> pair.expiration ≤ candidate.expiration) :
    Exists fun found =>
      (seen ++ rest)[newestIdx newest candidate.expiration seen.length rest]? = some found ∧
        ∀ pair, pair ∈ seen ++ rest -> pair.expiration ≤ found.expiration := by
  induction rest generalizing seen newest candidate with
  | nil =>
      rw [List.append_nil]
      exact ⟨candidate, there, greatest⟩
  | cons next rest ih =>
      have shift : seen ++ next :: rest = seen ++ [next] ++ rest := by
        rw [List.append_assoc, List.singleton_append]
      have longer : seen.length + 1 = (seen ++ [next]).length := by
        rw [List.length_append, List.length_singleton]
      rw [newestIdx, shift, longer]
      by_cases newer : candidate.expiration < next.expiration
      · rw [if_pos newer]
        apply ih List.getElem?_concat_length
        intro pair member
        rcases List.mem_append.mp member with old | isNext
        · exact (greatest pair old).trans (Int.le_of_lt newer)
        · rw [List.mem_singleton.mp isNext]
      · rw [if_neg newer]
        apply ih
        · rw [List.getElem?_append_left (List.getElem?_eq_some_iff.mp there).1]
          exact there
        · intro pair member
          rcases List.mem_append.mp member with old | isNext
          · exact greatest pair old
          · rw [List.mem_singleton.mp isNext]
            exact Int.not_lt.mp newer

/-- The candidates are the items that expire first among those that have been
visited. -/
theorem selection_addCandidate {limit : Nat} {visited candidates dropped : List KeyExpPair}
    (selection : Selection KeyExpPair.expiration limit visited candidates dropped) (positive : 0 < limit)
    (pair : KeyExpPair) :
    Exists fun later =>
      Selection KeyExpPair.expiration limit (visited ++ [pair]) (addCandidate limit candidates pair) later := by
  unfold addCandidate
  by_cases below : candidates.length < limit
  · rw [if_pos below]
    exact ⟨dropped, selection.keep below⟩
  · rw [if_neg below]
    have full : candidates.length = limit := Nat.le_antisymm selection.bounded (Nat.not_lt.mp below)
    cases candidates with
    | nil =>
        rw [List.length_nil] at full
        omega
    | cons first rest =>
        have newest : Exists fun found =>
            (first :: rest)[newestIdx 0 first.expiration 1 rest]? = some found ∧
              ∀ pair, pair ∈ first :: rest -> pair.expiration ≤ found.expiration := by
          have there : [first][0]? = some first := rfl
          apply newestIdx_spec there
          intro other member
          rw [List.mem_singleton.mp member]
        rcases newest with ⟨found, there, greatest⟩
        simp only [there]
        by_cases older : pair.expiration < found.expiration
        · rw [if_pos older]
          exact ⟨_, selection.replace full there greatest (Int.le_of_lt older)⟩
        · rw [if_neg older]
          refine ⟨_, selection.leave full ?_⟩
          intro other member
          exact (greatest other member).trans (Int.not_lt.mp older)

theorem selection_foldl {limit : Nat} {visited candidates dropped : List KeyExpPair}
    (selection : Selection KeyExpPair.expiration limit visited candidates dropped) (positive : 0 < limit)
    (pairs : List KeyExpPair) :
    Exists fun later =>
      Selection KeyExpPair.expiration limit (visited ++ pairs) (pairs.foldl (addCandidate limit) candidates) later := by
  induction pairs generalizing visited candidates dropped with
  | nil =>
      rw [List.append_nil]
      exact ⟨dropped, selection⟩
  | cons pair pairs ih =>
      rcases selection_addCandidate selection positive pair with ⟨later, next⟩
      have shift : visited ++ pair :: pairs = visited ++ [pair] ++ pairs := by
        rw [List.append_assoc, List.singleton_append]
      rw [shift, List.foldl_cons]
      exact ih next

/-! ## Running alone -/

/-- The items that `Range` comes to when nobody else runs. -/
def visitedPairs (cache : Cache ι Value) (keys : List String) : List KeyExpPair :=
  keys.filterMap fun key => (cache.data.lookup key).map fun item => ⟨key, item.expiration⟩

theorem executes_collect {limit : Nat} {candidates result : List KeyExpPair} {keys : List String}
    (executes : Pool.Executes Accesses before
      (visitKeys (fun candidates key item => pure (addCandidate limit candidates ⟨key, item.expiration⟩))
        candidates keys : Procedure ι Value (List KeyExpPair)) result after) :
    after = before ∧ result = (visitedPairs before keys).foldl (addCandidate limit) candidates := by
  induction keys generalizing candidates with
  | nil => exact ⟨executes.2.symm, executes.1.symm⟩
  | cons key keys ih =>
      rcases executes with ⟨found, between, ⟨rfl, rfl⟩, executes⟩
      rw [visitedPairs, List.filterMap_cons]
      cases found : between.data.lookup key with
      | none =>
          rw [found] at executes
          exact ih executes
      | some item =>
          rw [found] at executes
          exact ih executes

theorem executes_deleteCandidates {count result : Nat} {candidates : List KeyExpPair}
    (executes : Pool.Executes Accesses before (deleteCandidates count candidates : Procedure ι Value Nat)
      result after) :
    result = count + candidates.length ∧ after.itemCount = before.itemCount ∧
      ∀ key, after.data.lookup key =
        if key ∈ candidates.map KeyExpPair.key then none else before.data.lookup key := by
  induction candidates generalizing count before with
  | nil =>
      rcases executes with ⟨rfl, rfl⟩
      exact ⟨rfl, rfl, fun key => (if_neg List.not_mem_nil).symm⟩
  | cons candidate candidates ih =>
      rcases executes with ⟨_, between, rfl, executes⟩
      rcases ih executes with ⟨counted, same, lookups⟩
      refine ⟨?_, same, ?_⟩
      · rw [counted, List.length_cons]
        omega
      · intro key
        rw [lookups, List.map_cons]
        by_cases rest : key ∈ candidates.map KeyExpPair.key
        · rw [if_pos rest, if_pos (List.mem_cons_of_mem _ rest)]
        · rw [if_neg rest]
          by_cases isKey : key = candidate.key
          · subst isKey
            rw [if_pos List.mem_cons_self]
            exact Finmap.lookup_erase _ _
          · have absent : key ∉ candidate.key :: candidates.map KeyExpPair.key := by
              rw [List.mem_cons, not_or]
              exact ⟨isKey, rest⟩
            rw [if_neg absent]
            exact Finmap.lookup_erase_ne isKey

/-! ## What is evicted -/

/-- The evicted keys are gone, and no other key has an item that expires
earlier. -/
structure EvictsOldest (number : Nat) (before after : Cache ι Value) (evicted : Finset String) : Prop where
  present : evicted ⊆ before.data.keys
  card : evicted.card = number
  kept : ∀ key, after.data.lookup key = if key ∈ evicted then none else before.data.lookup key
  oldest : ∀ key item other otherItem, key ∈ evicted -> before.data.lookup key = some item ->
    other ∉ evicted -> before.data.lookup other = some otherItem -> item.expiration ≤ otherItem.expiration

theorem map_key_visitedPairs (cache : Cache ι Value) (keys : List String) :
    (visitedPairs cache keys).map KeyExpPair.key = keys.filter fun key => (cache.data.lookup key).isSome := by
  induction keys with
  | nil => rfl
  | cons key keys ih =>
      rw [visitedPairs, List.filterMap_cons, List.filter_cons]
      cases cache.data.lookup key with
      | none => exact ih
      | some item => exact congrArg (List.cons key) ih

theorem mem_visitedPairs {cache : Cache ι Value} {keys : List String} {pair : KeyExpPair} :
    pair ∈ visitedPairs cache keys ↔ pair.key ∈ keys ∧
      Exists fun item => cache.data.lookup pair.key = some item ∧ item.expiration = pair.expiration := by
  rw [visitedPairs, List.mem_filterMap]
  constructor
  · rintro ⟨key, member, found⟩
    rcases Option.map_eq_some_iff.mp found with ⟨item, present, rfl⟩
    exact ⟨member, item, present, rfl⟩
  · rintro ⟨member, item, present, same⟩
    refine ⟨pair.key, member, ?_⟩
    rw [present, Option.map_some, same]

section Range

variable {keys : List String} (nodup : keys.Nodup) (complete : ∀ key, key ∈ before.data -> key ∈ keys)

include nodup in
theorem nodup_visitedPairs : ((visitedPairs before keys).map KeyExpPair.key).Nodup := by
  rw [map_key_visitedPairs]
  exact nodup.filter _

include complete in
theorem toFinset_visitedPairs : ((visitedPairs before keys).map KeyExpPair.key).toFinset = before.data.keys := by
  ext key
  rw [map_key_visitedPairs, List.mem_toFinset, List.mem_filter, Finmap.lookup_isSome, Finmap.mem_keys]
  exact and_iff_right_of_imp (complete key)

include nodup complete in
theorem length_visitedPairs : (visitedPairs before keys).length = before.keyCount := by
  rw [Cache.keyCount, ← toFinset_visitedPairs complete,
    List.toFinset_card_of_nodup (nodup_visitedPairs nodup), List.length_map]

include nodup complete in
/-- The candidates of a whole visit are the oldest items. -/
theorem evictsOldest_of_selection {limit : Nat} {candidates dropped : List KeyExpPair}
    (selection : Selection KeyExpPair.expiration limit (visitedPairs before keys) candidates dropped)
    (lookups : ∀ key, after.data.lookup key =
      if key ∈ candidates.map KeyExpPair.key then none else before.data.lookup key) :
    EvictsOldest (min limit before.keyCount) before after (candidates.map KeyExpPair.key).toFinset := by
  have all : ((candidates ++ dropped).map KeyExpPair.key).Nodup :=
    (selection.perm.map KeyExpPair.key).nodup_iff.mp (nodup_visitedPairs nodup)
  rw [List.map_append] at all
  have visited {pair : KeyExpPair} (member : pair ∈ visitedPairs before keys) :
      pair ∈ candidates ∨ pair ∈ dropped :=
    List.mem_append.mp (selection.perm.mem_iff.mp member)
  have here {pair : KeyExpPair} (member : pair ∈ candidates) : pair ∈ visitedPairs before keys :=
    selection.perm.mem_iff.mpr (List.mem_append_left _ member)
  constructor
  case present =>
    intro key member
    rw [← toFinset_visitedPairs complete]
    rw [List.mem_toFinset] at member ⊢
    rcases List.mem_map.mp member with ⟨pair, isCandidate, rfl⟩
    exact List.mem_map_of_mem (here isCandidate)
  case card =>
    rw [List.toFinset_card_of_nodup (List.nodup_append.mp all).1, List.length_map, selection.length_eq,
      length_visitedPairs nodup complete]
  case kept =>
    intro key
    rw [lookups]
    by_cases member : key ∈ candidates.map KeyExpPair.key
    · rw [if_pos member, if_pos (List.mem_toFinset.mpr member)]
    · rw [if_neg member, if_neg (fun isEvicted => member (List.mem_toFinset.mp isEvicted))]
  case oldest =>
    intro key item other otherItem isEvicted present isKept otherPresent
    rcases List.mem_map.mp (List.mem_toFinset.mp isEvicted) with ⟨pair, isCandidate, rfl⟩
    rcases (mem_visitedPairs.mp (here isCandidate)).2 with ⟨same, samePresent, expiration⟩
    rw [present] at samePresent
    cases samePresent
    have otherMember : ⟨other, otherItem.expiration⟩ ∈ visitedPairs before keys := by
      apply mem_visitedPairs.mpr
      exact ⟨complete other (Finmap.mem_of_lookup_eq_some otherPresent), otherItem, otherPresent, rfl⟩
    rcases visited otherMember with isOther | left
    · exact absurd (List.mem_toFinset.mpr (List.mem_map_of_mem isOther)) isKept
    · rw [expiration]
      exact selection.least pair isCandidate _ left

end Range

theorem threshold_pos (config : Config) : 0 < threshold config := by
  rw [threshold]
  omega

/-- As many items are evicted as the map has, or as may be evicted at once. -/
theorem cleanupOldest_evicts (exceeding : config.maxItems < before.itemCount)
    (executes : Pool.Executes Accesses before (cleanupOldest config) () after) :
    Exists fun evicted => EvictsOldest (min (threshold config) before.keyCount) before after evicted ∧
      after.itemCount = before.itemCount - evicted.card := by
  rcases executes with ⟨count, between, ⟨rfl, rfl⟩, evictions⟩
  change Pool.Executes Accesses between
    (if between.itemCount ≤ config.maxItems then pure () else evictOldest config) () after at evictions
  rw [if_neg (Int.not_le.mpr exceeding)] at evictions
  rcases evictions with ⟨keys, start, ⟨nodup, complete, rfl⟩, visits⟩
  rcases Pool.executes_bind.mp visits with ⟨candidates, visited, collects, deletions⟩
  rcases executes_collect collects with ⟨rfl, isFold⟩
  rcases Pool.executes_bind.mp deletions with ⟨deletedCount, deleted, deletes, subtracts⟩
  rcases executes_deleteCandidates deletes with ⟨counted, sameCount, lookups⟩
  rw [Nat.zero_add] at counted
  rcases selection_foldl selection_nil (threshold_pos config) (visitedPairs visited keys) with ⟨dropped, selection⟩
  rw [List.nil_append, ← isFold] at selection
  have evicts := evictsOldest_of_selection nodup complete selection lookups
  have number : (candidates.map KeyExpPair.key).toFinset.card = deletedCount := by
    rw [evicts.card, counted, selection.length_eq, length_visitedPairs nodup complete]
  by_cases some : 0 < deletedCount
  · rw [if_pos some] at subtracts
    rcases subtracts with ⟨_, subtracted, rfl, _, rfl⟩
    refine ⟨_, ⟨evicts.present, evicts.card, evicts.kept, evicts.oldest⟩, ?_⟩
    rw [number, ← sameCount]
    exact (Int.sub_eq_add_neg).symm
  · rw [if_neg some] at subtracts
    rcases subtracts with ⟨_, rfl⟩
    refine ⟨_, evicts, ?_⟩
    rw [number, sameCount, Nat.eq_zero_of_not_pos some]
    exact (Int.sub_zero _).symm

/-- Up to the limit, nothing is evicted. -/
theorem cleanupOldest_within (within : before.itemCount ≤ config.maxItems)
    (executes : Pool.Executes Accesses before (cleanupOldest config) () after) : after = before := by
  rcases executes with ⟨count, between, ⟨rfl, rfl⟩, evictions⟩
  change Pool.Executes Accesses between
    (if between.itemCount ≤ config.maxItems then pure () else evictOldest config) () after at evictions
  rw [if_pos within] at evictions
  exact evictions.2.symm

theorem EvictsOldest.keyCount_eq {number : Nat} {evicted : Finset String}
    (evicts : EvictsOldest number before after evicted) : after.keyCount + evicted.card = before.keyCount := by
  have keys : after.data.keys = before.data.keys \ evicted := by
    ext key
    rw [Finset.mem_sdiff, Finmap.mem_keys, Finmap.mem_keys, ← Finmap.lookup_isSome, ← Finmap.lookup_isSome,
      evicts.kept]
    by_cases member : key ∈ evicted
    · simp [member]
    · simp [member]
  rw [Cache.keyCount, keys]
  exact Finset.card_sdiff_add_card_eq_card evicts.present

/-- More keys than the limit are at least as many as are evicted at once. -/
theorem threshold_le (limited : 0 < config.maxItems) (exceeding : config.maxItems < before.itemCount)
    (sized : before.itemCount = before.keyCount) : threshold config ≤ before.keyCount := by
  have fifth : config.maxItems.tdiv 5 ≤ config.maxItems := by
    rw [Int.tdiv_eq_ediv_of_nonneg (Int.le_of_lt limited)]
    omega
  rw [threshold]
  omega

end MemoryCache
end Store
end Memos
