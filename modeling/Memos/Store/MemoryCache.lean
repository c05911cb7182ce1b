import Mathlib.Data.Finmap
import Memos.Library.Interleaving

namespace Memos
namespace Store
namespace MemoryCache

open Library

/-!
# The memory cache

A `sync.Map` holds the items and an atomic counter their number.  The operations
of the cache are programs whose steps are the accesses to the map, to the counter
and to the clock; a call makes a first step of its own when it starts.  The cache
has no callback for evicted items, as in the store.
-/

/-! ## Accesses -/

/-- An item, with the call that has stored it. -/
structure Item (ι Value : Type) where
  value : Value
  expiration : Int
  setter : ι

/-- The accesses of a call.  `Range` first fixes the keys that it will visit. -/
inductive Operation (ι Value : Type) where
  | invoke
  | load (key : String)
  | delete (key : String)
  | loadAndDelete (key : String)
  | store (key : String) (item : Item ι Value)
  | range
  | now
  | addCount (change : Int)
  | loadCount
  | storeCount (count : Int)

variable {ι Value : Type}

abbrev Operation.Reply : Operation ι Value -> Type
  | .invoke => Unit
  | .load _ => Option (Item ι Value)
  | .delete _ => Unit
  | .loadAndDelete _ => Option (Item ι Value)
  | .store _ _ => Unit
  | .range => List String
  | .now => Int
  | .addCount _ => Unit
  | .loadCount => Int
  | .storeCount _ => Unit

structure Cache (ι Value : Type) where
  data : Finmap fun _ : String => Item ι Value
  itemCount : Int
  clock : Int

/-- The number of keys that are present. -/
def Cache.keyCount (cache : Cache ι Value) : Nat := cache.data.keys.card

/-- What an access does.  `Range` visits no key twice and every key that is
present; it may come to others as well. -/
def Accesses (before : Cache ι Value) :
    (operation : Operation ι Value) -> operation.Reply -> Cache ι Value -> Prop
  | .invoke, _, after => after = before
  | .load key, found, after => found = before.data.lookup key ∧ after = before
  | .delete key, _, after => after = { before with data := before.data.erase key }
  | .loadAndDelete key, found, after =>
      found = before.data.lookup key ∧ after = { before with data := before.data.erase key }
  | .store key item, _, after => after = { before with data := before.data.insert key item }
  | .range, keys, after => keys.Nodup ∧ (∀ key, key ∈ before.data -> key ∈ keys) ∧ after = before
  | .now, time, after => time = before.clock ∧ after = before
  | .addCount change, _, after => after = { before with itemCount := before.itemCount + change }
  | .loadCount, count, after => count = before.itemCount ∧ after = before
  | .storeCount count, _, after => after = { before with itemCount := count }

/-- Time passes. -/
def Ticks (before after : Cache ι Value) : Prop :=
  Exists fun later => before.clock ≤ later ∧ after = { before with clock := later }

/-! ## Procedures -/

abbrev Procedure (ι Value α : Type) : Type := Program (Operation ι Value) Operation.Reply α

def dataLoad (key : String) : Procedure ι Value (Option (Item ι Value)) := .perform (.load key) .done

def dataDelete (key : String) : Procedure ι Value Unit := .perform (.delete key) .done

def dataLoadAndDelete (key : String) : Procedure ι Value (Option (Item ι Value)) :=
  .perform (.loadAndDelete key) .done

def dataStore (key : String) (item : Item ι Value) : Procedure ι Value Unit :=
  .perform (.store key item) .done

def timeNow : Procedure ι Value Int := .perform .now .done

def itemCountAdd (change : Int) : Procedure ι Value Unit := .perform (.addCount change) .done

def itemCountLoad : Procedure ι Value Int := .perform .loadCount .done

def itemCountStore (count : Int) : Procedure ι Value Unit := .perform (.storeCount count) .done

/-- The callback of `Range` runs for the keys that are still there. -/
def visitKeys {α : Type} (visit : α -> String -> Item ι Value -> Procedure ι Value α) :
    α -> List String -> Procedure ι Value α
  | state, [] => pure state
  | state, key :: keys => do
      match ← dataLoad key with
      | none => visitKeys visit state keys
      | some item => do
          let next ← visit state key item
          visitKeys visit next keys

def dataRange {α : Type} (visit : α -> String -> Item ι Value -> Procedure ι Value α) (state : α) :
    Procedure ι Value α :=
  .perform .range fun keys => visitKeys visit state keys

structure Config where
  defaultTTL : Int
  maxItems : Int

/-! ## The oldest items -/

/-- `keyExpPair` -/
structure KeyExpPair where
  key : String
  expiration : Int

/-- How many items are evicted at once. -/
def threshold (config : Config) : Nat := (max (config.maxItems.tdiv 5) 1).toNat

/-- The position of the first candidate that expires last, among those from a
position on and the one found so far. -/
def newestIdx (newest : Nat) (expiration : Int) (position : Nat) : List KeyExpPair -> Nat
  | [] => newest
  | candidate :: candidates =>
      if expiration < candidate.expiration then
        newestIdx position candidate.expiration (position + 1) candidates
      else newestIdx newest expiration (position + 1) candidates

/-- The callback of `Range` in `cleanupOldest`. -/
def addCandidate (threshold : Nat) (candidates : List KeyExpPair) (pair : KeyExpPair) : List KeyExpPair :=
  if candidates.length < threshold then candidates ++ [pair]
  else
    match candidates with
    | [] => []
    | first :: rest =>
        let position := newestIdx 0 first.expiration 1 rest
        match candidates[position]? with
        | none => candidates
        | some newest =>
            if pair.expiration < newest.expiration then candidates.set position pair else candidates

def deleteCandidates : Nat -> List KeyExpPair -> Procedure ι Value Nat
  | deletedCount, [] => pure deletedCount
  | deletedCount, candidate :: candidates => do
      dataDelete candidate.key
      deleteCandidates (deletedCount + 1) candidates

/-- `cleanupOldest` when there are too many items. -/
def evictOldest (config : Config) : Procedure ι Value Unit := do
  let candidates ← dataRange
    (fun candidates key item => pure (addCandidate (threshold config) candidates ⟨key, item.expiration⟩)) []
  let deletedCount ← deleteCandidates 0 candidates
  if 0 < deletedCount then itemCountAdd (-deletedCount) else pure ()

def cleanupOldest (config : Config) : Procedure ι Value Unit := do
  let currentCount ← itemCountLoad
  if currentCount ≤ config.maxItems then pure () else evictOldest config

/-! ## The operations -/

/-- The check of `SetWithTTL` whether the key is new. -/
def countKey (key : String) : Procedure ι Value Unit := do
  match ← dataLoad key with
  | some _ => dataDelete key
  | none => itemCountAdd 1

/-- The check of `SetWithTTL` whether there are too many items. -/
def checkLimit (config : Config) : Procedure ι Value Unit :=
  if 0 < config.maxItems then do
    let count ← itemCountLoad
    if config.maxItems < count then cleanupOldest config else pure ()
  else pure ()

def setWithTTL (config : Config) (self : ι) (key : String) (value : Value) (ttl : Int) :
    Procedure ι Value Unit := do
  countKey key
  let now ← timeNow
  dataStore key ⟨value, now + ttl, self⟩
  checkLimit config

def get (key : String) : Procedure ι Value (Option Value) := do
  match ← dataLoad key with
  | none => pure none
  | some item => do
      let now ← timeNow
      if item.expiration < now then do
        dataDelete key
        itemCountAdd (-1)
        pure none
      else pure (some item.value)

def delete (key : String) : Procedure ι Value Unit := do
  match ← dataLoadAndDelete key with
  | some _ => itemCountAdd (-1)
  | none => pure ()

def clear : Procedure ι Value Unit := do
  let _ ← dataRange (fun (count : Nat) key _ => do
    dataDelete key
    pure (count + 1)) 0
  itemCountStore 0

def size : Procedure ι Value Int := itemCountLoad

def cleanup : Procedure ι Value Unit := do
  let count ← dataRange (fun (count : Nat) key item => do
    let now ← timeNow
    if item.expiration < now then do
      dataDelete key
      pure (count + 1)
    else pure count) 0
  if 0 < count then itemCountAdd (-count) else pure ()

/-! ## Calls -/

/-- The calls that are made, those of the cleanup loop among them. -/
inductive Call (Value : Type) where
  | set (key : String) (value : Value)
  | setWithTTL (key : String) (value : Value) (ttl : Int)
  | get (key : String)
  | delete (key : String)
  | clear
  | size
  | cleanup
  | cleanupOldest
deriving DecidableEq

inductive Result (Value : Type) where
  | finished
  | found (value : Option Value)
  | counted (count : Int)

/-- The accesses of a call after its start. -/
def body (config : Config) (self : ι) : Call Value -> Procedure ι Value (Result Value)
  | .set key value => do
      setWithTTL config self key value config.defaultTTL
      pure .finished
  | .setWithTTL key value ttl => do
      setWithTTL config self key value ttl
      pure .finished
  | .get key => do
      let value ← get key
      pure (.found value)
  | .delete key => do
      delete key
      pure .finished
  | .clear => do
      clear
      pure .finished
  | .size => do
      let count ← size
      pure (.counted count)
  | .cleanup => do
      cleanup
      pure .finished
  | .cleanupOldest => do
      cleanupOldest config
      pure .finished

def program (config : Config) (self : ι) (call : Call Value) : Procedure ι Value (Result Value) :=
  .perform .invoke fun _ => body config self call

abbrev CachePool (ι Value : Type) : Type :=
  Pool (Cache ι Value) ι (Operation ι Value) Operation.Reply (Result Value)

/-- A new cache, before the first call. -/
def start (config : Config) (clock : Int) (calls : ι -> Call Value) : CachePool ι Value where
  shared := ⟨∅, 0, clock⟩
  programs := fun index => program config index (calls index)

/-- No operation is in flight: each has returned or has not started. -/
def Idle (config : Config) (calls : ι -> Call Value) (pool : CachePool ι Value) : Prop :=
  ∀ index, (Exists fun result => pool.programs index = .done result) ∨
    pool.programs index = program config index (calls index)

end MemoryCache
end Store
end Memos
