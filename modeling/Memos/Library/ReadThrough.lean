import Memos.Library.Interleaving

namespace Memos
namespace Library

/-!
# Caches beside a database

Programs read and write a cache and call a database.  A cache entry is right
when it agrees with the row of its key.  A program that has read a row may
still put it into the cache, so the row must not change in between, and whoever
changes a row still has to set or evict its entry.
-/

/-- What a program does.  A caller of `get` may change the object that it
obtains, which is the one in the cache.  The reply is the object as it was. -/
inductive CacheOperation (Key Value Statement : Type) where
  | get (key : Key) (change : Value -> Value)
  | set (key : Key) (value : Value)
  | evict (key : Key)
  | call (statement : Statement)

variable {Key Value Statement Db Row : Type}

/-- The replies of the operations. -/
def CacheReply (Value : Type) (Reply : Statement -> Type) :
    CacheOperation Key Value Statement -> Type
  | .get _ _ => Option Value
  | .set _ _ => Unit
  | .evict _ => Unit
  | .call statement => Reply statement

/-- A database with a cache. -/
structure Cached (Db Key Value : Type) where
  db : Db
  cache : Key -> Option Value

/-- Programs over a cache and a database. -/
abbrev CacheProgram (Key Value : Type) (Reply : Statement -> Type) (α : Type) : Type :=
  Program (CacheOperation Key Value Statement) (CacheReply Value Reply) α

variable [DecidableEq Key] {Reply : Statement -> Type}

/-- Operations on the cache do not touch the database, and the other way
round. -/
def CacheEffect (runs : Pool.Effect Db Statement Reply) :
    Pool.Effect (Cached Db Key Value) (CacheOperation Key Value Statement)
      (CacheReply Value Reply)
  | state, .get key change, reply, after =>
      reply = state.cache key ∧
        after = { state with cache := Function.update state.cache key ((state.cache key).map change) }
  | state, .set key value, _, after =>
      after = { state with cache := Function.update state.cache key (some value) }
  | state, .evict key, _, after =>
      after = { state with cache := Function.update state.cache key none }
  | state, .call statement, reply, after =>
      after.cache = state.cache ∧ runs state.db statement reply after.db

/-- An entry expires or is cleaned up. -/
def Expires (state after : Cached Db Key Value) : Prop :=
  Exists fun key => after = { state with cache := Function.update state.cache key none }

section Obligations

variable {α : Type}

/-- Before its next call the program puts this value into the cache. -/
def Stores (key : Key) (value : Value) : CacheProgram Key Value Reply α -> Prop
  | .done _ => False
  | .perform (.get _ _) _ => False
  | .perform (.set other stored) next => (other = key ∧ stored = value) ∨ Stores key value (next ())
  | .perform (.evict _) next => Stores key value (next ())
  | .perform (.call _) _ => False

/-- Before its next call the program sets or evicts this entry. -/
def Settles (key : Key) : CacheProgram Key Value Reply α -> Prop
  | .done _ => False
  | .perform (.get _ _) _ => False
  | .perform (.set other _) next => other = key ∨ Settles key (next ())
  | .perform (.evict other) next => other = key ∨ Settles key (next ())
  | .perform (.call _) _ => False

variable (view : Db -> Key -> Row) (agrees : Row -> Value -> Prop) (excused : Statement -> Prop)

/-- What the program is about to put into the cache is right. -/
def Backed (db : Db) (program : CacheProgram Key Value Reply α) : Prop :=
  ∀ key value, Stores key value program -> agrees (view db key) value

/-- What the program puts into the cache is right at the time it learns it: a
row at the call that read it, an entry at the `get` that found it.  After a
call it settles the rows that changed, unless the call is excused. -/
def Attentive (runs : Pool.Effect Db Statement Reply) : CacheProgram Key Value Reply α -> Prop
  | .done _ => True
  | .perform (.get key change) next =>
      (∀ row value, agrees row value -> agrees row (change value)) ∧
      ∀ reply : Option Value, Attentive runs (next reply) ∧
        ∀ db, (∀ value, reply = some value -> agrees (view db key) value) ->
          Backed view agrees db (next reply)
  | .perform (.set _ _) next => Attentive runs (next ())
  | .perform (.evict _) next => Attentive runs (next ())
  | .perform (.call statement) next =>
      ∀ db reply after, runs db statement reply after ->
        Backed view agrees after (next reply) ∧ Attentive runs (next reply) ∧
          ∀ key, view db key ≠ view after key ->
            excused statement ∨ Settles key (next reply)

/-- A program in this state of the database keeps its obligations. -/
structure Fits (runs : Pool.Effect Db Statement Reply) (db : Db)
    (program : CacheProgram Key Value Reply α) : Prop where
  backed : Backed view agrees db program
  attentive : Attentive view agrees excused runs program

end Obligations

section Rules

variable {α β : Type} {view : Db -> Key -> Row} {agrees : Row -> Value -> Prop}
  {excused : Statement -> Prop} {runs : Pool.Effect Db Statement Reply} {db : Db}

omit [DecidableEq Key]

theorem Settles.bind {key : Key} {program : CacheProgram Key Value Reply α}
    {next : α -> CacheProgram Key Value Reply β} (settles : Settles key program) :
    Settles key (program >>= next) := by
  induction program with
  | done result => exact absurd settles id
  | perform operation rest ih =>
      cases operation with
      | get other change => exact absurd settles id
      | call statement => exact absurd settles id
      | set other value =>
          rcases settles with same | later
          · exact .inl same
          · exact .inr (ih () later)
      | evict other =>
          rcases settles with same | later
          · exact .inl same
          · exact .inr (ih () later)

theorem Fits.done (result : α) :
    Fits view agrees excused runs db (.done result : CacheProgram Key Value Reply α) where
  backed := fun _ _ impossible => absurd impossible id
  attentive := trivial

theorem Fits.set {key : Key} {value : Value} {next : Unit -> CacheProgram Key Value Reply α}
    (right : agrees (view db key) value) (continues : Fits view agrees excused runs db (next ())) :
    Fits view agrees excused runs db (.perform (.set key value) next) where
  backed := by
    rintro other stored (⟨rfl, rfl⟩ | later)
    · exact right
    · exact continues.backed other stored later
  attentive := continues.attentive

theorem Fits.evict {key : Key} {next : Unit -> CacheProgram Key Value Reply α}
    (continues : Fits view agrees excused runs db (next ())) :
    Fits view agrees excused runs db (.perform (.evict key) next) where
  backed := continues.backed
  attentive := continues.attentive

theorem Fits.get {key : Key} {change : Value -> Value} {next : Option Value -> CacheProgram Key Value Reply α}
    (changes : ∀ row value, agrees row value -> agrees row (change value))
    (attentive : ∀ reply, Attentive view agrees excused runs (next reply))
    (backed : ∀ reply db, (∀ value, reply = some value -> agrees (view db key) value) ->
      Backed view agrees db (next reply)) :
    Fits view agrees excused runs db (.perform (.get key change) next) where
  backed := fun _ _ impossible => absurd impossible id
  attentive := ⟨changes, fun reply => ⟨attentive reply, backed reply⟩⟩

/-- A `get` whose entry is not stored again. -/
theorem Fits.get_of_forall {key : Key} {change : Value -> Value}
    {next : Option Value -> CacheProgram Key Value Reply α}
    (changes : ∀ row value, agrees row value -> agrees row (change value))
    (continues : ∀ db reply, Fits view agrees excused runs db (next reply)) :
    Fits view agrees excused runs db (.perform (.get key change) next) :=
  Fits.get changes (fun reply => (continues db reply).attentive)
    fun reply db _ => (continues db reply).backed

theorem Fits.call {statement : Statement} {next : Reply statement -> CacheProgram Key Value Reply α}
    (continues : ∀ before reply after, runs before statement reply after ->
      Fits view agrees excused runs after (next reply) ∧
        ∀ key, view before key ≠ view after key ->
          excused statement ∨ Settles key (next reply)) :
    Fits view agrees excused runs db (.perform (.call statement) next) where
  backed := fun _ _ impossible => absurd impossible id
  attentive := by
    intro before reply after ran
    rcases continues before reply after ran with ⟨fits, settles⟩
    exact ⟨fits.backed, fits.attentive, settles⟩

end Rules

section Coherence

variable {ι α : Type} [DecidableEq ι]

/-- Programs over a cache. -/
abbrev CachePool (ι Db Key Value : Type) (Reply : Statement -> Type) (α : Type) : Type :=
  Pool (Cached Db Key Value) ι (CacheOperation Key Value Statement) (CacheReply Value Reply) α

variable (view : Db -> Key -> Row) (agrees : Row -> Value -> Prop) (excused : Statement -> Prop)

/-- The steps after which a wrong entry still has somebody to settle it.  A value
goes into the cache while its row is the one that it was read from, or while an
operation that changed the row has still to settle the entry.  An excused call
changes the row of a key that is not cached or that is going to be settled. -/
def Timely (pool : CachePool ι Db Key Value Reply α) (index : ι) :
    (operation : CacheOperation Key Value Statement) -> CacheReply Value Reply operation ->
      Cached Db Key Value -> Prop
  | .get _ _, _, _ => True
  | .set key value, _, _ =>
      ∀ next, pool.programs index = .perform (.set key value) next ->
        agrees (view pool.shared.db key) value ∨ Settles key (next ()) ∨
          Exists fun other => other ≠ index ∧ Settles key (pool.programs other)
  | .evict _, _, _ => True
  | .call statement, reply, after =>
      ∀ next, pool.programs index = .perform (.call statement) next -> excused statement ->
        ∀ key, view pool.shared.db key ≠ view after.db key ->
          pool.shared.cache key = none ∨ Settles key (next reply) ∨
            Exists fun other => other ≠ index ∧ Settles key (pool.programs other)

/-- The schedules without a race.  A call changes the row of a key only while
no other program holds a value for the cache under that key, and an excused
call only where its program settles the entry.  An entry that is going to be
stored again is read only while no other program has to settle it. -/
def Orderly (pool : CachePool ι Db Key Value Reply α) (index : ι) :
    (operation : CacheOperation Key Value Statement) -> CacheReply Value Reply operation ->
      Cached Db Key Value -> Prop
  | .get key change, reply, _ =>
      ∀ next, pool.programs index = .perform (.get key change) next ->
        (Exists fun stored => Exists fun value => Stores stored value (next reply)) ->
        ∀ other, other ≠ index -> ¬ Settles key (pool.programs other)
  | .set _ _, _, _ => True
  | .evict _, _, _ => True
  | .call statement, reply, after =>
      ∀ next, pool.programs index = .perform (.call statement) next ->
        ∀ key, view pool.shared.db key ≠ view after.db key ->
          (excused statement -> Settles key (next reply)) ∧
          ∀ other, other ≠ index -> ∀ value, ¬ Stores key value (pool.programs other)

/-- Every entry is right or about to be settled. -/
structure Coherence (runs : Pool.Effect Db Statement Reply)
    (pool : CachePool ι Db Key Value Reply α) : Prop where
  attentive : ∀ index, Attentive view agrees excused runs (pool.programs index)
  entry : ∀ key value, pool.shared.cache key = some value ->
    agrees (view pool.shared.db key) value ∨
      Exists fun index => Settles key (pool.programs index)

variable {view agrees excused} {runs : Pool.Effect Db Statement Reply}
  {pool after : CachePool ι Db Key Value Reply α}

omit [DecidableEq Key] [DecidableEq ι] in
/-- Entries that nobody has to settle are right. -/
theorem Coherence.right (coherence : Coherence view agrees excused runs pool) {key : Key}
    {value : Value} (cached : pool.shared.cache key = some value)
    (settled : ∀ index, ¬ Settles key (pool.programs index)) :
    agrees (view pool.shared.db key) value := by
  rcases coherence.entry key value cached with right | ⟨index, settles⟩
  · exact right
  · exact absurd settles (settled index)

section Programs

omit [DecidableEq Key]

variable {programs : ι -> CacheProgram Key Value Reply α} {index : ι}
  {program : CacheProgram Key Value Reply α}

theorem forall_update {property : CacheProgram Key Value Reply α -> Prop}
    (ofIndex : property program) (others : ∀ other, property (programs other)) :
    ∀ other, property (Function.update programs index program other) := by
  intro other
  by_cases same : other = index
  · rw [same, Function.update_self]
    exact ofIndex
  · rw [Function.update_of_ne same]
    exact others other

/-- An obligation of the program that made the step, or of another one. -/
theorem settles_update_of {key : Key} (settles : Settles key program ∨
      Exists fun other => other ≠ index ∧ Settles key (programs other)) :
    Exists fun other => Settles key (Function.update programs index program other) := by
  rcases settles with own | ⟨other, different, settles⟩
  · refine ⟨index, ?_⟩
    rw [Function.update_self]
    exact own
  · refine ⟨other, ?_⟩
    rw [Function.update_of_ne different]
    exact settles

/-- An obligation that the step does not discharge is still there. -/
theorem settles_update {key : Key} (settles : Exists fun other => Settles key (programs other))
    (kept : Settles key (programs index) -> Settles key program) :
    Exists fun other => Settles key (Function.update programs index program other) := by
  rcases settles with ⟨other, settles⟩
  apply settles_update_of
  by_cases same : other = index
  · rw [same] at settles
    exact .inl (kept settles)
  · exact .inr ⟨other, same, settles⟩

end Programs

/-- An entry after an update of the cache is the new one or an old one. -/
theorem update_eq_some {cache : Key -> Option Value} {updated key : Key} {entry : Option Value}
    {value : Value} (cached : Function.update cache updated entry key = some value) :
    (key = updated ∧ entry = some value) ∨ (key ≠ updated ∧ cache key = some value) := by
  by_cases same : key = updated
  · rw [same, Function.update_self] at cached
    exact .inl ⟨same, cached⟩
  · rw [Function.update_of_ne same] at cached
    exact .inr ⟨same, cached⟩

omit [DecidableEq ι] in
theorem Coherence.expires (coherence : Coherence view agrees excused runs pool)
    {state : Cached Db Key Value} (change : Expires pool.shared state) :
    Coherence view agrees excused runs ⟨state, pool.programs⟩ := by
  rcases change with ⟨expired, rfl⟩
  refine ⟨coherence.attentive, ?_⟩
  intro key value cached
  rcases update_eq_some cached with ⟨_, impossible⟩ | ⟨_, old⟩
  · cases impossible
  · exact coherence.entry key value old

section Operation

variable {index : ι} {state : Cached Db Key Value}

theorem Coherence.set (coherence : Coherence view agrees excused runs pool) {key : Key}
    {value : Value} {next : Unit -> CacheProgram Key Value Reply α}
    (current : pool.programs index = .perform (.set key value) next)
    (timely : agrees (view pool.shared.db key) value ∨ Settles key (next ()) ∨
      Exists fun other => other ≠ index ∧ Settles key (pool.programs other)) :
    Coherence view agrees excused runs
      ⟨{ pool.shared with cache := Function.update pool.shared.cache key (some value) },
        Function.update pool.programs index (next ())⟩ := by
  have attentive := coherence.attentive index
  rw [current] at attentive
  refine ⟨forall_update attentive coherence.attentive, ?_⟩
  intro other entry cached
  rcases update_eq_some cached with ⟨rfl, same⟩ | ⟨different, old⟩
  · cases same
    rcases timely with right | settles
    · exact .inl right
    · exact .inr (settles_update_of settles)
  · rcases coherence.entry other entry old with right | settles
    · exact .inl right
    · refine .inr (settles_update settles ?_)
      rw [current]
      rintro (same | later)
      · exact absurd same.symm different
      · exact later

theorem Coherence.evict (coherence : Coherence view agrees excused runs pool) {key : Key}
    {next : Unit -> CacheProgram Key Value Reply α}
    (current : pool.programs index = .perform (.evict key) next) :
    Coherence view agrees excused runs
      ⟨{ pool.shared with cache := Function.update pool.shared.cache key none },
        Function.update pool.programs index (next ())⟩ := by
  have attentive := coherence.attentive index
  rw [current] at attentive
  refine ⟨forall_update attentive coherence.attentive, ?_⟩
  intro other entry cached
  rcases update_eq_some cached with ⟨_, impossible⟩ | ⟨different, old⟩
  · cases impossible
  · rcases coherence.entry other entry old with right | settles
    · exact .inl right
    · refine .inr (settles_update settles ?_)
      rw [current]
      rintro (same | later)
      · exact absurd same.symm different
      · exact later

theorem Coherence.get (coherence : Coherence view agrees excused runs pool) {key : Key}
    {change : Value -> Value} {next : Option Value -> CacheProgram Key Value Reply α}
    (current : pool.programs index = .perform (.get key change) next) :
    Coherence view agrees excused runs
      ⟨{ pool.shared with
          cache := Function.update pool.shared.cache key ((pool.shared.cache key).map change) },
        Function.update pool.programs index (next (pool.shared.cache key))⟩ := by
  have attentive := coherence.attentive index
  rw [current] at attentive
  rcases attentive with ⟨changes, attentive⟩
  refine ⟨forall_update (attentive _).1 coherence.attentive, ?_⟩
  intro other entry cached
  have kept : (Exists fun settling => Settles other (pool.programs settling)) ->
      Exists fun settling => Settles other (Function.update pool.programs index
        (next (pool.shared.cache key)) settling) := by
    intro settles
    refine settles_update settles ?_
    rw [current]
    exact fun impossible => absurd impossible id
  rcases update_eq_some cached with ⟨rfl, hit⟩ | ⟨_, old⟩
  · rcases Option.map_eq_some_iff.mp hit with ⟨before, found, rfl⟩
    rcases coherence.entry _ before found with right | settles
    · exact .inl (changes _ _ right)
    · exact .inr (kept settles)
  · rcases coherence.entry other entry old with right | settles
    · exact .inl right
    · exact .inr (kept settles)

omit [DecidableEq Key] in
theorem Coherence.call (coherence : Coherence view agrees excused runs pool) {statement : Statement}
    {reply : Reply statement} {next : Reply statement -> CacheProgram Key Value Reply α}
    (current : pool.programs index = .perform (.call statement) next)
    (cacheKept : state.cache = pool.shared.cache) (ran : runs pool.shared.db statement reply state.db)
    (timely : excused statement -> ∀ key, view pool.shared.db key ≠ view state.db key ->
      pool.shared.cache key = none ∨ Settles key (next reply) ∨
        Exists fun other => other ≠ index ∧ Settles key (pool.programs other)) :
    Coherence view agrees excused runs ⟨state, Function.update pool.programs index (next reply)⟩ := by
  have attentive := coherence.attentive index
  rw [current] at attentive
  rcases attentive _ _ _ ran with ⟨_, continued, settled⟩
  refine ⟨forall_update continued coherence.attentive, ?_⟩
  intro key value cached
  rw [cacheKept] at cached
  by_cases unchanged : view pool.shared.db key = view state.db key
  · rw [← unchanged]
    rcases coherence.entry key value cached with right | settles
    · exact .inl right
    · refine .inr (settles_update settles fun impossible => ?_)
      rw [current] at impossible
      exact absurd impossible id
  · refine .inr (settles_update_of ?_)
    rcases settled key unchanged with excuse | settles
    · rcases timely excuse key unchanged with absent | settles
      · rw [absent] at cached
        cases cached
      · exact settles
    · exact .inl settles

end Operation

/-- One timely step. -/
theorem Coherence.step (coherence : Coherence view agrees excused runs pool)
    (step : Pool.Step (CacheEffect runs) Expires (Timely view agrees excused) pool after) :
    Coherence view agrees excused runs after := by
  cases step with
  | background change => exact coherence.expires change
  | operation index current effective allowed =>
      rename_i operation next reply state
      cases operation with
      | get key change =>
          rcases effective with ⟨rfl, rfl⟩
          exact coherence.get current
      | set key value =>
          cases effective
          exact coherence.set current (allowed next current)
      | evict key =>
          cases effective
          exact coherence.evict current
      | call statement =>
          exact coherence.call current effective.1 effective.2 (allowed next current)

/-- Along a timely run of attentive programs, every entry that nobody has to
settle is right. -/
theorem coherent_of_run {start last : CachePool ι Db Key Value Reply α}
    (coherence : Coherence view agrees excused runs start)
    (run : Pool.Run (CacheEffect runs) Expires (Timely view agrees excused) start last) :
    Coherence view agrees excused runs last :=
  run.induction coherence fun _ _ holds step => holds.step step

/-! ## Orderly runs are timely -/

/-- Every program of a pool keeps its obligations. -/
def Fitting (view : Db -> Key -> Row) (agrees : Row -> Value -> Prop) (excused : Statement -> Prop)
    (runs : Pool.Effect Db Statement Reply) (pool : CachePool ι Db Key Value Reply α) : Prop :=
  ∀ index, Fits view agrees excused runs pool.shared.db (pool.programs index)

/-- An orderly step of programs that keep their obligations. -/
theorem Coherence.orderly (coherence : Coherence view agrees excused runs pool)
    (fitting : Fitting view agrees excused runs pool)
    (step : Pool.Step (CacheEffect runs) Expires (Orderly view excused) pool after) :
    Pool.Step (CacheEffect runs) Expires (Timely view agrees excused) pool after ∧
      Fitting view agrees excused runs after := by
  cases step with
  | background change =>
      refine ⟨.background change, ?_⟩
      rcases change with ⟨expired, rfl⟩
      exact fitting
  | operation index current effective allowed =>
      rename_i operation next reply state
      have fits := fitting index
      rw [current] at fits
      rcases fits with ⟨backed, attentive⟩
      cases operation with
      | get key change =>
          refine ⟨.operation index current effective trivial, ?_⟩
          rcases effective with ⟨rfl, rfl⟩
          rcases attentive with ⟨_, attentive⟩
          rcases attentive (pool.shared.cache key) with ⟨continued, kept⟩
          refine forall_update ⟨?_, continued⟩ fitting
          -- Only a value that is stored again has to be right.
          intro stored value stores
          refine kept pool.shared.db ?_ stored value stores
          intro found cached
          refine coherence.right cached ?_
          intro other
          by_cases same : other = index
          · rw [same, current]
            exact id
          · exact allowed next current ⟨stored, value, stores⟩ other same
      | set key value =>
          constructor
          · refine .operation index current effective fun rest same => .inl ?_
            exact backed key value (.inl ⟨rfl, rfl⟩)
          · cases effective
            refine forall_update ⟨?_, attentive⟩ fitting
            exact fun stored later stores => backed stored later (.inr stores)
      | evict key =>
          refine ⟨.operation index current effective trivial, ?_⟩
          cases effective
          exact forall_update ⟨backed, attentive⟩ fitting
      | call statement =>
          rcases attentive _ _ _ effective.2 with ⟨continuedBacked, continued, _⟩
          constructor
          · refine .operation index current effective fun rest same excuse key changed => ?_
            exact .inr (.inl ((allowed rest same key changed).1 excuse))
          · intro other
            dsimp only
            by_cases same : other = index
            · rw [same, Function.update_self]
              exact ⟨continuedBacked, continued⟩
            · rw [Function.update_of_ne same]
              refine ⟨?_, (fitting other).attentive⟩
              intro key value stores
              by_cases unchanged : view pool.shared.db key = view state.db key
              · rw [← unchanged]
                exact (fitting other).backed key value stores
              · exact absurd stores ((allowed next current key unchanged).2 other same value)

/-- An orderly run from a coherent pool is timely. -/
theorem timely_of_orderly {start last : CachePool ι Db Key Value Reply α}
    (coherence : Coherence view agrees excused runs start) (fitting : Fitting view agrees excused runs start)
    (run : Pool.Run (CacheEffect runs) Expires (Orderly view excused) start last) :
    Pool.Run (CacheEffect runs) Expires (Timely view agrees excused) start last := by
  have both : Pool.Run (CacheEffect runs) Expires (Timely view agrees excused) start last ∧
      Coherence view agrees excused runs last ∧ Fitting view agrees excused runs last := by
    induction run with
    | refl => exact ⟨.refl, coherence, fitting⟩
    | tail _ step ih =>
        rcases ih with ⟨reached, holds, fits⟩
        rcases holds.orderly fits step with ⟨timely, kept⟩
        exact ⟨reached.tail timely, holds.step timely, kept⟩
  exact both.1

end Coherence

end Library
end Memos
