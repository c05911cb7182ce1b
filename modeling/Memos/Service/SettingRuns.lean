import Memos.Service.Shortcuts
import Memos.Store.Coherence

namespace Memos
namespace Service

open Library Store Store.Caching

/-!
# Runs of changes of settings

Operations on the lists of users run beside each other.  Each obtains its
setting, computes a new one and upserts it.  The stored settings are those of a
serial execution, in the order of the upserts, when every operation upserts
what it makes of the setting that is stored at that moment.

A step is one call of the cache or of the driver; the new list is made and
encoded within the step before its upsert.  In the source two appends to the
slice of one cached setting can write the same element, so these runs do not
have the schedules with an append between the append of another operation and
its encoding.
-/

variable {ι : Type} (backend : ShortcutBackend)

/-- The operations that run over the tables and the caches. -/
abbrev ListPool (ι : Type) : Type :=
  CachePool ι AccountTables CacheKey CachedValue Caching.Statement.Reply (Except String Unit)

/-! ## Before and after the upsert -/

/-- The upsert is done and the operation is going to succeed. -/
def Written : StoreProgram (Except String Unit) -> Prop
  | .done result => result = .ok ()
  | .perform (.set _ _) next => Written (next ())
  | .perform _ _ => False

/-- The operation succeeds only through an upsert that it has still to make. -/
def Pending : StoreProgram (Except String Unit) -> Prop
  | .done result => result ≠ .ok ()
  | .perform (.get _ _) next => forall reply, Pending (next reply)
  | .perform (.set _ _) next => Pending (next ())
  | .perform (.evict _) next => Pending (next ())
  | .perform (.call (.listUserSettings _)) next => forall reply, Pending (next reply)
  | .perform (.call (.upsertUserSetting raw)) next =>
      Written (next (.ok raw)) ∧ forall cause, Pending (next (.error cause))
  | .perform (.call _) _ => False

section Programs

variable {α : Type} {codecs : SettingCodecs}

theorem pending_cacheUserSettings {list : List RawUserSetting}
    {next : Except String (List UserSettingMessage) -> StoreProgram (Except String Unit)}
    (continues : forall reply, Pending (next reply)) :
    Pending (cacheUserSettings codecs list >>= next) := by
  induction list generalizing next with
  | nil => exact continues _
  | cons raw rest ih =>
      cases converted : convertUserSettingFromRaw codecs raw with
      | error cause =>
          rw [cacheUserSettings_error converted]
          exact continues _
      | ok found =>
          cases found with
          | none =>
              rw [cacheUserSettings_none converted]
              exact ih continues
          | some setting =>
              rw [cacheUserSettings_some converted, Program.bind_assoc]
              change Pending ((cacheUserSettings codecs rest >>= _) >>= next)
              rw [Program.bind_assoc]
              apply ih
              intro reply
              cases reply <;> exact continues _

theorem pending_listUserSettings {find : FindUserSetting}
    {next : Except String (List UserSettingMessage) -> StoreProgram (Except String Unit)}
    (continues : forall reply, Pending (next reply)) :
    Pending (listUserSettings codecs find >>= next) := by
  intro reply
  cases reply with
  | error cause => exact continues _
  | ok list => exact pending_cacheUserSettings continues

theorem pending_obtain {change : SettingChange}
    {next : Except String (Option UserSettingMessage) -> StoreProgram (Except String Unit)}
    (continues : forall reply, Pending (next reply)) :
    Pending (change.obtain codecs >>= next) := by
  have missed : Pending (change.obtainFromList codecs >>= next) := by
    unfold SettingChange.obtainFromList
    rw [Program.bind_assoc]
    apply pending_listUserSettings
    intro reply
    rcases reply with cause | _ | ⟨setting, _ | ⟨second, rest⟩⟩ <;> exact continues _
  intro reply
  rcases reply with _ | user | setting | setting
  · exact missed
  · exact missed
  · exact continues _
  · exact missed

/-- What an operation does with an upsert that it has computed. -/
theorem pending_write (change : SettingChange) (found : Option UserSettingMessage) :
    Pending (change.write codecs found) := by
  unfold SettingChange.write
  cases computed : change.compute found with
  | error cause => exact fun impossible => by cases impossible
  | ok setting =>
      dsimp only
      unfold upsertUserSetting
      cases marshalled : convertUserSettingToRaw codecs setting with
      | error cause => exact fun impossible => by cases impossible
      | ok raw =>
          have converted := convertUserSettingFromRaw_toRaw codecs marshalled
          constructor
          · change Written (cacheUpserted codecs raw >>= _)
            rw [cacheUpserted_eq converted]
            rfl
          · exact fun cause impossible => by cases impossible

/-- An operation that is about to upsert has computed what it upserts. -/
theorem write_eq_upsert {change : SettingChange} {found : Option UserSettingMessage} {raw : RawUserSetting}
    {next : Except String RawUserSetting -> StoreProgram (Except String Unit)}
    (current : change.write codecs found = .perform (.call (.upsertUserSetting raw)) next) :
    Exists fun setting => change.compute found = .ok setting ∧
      convertUserSettingToRaw codecs setting = .ok raw := by
  revert current
  unfold SettingChange.write
  cases computed : change.compute found with
  | error cause =>
      intro current
      cases current
  | ok setting =>
      dsimp only
      unfold upsertUserSetting
      cases marshalled : convertUserSettingToRaw codecs setting with
      | error cause =>
          intro current
          cases current
      | ok written =>
          intro current
          cases current
          exact ⟨setting, rfl, marshalled⟩

theorem pending_program (change : SettingChange) : Pending (change.program codecs) := by
  apply pending_obtain
  intro reply
  cases reply with
  | error cause => exact fun impossible => by cases impossible
  | ok found => exact pending_write change found

end Programs

/-! ## Serial executions -/

/-- What an operation is meant to do to the stored settings.  One that ends
early does nothing. -/
def ListCall.serial (call : ListCall) (tables : AccountTables) : Except String AccountTables :=
  match call.early backend with
  | some result => result.map fun _ => tables
  | none => (call.change backend).serial backend.codecs tables

/-- One operation after the other. -/
def serialAll (calls : ι -> ListCall) (order : List ι) (tables : AccountTables) :
    Except String AccountTables :=
  order.foldlM (fun tables index => (calls index).serial backend tables) tables

theorem serialAll_append (calls : ι -> ListCall) {order : List ι} {index : ι}
    {tables between after : AccountTables} (earlier : serialAll backend calls order tables = .ok between)
    (next : (calls index).serial backend between = .ok after) :
    serialAll backend calls (order ++ [index]) tables = .ok after := by
  unfold serialAll at earlier ⊢
  rw [List.foldlM_append, earlier]
  change (calls index).serial backend between >>= pure = _
  rw [next]
  rfl

/-- An operation that succeeds alone does what it is meant to do, where the entry
of its setting is the stored setting. -/
theorem executes_serial {call : ListCall} {faults : Caching.Statement -> Option String}
    {state after : Cached AccountTables CacheKey CachedValue}
    (ran : Pool.Executes (CacheEffect (Faulty faults)) state (call.program backend) (.ok ()) after)
    (coherent : readUserSetting backend.codecs state (call.change backend).userId
        (call.change backend).key =
      state.db.storedSetting backend.codecs (call.change backend).userId
        (call.change backend).key) :
    call.serial backend state.db = .ok after.db := by
  rw [call.program_eq] at ran
  unfold ListCall.serial
  cases early : call.early backend with
  | some result =>
      rw [early] at ran
      rcases ran with ⟨rfl, rfl⟩
      rfl
  | none =>
      rw [early] at ran
      rcases executes_program (call.key_ne_unspecified backend) ran with
        ⟨_, impossible, _⟩ | ⟨found, reads, setting, computed, raw, marshalled, _, rfl⟩
      · cases impossible
      · unfold SettingChange.serial
        rw [← coherent, reads]
        change ((call.change backend).compute found >>= _) = _
        rw [computed]
        change (convertUserSettingToRaw backend.codecs setting >>= _) = _
        rw [marshalled]
        rfl

/-! ## Runs -/

section Runs

variable [DecidableEq ι]

/-- All operations before their first step, with empty caches. -/
def start (tables : AccountTables) (calls : ι -> ListCall) : ListPool ι where
  shared := ⟨tables, fun _ => none⟩
  programs := fun index => (calls index).program backend

/-- An operation upserts only what it makes of the setting that is stored at
that moment: it is where it would be had it obtained that setting. -/
def UpToDate (calls : ι -> ListCall) (pool : ListPool ι) (index : ι) :
    (operation : CacheOperation CacheKey CachedValue Caching.Statement) ->
      CacheReply CachedValue Caching.Statement.Reply operation ->
      Cached AccountTables CacheKey CachedValue -> Prop
  | .call (.upsertUserSetting _), .ok _, _ => Exists fun found =>
      pool.shared.db.storedSetting backend.codecs ((calls index).change backend).userId
          ((calls index).change backend).key = .ok found ∧
        pool.programs index = ((calls index).change backend).write backend.codecs found
  | _, _, _ => True

/-- The operations in the order have written, one after the other, and the others
have not. -/
structure Serial (calls : ι -> ListCall) (tables : AccountTables) (order : List ι)
    (pool : ListPool ι) : Prop where
  nodup : order.Nodup
  result : serialAll backend calls order tables = .ok pool.shared.db
  written : forall index, index ∈ order ->
    Written (pool.programs index) ∧ (calls index).early backend = none
  others : forall index, index ∉ order ->
    (Pending (pool.programs index) ∧ (calls index).early backend = none) ∨
      Exists fun result => pool.programs index = .done result ∧
        (calls index).early backend = some result

variable {backend} {calls : ι -> ListCall} {tables : AccountTables} {order : List ι}
  {pool after : ListPool ι}

omit [DecidableEq ι] in
theorem serial_start : Serial backend calls tables [] (start backend tables calls) where
  nodup := List.nodup_nil
  result := rfl
  written := fun _ impossible => absurd impossible List.not_mem_nil
  others := by
    intro index _
    have program : (start backend tables calls).programs index = (calls index).program backend := rfl
    rw [program, ListCall.program_eq]
    cases early : (calls index).early backend with
    | none => exact .inl ⟨pending_program _, rfl⟩
    | some result => exact .inr ⟨result, rfl, rfl⟩

/-- A step that keeps the tables, and the program on its side of the upsert. -/
theorem Serial.keep (serial : Serial backend calls tables order pool) {index : ι}
    {program : StoreProgram (Except String Unit)} {state : Cached AccountTables CacheKey CachedValue}
    (sameDb : state.db = pool.shared.db) (written : Written (pool.programs index) -> Written program)
    (pending : Pending (pool.programs index) -> Pending program)
    (running : forall result, pool.programs index ≠ .done result) :
    Serial backend calls tables order
      ⟨state, Function.update pool.programs index program⟩ where
  nodup := serial.nodup
  result := by
    rw [sameDb]
    exact serial.result
  written := by
    intro other member
    dsimp only
    by_cases same : other = index
    · subst same
      rw [Function.update_self]
      exact ⟨written (serial.written other member).1, (serial.written other member).2⟩
    · rw [Function.update_of_ne same]
      exact serial.written other member
  others := by
    intro other missing
    dsimp only
    by_cases same : other = index
    · subst same
      rw [Function.update_self]
      rcases serial.others other missing with ⟨waiting, late⟩ | ⟨result, returned, _⟩
      · exact .inl ⟨pending waiting, late⟩
      · exact absurd returned (running result)
    · rw [Function.update_of_ne same]
      exact serial.others other missing

/-- An upsert that is up to date comes next in the order. -/
theorem Serial.upsert (serial : Serial backend calls tables order pool) {index : ι}
    {raw : RawUserSetting} {state : Cached AccountTables CacheKey CachedValue}
    {next : Except String RawUserSetting -> StoreProgram (Except String Unit)}
    {found : Option UserSettingMessage}
    (current : pool.programs index = .perform (.call (.upsertUserSetting raw)) next)
    (changed : state.db = pool.shared.db.putUserSetting raw)
    (stored : pool.shared.db.storedSetting backend.codecs ((calls index).change backend).userId
      ((calls index).change backend).key = .ok found)
    (writes : pool.programs index =
      ((calls index).change backend).write backend.codecs found) :
    Serial backend calls tables (order ++ [index])
      ⟨state, Function.update pool.programs index (next (.ok raw))⟩ := by
  have missing : index ∉ order := by
    intro member
    have written := (serial.written index member).1
    rw [current] at written
    exact written
  have waits : Pending (pool.programs index) ∧ (calls index).early backend = none := by
    rcases serial.others index missing with waits | ⟨result, returned, _⟩
    · exact waits
    · rw [current] at returned
      cases returned
  rcases waits with ⟨pending, late⟩
  rw [current] at pending
  refine ⟨?_, ?_, ?_, ?_⟩
  · refine List.nodup_append.mpr ⟨serial.nodup, List.nodup_singleton _, ?_⟩
    intro other member single same equal
    rw [equal, List.mem_singleton.mp same] at member
    exact missing member
  · refine serialAll_append backend calls serial.result ?_
    rcases write_eq_upsert (writes.symm.trans current) with ⟨setting, computed, marshalled⟩
    unfold ListCall.serial SettingChange.serial
    rw [late]
    dsimp only
    rw [stored]
    change (((calls index).change backend).compute found >>= _) = _
    rw [computed]
    change (convertUserSettingToRaw backend.codecs setting >>= _) = _
    rw [marshalled, changed]
    rfl
  · intro other member
    dsimp only
    by_cases same : other = index
    · subst same
      rw [Function.update_self]
      exact ⟨pending.1, late⟩
    · rw [Function.update_of_ne same]
      rcases List.mem_append.mp member with earlier | last
      · exact serial.written other earlier
      · exact absurd (List.mem_singleton.mp last) same
  · intro other absent
    dsimp only
    have different : other ≠ index := by
      rintro rfl
      exact absent (List.mem_append_right _ (List.mem_singleton_self _))
    rw [Function.update_of_ne different]
    exact serial.others other fun member => absent (List.mem_append_left _ member)

omit [DecidableEq ι] in
/-- A program that makes a step is on one side of its upsert. -/
theorem Serial.running (serial : Serial backend calls tables order pool) {index : ι}
    (running : forall result, pool.programs index ≠ .done result) :
    Written (pool.programs index) ∨ Pending (pool.programs index) := by
  by_cases member : index ∈ order
  · exact .inl (serial.written index member).1
  · rcases serial.others index member with ⟨pending, _⟩ | ⟨result, returned, _⟩
    · exact .inr pending
    · exact absurd returned (running result)

/-- One step of a run. -/
theorem Serial.step (serial : Serial backend calls tables order pool)
    (step : Pool.Step (CacheEffect Runs) Expires (UpToDate backend calls) pool after) :
    Exists fun later => Serial backend calls tables later after := by
  cases step with
  | background change =>
      rcases change with ⟨key, rfl⟩
      exact ⟨order, serial.nodup, serial.result, serial.written, serial.others⟩
  | operation index current effective allowed =>
      rename_i operation next reply state
      have running : forall result, pool.programs index ≠ .done result := by
        intro result returned
        rw [current] at returned
        cases returned
      cases operation with
      | get key change =>
          rcases effective with ⟨rfl, rfl⟩
          refine ⟨order, serial.keep rfl ?_ ?_ running⟩
          · rw [current]
            exact fun impossible => absurd impossible id
          · rw [current]
            exact fun pending => pending _
      | set key value =>
          cases effective
          refine ⟨order, serial.keep rfl ?_ ?_ running⟩
          · rw [current]
            exact id
          · rw [current]
            exact id
      | evict key =>
          cases effective
          refine ⟨order, serial.keep rfl ?_ ?_ running⟩
          · rw [current]
            exact fun impossible => absurd impossible id
          · rw [current]
            exact id
      | call statement =>
          rcases effective with ⟨_, effective⟩
          have notWritten : forall {program : StoreProgram (Except String Unit)},
              Written (pool.programs index) -> Written program := by
            intro program written
            rw [current] at written
            exact absurd written id
          have side := serial.running running
          rw [current] at side
          rcases side with impossible | pending
          · exact absurd impossible id
          · cases statement with
            | listUserSettings find =>
                have sameDb : state.db = pool.shared.db := by
                  cases reply with
                  | error cause => exact effective.resolve_right And.left
                  | ok list => exact effective.1
                exact ⟨order, serial.keep sameDb notWritten (fun _ => pending reply) running⟩
            | upsertUserSetting raw =>
                cases reply with
                | error cause =>
                    exact ⟨order, serial.keep (effective.resolve_right And.left) notWritten (fun _ => pending.2 cause) running⟩
                | ok returned =>
                    rcases effective with ⟨same, changed⟩
                    cases (same : returned = raw)
                    rcases allowed with ⟨found, stored, writes⟩
                    exact ⟨order ++ [index], serial.upsert current changed stored writes⟩
            | _ => exact absurd pending id

/-- Along a run in which every upsert is up to date, the stored settings are
those of the operations that have written, run in some order. -/
theorem lists_serial (backend : ShortcutBackend) (tables : AccountTables) (calls : ι -> ListCall)
    (last : ListPool ι)
    (run : Pool.Run (CacheEffect Runs) Expires (UpToDate backend calls) (start backend tables calls)
      last) :
    Exists fun order => order.Nodup ∧
      serialAll backend calls order tables = .ok last.shared.db ∧
      (forall index, index ∈ order ->
        Written (last.programs index) ∧ (calls index).early backend = none) ∧
      forall index, last.programs index = .done (.ok ()) ->
        (calls index).early backend = none -> index ∈ order := by
  have reached : Exists fun order => Serial backend calls tables order last := by
    induction run with
    | refl => exact ⟨[], serial_start⟩
    | tail _ step ih =>
        rcases ih with ⟨order, serial⟩
        exact serial.step step
  rcases reached with ⟨order, serial⟩
  refine ⟨order, serial.nodup, serial.result, serial.written, ?_⟩
  intro index returned late
  by_contra missing
  rcases serial.others index missing with ⟨pending, _⟩ | ⟨_, _, early⟩
  · rw [returned] at pending
    exact pending rfl
  · rw [late] at early
    cases early

/-! ## A lost token -/

/-- An order of both calls is one or the other. -/
theorem order_of_both {order : List Bool} (nodup : order.Nodup)
    (both : forall index, index ∈ order) : order = [false, true] ∨ order = [true, false] := by
  have first := both false
  have second := both true
  rcases order with _ | ⟨a, _ | ⟨b, _ | ⟨c, rest⟩⟩⟩
  · cases first
  · cases a <;> simp at first second
  · cases a <;> cases b <;> simp at nodup ⊢
  · cases a <;> cases b <;> cases c <;> simp at nodup

/-- Two sign-ins of one user, on two devices. -/
def phoneToken : RefreshToken := { tokenId := "phone" }
def laptopToken : RefreshToken := { tokenId := "laptop" }

def phoneText : String := "\x7b\"refreshTokens\":[\x7b\"tokenId\":\"phone\"\x7d]\x7d"
def laptopText : String := "\x7b\"refreshTokens\":[\x7b\"tokenId\":\"laptop\"\x7d]\x7d"
def phoneLaptopText : String :=
  "\x7b\"refreshTokens\":[\x7b\"tokenId\":\"phone\"\x7d,\x7b\"tokenId\":\"laptop\"\x7d]\x7d"
def laptopPhoneText : String :=
  "\x7b\"refreshTokens\":[\x7b\"tokenId\":\"laptop\"\x7d,\x7b\"tokenId\":\"phone\"\x7d]\x7d"

def tokenBackend : ShortcutBackend where
  codecs := { emptyCodecs with
    refreshTokens := .ofTexts [([phoneToken], phoneText), ([laptopToken], laptopText),
      ([phoneToken, laptopToken], phoneLaptopText), ([laptopToken, phoneToken], laptopPhoneText)] }
  compileFilter := fun _ => .ok ()

def phoneRow : RawUserSetting := ⟨1, .refreshTokens, phoneText⟩
def laptopRow : RawUserSetting := ⟨1, .refreshTokens, laptopText⟩

def twoSignIns : Bool -> ListCall
  | false => .addUserRefreshToken 1 phoneToken
  | true => .addUserRefreshToken 1 laptopToken

/-- Every step is possible at any time. -/
def AnyTime (_ : ListPool ι) (_ : ι) (operation : CacheOperation CacheKey CachedValue Caching.Statement)
    (_ : CacheReply CachedValue Caching.Statement.Reply operation)
    (_ : Cached AccountTables CacheKey CachedValue) : Prop := True

theorem lists_none : ListsUserSettings {} ⟨some 1, .refreshTokens⟩ [] where
  nodup := List.nodup_nil
  found := by
    intro raw
    refine iff_of_false List.not_mem_nil ?_
    rintro ⟨impossible, _⟩
    cases impossible

/-- Both sign-ins succeed and one token is lost. -/
theorem lists_not_serial : ¬ forall (backend : ShortcutBackend) (tables : AccountTables)
    (calls : Bool -> ListCall) (last : ListPool Bool),
    Pool.Run (CacheEffect Runs) Expires AnyTime (start backend tables calls) last ->
      (forall index, Exists fun result => last.programs index = .done result) ->
      Exists fun order => order.Nodup ∧
        (forall index, index ∈ order ↔ last.programs index = .done (.ok ())) ∧
        serialAll backend calls order tables = .ok last.shared.db := by
  intro serial
  have begun : Pool.Run (CacheEffect Runs) Expires AnyTime (start tokenBackend {} twoSignIns)
      (start tokenBackend {} twoSignIns) := .refl
  have missed := begun.operation false rfl none _ ⟨rfl, rfl⟩ trivial
  have listed := missed.operation false rfl (.ok []) ⟨{}, _⟩ ⟨rfl, rfl, lists_none⟩ trivial
  have missedToo := listed.operation true rfl none _ ⟨rfl, rfl⟩ trivial
  have listedToo := missedToo.operation true rfl (.ok []) ⟨{}, _⟩ ⟨rfl, rfl, lists_none⟩ trivial
  have written := listedToo.operation false rfl (.ok phoneRow)
    ⟨({} : AccountTables).putUserSetting phoneRow, _⟩ ⟨rfl, rfl, rfl⟩ trivial
  have cached := written.operation false rfl () _ rfl trivial
  have writtenToo := cached.operation true rfl (.ok laptopRow)
    ⟨(({} : AccountTables).putUserSetting phoneRow).putUserSetting laptopRow, _⟩ ⟨rfl, rfl, rfl⟩
    trivial
  have cachedToo := writtenToo.operation true rfl () _ rfl trivial
  have finished := serial tokenBackend {} twoSignIns _ cachedToo
    (by intro index; cases index <;> exact ⟨.ok (), rfl⟩)
  rcases finished with ⟨order, nodup, members, result⟩
  have both : forall index, index ∈ order := by
    intro index
    rw [members]
    cases index <;> rfl
  rcases order_of_both nodup both with rfl | rfl
  · have stored : (serialAll tokenBackend twoSignIns [false, true] {}).map
        (fun tables => tables.userSettings 1 .refreshTokens) = .ok (some laptopRow.value) := by
      rw [result]
      rfl
    have both : (serialAll tokenBackend twoSignIns [false, true] {}).map
        (fun tables => tables.userSettings 1 .refreshTokens) = .ok (some phoneLaptopText) := rfl
    rw [both] at stored
    exact absurd (Except.ok.inj stored) (by decide)
  · have stored : (serialAll tokenBackend twoSignIns [true, false] {}).map
        (fun tables => tables.userSettings 1 .refreshTokens) = .ok (some laptopRow.value) := by
      rw [result]
      rfl
    have both : (serialAll tokenBackend twoSignIns [true, false] {}).map
        (fun tables => tables.userSettings 1 .refreshTokens) = .ok (some laptopPhoneText) := rfl
    rw [both] at stored
    exact absurd (Except.ok.inj stored) (by decide)

/-- One sign-in after the other. -/
theorem lists_serial_signIns : Exists fun last =>
    Pool.Run (CacheEffect Runs) Expires (UpToDate tokenBackend twoSignIns)
      (start tokenBackend {} twoSignIns) last ∧
    last.shared.db.userSettings 1 .refreshTokens = some phoneLaptopText ∧
    Exists fun order => order.Nodup ∧
      serialAll tokenBackend twoSignIns order {} = .ok last.shared.db := by
  have begun : Pool.Run (CacheEffect Runs) Expires (UpToDate tokenBackend twoSignIns)
      (start tokenBackend {} twoSignIns) (start tokenBackend {} twoSignIns) := .refl
  have missed := begun.operation false rfl none _ ⟨rfl, rfl⟩ trivial
  have listed := missed.operation false rfl (.ok []) ⟨{}, _⟩ ⟨rfl, rfl, lists_none⟩ trivial
  have written := listed.operation false rfl (.ok phoneRow)
    ⟨({} : AccountTables).putUserSetting phoneRow, _⟩ ⟨rfl, rfl, rfl⟩ ⟨none, rfl, rfl⟩
  have cached := written.operation false rfl () _ rfl trivial
  have hit := cached.operation true rfl
    (some (.userSetting ⟨1, .refreshTokens [phoneToken]⟩)) _ ⟨rfl, rfl⟩ trivial
  have writtenToo := hit.operation true rfl (.ok ⟨1, .refreshTokens, phoneLaptopText⟩)
    ⟨(({} : AccountTables).putUserSetting phoneRow).putUserSetting
      ⟨1, .refreshTokens, phoneLaptopText⟩, _⟩ ⟨rfl, rfl, rfl⟩
    ⟨some ⟨1, .refreshTokens [phoneToken]⟩, rfl, rfl⟩
  rcases lists_serial tokenBackend {} twoSignIns _ writtenToo with ⟨order, nodup, result, _⟩
  exact ⟨_, writtenToo, rfl, order, nodup, result⟩

/-- The list of one token is stored and cached. -/
def phoneCached : Cached AccountTables CacheKey CachedValue :=
  ⟨({} : AccountTables).putUserSetting phoneRow,
    fun key => if key = .userSetting 1 .refreshTokens then some (.userSetting ⟨1, .refreshTokens [phoneToken]⟩) else none⟩

/-- A sign-in alone, which adds to the list that it finds in the cache. -/
theorem executes_serial_signIn : (twoSignIns true).serial tokenBackend phoneCached.db =
    .ok (phoneCached.db.putUserSetting ⟨1, .refreshTokens, phoneLaptopText⟩) :=
  @executes_serial tokenBackend (twoSignIns true) (fun _ => none) phoneCached ⟨_, _⟩
    ⟨some (.userSetting ⟨1, .refreshTokens [phoneToken]⟩), _, ⟨rfl, rfl⟩, .ok ⟨1, .refreshTokens, phoneLaptopText⟩,
      ⟨phoneCached.db.putUserSetting ⟨1, .refreshTokens, phoneLaptopText⟩, _⟩, ⟨rfl, rfl, rfl, rfl⟩, (), _, rfl, rfl,
      rfl⟩ rfl

end Runs

end Service
end Memos
