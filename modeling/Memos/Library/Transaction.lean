import Memos.Library.Except

namespace Memos
namespace Library

/-!
# Transactions

The statements of a transaction read and change a state one after the other,
and any of them may fail for a reason of the database.  A failure discards
what the transaction has done.  Long lists of values are given to the
statements in batches.
-/

/-- The state that a transaction sees, and for each of its further statements
the reason, if any, why the database will refuse it. -/
structure Session (σ : Type) where
  state : σ
  faults : List (Option String)

/-- The statements of a transaction. -/
abbrev Transaction (σ α : Type) := StateT (Session σ) (Except String) α

namespace Transaction

variable {σ α β : Type}

/-- One statement.  A session without faults left refuses nothing. -/
def statement (body : σ -> Except String (α × σ)) : Transaction σ α := fun session =>
  match session.faults with
  | some cause :: _ => .error cause
  | none :: faults => (fun done => (done.1, ⟨done.2, faults⟩)) <$> body session.state
  | [] => (fun done => (done.1, ⟨done.2, []⟩)) <$> body session.state

/-- A statement that reads. -/
def query (read : σ -> Except String α) : Transaction σ α :=
  statement fun state => (fun value => (value, state)) <$> read state

/-- A statement that writes. -/
def execute (write : σ -> σ) : Transaction σ Unit :=
  statement fun state => .ok ((), write state)

/-- A failure before the next statement. -/
def failIf (condition : Bool) (cause : String) : Transaction σ Unit := fun session =>
  if condition then .error cause else .ok ((), session)

/-- `errors.Wrap` -/
def wrap (transaction : Transaction σ α) (context : String) : Transaction σ α := fun session =>
  match transaction session with
  | .ok done => .ok done
  | .error cause => .error (context ++ ": " ++ cause)

/-- Run the statements: commit at the end, or go back to the state before. -/
def run (transaction : Transaction σ α) (state : σ) (faults : List (Option String)) :
    Except String α × σ :=
  match transaction ⟨state, faults⟩ with
  | .ok (value, session) => (.ok value, session.state)
  | .error cause => (.error cause, state)

/-- The transaction can get from one state to another, with this value. -/
def Leads (transaction : Transaction σ α) (before : σ) (value : α) (after : σ) : Prop :=
  Exists fun faults => Exists fun remaining =>
    transaction ⟨before, faults⟩ = .ok (value, ⟨after, remaining⟩)

theorem leads_bind {first : Transaction σ α} {next : α -> Transaction σ β} {before after : σ}
    {value : β} (leads : Leads (first >>= next) before value after) :
    Exists fun middle => Exists fun state =>
      Leads first before middle state ∧ Leads (next middle) state value after := by
  rcases leads with ⟨faults, remaining, success⟩
  rcases bind_eq_ok.mp success with ⟨⟨middle, ⟨state, left⟩⟩, ofFirst, ofNext⟩
  exact ⟨middle, state, ⟨faults, left, ofFirst⟩, ⟨left, remaining, ofNext⟩⟩

theorem leads_pure {given value : α} {before after : σ}
    (leads : Leads (pure given : Transaction σ α) before value after) :
    value = given ∧ after = before := by
  rcases leads with ⟨faults, remaining, success⟩
  cases success
  exact ⟨rfl, rfl⟩

theorem leads_statement {body : σ -> Except String (α × σ)} {before after : σ} {value : α}
    (leads : Leads (statement body) before value after) : body before = .ok (value, after) := by
  rcases leads with ⟨faults, remaining, success⟩
  unfold statement at success
  have ran : Exists fun left => (fun done : α × σ => (done.1, (⟨done.2, left⟩ : Session σ))) <$>
      body before = .ok (value, ⟨after, remaining⟩) := by
    match faults with
    | [] => exact ⟨[], success⟩
    | none :: left => exact ⟨left, success⟩
    | some cause :: _ => cases success
  rcases ran with ⟨left, mapped⟩
  rcases map_eq_ok.mp mapped with ⟨⟨found, state⟩, executed, same⟩
  cases same
  exact executed

theorem leads_query {read : σ -> Except String α} {before after : σ} {value : α}
    (leads : Leads (query read) before value after) :
    read before = .ok value ∧ after = before := by
  have executed := leads_statement leads
  rcases map_eq_ok.mp executed with ⟨found, success, same⟩
  cases same
  exact ⟨success, rfl⟩

theorem leads_execute {write : σ -> σ} {before after : σ} {value : Unit}
    (leads : Leads (execute write) before value after) : after = write before := by
  have executed := leads_statement leads
  cases executed
  rfl

theorem leads_failIf {condition : Bool} {cause : String} {before after : σ} {value : Unit}
    (leads : Leads (failIf condition cause) before value after) : after = before := by
  rcases leads with ⟨faults, remaining, success⟩
  unfold failIf at success
  split at success
  · cases success
  · cases success
    rfl

theorem leads_wrap {transaction : Transaction σ α} {context : String} {before after : σ}
    {value : α} (leads : Leads (wrap transaction context) before value after) :
    Leads transaction before value after := by
  rcases leads with ⟨faults, remaining, success⟩
  unfold wrap at success
  cases ran : transaction ⟨before, faults⟩ with
  | error cause =>
      rw [ran] at success
      cases success
  | ok done =>
      rw [ran] at success
      cases success
      exact ⟨faults, remaining, ran⟩

theorem bind_of_ok {first : Transaction σ α} {next : α -> Transaction σ β}
    {session middle : Session σ} {value : α} (success : first session = .ok (value, middle)) :
    (first >>= next) session = next value middle := by
  change (first session >>= fun done => next done.1 done.2) = _
  rw [success]
  rfl

/-- A committed transaction ran to its end. -/
theorem leads_of_run {transaction : Transaction σ α} {before after : σ}
    {faults : List (Option String)} {value : α}
    (committed : transaction.run before faults = (.ok value, after)) :
    Leads transaction before value after := by
  unfold run at committed
  cases ran : transaction ⟨before, faults⟩ with
  | error cause =>
      rw [ran] at committed
      cases committed
  | ok done =>
      rw [ran] at committed
      cases committed
      exact ⟨faults, done.2.faults, ran⟩

/-- A transaction that fails changes nothing. -/
theorem run_error {transaction : Transaction σ α} {before after : σ}
    {faults : List (Option String)} {cause : String}
    (failed : transaction.run before faults = (.error cause, after)) : after = before := by
  unfold run at failed
  cases ran : transaction ⟨before, faults⟩ with
  | error cause =>
      rw [ran] at failed
      cases failed
      rfl
  | ok done =>
      rw [ran] at failed
      cases failed

end Transaction

/-! ## Batches -/

section Batches

variable {α σ : Type}

/-- The slices of `size` values from position `start` on. -/
def batchesFrom (values : List α) (size : Nat) (positive : 0 < size) (start : Nat) :
    List (List α) :=
  if start < values.length then
    (values.drop start).take size :: batchesFrom values size positive (start + size)
  else []
termination_by values.length - start

/-- Every value from the position on is in exactly one slice. -/
theorem flatten_batchesFrom (values : List α) (size : Nat) (positive : 0 < size) (start : Nat) :
    (batchesFrom values size positive start).flatten = values.drop start := by
  fun_induction batchesFrom values size positive start with
  | case1 start inside ih =>
      rw [List.flatten_cons, ih, ← List.drop_drop, List.take_append_drop]
  | case2 start outside =>
      rw [List.flatten_nil, List.drop_eq_nil_of_le (Nat.le_of_not_lt outside)]

theorem batchesFrom_bounds {values : List α} {size : Nat} {positive : 0 < size} {start : Nat}
    {batch : List α} (member : batch ∈ batchesFrom values size positive start) :
    batch ≠ [] ∧ batch.length ≤ size := by
  fun_induction batchesFrom values size positive start with
  | case1 start inside ih =>
      rcases List.mem_cons.mp member with rfl | later
      · constructor
        · intro empty
          have lengths := congrArg List.length empty
          rw [List.length_take, List.length_drop, List.length_nil] at lengths
          omega
        · exact List.length_take_le _ _
      · exact ih later
  | case2 start outside => cases member

/-- An update that can take its values in parts takes them in batches. -/
theorem foldl_flatten (update : List α -> σ -> σ) (none : ∀ state, update [] state = state)
    (both : ∀ first second state,
      update (first ++ second) state = update second (update first state))
    (batches : List (List α)) (state : σ) :
    batches.foldl (fun state batch => update batch state) state = update batches.flatten state := by
  induction batches generalizing state with
  | nil => exact (none state).symm
  | cons batch rest ih =>
      rw [List.foldl_cons, ih, List.flatten_cons, both]

/-- Deleting the rows with a key in the list, part by part. -/
theorem filter_not_mem_append {ρ κ : Type} [DecidableEq κ] (key : ρ -> κ) (first second : List κ)
    (rows : List ρ) :
    rows.filter (fun row => key row ∉ first ++ second) =
      (rows.filter fun row => key row ∉ first).filter fun row => key row ∉ second := by
  rw [List.filter_filter]
  apply List.filter_congr
  intro row _
  rw [← Bool.decide_and, decide_eq_decide, List.mem_append, not_or, And.comm]

/-- One statement for every batch. -/
def executeBatches (update : List α -> σ -> σ) : List (List α) -> Transaction σ Unit
  | [] => pure ()
  | batch :: rest => do
      Transaction.execute (update batch)
      executeBatches update rest

theorem leads_executeBatches {update : List α -> σ -> σ} {batches : List (List α)}
    {before after : σ} {value : Unit} (leads : (executeBatches update batches).Leads before value after) :
    after = batches.foldl (fun state batch => update batch state) before := by
  induction batches generalizing before with
  | nil => exact (Transaction.leads_pure leads).2
  | cons batch rest ih =>
      rcases Transaction.leads_bind leads with ⟨_, state, first, others⟩
      rw [ih others, Transaction.leads_execute first, List.foldl_cons]

end Batches

end Library
end Memos
