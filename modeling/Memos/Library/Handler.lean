import Mathlib.Logic.Relation
import Memos.Library.Transaction

namespace Memos
namespace Library

/-!
# Request handlers

A handler makes calls one after the other, each of which is a transaction of
its own.  A handler that fails keeps what its calls have committed so far.
The rules below show at once what every call leads to and what the handler
knows between its calls.
-/

/-- The state that a handler works on and the faults that its further calls
meet. -/
structure World (σ : Type) where
  state : σ
  plans : List (List (Option String))

abbrev Handler (σ ε α : Type) := ExceptT ε (StateM (World σ)) α

namespace Handler

variable {σ ε α β : Type}

/-- Run one transaction.  The handler turns its error into its own. -/
def call (transaction : Transaction σ α) (status : String -> ε) : Handler σ ε α := fun world =>
  match transaction.run world.state (world.plans.headD []) with
  | (.ok value, state) => (.ok value, ⟨state, world.plans.tail⟩)
  | (.error cause, state) => (.error (status cause), ⟨state, world.plans.tail⟩)

/-- Fail unless the condition holds. -/
def require (condition : Prop) [Decidable condition] (status : ε) : Handler σ ε Unit :=
  if condition then pure () else throw status

/-- A value that must be there. -/
def found (value : Option α) (status : ε) : Handler σ ε α :=
  match value with
  | some value => pure value
  | none => throw status

/-- A computation that does not touch the state. -/
def lift {δ : Type} (value : Except δ α) (status : δ -> ε) : Handler σ ε α :=
  match value with
  | .ok value => pure value
  | .error cause => throw (status cause)

/-- The handler with another error. -/
def mapError (handler : Handler σ ε α) (status : ε -> ε) : Handler σ ε α := fun world =>
  match handler world with
  | (.ok value, after) => (.ok value, after)
  | (.error cause, after) => (.error (status cause), after)

@[simp] theorem found_some (value : α) (status : ε) :
    (found (some value) status : Handler σ ε α) = pure value := rfl

@[simp] theorem lift_ok {δ : Type} (value : α) (status : δ -> ε) :
    (lift (.ok value) status : Handler σ ε α) = pure value := rfl

variable {condition : Prop} {status : ε} {post : α -> σ -> Prop}

theorem require_of [Decidable condition] (holds : condition) :
    (require condition status : Handler σ ε Unit) = pure () := if_pos holds

theorem require_of_not [Decidable condition] (fails : ¬ condition) :
    (require condition status : Handler σ ε Unit) = throw status :=
  if_neg fails

/-- Run the body for each element, until one fails. -/
def forEach : List β -> (β -> Handler σ ε Unit) -> Handler σ ε Unit
  | [], _ => pure ()
  | element :: rest, body => do
      body element
      forEach rest body

/-- From every state that satisfies `pre`, a result satisfies `post`, and a
failure leaves an error and a state that satisfy `failed`. -/
def Ends (pre : σ -> Prop) (handler : Handler σ ε α) (post : α -> σ -> Prop)
    (failed : ε -> σ -> Prop) : Prop :=
  ∀ world, pre world.state ->
    match handler world with
    | (.ok value, after) => post value after.state
    | (.error status, after) => failed status after.state

section Ends

variable {pre : σ -> Prop} {failed : ε -> σ -> Prop}

variable {post : α -> σ -> Prop} {status : ε}

theorem ends_pure {value : α} (implies : ∀ state, pre state -> post value state) :
    Ends pre (pure value : Handler σ ε α) post failed :=
  fun world holds => implies world.state holds

theorem ends_throw (implies : ∀ state, pre state -> failed status state) :
    Ends pre (throw status : Handler σ ε α) post failed :=
  fun world holds => implies world.state holds

/-- The second handler starts where the first has succeeded. -/
theorem bind_run (first : Handler σ ε α) (next : α -> Handler σ ε β) (world : World σ) :
    (first >>= next) world = match first world with
      | (.ok value, after) => next value after
      | (.error status, after) => (.error status, after) := by
  change ExceptT.bind first next world = _
  unfold ExceptT.bind ExceptT.mk
  change (ExceptT.bindCont next (first world).1) (first world).2 = _
  rcases first world with ⟨outcome, after⟩
  cases outcome with
  | ok value => rfl
  | error status => rfl

theorem mapError_bind (first : Handler σ ε α) (next : α -> Handler σ ε β) (status : ε -> ε) :
    mapError (first >>= next) status =
      mapError first status >>= fun value => mapError (next value) status := by
  funext world
  rw [bind_run]
  unfold mapError
  rw [bind_run]
  rcases first world with ⟨outcome, after⟩
  cases outcome with
  | ok value => rfl
  | error cause => rfl

/-- A handler that fails has failed in its first part or after it. -/
theorem bind_failed {first : Handler σ ε α} {next : α -> Handler σ ε β} {world last : World σ}
    (failed : (first >>= next) world = (.error status, last)) :
    first world = (.error status, last) ∨
      Exists fun value => Exists fun middle => first world = (.ok value, middle) ∧
        next value middle = (.error status, last) := by
  rw [bind_run] at failed
  cases ran : first world with
  | mk outcome middle =>
      rw [ran] at failed
      cases outcome with
      | ok value => exact Or.inr ⟨value, middle, rfl, failed⟩
      | error cause =>
          obtain ⟨same, rfl⟩ := Prod.mk.inj failed
          obtain rfl := Except.error.inj same
          exact Or.inl rfl

theorem ends_bind {first : Handler σ ε α} {next : α -> Handler σ ε β}
    {middle : α -> σ -> Prop} {post : β -> σ -> Prop} (left : Ends pre first middle failed)
    (right : ∀ value, Ends (middle value) (next value) post failed) :
    Ends pre (first >>= next) post failed := by
  intro world holds
  have ofFirst := left world holds
  rw [bind_run]
  rcases ran : first world with ⟨outcome, after⟩
  rw [ran] at ofFirst
  cases outcome with
  | ok value => exact right value after ofFirst
  | error status => exact ofFirst

theorem ends_weaken {stronger : σ -> Prop} {handler : Handler σ ε α}
    {post weaker : α -> σ -> Prop} {other : ε -> σ -> Prop} (valid : Ends pre handler post failed)
    (before : ∀ state, stronger state -> pre state)
    (after : ∀ value state, post value state -> weaker value state)
    (excused : ∀ status state, failed status state -> other status state) :
    Ends stronger handler weaker other := by
  intro world holds
  have ofHandler := valid world (before _ holds)
  rcases ran : handler world with ⟨outcome, last⟩
  rw [ran] at ofHandler
  cases outcome with
  | ok value => exact after value _ ofHandler
  | error status => exact excused status _ ofHandler

/-- What the state says before the handler can be assumed. -/
theorem ends_given {handler : Handler σ ε α} {fact : Prop} (holds : ∀ state, pre state -> fact)
    (valid : fact -> Ends pre handler post failed) :
    Ends pre handler post failed :=
  fun world given => valid (holds world.state given) world given

theorem ends_require {condition : Prop} [Decidable condition]
    (refuses : ∀ state, pre state -> ¬ condition -> failed status state) :
    Ends pre (require condition status) (fun _ state => pre state ∧ condition) failed := by
  unfold require
  split
  · next true => exact ends_pure fun state given => ⟨given, true⟩
  · next false => exact ends_throw fun state given => refuses state given false

theorem ends_ite {condition : Prop} [Decidable condition] {left right : Handler σ ε α}
    (ofLeft : condition -> Ends pre left post failed) (ofRight : ¬ condition -> Ends pre right post failed) :
    Ends pre (if condition then left else right) post failed := by
  split
  · next true => exact ofLeft true
  · next false => exact ofRight false

theorem ends_found {value : Option α} (missing : ∀ state, pre state -> value = none -> failed status state) :
    Ends pre (found value status) (fun inner state => pre state ∧ value = some inner) failed := by
  unfold found
  cases value with
  | none => exact ends_throw fun state given => missing state given rfl
  | some inner => exact ends_pure fun state given => ⟨given, rfl⟩

theorem ends_lift {δ : Type} {value : Except δ α} {status : δ -> ε}
    (refused : ∀ cause state, pre state -> value = .error cause -> failed (status cause) state) :
    Ends pre (lift value status) (fun inner state => pre state ∧ value = .ok inner) failed := by
  unfold lift
  cases value with
  | error cause => exact ends_throw fun state given => refused cause state given rfl
  | ok inner => exact ends_pure fun state given => ⟨given, rfl⟩

/-- A call either commits or leaves the state as it was. -/
theorem ends_call {transaction : Transaction σ α} {status : String -> ε}
    (committed : ∀ before value after, pre before ->
      transaction.Leads before value after -> post value after)
    (refused : ∀ cause state, pre state -> failed (status cause) state) :
    Ends pre (call transaction status) post failed := by
  intro world holds
  unfold call
  rcases ran : transaction.run world.state (world.plans.headD []) with ⟨outcome, last⟩
  cases outcome with
  | ok value => exact committed world.state value last holds (Transaction.leads_of_run ran)
  | error cause =>
      rw [Transaction.run_error ran]
      exact refused cause world.state holds

theorem ends_query {select : σ -> Except String α} {status : String -> ε}
    (refused : ∀ cause state, pre state -> failed (status cause) state) :
    Ends pre (call (Transaction.query select) status)
      (fun value state => pre state ∧ select state = .ok value) failed := by
  refine ends_call ?_ refused
  intro before value after given leads
  rcases Transaction.leads_query leads with ⟨success, rfl⟩
  exact ⟨given, success⟩

theorem ends_execute {write : σ -> σ} {status : String -> ε}
    (refused : ∀ cause state, pre state -> failed (status cause) state) :
    Ends pre (call (Transaction.execute write) status)
      (fun _ state => Exists fun before => pre before ∧ state = write before) failed :=
  ends_call (fun before _ _ given leads => ⟨before, given, Transaction.leads_execute leads⟩) refused

end Ends

/-! ## Runs without faults -/

section Quiet

variable {state after : σ} {value : α} {status : String -> ε}

theorem bind_of_ok {first : Handler σ ε α} {next : α -> Handler σ ε β} {world middle : World σ}
    (success : first world = (.ok value, middle)) : (first >>= next) world = next value middle := by
  rw [bind_run, success]

theorem bind_of_error {first : Handler σ ε α} {next : α -> Handler σ ε β} {world middle : World σ}
    {cause : ε} (failure : first world = (.error cause, middle)) :
    (first >>= next) world = (.error cause, middle) := by
  rw [bind_run, failure]

theorem call_quiet {transaction : Transaction σ α}
    (ran : transaction ⟨state, []⟩ = .ok (value, ⟨after, []⟩)) :
    call transaction status ⟨state, []⟩ = (.ok value, ⟨after, []⟩) := by
  unfold call Transaction.run
  rw [List.headD_nil, ran]
  rfl

theorem query_quiet {select : σ -> Except String α} (success : select state = .ok value) :
    Transaction.query select ⟨state, []⟩ = .ok (value, ⟨state, []⟩) := by
  unfold Transaction.query Transaction.statement
  dsimp only
  rw [success]
  rfl

theorem execute_quiet (write : σ -> σ) :
    Transaction.execute write ⟨state, []⟩ = .ok ((), ⟨write state, []⟩) := rfl

end Quiet

/-- From every state that satisfies `pre`, a result satisfies `post`, and a
failure leaves a state that satisfies `failed`. -/
def Triple (pre : σ -> Prop) (handler : Handler σ ε α) (post : α -> σ -> Prop)
    (failed : σ -> Prop) : Prop :=
  ∀ world, pre world.state ->
    match handler world with
    | (.ok value, after) => post value after.state
    | (.error _, after) => failed after.state

variable {pre : σ -> Prop} {failed : σ -> Prop}

/-- A triple does not look at the error. -/
theorem triple_iff_ends {handler : Handler σ ε α} :
    Triple pre handler post failed ↔ Ends pre handler post fun _ => failed := Iff.rfl

theorem triple_pure {value : α} (implies : ∀ state, pre state -> post value state) :
    Triple pre (pure value : Handler σ ε α) post failed :=
  triple_iff_ends.mpr (ends_pure implies)

theorem triple_throw (implies : ∀ state, pre state -> failed state) :
    Triple pre (throw status : Handler σ ε α) post failed :=
  triple_iff_ends.mpr (ends_throw implies)

theorem triple_bind {first : Handler σ ε α} {next : α -> Handler σ ε β}
    {middle : α -> σ -> Prop} {post : β -> σ -> Prop} (left : Triple pre first middle failed)
    (right : ∀ value, Triple (middle value) (next value) post failed) :
    Triple pre (first >>= next) post failed :=
  triple_iff_ends.mpr (ends_bind left right)

theorem triple_weaken {stronger : σ -> Prop} {handler : Handler σ ε α}
    {post weaker : α -> σ -> Prop} (valid : Triple pre handler post failed)
    (before : ∀ state, stronger state -> pre state)
    (after : ∀ value state, post value state -> weaker value state) :
    Triple stronger handler weaker failed :=
  triple_iff_ends.mpr (ends_weaken valid before after fun _ _ given => given)

theorem triple_require [Decidable condition] {post : Unit -> σ -> Prop}
    (implies : ∀ state, pre state -> failed state)
    (holds : ∀ state, pre state -> condition -> post () state) :
    Triple pre (require condition status) post failed :=
  triple_iff_ends.mpr (ends_weaken (ends_require fun state given _ => implies state given)
    (fun _ given => given) (fun _ state known => holds state known.1 known.2) fun _ _ given => given)

theorem triple_found {value : Option α} (implies : ∀ state, pre state -> failed state)
    (holds : ∀ inner state, value = some inner -> pre state -> post inner state) :
    Triple pre (found value status) post failed :=
  triple_iff_ends.mpr (ends_weaken (ends_found fun state given _ => implies state given)
    (fun _ given => given) (fun inner state known => holds inner state known.2 known.1)
    fun _ _ given => given)

theorem triple_lift {δ : Type} {value : Except δ α} {status : δ -> ε}
    (implies : ∀ state, pre state -> failed state)
    (holds : ∀ inner state, value = .ok inner -> pre state -> post inner state) :
    Triple pre (lift value status) post failed :=
  triple_iff_ends.mpr (ends_weaken (ends_lift fun _ state given _ => implies state given)
    (fun _ given => given) (fun inner state known => holds inner state known.2 known.1)
    fun _ _ given => given)

theorem triple_mapError {handler : Handler σ ε α} {status : ε -> ε} (valid : Triple pre handler post failed) :
    Triple pre (mapError handler status) post failed := by
  intro world holds
  have ofHandler := valid world holds
  unfold mapError
  rcases ran : handler world with ⟨outcome, after⟩
  rw [ran] at ofHandler
  cases outcome with
  | ok value => exact ofHandler
  | error cause => exact ofHandler

theorem triple_ite [Decidable condition] {left right : Handler σ ε α}
    (ofLeft : condition -> Triple pre left post failed) (ofRight : ¬ condition -> Triple pre right post failed) :
    Triple pre (if condition then left else right) post failed :=
  triple_iff_ends.mpr (ends_ite ofLeft ofRight)

/-- An assertion that the body keeps holds after the loop. -/
theorem triple_forEach {list : List β} {body : β -> Handler σ ε Unit}
    (kept : ∀ element, element ∈ list -> Triple pre (body element) (fun _ => pre) failed) :
    Triple pre (forEach list body) (fun _ => pre) failed := by
  induction list with
  | nil => exact triple_pure fun _ given => given
  | cons element rest ih =>
      exact triple_bind (kept element List.mem_cons_self) fun _ =>
        ih fun other member => kept other (List.mem_cons_of_mem _ member)

/-! ## Handlers as sequences of steps -/

section Steps

variable (step : σ -> σ -> Prop) (start : σ)

/-- Steps lead from the start to the state, in which some facts hold. -/
def Along (facts : σ -> Prop) (state : σ) : Prop :=
  Relation.ReflTransGen step start state ∧ facts state

/-- Every call of the handler is a step, and the facts before it give the facts
after it. -/
def Follows (facts : σ -> Prop) (handler : Handler σ ε α) (after : α -> σ -> Prop) : Prop :=
  Triple (Along step start facts) handler (fun value => Along step start (after value))
    (Relation.ReflTransGen step start)

variable {step start} {facts : σ -> Prop}

variable {after : α -> σ -> Prop} {handler : Handler σ ε α}

/-- A call leaves the state as it is or makes a step. -/
theorem follows_call {transaction : Transaction σ α} {status : String -> ε}
    (sound : ∀ before value last, Relation.ReflTransGen step start before -> facts before ->
      transaction.Leads before value last ->
        (last = before ∨ step before last) ∧ after value last) :
    Follows step start facts (call transaction status) after := by
  intro world holds
  unfold call
  rcases ran : transaction.run world.state (world.plans.headD []) with ⟨outcome, last⟩
  cases outcome with
  | ok value =>
      rcases sound world.state value last holds.1 holds.2 (Transaction.leads_of_run ran) with
        ⟨rfl | stepped, given⟩
      · exact ⟨holds.1, given⟩
      · exact ⟨holds.1.tail stepped, given⟩
  | error cause =>
      rw [Transaction.run_error ran]
      exact holds.1

/-- Changes of this kind are steps and keep the facts. -/
def Permits (step : σ -> σ -> Prop) (start : σ) (facts : σ -> Prop) (change : σ -> σ -> Prop) :
    Prop :=
  ∀ before last, Along step start facts before -> change before last ->
    step before last ∧ facts last

/-- A call that changes the state in a permitted way, if at all. -/
theorem follows_change {transaction : Transaction σ α} {status : String -> ε}
    {change : σ -> σ -> Prop} (permits : Permits step start facts change)
    (changes : ∀ before value last, facts before -> transaction.Leads before value last ->
      last = before ∨ change before last) :
    Follows step start facts (call transaction status) (fun _ => facts) := by
  apply follows_call
  intro before value last steps given leads
  rcases changes before value last given leads with rfl | changed
  · exact ⟨.inl rfl, given⟩
  · rcases permits before last ⟨steps, given⟩ changed with ⟨stepped, kept⟩
    exact ⟨.inr stepped, kept⟩

/-- A call that only reads. -/
theorem follows_query {read : σ -> Except String α} {status : String -> ε} :
    Follows step start facts (call (Transaction.query read) status)
      (fun value state => facts state ∧ read state = .ok value) := by
  apply follows_call
  intro before value last _ given leads
  rcases Transaction.leads_query leads with ⟨success, rfl⟩
  exact ⟨.inl rfl, given, success⟩

theorem follows_bind {first : Handler σ ε α} {next : α -> Handler σ ε β}
    {middle : α -> σ -> Prop} {after : β -> σ -> Prop} (left : Follows step start facts first middle)
    (right : ∀ value, Follows step start (middle value) (next value) after) :
    Follows step start facts (first >>= next) after :=
  triple_bind left right

theorem follows_pure {value : α} (implies : ∀ state, facts state -> after value state) :
    Follows step start facts (pure value : Handler σ ε α) after :=
  triple_pure fun state holds => ⟨holds.1, implies state holds.2⟩

theorem follows_throw {status : ε} :
    Follows step start facts (throw status : Handler σ ε α) after :=
  triple_throw fun _ holds => holds.1

theorem follows_require {condition : Prop} [Decidable condition] {status : ε} :
    Follows step start facts (require condition status : Handler σ ε Unit)
      (fun _ state => facts state ∧ condition) :=
  triple_require (fun _ holds => holds.1) fun _ holds true => ⟨holds.1, holds.2, true⟩

theorem follows_found {value : Option α} {status : ε} :
    Follows step start facts (found value status : Handler σ ε α)
      (fun inner state => facts state ∧ value = some inner) :=
  triple_found (fun _ holds => holds.1) fun _ _ same holds => ⟨holds.1, holds.2, same⟩

theorem follows_lift {δ : Type} {value : Except δ α} {status : δ -> ε} :
    Follows step start facts (lift value status : Handler σ ε α)
      (fun inner state => facts state ∧ value = .ok inner) :=
  triple_lift (fun _ holds => holds.1) fun _ _ same holds => ⟨holds.1, holds.2, same⟩

theorem follows_mapError {status : ε -> ε} (valid : Follows step start facts handler after) :
    Follows step start facts (mapError handler status) after :=
  triple_mapError valid

theorem follows_weaken {stronger : σ -> Prop} {after weaker : α -> σ -> Prop}
    (valid : Follows step start facts handler after) (before : ∀ state, stronger state -> facts state)
    (later : ∀ value state, after value state -> weaker value state) :
    Follows step start stronger handler weaker :=
  triple_weaken valid (fun state holds => ⟨holds.1, before state holds.2⟩)
    fun value state holds => ⟨holds.1, later value state holds.2⟩

/-- What holds wherever the steps lead is a fact as well. -/
theorem follows_strengthen {extra : σ -> Prop}
    (given : ∀ state, Relation.ReflTransGen step start state -> extra state)
    (valid : Follows step start (fun state => facts state ∧ extra state) handler after) :
    Follows step start facts handler after :=
  triple_weaken valid (fun state holds => ⟨holds.1, holds.2, given state holds.1⟩)
    fun _ _ holds => holds

/-- A handler keeps what does not depend on the state, whatever its calls do. -/
theorem follows_fixed {fixed : Prop} :
    Follows (fun _ _ => True) start (fun _ => fixed) handler (fun _ _ => fixed) := by
  intro world holds
  rcases ran : handler world with ⟨outcome, last⟩
  have steps : Relation.ReflTransGen (fun _ _ : σ => True) start last.state := .single trivial
  cases outcome with
  | ok value => exact ⟨steps, holds.2⟩
  | error status => exact steps

theorem follows_ite {condition : Prop} [Decidable condition] {left right : Handler σ ε α}
    (ofLeft : condition -> Follows step start facts left after)
    (ofRight : ¬ condition -> Follows step start facts right after) :
    Follows step start facts (if condition then left else right) after :=
  triple_ite ofLeft ofRight

theorem follows_forEach {list : List β} {body : β -> Handler σ ε Unit}
    (kept : ∀ element, element ∈ list ->
      Follows step start facts (body element) (fun _ => facts)) :
    Follows step start facts (forEach list body) (fun _ => facts) :=
  triple_forEach kept

/-- Whatever the outcome, steps lead to the state at the end. -/
theorem Follows.steps (valid : Follows step start facts handler after) {world last : World σ} {outcome : Except ε α}
    (atStart : world.state = start) (given : facts start) (ran : handler world = (outcome, last)) :
    Relation.ReflTransGen step start last.state := by
  have holds := valid world ⟨by rw [atStart], by rw [atStart]; exact given⟩
  rw [ran] at holds
  cases outcome with
  | ok value => exact holds.1
  | error status => exact holds

/-- What holds when the handler succeeds. -/
theorem Follows.result (valid : Follows step start facts handler after) {world last : World σ} {value : α}
    (atStart : world.state = start) (given : facts start) (ran : handler world = (.ok value, last)) :
    after value last.state := by
  have holds := valid world ⟨by rw [atStart], by rw [atStart]; exact given⟩
  rw [ran] at holds
  exact holds.2

/-- What each step keeps is kept, also by a handler that fails. -/
theorem triple_of_follows {invariant : σ -> Prop}
    (valid : ∀ start, Follows (fun before last => invariant before -> invariant last) start
      (fun _ => True) handler (fun _ _ => True)) :
    Triple invariant handler (fun _ => invariant) invariant := by
  have kept {first last : σ} (holds : invariant first)
      (steps : Relation.ReflTransGen (fun before after => invariant before -> invariant after) first last) :
      invariant last := by
    induction steps with
    | refl => exact holds
    | tail _ step ih => exact step ih
  intro world holds
  cases ran : handler world with
  | mk outcome last =>
      have steps := (valid world.state).steps rfl trivial ran
      cases outcome with
      | ok value => exact kept holds steps
      | error status => exact kept holds steps

end Steps

end Handler

end Library
end Memos
