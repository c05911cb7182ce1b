namespace Memos
namespace Library

/-!
# Ledgers

A system takes events one after another.  If a step only lets the state hold
what it held before or what the event supplies, then whatever the state holds
after a run was supplied by one of its events.
-/

variable {σ ε κ : Type} (perform : σ -> ε -> σ)

/-- Every event is allowed in the state that it finds. -/
def Along (allowed : σ -> ε -> Prop) : σ -> List ε -> Prop
  | _, [] => True
  | state, event :: events => allowed state event ∧ Along allowed (perform state event) events

variable {perform} {allowed : σ -> ε -> Prop}

theorem along_append {state : σ} {before after : List ε} :
    Along perform allowed state (before ++ after) ↔
      Along perform allowed state before ∧
        Along perform allowed (before.foldl perform state) after := by
  induction before generalizing state with
  | nil => simp [Along]
  | cons event events ih =>
      rw [List.cons_append, Along, Along, ih, List.foldl_cons, and_assoc]

/-- What a run keeps true, step by step. -/
theorem Along.induction (invariant : List ε -> σ -> Prop)
    (step : ∀ seen state event, invariant seen state -> allowed state event ->
      invariant (seen ++ [event]) (perform state event))
    {seen : List ε} {state : σ} (start : invariant seen state) {events : List ε}
    (along : Along perform allowed state events) :
    invariant (seen ++ events) (events.foldl perform state) := by
  induction events generalizing seen state with
  | nil => simpa using start
  | cons event events ih =>
      rw [List.foldl_cons, List.append_cons]
      exact ih (step seen state event start along.1) along.2

/-- Whatever is held after a run was supplied by one of its events. -/
theorem Along.supplied {holds : σ -> κ -> Prop} {supplies : ε -> κ -> Prop}
    (kept : ∀ state event, allowed state event -> ∀ entry,
      holds (perform state event) entry -> holds state entry ∨ supplies event entry)
    {state : σ} (empty : ∀ entry, ¬ holds state entry) {events : List ε}
    (along : Along perform allowed state events) {entry : κ}
    (held : holds (events.foldl perform state) entry) :
    Exists fun event => event ∈ events ∧ supplies event entry := by
  let invariant (seen : List ε) (state : σ) := ∀ entry, holds state entry ->
    Exists fun event => event ∈ seen ∧ supplies event entry
  have step : ∀ seen state event, invariant seen state -> allowed state event ->
      invariant (seen ++ [event]) (perform state event) := by
    intro seen state event known isAllowed entry held
    rcases kept state event isAllowed entry held with old | new
    · rcases known entry old with ⟨earlier, member, supplied⟩
      exact ⟨earlier, List.mem_append_left _ member, supplied⟩
    · exact ⟨event, List.mem_append_right _ (List.mem_singleton.mpr rfl), new⟩
  have start : invariant [] state := fun entry held => absurd held (empty entry)
  exact along.induction invariant step start entry held

end Library
end Memos
