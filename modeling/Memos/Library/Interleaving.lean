import Mathlib.Logic.Function.Basic
import Mathlib.Logic.Relation

namespace Memos
namespace Library

/-!
# Interleaved programs

A program performs operations on a shared state and goes on with their
replies.  A pool runs a family of programs: one step is one operation of one
of them, or a change that no program makes.  The index of the family may be
infinite, so a program that has not started yet is one that has not made a
step.
-/

/-- A sequence of operations that depends on their replies. -/
inductive Program (Operation : Type) (Reply : Operation -> Type) (α : Type) where
  | done (result : α)
  | perform (operation : Operation) (next : Reply operation -> Program Operation Reply α)

namespace Program

variable {Operation : Type} {Reply : Operation -> Type} {α β : Type}

def bind : Program Operation Reply α -> (α -> Program Operation Reply β) ->
    Program Operation Reply β
  | .done result, next => next result
  | .perform operation rest, next => .perform operation fun reply => (rest reply).bind next

instance : Monad (Program Operation Reply) where
  pure := .done
  bind := bind

theorem perform_bind (operation : Operation)
    (rest : Reply operation -> Program Operation Reply α) (next : α -> Program Operation Reply β) :
    (perform operation rest >>= next) = perform operation fun reply => rest reply >>= next := rfl

theorem bind_assoc {γ : Type} (program : Program Operation Reply α)
    (first : α -> Program Operation Reply β) (second : β -> Program Operation Reply γ) :
    ((program >>= first) >>= second) = program >>= fun result => first result >>= second := by
  induction program with
  | done result => rfl
  | perform operation rest ih =>
      rw [perform_bind, perform_bind, perform_bind]
      exact congrArg _ (funext ih)

/-- As long as the replies are as expected, every operation meets the demands
and the result is as wanted. -/
def Ensures (demands : Operation -> Prop) (expects : ∀ operation, Reply operation -> Prop)
    (wanted : α -> Prop) : Program Operation Reply α -> Prop
  | .done result => wanted result
  | .perform operation next => demands operation ∧
      ∀ reply, expects operation reply -> (next reply).Ensures demands expects wanted

theorem Ensures.bind {demands : Operation -> Prop}
    {expects : ∀ operation, Reply operation -> Prop} {between : α -> Prop} {wanted : β -> Prop}
    {program : Program Operation Reply α} {next : α -> Program Operation Reply β}
    (first : program.Ensures demands expects between)
    (rest : ∀ result, between result -> (next result).Ensures demands expects wanted) :
    (program >>= next).Ensures demands expects wanted := by
  induction program with
  | done result => exact rest result first
  | perform operation _ ih =>
      rcases first with ⟨demanded, continues⟩
      exact ⟨demanded, fun reply expected => ih reply (continues reply expected)⟩

end Program

/-- A shared state and the programs that still have to run. -/
structure Pool (σ ι : Type) (Operation : Type) (Reply : Operation -> Type) (α : Type) where
  shared : σ
  programs : ι -> Program Operation Reply α

namespace Pool

variable {σ ι Operation : Type} {Reply : Operation -> Type} {α : Type} [DecidableEq ι]

/-- What an operation does to the shared state, with its reply. -/
abbrev Effect (σ Operation : Type) (Reply : Operation -> Type) : Type :=
  σ -> (operation : Operation) -> Reply operation -> σ -> Prop

/-- One operation of one program, where `permitted` allows it, or one change of
the background. -/
inductive Step (effect : Effect σ Operation Reply) (background : σ -> σ -> Prop)
    (permitted : Pool σ ι Operation Reply α -> ι -> (operation : Operation) ->
      Reply operation -> σ -> Prop) :
    Pool σ ι Operation Reply α -> Pool σ ι Operation Reply α -> Prop where
  | operation {pool : Pool σ ι Operation Reply α} (index : ι) {operation : Operation}
      {next : Reply operation -> Program Operation Reply α} {reply : Reply operation} {after : σ}
      (current : pool.programs index = .perform operation next)
      (effective : effect pool.shared operation reply after)
      (allowed : permitted pool index operation reply after) :
      Step effect background permitted pool
        ⟨after, Function.update pool.programs index (next reply)⟩
  | background {pool : Pool σ ι Operation Reply α} {after : σ}
      (change : background pool.shared after) :
      Step effect background permitted pool ⟨after, pool.programs⟩

/-- Pools reached by steps. -/
def Run (effect : Effect σ Operation Reply) (background : σ -> σ -> Prop)
    (permitted : Pool σ ι Operation Reply α -> ι -> (operation : Operation) ->
      Reply operation -> σ -> Prop) :
    Pool σ ι Operation Reply α -> Pool σ ι Operation Reply α -> Prop :=
  Relation.ReflTransGen (Step effect background permitted)

variable {effect : Effect σ Operation Reply} {background : σ -> σ -> Prop}
  {permitted : Pool σ ι Operation Reply α -> ι -> (operation : Operation) ->
    Reply operation -> σ -> Prop}
  {start last : Pool σ ι Operation Reply α}

/-- A run goes on with one operation. -/
theorem Run.operation {pool : Pool σ ι Operation Reply α}
    (run : Run effect background permitted start pool) (index : ι) {operation : Operation}
    {next : Reply operation -> Program Operation Reply α}
    (current : pool.programs index = .perform operation next) (reply : Reply operation) (after : σ)
    (effective : effect pool.shared operation reply after)
    (allowed : permitted pool index operation reply after) :
    Run effect background permitted start
      ⟨after, Function.update pool.programs index (next reply)⟩ :=
  run.tail (.operation index current effective allowed)

/-- What a run permits may be put into its effect. -/
theorem Run.strengthen {stronger : Effect σ Operation Reply}
    (run : Run effect background permitted start last)
    (implies : ∀ (pool : Pool σ ι Operation Reply α) index operation reply after,
      effect pool.shared operation reply after -> permitted pool index operation reply after ->
        stronger pool.shared operation reply after) :
    Run stronger background (fun _ _ _ _ _ => True) start last := by
  induction run with
  | refl => exact .refl
  | tail _ step ih =>
      refine ih.tail ?_
      cases step with
      | operation index current effective allowed =>
          exact .operation index current (implies _ index _ _ _ effective allowed) trivial
      | background change => exact .background change

/-! ## One program alone -/

/-- A program that runs from its first step to its result, with nobody beside
it. -/
def Executes (effect : Effect σ Operation Reply) :
    σ -> Program Operation Reply α -> α -> σ -> Prop
  | before, .done result, returned, after => result = returned ∧ before = after
  | before, .perform operation next, returned, after =>
      Exists fun reply => Exists fun between =>
        effect before operation reply between ∧ Executes effect between (next reply) returned after

theorem executes_bind {β : Type} {before after : σ} {program : Program Operation Reply α}
    {next : α -> Program Operation Reply β} {returned : β} :
    Executes effect before (program >>= next) returned after ↔
      Exists fun result => Exists fun between =>
        Executes effect before program result between ∧
          Executes effect between (next result) returned after := by
  induction program generalizing before with
  | done result =>
      constructor
      · exact fun executes => ⟨result, before, ⟨rfl, rfl⟩, executes⟩
      · rintro ⟨_, _, ⟨rfl, rfl⟩, executes⟩
        exact executes
  | perform operation rest ih =>
      constructor
      · rintro ⟨reply, between, effective, executes⟩
        rcases (ih reply).mp executes with ⟨result, middle, first, second⟩
        exact ⟨result, middle, ⟨reply, between, effective, first⟩, second⟩
      · rintro ⟨result, middle, ⟨reply, between, effective, first⟩, second⟩
        exact ⟨reply, between, effective, (ih reply).mpr ⟨_, _, first, second⟩⟩

/-! ## Invariants -/

/-- What every step keeps holds at the end of a run. -/
theorem Run.induction {invariant : Pool σ ι Operation Reply α -> Prop}
    (run : Run effect background permitted start last) (holds : invariant start)
    (kept : ∀ before after, invariant before -> Step effect background permitted before after ->
      invariant after) : invariant last := by
  induction run with
  | refl => exact holds
  | tail _ step ih => exact kept _ _ ih step

/-- What a program demands whatever the replies, it demands along every run. -/
theorem Run.demanded {demands : ι -> Operation -> Prop} {wanted : ι -> α -> Prop}
    (run : Run effect background permitted start last)
    (ensured : ∀ index,
      (start.programs index).Ensures (demands index) (fun _ _ => True) (wanted index)) :
    ∀ index, (last.programs index).Ensures (demands index) (fun _ _ => True) (wanted index) := by
  induction run with
  | refl => exact ensured
  | tail _ step ih =>
      cases step with
      | background change => exact ih
      | @operation index operation next reply after current effective allowed =>
          intro other
          dsimp only
          by_cases same : other = index
          · subst same
            have own := ih other
            rw [current] at own
            rw [Function.update_self]
            exact own.2 reply trivial
          · rw [Function.update_of_ne same]
            exact ih other

/-- Programs that meet the demands keep an invariant of the shared state when
every demanded operation keeps it and is answered as expected. -/
theorem Run.ensures {invariant : σ -> Prop} {demands : Operation -> Prop}
    {expects : ∀ operation, Reply operation -> Prop} {wanted : α -> Prop}
    (run : Run effect background permitted start last) (holds : invariant start.shared)
    (ensured : ∀ index, (start.programs index).Ensures demands expects wanted)
    (changes : ∀ before after, invariant before -> background before after -> invariant after)
    (operates : ∀ (pool : Pool σ ι Operation Reply α) index operation reply after,
      invariant pool.shared -> demands operation -> effect pool.shared operation reply after ->
      permitted pool index operation reply after -> invariant after ∧ expects operation reply) :
    invariant last.shared ∧
      ∀ index, (last.programs index).Ensures demands expects wanted := by
  induction run with
  | refl => exact ⟨holds, ensured⟩
  | tail _ step ih =>
      rcases ih with ⟨holds, ensured⟩
      cases step with
      | background change => exact ⟨changes _ _ holds change, ensured⟩
      | operation index current effective allowed =>
          have own := ensured index
          rw [current] at own
          rcases operates _ index _ _ _ holds own.1 effective allowed with ⟨kept, expected⟩
          refine ⟨kept, fun other => ?_⟩
          dsimp only
          by_cases same : other = index
          · rw [same, Function.update_self]
            exact own.2 _ expected
          · rw [Function.update_of_ne same]
            exact ensured other

end Pool

end Library
end Memos
