import Memos.Library.Interleaving

namespace Memos
namespace Library

/-!
# Programs that know

What a program knows of the shared state grows with the replies it gets.  Its
operations may demand knowledge, and so may its result.  In a pool the
knowledge of every program stays true, if no operation that is made with its
demands met spoils what the others know.
-/

section Guided

variable {Operation : Type} {Reply : Operation -> Type} {α β κ : Type}

/-- What a kind of program demands, expects and learns. -/
structure Guide (Operation : Type) (Reply : Operation -> Type) (κ : Type) where
  demands : κ -> Operation -> Prop
  expects : ∀ operation, Reply operation -> Prop
  learn : κ -> ∀ operation, Reply operation -> κ

variable (guide : Guide Operation Reply κ)

/-- Knowing enough for each operation, and in the end what is wanted. -/
def Program.Guided (wanted : κ -> α -> Prop) : κ -> Program Operation Reply α -> Prop
  | known, .done result => wanted known result
  | known, .perform operation next => guide.demands known operation ∧
      ∀ reply, guide.expects operation reply ->
        (next reply).Guided wanted (guide.learn known operation reply)

variable {guide}

theorem Program.Guided.bind {between : κ -> α -> Prop} {wanted : κ -> β -> Prop}
    {program : Program Operation Reply α} {next : α -> Program Operation Reply β} {known : κ}
    (first : program.Guided guide between known)
    (rest : ∀ known result, between known result -> (next result).Guided guide wanted known) :
    (program >>= next).Guided guide wanted known := by
  induction program generalizing known with
  | done result => exact rest known result first
  | perform operation _ ih =>
      rcases first with ⟨demanded, continues⟩
      exact ⟨demanded, fun reply expected => ih reply (continues reply expected)⟩

/-- One operation before the rest. -/
theorem Program.Guided.perform_bind {wanted : κ -> β -> Prop} {operation : Operation}
    {next : Reply operation -> Program Operation Reply β} {known : κ}
    (demanded : guide.demands known operation)
    (rest : ∀ reply, guide.expects operation reply ->
      (next reply).Guided guide wanted (guide.learn known operation reply)) :
    ((Program.perform operation Program.done) >>= next).Guided guide wanted known :=
  ⟨demanded, rest⟩

end Guided

namespace Pool

variable {σ ι Operation : Type} {Reply : Operation -> Type} {α κ : Type} [DecidableEq ι]
  {effect : Effect σ Operation Reply} {background : σ -> σ -> Prop}
  {permitted : Pool σ ι Operation Reply α -> ι -> (operation : Operation) ->
    Reply operation -> σ -> Prop}
  {start last : Pool σ ι Operation Reply α}

/-- Every program of the pool knows enough, and what it knows is true. -/
def Guided (guide : ι -> Guide Operation Reply κ) (holds : σ -> ι -> κ -> Prop)
    (wanted : ι -> κ -> α -> Prop) (pool : Pool σ ι Operation Reply α) : Prop :=
  ∀ index, Exists fun known =>
    holds pool.shared index known ∧ (pool.programs index).Guided (guide index) (wanted index) known

/-- What an operation must not spoil, and what it has to make true. -/
structure Guards (effect : Effect σ Operation Reply) (guide : ι -> Guide Operation Reply κ)
    (invariant : σ -> Prop) (holds : σ -> ι -> κ -> Prop) : Prop where
  preserved : ∀ {before after index known operation reply}, invariant before ->
    holds before index known -> (guide index).demands known operation ->
    effect before operation reply after -> invariant after
  expected : ∀ {before after index known operation reply}, invariant before ->
    holds before index known -> (guide index).demands known operation ->
    effect before operation reply after -> (guide index).expects operation reply
  learnt : ∀ {before after index known operation reply}, invariant before ->
    holds before index known -> (guide index).demands known operation ->
    effect before operation reply after ->
    holds after index ((guide index).learn known operation reply)
  unspoilt : ∀ {before after index known operation reply}, invariant before ->
    holds before index known -> (guide index).demands known operation ->
    effect before operation reply after -> ∀ {other knownOther}, other ≠ index ->
      holds before other knownOther -> holds after other knownOther

/-- Invariant and knowledge hold at the end of a run. -/
theorem Run.guided {guide : ι -> Guide Operation Reply κ} {invariant : σ -> Prop}
    {holds : σ -> ι -> κ -> Prop} {wanted : ι -> κ -> α -> Prop}
    (run : Run effect (fun _ _ => False) permitted start last)
    (guards : Guards effect guide invariant holds) (sound : invariant start.shared)
    (guided : start.Guided guide holds wanted) :
    invariant last.shared ∧ last.Guided guide holds wanted := by
  induction run with
  | refl => exact ⟨sound, guided⟩
  | tail _ step ih =>
      rcases ih with ⟨sound, guided⟩
      cases step with
      | background change => exact change.elim
      | operation index current effective _ =>
          rcases guided index with ⟨known, true, continues⟩
          rw [current] at continues
          rcases continues with ⟨demanded, continues⟩
          refine ⟨guards.preserved sound true demanded effective, fun other => ?_⟩
          by_cases same : other = index
          · subst same
            refine ⟨_, guards.learnt sound true demanded effective, ?_⟩
            dsimp only
            rw [Function.update_self]
            exact continues _ (guards.expected sound true demanded effective)
          · rcases guided other with ⟨knownOther, trueOther, continuesOther⟩
            refine ⟨knownOther, guards.unspoilt sound true demanded effective same trueOther, ?_⟩
            dsimp only
            rw [Function.update_of_ne same]
            exact continuesOther

end Pool

end Library
end Memos
