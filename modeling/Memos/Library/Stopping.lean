import Memos.Library.Interleaving

namespace Memos
namespace Library

/-!
# Stopped programs

A program alone on a deterministic state: what it returns, how many operations
it performs, and the state in which a stop after some of them leaves it.  The
rules for sequences say in which part a stop falls.
-/

namespace Program

variable {Operation : Type} {Reply : Operation -> Type} {σ α β : Type}
  (machine : σ -> (operation : Operation) -> Reply operation × σ)

/-- The result and the state at the end. -/
def run : Program Operation Reply α -> σ -> α × σ
  | .done result, state => (result, state)
  | .perform operation next, state =>
      (next (machine state operation).1).run (machine state operation).2

/-- The number of operations. -/
def steps : Program Operation Reply α -> σ -> Nat
  | .done _, _ => 0
  | .perform operation next, state =>
      (next (machine state operation).1).steps (machine state operation).2 + 1

/-- The state after so many operations, or at the end. -/
def stop : Program Operation Reply α -> Nat -> σ -> σ
  | .done _, _, state => state
  | .perform _ _, 0, state => state
  | .perform operation next, count + 1, state =>
      (next (machine state operation).1).stop count (machine state operation).2

variable {machine}

theorem run_perform (operation : Operation) (next : Reply operation -> Program Operation Reply α)
    (state : σ) : (perform operation next).run machine state =
      (next (machine state operation).1).run machine (machine state operation).2 := rfl

theorem run_bind (program : Program Operation Reply α) (next : α -> Program Operation Reply β)
    (state : σ) : (program >>= next).run machine state =
      (next (program.run machine state).1).run machine (program.run machine state).2 := by
  induction program generalizing state with
  | done result => rfl
  | perform operation rest ih =>
      rw [perform_bind, run_perform, run_perform, ih]

theorem steps_bind (program : Program Operation Reply α) (next : α -> Program Operation Reply β)
    (state : σ) : (program >>= next).steps machine state =
      program.steps machine state +
        (next (program.run machine state).1).steps machine (program.run machine state).2 := by
  induction program generalizing state with
  | done result => exact (Nat.zero_add _).symm
  | perform operation rest ih =>
      rw [perform_bind, steps, ih, steps, run_perform, Nat.add_right_comm]

theorem stop_zero (program : Program Operation Reply α) (state : σ) :
    program.stop machine 0 state = state := by
  cases program with
  | done result => rfl
  | perform operation next => rfl

theorem stop_perform_succ (operation : Operation)
    (next : Reply operation -> Program Operation Reply α) (count : Nat) (state : σ) :
    (perform operation next).stop machine (count + 1) state =
      (next (machine state operation).1).stop machine count (machine state operation).2 := rfl

/-- A stop of a sequence falls in its first part or, later, in the rest. -/
theorem stop_bind (program : Program Operation Reply α) (next : α -> Program Operation Reply β)
    (count : Nat) (state : σ) : (program >>= next).stop machine count state =
      if count < program.steps machine state then program.stop machine count state
      else (next (program.run machine state).1).stop machine (count - program.steps machine state)
        (program.run machine state).2 := by
  induction program generalizing count state with
  | done result => rfl
  | perform operation rest ih =>
      cases count with
      | zero => rfl
      | succ count =>
          rw [perform_bind, stop_perform_succ, ih, stop_perform_succ, run_perform,
            steps, Nat.add_sub_add_right]
          simp only [Nat.add_lt_add_iff_right]

/-- A stop after the last operation is no stop. -/
theorem stop_of_steps_le (program : Program Operation Reply α) {count : Nat} {state : σ}
    (enough : program.steps machine state ≤ count) :
    program.stop machine count state = (program.run machine state).2 := by
  induction program generalizing count state with
  | done result => rfl
  | perform operation rest ih =>
      cases count with
      | zero => cases enough
      | succ count =>
          rw [stop_perform_succ, run_perform]
          exact ih _ (Nat.le_of_succ_le_succ enough)

end Program

end Library
end Memos
