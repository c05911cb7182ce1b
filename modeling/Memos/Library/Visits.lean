import Mathlib.Data.List.Basic

namespace Memos
namespace Library

/-!
# Walks of trees

A depth-first walk calls a walker when it enters a node and when it leaves it.
The walker changes a state, may pass over the children of a node and may stop
the walk.  Such a walk is a walk along the list of its visits.
-/

/-- A tree with any number of children at a node. -/
inductive Rose (α : Type) where
  | node (label : α) (children : List (Rose α))

inductive Visit (α : Type) where
  | enter (label : α)
  | leave (label : α)
deriving DecidableEq

inductive WalkStatus where
  | stop
  | skipChildren
  | proceed
deriving DecidableEq

variable {α σ : Type}

/-! ## The walk -/

section Walk

variable (walker : Visit α -> σ -> σ × WalkStatus)

/-- The state when a node is left, unless the walk was stopped below it. -/
def leaveNode (label : α) : σ × Bool -> σ × Bool
  | (state, true) => (state, true)
  | (state, false) => ((walker (.leave label) state).1, decide ((walker (.leave label) state).2 = .stop))

mutual

/-- The walk of a tree, with a flag that tells whether it was stopped. -/
def walk : Rose α -> σ -> σ × Bool
  | .node label children, state =>
      match walker (.enter label) state with
      | (entered, .stop) => (entered, true)
      | (entered, .skipChildren) => leaveNode walker label (entered, false)
      | (entered, .proceed) => leaveNode walker label (walkAll children entered)

def walkAll : List (Rose α) -> σ -> σ × Bool
  | [], state => (state, false)
  | tree :: trees, state =>
      match walk tree state with
      | (walked, true) => (walked, true)
      | (walked, false) => walkAll trees walked

end

end Walk

/-! ## The visits -/

section Visits

variable (skips : α -> Bool)

mutual

/-- The visits of a walk that passes over the children of these nodes. -/
def Rose.visits : Rose α -> List (Visit α)
  | .node label children =>
      .enter label :: ((if skips label then [] else Rose.visitsAll children) ++ [.leave label])

def Rose.visitsAll : List (Rose α) -> List (Visit α)
  | [] => []
  | tree :: trees => Rose.visits tree ++ Rose.visitsAll trees

end

end Visits

section Follow

variable (walker : Visit α -> σ -> σ × WalkStatus)

/-- The walk along a list of visits. -/
def follow : List (Visit α) -> σ -> σ × Bool
  | [], state => (state, false)
  | visit :: visits, state =>
      if (walker visit state).2 = .stop then ((walker visit state).1, true)
      else follow visits (walker visit state).1

/-- The state after all visits of a list, whatever the walker says. -/
def afterAll (visits : List (Visit α)) (state : σ) : σ :=
  visits.foldl (fun state visit => (walker visit state).1) state

end Follow

variable {walker : Visit α -> σ -> σ × WalkStatus} {skips : α -> Bool}

theorem afterAll_append {first second : List (Visit α)} {state : σ} :
    afterAll walker (first ++ second) state = afterAll walker second (afterAll walker first state) := by
  unfold afterAll
  rw [List.foldl_append]

theorem follow_append {first second : List (Visit α)} {state : σ} :
    follow walker (first ++ second) state =
      if (follow walker first state).2 = true then follow walker first state
      else follow walker second (follow walker first state).1 := by
  induction first generalizing state with
  | nil => rfl
  | cons visit first ih =>
      rw [List.cons_append, follow, follow]
      by_cases stops : (walker visit state).2 = .stop
      · rw [if_pos stops, if_pos stops, if_pos rfl]
      · rw [if_neg stops, if_neg stops, ih]

theorem follow_singleton {visit : Visit α} {state : σ} :
    follow walker [visit] state = ((walker visit state).1, decide ((walker visit state).2 = .stop)) := by
  rw [follow, follow]
  by_cases stops : (walker visit state).2 = .stop
  · rw [if_pos stops, decide_eq_true stops]
  · rw [if_neg stops, decide_eq_false stops]

mutual

/-- The walk of a tree follows its visits. -/
theorem walk_eq_follow
    (skipped : ∀ label state, (walker (.enter label) state).2 = .skipChildren ↔ skips label = true) :
    ∀ (tree : Rose α) (state : σ), walk walker tree state = follow walker (tree.visits skips) state
  | .node label children, state => by
      have left : ∀ walked : σ × Bool, leaveNode walker label walked =
          if walked.2 = true then walked else follow walker [.leave label] walked.1 := by
        rintro ⟨walked, _ | _⟩
        · exact follow_singleton.symm
        · rfl
      have below := walkAll_eq_follow skipped children (walker (.enter label) state).1
      have skip := skipped label state
      rw [walk, Rose.visits, follow]
      rcases entered : walker (.enter label) state with ⟨next, _ | _ | _⟩
      · rfl
      · rw [entered] at skip
        rw [if_neg (by simp), if_pos (skip.mp rfl)]
        dsimp only
        rw [left]
        rfl
      · rw [entered] at skip below
        have notSkipped : ¬ skips label = true := fun isSkipped => by cases skip.mpr isSkipped
        rw [if_neg (by simp), if_neg notSkipped, follow_append, ← below]
        dsimp only
        rw [left, below]

theorem walkAll_eq_follow
    (skipped : ∀ label state, (walker (.enter label) state).2 = .skipChildren ↔ skips label = true) :
    ∀ (trees : List (Rose α)) (state : σ),
      walkAll walker trees state = follow walker (Rose.visitsAll skips trees) state
  | [], _ => by
      rw [walkAll, Rose.visitsAll, follow]
  | tree :: trees, state => by
      rw [walkAll, Rose.visitsAll, follow_append, ← walk_eq_follow skipped tree state]
      rcases walk walker tree state with ⟨walked, _ | _⟩
      · exact walkAll_eq_follow skipped trees walked
      · rfl

end

/-- The visits up to the stop, or all of them. -/
theorem follow_reaches (visits : List (Visit α)) (state : σ) :
    Exists fun reached => Exists fun rest => visits = reached ++ rest ∧
      (follow walker visits state).1 = afterAll walker reached state ∧
      (rest = [] ∨ Exists fun before => Exists fun visit => reached = before ++ [visit] ∧
        (walker visit (afterAll walker before state)).2 = .stop) := by
  induction visits generalizing state with
  | nil => exact ⟨[], [], rfl, rfl, Or.inl rfl⟩
  | cons visit visits ih =>
      rw [follow]
      by_cases stops : (walker visit state).2 = .stop
      · rw [if_pos stops]
        exact ⟨[visit], visits, rfl, rfl, Or.inr ⟨[], visit, rfl, stops⟩⟩
      · rw [if_neg stops]
        rcases ih (walker visit state).1 with ⟨reached, rest, rfl, same, ends⟩
        refine ⟨visit :: reached, rest, rfl, same, ends.imp id ?_⟩
        rintro ⟨before, last, rfl, isStop⟩
        exact ⟨visit :: before, last, rfl, isStop⟩

end Library
end Memos
