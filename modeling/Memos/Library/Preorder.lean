import Memos.Library.Visits

namespace Memos
namespace Library

/-!
# Changing the labels of a tree

A visitor sees the nodes of a tree in preorder, each with what is below it, and
may give a node another label.  The labels it leaves are those of a walk along
the list of the subtrees.
-/

variable {α β σ : Type}

mutual

/-- The subtrees of a tree, each before those below it. -/
def Rose.subtrees : Rose α -> List (Rose α)
  | .node label children => .node label children :: Rose.subtreesAll children

def Rose.subtreesAll : List (Rose α) -> List (Rose α)
  | [] => []
  | tree :: trees => Rose.subtrees tree ++ Rose.subtreesAll trees

end

def Rose.label : Rose α -> α
  | .node label _ => label

section Relabel

variable (visitor : Rose α -> σ -> α × σ)

mutual

/-- The tree with the labels of the visitor, and the state behind the visit. -/
def relabel : Rose α -> σ -> Rose α × σ
  | .node label children, state =>
      let visited := visitor (.node label children) state
      let below := relabelAll children visited.2
      (.node visited.1 below.1, below.2)

def relabelAll : List (Rose α) -> σ -> List (Rose α) × σ
  | [], state => ([], state)
  | tree :: trees, state =>
      let first := relabel tree state
      let others := relabelAll trees first.2
      (first.1 :: others.1, others.2)

end

/-- The labels a visitor gives along a list. -/
def labelsAlong : List (Rose α) -> σ -> List α × σ
  | [], state => ([], state)
  | tree :: trees, state =>
      let visited := visitor tree state
      let others := labelsAlong trees visited.2
      (visited.1 :: others.1, others.2)

theorem labelsAlong_append (first second : List (Rose α)) (state : σ) :
    labelsAlong visitor (first ++ second) state =
      ((labelsAlong visitor first state).1 ++
          (labelsAlong visitor second (labelsAlong visitor first state).2).1,
        (labelsAlong visitor second (labelsAlong visitor first state).2).2) := by
  induction first generalizing state with
  | nil => rfl
  | cons tree first ih =>
      rw [List.cons_append, labelsAlong, ih]
      rfl

mutual

/-- The labels of a visited tree, in preorder. -/
theorem labels_relabel : ∀ (tree : Rose α) (state : σ),
    (((relabel visitor tree state).1.subtrees).map Rose.label, (relabel visitor tree state).2) =
      labelsAlong visitor tree.subtrees state
  | .node label children, state => by
      have below := labels_relabelAll children (visitor (.node label children) state).2
      rw [Rose.subtrees, labelsAlong, ← below, relabel, Rose.subtrees, List.map_cons]
      rfl

theorem labels_relabelAll : ∀ (trees : List (Rose α)) (state : σ),
    ((Rose.subtreesAll (relabelAll visitor trees state).1).map Rose.label,
        (relabelAll visitor trees state).2) =
      labelsAlong visitor (Rose.subtreesAll trees) state
  | [], state => by
      simp only [relabelAll, Rose.subtreesAll, labelsAlong, List.map_nil]
  | tree :: trees, state => by
      have first := labels_relabel tree state
      have others := labels_relabelAll trees (relabel visitor tree state).2
      rw [Rose.subtreesAll, labelsAlong_append, ← first]
      dsimp only
      rw [← others, relabelAll]
      dsimp only
      rw [Rose.subtreesAll, List.map_append]

end

end Relabel

end Library
end Memos
