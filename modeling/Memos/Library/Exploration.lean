import Mathlib.Data.List.Basic

namespace Memos
namespace Library

/-!
# Exploring a finite graph

A search keeps the nodes it has met and, among them, those whose successors it
has still to look at.  Every turn takes some of the pending nodes.  A queue
takes one, a walk by frontiers takes all; whatever the turns, the search ends
and meets exactly the nodes that the seeds reach.
-/

/-- A finite graph.  The successors are listed for several nodes at once. -/
structure Graph (α : Type) where
  nodes : List α
  Edge : α -> α -> Prop
  expand : List α -> List α
  mem_expand : ∀ taken next,
    next ∈ expand taken ↔ Exists fun node => node ∈ taken ∧ Edge node next
  edge_mem : ∀ node next, Edge node next -> next ∈ nodes

/-- The nodes that a path from a seed leads to. -/
inductive Graph.Reachable {α : Type} (graph : Graph α) (seeds : List α) : α -> Prop where
  | seed (node : α) : node ∈ seeds -> graph.Reachable seeds node
  | step (node next : α) : graph.Reachable seeds node -> graph.Edge node next ->
      graph.Reachable seeds next

/-- How many of the pending nodes a turn takes. -/
structure Turn (α : Type) where
  size : List α -> Nat
  positive : ∀ pending, 0 < size pending

/-- One node at a time. -/
def Turn.single {α : Type} : Turn α := ⟨fun _ => 1, fun _ => Nat.one_pos⟩

/-- The whole frontier. -/
def Turn.frontier {α : Type} : Turn α :=
  ⟨fun pending => pending.length + 1, fun pending => Nat.succ_pos pending.length⟩

variable {α κ : Type} [DecidableEq κ] (key : α -> κ)

/-- Some node with this key has been met. -/
def met (seen : List α) (node : α) : Bool := seen.any fun other => key other = key node

/-- Those of the nodes that have not been met, the first of each key. -/
def discover (seen : List α) : List α -> List α
  | [] => []
  | node :: rest =>
      if met key seen node then discover seen rest
      else node :: discover (seen ++ [node]) rest

/-- The number of nodes still to be met. -/
def unmet (graph : Graph α) (seen : List α) : Nat :=
  (graph.nodes.filter fun node => !met key seen node).length

/-! ## Every turn comes closer to the end -/

theorem met_append (seen more : List α) (node : α) :
    met key (seen ++ more) node = (met key seen node || met key more node) :=
  List.any_append

theorem mem_of_met {graph : Graph α} {seen : List α} {node : α}
    (inside : ∀ other, other ∈ seen -> other ∈ graph.nodes) (member : node ∈ graph.nodes)
    (injective : ∀ first second, first ∈ graph.nodes -> second ∈ graph.nodes ->
      key first = key second -> first = second)
    (found : met key seen node = true) : node ∈ seen := by
  rcases List.any_eq_true.mp found with ⟨other, inSeen, same⟩
  have equal := injective other node (inside other inSeen) member (of_decide_eq_true same)
  rw [← equal]
  exact inSeen

theorem mem_of_mem_discover {seen list : List α} {node : α}
    (member : node ∈ discover key seen list) : node ∈ list := by
  induction list generalizing seen with
  | nil => exact member
  | cons head rest ih =>
      unfold discover at member
      split at member
      · exact List.mem_cons_of_mem _ (ih member)
      · rcases List.mem_cons.mp member with rfl | later
        · exact List.mem_cons_self
        · exact List.mem_cons_of_mem _ (ih later)

theorem met_of_mem_discover {seen list : List α} {node : α} (member : node ∈ list) :
    met key (seen ++ discover key seen list) node = true := by
  induction list generalizing seen with
  | nil => cases member
  | cons head rest ih =>
      have headMet : met key (seen ++ discover key seen (head :: rest)) head = true := by
        unfold discover
        split
        · next known => rw [met_append, known, Bool.true_or]
        · rw [met_append]
          simp [met]
      rcases List.mem_cons.mp member with rfl | later
      · exact headMet
      · unfold discover
        split
        · exact ih later
        · have ofRest : met key (seen ++ [head] ++ discover key (seen ++ [head]) rest) node = true :=
            ih later
          rw [List.append_assoc] at ofRest
          exact ofRest

theorem unmet_snoc_lt {graph : Graph α} {seen : List α} {node : α}
    (member : node ∈ graph.nodes) (fresh : met key seen node = false) :
    unmet key graph (seen ++ [node]) < unmet key graph seen := by
  have refined : graph.nodes.filter (fun other => !met key (seen ++ [node]) other) =
      (graph.nodes.filter fun other => !met key seen other).filter fun other =>
        !met key [node] other := by
    rw [List.filter_filter]
    apply List.filter_congr
    intro other _
    rw [met_append, Bool.not_or, Bool.and_comm]
  unfold unmet
  rw [refined, List.length_filter_lt_length_iff_exists]
  refine ⟨node, List.mem_filter.mpr ⟨member, ?_⟩, ?_⟩
  · rw [fresh]
    rfl
  · simp [met]

/-- What is discovered is met from then on. -/
theorem unmet_discover {graph : Graph α} {seen list : List α}
    (inside : ∀ node, node ∈ list -> node ∈ graph.nodes) :
    unmet key graph (seen ++ discover key seen list) + (discover key seen list).length ≤
      unmet key graph seen := by
  induction list generalizing seen with
  | nil =>
      have same : seen ++ discover key seen [] = seen := List.append_nil seen
      rw [same]
      exact Nat.le_refl _
  | cons head rest ih =>
      have restInside : ∀ node, node ∈ rest -> node ∈ graph.nodes := fun node member =>
        inside node (List.mem_cons_of_mem _ member)
      unfold discover
      split
      · exact ih restInside
      · next fresh =>
          have notMet : met key seen head = false := Bool.eq_false_iff.mpr fresh
          have smaller := unmet_snoc_lt key (inside head List.mem_cons_self) notMet
          have others : unmet key graph (seen ++ [head] ++ discover key (seen ++ [head]) rest) +
              (discover key (seen ++ [head]) rest).length ≤ unmet key graph (seen ++ [head]) :=
            ih restInside
          rw [List.append_assoc] at others
          simp only [List.singleton_append, List.length_cons] at others ⊢
          omega

theorem Graph.expand_inside (graph : Graph α) (taken : List α) (next : α)
    (member : next ∈ graph.expand taken) : next ∈ graph.nodes := by
  rcases (graph.mem_expand taken next).mp member with ⟨node, _, edge⟩
  exact graph.edge_mem node next edge

/-- What a turn discovers is met from then on. -/
theorem explore_progress (graph : Graph α) (seen taken : List α) :
    unmet key graph (seen ++ discover key seen (graph.expand taken)) +
        (discover key seen (graph.expand taken)).length ≤ unmet key graph seen :=
  unmet_discover key (graph.expand_inside taken)

/-! ## The search -/

/-- The nodes met at the end of the search. -/
def explore (graph : Graph α) (turn : Turn α) (seen pending : List α) : List α :=
  if pending.isEmpty then seen
  else
    let fresh := discover key seen (graph.expand (pending.take (turn.size pending)))
    explore graph turn (seen ++ fresh) (pending.drop (turn.size pending) ++ fresh)
termination_by unmet key graph seen + pending.length
decreasing_by
  next nonempty =>
    have progress := explore_progress key graph seen (pending.take (turn.size pending))
    have positive := turn.positive pending
    have somePending : 0 < pending.length := by
      apply List.length_pos_iff.mpr
      intro empty
      exact nonempty (List.isEmpty_iff.mpr empty)
    rw [List.length_append, List.length_drop]
    omega

/-- The search from some seeds. -/
def exploreFrom (graph : Graph α) (turn : Turn α) (seeds : List α) : List α :=
  explore key graph turn (discover key [] seeds) (discover key [] seeds)

/-! ## What the search meets -/

/-- The search is sound so far, and only pending nodes have successors that
have not been met. -/
structure Exploring (graph : Graph α) (seeds seen pending : List α) : Prop where
  seeds_met : ∀ node, node ∈ seeds -> node ∈ seen
  sound : ∀ node, node ∈ seen -> graph.Reachable seeds node
  inside : ∀ node, node ∈ seen -> node ∈ graph.nodes
  closed : ∀ node next, node ∈ seen -> graph.Edge node next ->
    node ∈ pending ∨ next ∈ seen
  pending_met : ∀ node, node ∈ pending -> node ∈ seen

variable {key}

theorem Exploring.turn {graph : Graph α} {seeds seen pending : List α}
    (injective : ∀ first second, first ∈ graph.nodes -> second ∈ graph.nodes ->
      key first = key second -> first = second)
    (exploring : Exploring graph seeds seen pending) (count : Nat) :
    Exploring graph seeds (seen ++ discover key seen (graph.expand (pending.take count)))
      (pending.drop count ++ discover key seen (graph.expand (pending.take count))) := by
  have freshInside : ∀ node,
      node ∈ discover key seen (graph.expand (pending.take count)) -> node ∈ graph.nodes :=
    fun node member => graph.expand_inside _ node (mem_of_mem_discover key member)
  have allInside : ∀ node,
      node ∈ seen ++ discover key seen (graph.expand (pending.take count)) ->
      node ∈ graph.nodes := by
    intro node member
    rcases List.mem_append.mp member with old | fresh
    · exact exploring.inside node old
    · exact freshInside node fresh
  constructor
  case seeds_met =>
    exact fun node member => List.mem_append_left _ (exploring.seeds_met node member)
  case sound =>
    intro node member
    rcases List.mem_append.mp member with old | fresh
    · exact exploring.sound node old
    · rcases (graph.mem_expand _ node).mp (mem_of_mem_discover key fresh) with
        ⟨parent, taken, edge⟩
      have parentMet := exploring.pending_met parent (List.mem_of_mem_take taken)
      exact .step parent node (exploring.sound parent parentMet) edge
  case inside => exact allInside
  case closed =>
    intro node next member edge
    rcases List.mem_append.mp member with old | fresh
    · rcases exploring.closed node next old edge with waiting | known
      · rw [← List.take_append_drop count pending] at waiting
        rcases List.mem_append.mp waiting with taken | later
        · -- The node was taken in this turn, so its successors are met now.
          right
          have expanded := (graph.mem_expand _ next).mpr ⟨node, taken, edge⟩
          exact mem_of_met key allInside (graph.edge_mem node next edge) injective
            (met_of_mem_discover key expanded)
        · exact .inl (List.mem_append_left _ later)
      · exact .inr (List.mem_append_left _ known)
    · exact .inl (List.mem_append_right _ fresh)
  case pending_met =>
    intro node member
    rcases List.mem_append.mp member with later | fresh
    · exact List.mem_append_left _ (exploring.pending_met node (List.mem_of_mem_drop later))
    · exact List.mem_append_right _ fresh

theorem Exploring.mem_explore {graph : Graph α} {turn : Turn α} {seeds seen pending : List α}
    (injective : ∀ first second, first ∈ graph.nodes -> second ∈ graph.nodes ->
      key first = key second -> first = second)
    (exploring : Exploring graph seeds seen pending) (node : α) :
    node ∈ explore key graph turn seen pending ↔ graph.Reachable seeds node := by
  fun_induction explore key graph turn seen pending with
  | case1 seen pending empty =>
      constructor
      · exact exploring.sound node
      · intro reached
        induction reached with
        | seed node member => exact exploring.seeds_met node member
        | step node next _ edge ih =>
            rcases exploring.closed node next ih edge with waiting | known
            · rw [List.isEmpty_iff.mp empty] at waiting
              cases waiting
            · exact known
  | case2 seen pending _ fresh ih =>
      exact ih (exploring.turn injective _)

/-- Whatever the turns, a search meets exactly the reachable nodes. -/
theorem mem_exploreFrom {graph : Graph α} {seeds : List α}
    (injective : ∀ first second, first ∈ graph.nodes -> second ∈ graph.nodes ->
      key first = key second -> first = second)
    (inside : ∀ node, node ∈ seeds -> node ∈ graph.nodes) (turn : Turn α) (node : α) :
    node ∈ exploreFrom key graph turn seeds ↔ graph.Reachable seeds node := by
  apply Exploring.mem_explore injective
  have found : ∀ node, node ∈ seeds -> node ∈ discover key [] seeds := by
    intro node member
    have metNow : met key ([] ++ discover key [] seeds) node = true :=
      met_of_mem_discover key member
    rw [List.nil_append] at metNow
    exact mem_of_met key (fun other fresh => inside other (mem_of_mem_discover key fresh))
      (inside node member) injective metNow
  exact {
    seeds_met := found
    sound := fun node member => .seed node (mem_of_mem_discover key member)
    inside := fun node member => inside node (mem_of_mem_discover key member)
    closed := fun node next member _ => .inl member
    pending_met := fun node member => member }

end Library
end Memos
