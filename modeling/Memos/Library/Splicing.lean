import Mathlib.Data.List.Basic
import Mathlib.Data.List.Induction

namespace Memos
namespace Library

/-!
# Splicing and runs

A loop walks a list by index and puts other items in the place of each item; the
index jumps behind them.  A pass collects the items in runs of one key.
-/

variable {α κ : Type}

/-! ## Replacing while walking -/

/-- From this index on, every item is replaced. -/
def replaceFrom (replace : α -> List α) (index : Nat) (items : List α) : List α :=
  match _found : items[index]? with
  | none => items
  | some item =>
      replaceFrom replace (index + (replace item).length)
        (items.take index ++ (replace item ++ items.drop (index + 1)))
termination_by items.length - index
decreasing_by
  have inside := (List.getElem?_eq_some_iff.mp _found).1
  simp only [List.length_append, List.length_take, List.length_drop]
  omega

/-- The loop replaces each of the items once, and none that it has put in. -/
theorem replaceFrom_eq (replace : α -> List α) (before items : List α) :
    replaceFrom replace before.length (before ++ items) = before ++ items.flatMap replace := by
  induction items generalizing before with
  | nil =>
      rw [replaceFrom, List.append_nil, List.flatMap_nil, List.append_nil]
      split
      · rfl
      · rename_i item found
        have inside := (List.getElem?_eq_some_iff.mp found).1
        omega
  | cons item items ih =>
      have rest : (before ++ item :: items).drop (before.length + 1) = items := by
        rw [<- List.drop_drop, List.drop_left]
        rfl
      have found : (before ++ item :: items)[before.length]? = some item := by
        rw [List.getElem?_append_right (Nat.le_refl _), Nat.sub_self]
        rfl
      have next := ih (before ++ replace item)
      rw [List.length_append, List.append_assoc, List.append_assoc] at next
      rw [replaceFrom]
      split
      · rename_i missed
        rw [found] at missed
        contradiction
      · rename_i replaced atIndex
        rw [found] at atIndex
        obtain rfl : item = replaced := Option.some.inj atIndex
        rw [List.take_left, rest, next, List.flatMap_cons]

/-! ## Runs of one key -/

variable [DecidableEq κ]

/-- An item joins the last run when that has its key, and begins a run
otherwise. -/
def addToRuns (key : α -> κ) (runs : List (κ × List α)) (item : α) : List (κ × List α) :=
  match runs.getLast? with
  | none => runs ++ [(key item, [item])]
  | some previous =>
      if previous.1 = key item then runs.dropLast ++ [(previous.1, previous.2 ++ [item])]
      else runs ++ [(key item, [item])]

def keyRuns (key : α -> κ) (items : List α) : List (κ × List α) := items.foldl (addToRuns key) []

theorem keyRuns_append_one (key : α -> κ) (items : List α) (item : α) :
    keyRuns key (items ++ [item]) = addToRuns key (keyRuns key items) item := by
  rw [keyRuns, List.foldl_append]
  rfl

/-- The runs together are the items, and each is a run of its key. -/
theorem keyRuns_spec (key : α -> κ) (items : List α) :
    (keyRuns key items).flatMap Prod.snd = items ∧
      ∀ run, run ∈ keyRuns key items ->
        run.2 ≠ [] ∧ ∀ item, item ∈ run.2 -> key item = run.1 := by
  induction items using List.reverseRecOn with
  | nil => exact ⟨rfl, fun run member => absurd member List.not_mem_nil⟩
  | append_singleton items item ih =>
      rcases ih with ⟨together, single⟩
      have begun : (keyRuns key items ++ [(key item, [item])]).flatMap Prod.snd = items ++ [item] ∧
          ∀ run, run ∈ keyRuns key items ++ [(key item, [item])] ->
            run.2 ≠ [] ∧ ∀ item, item ∈ run.2 -> key item = run.1 := by
        rw [List.flatMap_append, together, List.flatMap_singleton]
        refine ⟨rfl, fun run member => ?_⟩
        rcases List.mem_append.mp member with earlier | last
        · exact single run earlier
        · rw [List.mem_singleton.mp last]
          exact ⟨List.cons_ne_nil _ _, fun other isItem => by rw [List.mem_singleton.mp isItem]⟩
      rw [keyRuns_append_one, addToRuns]
      cases last : (keyRuns key items).getLast? with
      | none => exact begun
      | some previous =>
          dsimp only
          split
          · rename_i same
            have split := List.dropLast_append_getLast? previous last
            have isRun := single previous (List.mem_of_getLast? last)
            rw [<- split, List.flatMap_append, List.flatMap_singleton] at together
            refine ⟨?_, fun run member => ?_⟩
            · rw [List.flatMap_append, List.flatMap_singleton, <- List.append_assoc, together]
            · rcases List.mem_append.mp member with earlier | isLast
              · exact single run (List.dropLast_subset _ earlier)
              · rw [List.mem_singleton.mp isLast]
                refine ⟨List.append_ne_nil_of_right_ne_nil _ (List.cons_ne_nil _ _), fun other isItem => ?_⟩
                rcases List.mem_append.mp isItem with inRun | isNew
                · exact isRun.2 other inRun
                · rw [List.mem_singleton.mp isNew, same]
          · exact begun

/-- Items of two keys are in two runs, the first of which is not all of them. -/
theorem keyRuns_of_two {key : α -> κ} {items : List α} {first second : α} (isFirst : first ∈ items)
    (isSecond : second ∈ items) (different : key first ≠ key second) :
    Exists fun run => Exists fun next => Exists fun runs =>
      keyRuns key items = run :: next :: runs := by
  rcases keyRuns_spec key items with ⟨together, single⟩
  rw [<- together] at isFirst isSecond
  rcases List.mem_flatMap.mp isFirst with ⟨firstRun, firstMember, inFirst⟩
  rcases List.mem_flatMap.mp isSecond with ⟨secondRun, secondMember, inSecond⟩
  have firstKey := (single firstRun firstMember).2 first inFirst
  have secondKey := (single secondRun secondMember).2 second inSecond
  match runs_eq : keyRuns key items with
  | [] =>
      rw [runs_eq] at firstMember
      exact absurd firstMember List.not_mem_nil
  | [run] =>
      rw [runs_eq, List.mem_singleton] at firstMember secondMember
      rw [firstMember] at firstKey
      rw [secondMember] at secondKey
      exact absurd (firstKey.trans secondKey.symm) different
  | run :: next :: runs => exact ⟨run, next, runs, rfl⟩

end Library
end Memos
