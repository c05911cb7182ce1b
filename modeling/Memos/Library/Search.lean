import Mathlib.Data.Int.LeastGreatest

namespace Memos
namespace Library

/-!
# The first number that passes a test

A search tries `start`, `start + step` and so on below a bound.  Whether it
finds the first number after some point that satisfies a predicate, a
predicate which need not be the test, depends on two things: that nothing else
passes the test before, and that the first number is tried and passes.
-/

/-- The first of the numbers `start`, `start + step` and so on that passes the
test, if there is one below `stop`. -/
def search (test : Int -> Bool) (step : Int) (positive : 0 < step) (stop start : Int) : Option Int :=
  if start < stop then
    if test start then some start else search test step positive stop (start + step)
  else none
termination_by (stop - start).toNat

/-- The search tries the number unless it ends before. -/
structure Tried (step stop start value : Int) : Prop where
  start_le : start ≤ value
  lt_stop : value < stop
  on_step : (value - start) % step = 0

/-- The first number after a point with a property. -/
structure FirstAfter (property : Int -> Prop) (point value : Int) : Prop where
  after : point < value
  holds : property value
  first : ∀ other, point < other -> property other -> value ≤ other

/-- The answer is the first number after the point with the property, and there
is no answer only if there is no such number. -/
def Finds (property : Int -> Prop) (point : Int) : Option Int -> Prop
  | some value => FirstAfter property point value
  | none => ∀ value, point < value -> ¬ property value

variable {test : Int -> Bool} {step stop start value : Int} {positive : 0 < step}

/-- The numbers that are tried after the first one. -/
theorem Tried.next (tried : Tried step stop start value) (later : value ≠ start)
    (positive : 0 < step) : Tried step stop (start + step) value := by
  have whole := tried.on_step
  have above := tried.start_le
  rcases Int.dvd_of_emod_eq_zero whole with ⟨count, isMultiple⟩
  have counted : 1 ≤ count := by
    by_contra less
    have none : count ≤ 0 := by omega
    have := Int.mul_nonpos_of_nonneg_of_nonpos (Int.le_of_lt positive) none
    omega
  refine ⟨?_, tried.lt_stop, ?_⟩
  · have := Int.mul_le_mul_of_nonneg_left counted (Int.le_of_lt positive)
    omega
  · have split : value - (start + step) = step * (count - 1) := by
      rw [Int.mul_sub, ← isMultiple]
      omega
    rw [split]
    exact Int.mul_emod_right step _

theorem Tried.of_next (tried : Tried step stop (start + step) value) (positive : 0 < step) :
    Tried step stop start value := by
  have above := tried.start_le
  have split : value - start = value - (start + step) + step := by omega
  refine ⟨by omega, tried.lt_stop, ?_⟩
  rw [split, Int.add_emod_right]
  exact tried.on_step

theorem search_some (found : search test step positive stop start = some value) :
    Tried step stop start value ∧ test value = true ∧
      ∀ other, Tried step stop start other -> other < value -> test other = false := by
  induction start using search.induct test step positive stop with
  | case1 start below passes =>
      unfold search at found
      rw [if_pos below, if_pos passes] at found
      cases found
      refine ⟨⟨le_refl _, below, by rw [Int.sub_self]; rfl⟩, passes, fun other tried less => ?_⟩
      exact absurd tried.start_le (not_le.mpr less)
  | case2 start below fails ih =>
      unfold search at found
      rw [if_pos below, if_neg fails] at found
      rcases ih found with ⟨tried, passes, before⟩
      refine ⟨tried.of_next positive, passes, fun other earlier less => ?_⟩
      by_cases isStart : other = start
      · rw [isStart]
        exact eq_false_of_ne_true fails
      · exact before other (earlier.next isStart positive) less
  | case3 start above =>
      unfold search at found
      rw [if_neg above] at found
      cases found

theorem search_none (missed : search test step positive stop start = none) :
    ∀ other, Tried step stop start other -> test other = false := by
  induction start using search.induct test step positive stop with
  | case1 start below passes =>
      unfold search at missed
      rw [if_pos below, if_pos passes] at missed
      cases missed
  | case2 start below fails ih =>
      unfold search at missed
      rw [if_pos below, if_neg fails] at missed
      intro other tried
      by_cases isStart : other = start
      · rw [isStart]
        exact eq_false_of_ne_true fails
      · exact ih missed other (tried.next isStart positive)
  | case3 start above =>
      intro other tried
      exact absurd (lt_of_le_of_lt tried.start_le tried.lt_stop) above

variable {property : Int -> Prop} {point : Int}

theorem FirstAfter.unique {other : Int} (first : FirstAfter property point value)
    (second : FirstAfter property point other) : value = other :=
  le_antisymm (first.first other second.after second.holds)
    (second.first value first.after first.holds)

theorem exists_firstAfter (after : point < value) (holds : property value) :
    Exists fun first => FirstAfter property point first := by
  classical
  rcases Int.exists_least_of_bdd (P := fun number => point < number ∧ property number)
    ⟨point, fun number given => Int.le_of_lt given.1⟩ ⟨value, after, holds⟩ with
    ⟨first, ⟨later, holds⟩, least⟩
  exact ⟨first, later, holds, fun other after holds => least other ⟨after, holds⟩⟩

/-- When a search that starts after the point finds what it should. -/
theorem finds_search_iff (after : point < start) :
    Finds property point (search test step positive stop start) ↔
      (∀ value, Tried step stop start value -> test value = true -> ¬ property value ->
        Exists fun earlier => point < earlier ∧ earlier < value ∧ property earlier) ∧
      ∀ value, FirstAfter property point value ->
        Tried step stop start value ∧ test value = true := by
  constructor
  · intro finds
    cases answer : search test step positive stop start with
    | none =>
        rw [answer] at finds
        refine ⟨fun value tried passes _ => ?_, fun value first => ?_⟩
        · rw [search_none answer value tried] at passes
          cases passes
        · exact absurd first.holds (finds value first.after)
    | some found =>
        rw [answer] at finds
        rcases search_some answer with ⟨tried, passes, before⟩
        refine ⟨fun value other passesOther lacks => ?_, fun value first => ?_⟩
        · refine ⟨found, finds.after, ?_, finds.holds⟩
          rcases lt_trichotomy found value with less | same | greater
          · exact less
          · exact absurd (same ▸ finds.holds) lacks
          · rw [before value other greater] at passesOther
            cases passesOther
        · rw [first.unique finds]
          exact ⟨tried, passes⟩
  · rintro ⟨strays, finds⟩
    have wanted : ∀ value, Tried step stop start value -> test value = true ->
        Exists fun first => FirstAfter property point first ∧ first ≤ value := by
      intro value tried passes
      have later : point < value := lt_of_lt_of_le after tried.start_le
      by_cases holds : property value
      · rcases exists_firstAfter later holds with ⟨first, isFirst⟩
        exact ⟨first, isFirst, isFirst.first value later holds⟩
      · rcases strays value tried passes holds with ⟨earlier, afterPoint, less, holds⟩
        rcases exists_firstAfter afterPoint holds with ⟨first, isFirst⟩
        exact ⟨first, isFirst, le_trans (isFirst.first earlier afterPoint holds) (le_of_lt less)⟩
    cases answer : search test step positive stop start with
    | none =>
        intro value afterPoint holds
        rcases exists_firstAfter afterPoint holds with ⟨first, isFirst⟩
        rcases finds first isFirst with ⟨tried, passes⟩
        rw [search_none answer first tried] at passes
        cases passes
    | some found =>
        rcases search_some answer with ⟨tried, passes, before⟩
        rcases wanted found tried passes with ⟨first, isFirst, below⟩
        rcases finds first isFirst with ⟨triedFirst, passesFirst⟩
        rcases lt_or_eq_of_le below with less | same
        · rw [before first triedFirst less] at passesFirst
          cases passesFirst
        · exact same ▸ isFirst

end Library
end Memos
