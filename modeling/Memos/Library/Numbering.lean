import Mathlib.Data.List.Basic
import Mathlib.Data.List.Nodup

namespace Memos
namespace Library

/-!
# Numbering repeated names

In a list of named items every item gets the number of earlier items of its
name.  The name with its number is unique; a text made of the two need not be,
when a name ends in a number itself.
-/

section Counting

variable {ι α : Type} [BEq α] (name : ι -> α)

/-- The counts with one more of a name. -/
def oneMore (counts : α -> Nat) (label : α) : α -> Nat :=
  fun other => if other == label then counts label + 1 else counts other

/-- The items with how many of their name came before, when so many of each name
came before all of them. -/
def counted (counts : α -> Nat) : List ι -> List (ι × Nat)
  | [] => []
  | item :: items =>
      (item, counts (name item)) ::
        counted (oneMore counts (name item)) items

theorem map_fst_counted (counts : α -> Nat) (items : List ι) :
    (counted name counts items).map Prod.fst = items := by
  induction items generalizing counts with
  | nil => rfl
  | cons item items ih =>
      rw [counted, List.map_cons, ih]

/-- The names with their numbers. -/
def countedNames (counts : α -> Nat) (items : List ι) : List (α × Nat) :=
  (counted name counts items).map fun entry => (name entry.1, entry.2)

theorem countedNames_cons (counts : α -> Nat) (item : ι) (items : List ι) :
    countedNames name counts (item :: items) =
      (name item, counts (name item)) ::
        countedNames name (oneMore counts (name item)) items :=
  rfl

variable [LawfulBEq α]

theorem oneMore_self (counts : α -> Nat) (label : α) : oneMore counts label label = counts label + 1 :=
  if_pos (beq_self_eq_true label)

theorem oneMore_of_ne (counts : α -> Nat) {label other : α} (different : other ≠ label) :
    oneMore counts label other = counts other :=
  if_neg fun same => different (eq_of_beq same)

/-- The numbers of a name are those from its count on. -/
theorem mem_countedNames (counts : α -> Nat) (items : List ι) (label : α) (number : Nat) :
    (label, number) ∈ countedNames name counts items ↔
      counts label ≤ number ∧ number < counts label + (items.map name).count label := by
  induction items generalizing counts with
  | nil =>
      constructor
      · intro member
        contradiction
      · rintro ⟨least, most⟩
        rw [List.map_nil, List.count_nil] at most
        omega
  | cons item items ih =>
      rw [countedNames_cons, List.mem_cons, ih, List.map_cons]
      by_cases same : label = name item
      · subst same
        rw [oneMore_self, List.count_cons_self, Prod.mk.injEq]
        constructor
        · rintro (⟨_, rfl⟩ | ⟨least, most⟩)
          · omega
          · omega
        · rintro ⟨least, most⟩
          by_cases first : number = counts (name item)
          · exact Or.inl ⟨rfl, first⟩
          · exact Or.inr (by omega)
      · rw [oneMore_of_ne counts same, List.count_cons_of_ne (Ne.symm same), Prod.mk.injEq]
        constructor
        · rintro (⟨equal, _⟩ | within)
          · exact absurd equal same
          · exact within
        · exact Or.inr

theorem nodup_countedNames (counts : α -> Nat) (items : List ι) :
    (countedNames name counts items).Nodup := by
  induction items generalizing counts with
  | nil => exact List.nodup_nil
  | cons item items ih =>
      rw [countedNames_cons, List.nodup_cons]
      refine ⟨?_, ih _⟩
      intro again
      have least := ((mem_countedNames name _ items _ _).mp again).1
      rw [oneMore_self] at least
      omega

/-- An item's number is how many items of its name stand before it. -/
theorem mem_counted_iff (counts : α -> Nat) (items : List ι) (item : ι) (number : Nat) :
    (item, number) ∈ counted name counts items ↔
      Exists fun before => Exists fun after => items = before ++ item :: after ∧
        number = counts (name item) + (before.map name).count (name item) := by
  induction items generalizing counts with
  | nil =>
      constructor
      · intro member
        contradiction
      · rintro ⟨before, after, items_eq, _⟩
        exact absurd items_eq.symm (List.append_ne_nil_of_right_ne_nil before (List.cons_ne_nil item after))
  | cons first items ih =>
      rw [counted, List.mem_cons, ih, Prod.mk.injEq]
      have updated (before : List ι) :
          oneMore counts (name first) (name item) +
              (before.map name).count (name item) =
            counts (name item) + ((first :: before).map name).count (name item) := by
        rw [List.map_cons]
        by_cases same : name item = name first
        · rw [same, oneMore_self, List.count_cons_self]
          omega
        · rw [oneMore_of_ne counts same, List.count_cons_of_ne (Ne.symm same)]
      constructor
      · rintro (⟨rfl, rfl⟩ | ⟨before, after, rfl, rfl⟩)
        · exact ⟨[], items, rfl, rfl⟩
        · exact ⟨first :: before, after, rfl, updated before⟩
      · rintro ⟨before, after, items_eq, rfl⟩
        cases before with
        | nil =>
            obtain ⟨rfl, rfl⟩ := List.cons.inj items_eq
            exact Or.inl ⟨rfl, rfl⟩
        | cons other before =>
            obtain ⟨rfl, rfl⟩ := List.cons.inj items_eq
            exact Or.inr ⟨before, after, rfl, (updated before).symm⟩

/-- An item's number in a list that nothing is counted before. -/
theorem mem_counted_from_zero (items : List ι) (item : ι) (number : Nat) :
    (item, number) ∈ counted name (fun _ => 0) items ↔
      Exists fun before => Exists fun after => items = before ++ item :: after ∧
        number = (before.map name).count (name item) := by
  rw [mem_counted_iff]
  simp only [Nat.zero_add]

end Counting

/-! ## Names with a number behind them -/

/-- The number behind a name, from the second item of the name on. -/
def numbered (name : List Char) (number : Nat) : List Char :=
  if number > 0 then name ++ '-' :: Nat.toDigits 10 number else name

theorem dash_notMem_toDigits (number : Nat) : '-' ∉ Nat.toDigits 10 number := by
  intro member
  have isDigit := Nat.isDigit_of_mem_toDigits (by decide) (by decide) member
  contradiction

/-- Only zero begins with a zero. -/
theorem toDigits_head (value : Nat) (zero : (Nat.toDigits 10 value).head? = some '0') :
    Nat.toDigits 10 value = ['0'] := by
  induction value using Nat.strongRecOn with
  | _ value ih =>
      rw [Nat.toDigits_eq_if (by decide)] at zero ⊢
      by_cases small : value < 10
      · rw [if_pos small] at zero ⊢
        rw [Option.some.inj zero]
      · rw [if_neg small] at zero
        have same : (Nat.toDigits 10 (value / 10)).head? = some '0' := by
          rwa [List.head?_append_of_ne_nil _ Nat.toDigits_ne_nil] at zero
        have digits := ih (value / 10) (by omega) same
        have high := @Nat.ofDigitChars_ten_toDigits (value / 10)
        rw [digits] at high
        have none : 0 = value / 10 := high
        omega

theorem toDigits_inj {first second : Nat} (same : Nat.toDigits 10 first = Nat.toDigits 10 second) :
    first = second := by
  rw [← Nat.ofDigitChars_ten_toDigits (n := first), same, Nat.ofDigitChars_ten_toDigits]

/-- The last mark of a text divides it in one way. -/
theorem append_mark_inj {α : Type} {mark : α} {first second rest other : List α}
    (notRest : mark ∉ rest) (notOther : mark ∉ other)
    (same : first ++ mark :: rest = second ++ mark :: other) : first = second ∧ rest = other := by
  rcases List.append_eq_append_iff.mp same with ⟨after, rfl, rest_eq⟩ | ⟨after, rfl, rest_eq⟩
  · cases after with
    | nil => exact ⟨(List.append_nil first).symm, (List.cons.inj rest_eq).2⟩
    | cons c after =>
        have behind := (List.cons.inj rest_eq).2
        exact absurd (by rw [behind]; simp) notRest
  · cases after with
    | nil => exact ⟨List.append_nil second, (List.cons.inj rest_eq).2.symm⟩
    | cons c after =>
        have behind := (List.cons.inj rest_eq).2
        exact absurd (by rw [behind]; simp) notOther

/-- Two names with numbers read alike when they are the same, or when one is a
name that ends in the other's number. -/
theorem numbered_eq_iff (first second : List Char) (number other : Nat) :
    numbered first number = numbered second other ↔
      (first = second ∧ number = other) ∨
        (number = 0 ∧ 0 < other ∧ first = second ++ '-' :: Nat.toDigits 10 other) ∨
        (other = 0 ∧ 0 < number ∧ second = first ++ '-' :: Nat.toDigits 10 number) := by
  unfold numbered
  by_cases positive : number > 0
  · by_cases otherPositive : other > 0
    · rw [if_pos positive, if_pos otherPositive]
      constructor
      · intro same
        rcases append_mark_inj (dash_notMem_toDigits number) (dash_notMem_toDigits other) same
          with ⟨sameName, sameDigits⟩
        exact Or.inl ⟨sameName, toDigits_inj sameDigits⟩
      · rintro (⟨rfl, rfl⟩ | ⟨rfl, _⟩ | ⟨rfl, _⟩)
        · rfl
        · contradiction
        · contradiction
    · obtain rfl : other = 0 := by omega
      rw [if_pos positive, if_neg otherPositive]
      constructor
      · intro same
        exact Or.inr (Or.inr ⟨rfl, positive, same.symm⟩)
      · rintro (⟨_, rfl⟩ | ⟨_, impossible, _⟩ | ⟨_, _, same⟩)
        · contradiction
        · contradiction
        · exact same.symm
  · obtain rfl : number = 0 := by omega
    rw [if_neg positive]
    by_cases otherPositive : other > 0
    · rw [if_pos otherPositive]
      constructor
      · intro same
        exact Or.inr (Or.inl ⟨rfl, otherPositive, same⟩)
      · rintro (⟨_, rfl⟩ | ⟨_, _, same⟩ | ⟨_, impossible, _⟩)
        · contradiction
        · exact same
        · contradiction
    · obtain rfl : other = 0 := by omega
      rw [if_neg otherPositive]
      constructor
      · intro same
        exact Or.inl ⟨same, rfl⟩
      · rintro (⟨same, _⟩ | ⟨_, impossible, _⟩ | ⟨_, impossible, _⟩)
        · exact same
        · contradiction
        · contradiction

/-- No name is spelled like the number that another one gets. -/
def NumbersApart (names : List (List Char)) : Prop :=
  ∀ name number, 0 < number -> number < names.count name ->
    name ++ '-' :: Nat.toDigits 10 number ∉ names

/-- The numbered names are pairwise distinct. -/
theorem nodup_numbered_iff {ι : Type} (name : ι -> List Char) (items : List ι) :
    ((counted name (fun _ => 0) items).map fun entry => numbered (name entry.1) entry.2).Nodup ↔
      NumbersApart (items.map name) := by
  have through : ((counted name (fun _ => 0) items).map fun entry => numbered (name entry.1) entry.2) =
      (countedNames name (fun _ => 0) items).map fun entry => numbered entry.1 entry.2 := by
    rw [countedNames, List.map_map]
    rfl
  have member (label : List Char) (number : Nat) :
      (label, number) ∈ countedNames name (fun _ => 0) items ↔
        number < (items.map name).count label := by
    rw [mem_countedNames]
    omega
  rw [through, List.nodup_map_iff_inj_on (nodup_countedNames name _ items)]
  constructor
  · intro injective label number positive few spelled
    have first : (label ++ '-' :: Nat.toDigits 10 number, 0) ∈ countedNames name (fun _ => 0) items :=
      (member _ _).mpr (List.count_pos_iff.mpr spelled)
    have same := injective _ first _ ((member label number).mpr few)
      ((numbered_eq_iff _ _ _ _).mpr (Or.inr (Or.inl ⟨rfl, positive, rfl⟩)))
    exact absurd (congrArg Prod.snd same) (Nat.ne_of_lt positive)
  · rintro apart ⟨label, number⟩ here ⟨other, otherNumber⟩ there same
    rcases (numbered_eq_iff _ _ _ _).mp same with
      ⟨rfl, rfl⟩ | ⟨zero, positive, spelled⟩ | ⟨zero, positive, spelled⟩
    · rfl
    · refine absurd ?_ (apart other otherNumber positive ((member _ _).mp there))
      rw [← spelled]
      exact List.count_pos_iff.mp (Nat.zero_lt_of_lt ((member _ _).mp here))
    · refine absurd ?_ (apart label number positive ((member _ _).mp here))
      rw [← spelled]
      exact List.count_pos_iff.mp (Nat.zero_lt_of_lt ((member _ _).mp there))

end Library
end Memos
