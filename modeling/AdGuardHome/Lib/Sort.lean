import Mathlib.Data.List.Sort

/-! Sorting by a three-way comparison, for code that relies on a sort being some sorted
permutation and on nothing else: elements that compare as equal come in any order. -/
namespace Sorting

universe u v

variable {α : Type u}

/-- What a comparison has to be for sorting to make sense. -/
structure StrictWeakOrder (cmp : α → α → Int) : Prop where
  irrefl : ∀ a, ¬ cmp a a < 0
  trans : ∀ a b c, cmp a b < 0 → cmp b c < 0 → cmp a c < 0
  split : ∀ a b c, cmp a c < 0 → cmp a b < 0 ∨ cmp b c < 0

theorem StrictWeakOrder.ofKey {κ : Type v} [LinearOrder κ] {cmp : α → α → Int} (key : α → κ)
    (byKey : ∀ a b, cmp a b < 0 ↔ key a < key b) : StrictWeakOrder cmp where
  irrefl a := by simp [byKey]
  trans a b c := by
    simp only [byKey]
    exact lt_trans
  split a b c := by
    simp only [byKey]
    intro below
    by_cases first : key a < key b
    · exact Or.inl first
    · exact Or.inr (lt_of_le_of_lt (not_lt.mp first) below)

theorem StrictWeakOrder.head_least {cmp : α → α → Int} (order : StrictWeakOrder cmp) {a b : α}
    {rest : List α} (sorted : (a :: rest).Pairwise fun a b => ¬ cmp b a < 0)
    (member : b ∈ a :: rest) : ¬ cmp b a < 0 := by
  rcases List.mem_cons.mp member with rfl | later
  · exact order.irrefl b
  · exact (List.pairwise_cons.mp sorted).1 b later

/-- A sorting function: not necessarily stable. -/
structure SortFunc (α : Type u) where
  sort : (α → α → Int) → List α → List α
  perm : ∀ cmp l, (sort cmp l).Perm l
  sorted : ∀ cmp l, StrictWeakOrder cmp → (sort cmp l).Pairwise fun a b => ¬ cmp b a < 0

namespace SortFunc

variable (sortFunc : SortFunc α)

@[simp] theorem mem_sort {cmp : α → α → Int} {l : List α} {a : α} :
    a ∈ sortFunc.sort cmp l ↔ a ∈ l := (sortFunc.perm cmp l).mem_iff

/-- Sorting by insertion. -/
def insertion : SortFunc α where
  sort cmp l := l.insertionSort fun a b => ¬ cmp b a < 0
  perm cmp l := List.perm_insertionSort _ l
  sorted cmp l order := by
    have total : Std.Total fun a b => ¬ cmp b a < 0 := by
      constructor
      intro a b
      by_cases first : cmp b a < 0
      · right
        intro second
        exact order.irrefl b (order.trans b a b first second)
      · exact Or.inl first
    have trans : IsTrans α fun a b => ¬ cmp b a < 0 := by
      constructor
      intro a b c first second below
      rcases order.split c b a below with low | high
      · exact second low
      · exact first high
    exact List.pairwise_insertionSort _ l

end SortFunc

/-- A sorting function that sees the elements only through the comparison: on related lists,
with comparisons that agree on related elements, it does the same. -/
structure ParametricSort (α : Type u) extends SortFunc α where
  parametric : ∀ (R : α → α → Prop) (cmp cmp' : α → α → Int) (l l' : List α),
    (∀ a a' b b', R a a' → R b b' → cmp a b = cmp' a' b') → List.Forall₂ R l l' →
    List.Forall₂ R (sort cmp l) (sort cmp' l')

namespace ParametricSort

variable {R : α → α → Prop} {cmp cmp' : α → α → Int}

private theorem orderedInsert_related
    (agree : ∀ a a' b b', R a a' → R b b' → cmp a b = cmp' a' b') {a a' : α} (first : R a a')
    {l l' : List α} (related : List.Forall₂ R l l') :
    List.Forall₂ R (l.orderedInsert (fun a b => ¬ cmp b a < 0) a)
      (l'.orderedInsert (fun a b => ¬ cmp' b a < 0) a') := by
  induction related with
  | nil => exact .cons first .nil
  | @cons b b' rest rest' head tail ih =>
    rw [List.orderedInsert_cons, List.orderedInsert_cons, agree b b' a a' head first]
    split
    · exact .cons first (.cons head tail)
    · exact .cons head ih

/-- Sorting by insertion. -/
def insertion : ParametricSort α where
  toSortFunc := .insertion
  parametric R cmp cmp' l l' agree related := by
    induction related with
    | nil => exact .nil
    | cons head _ ih => exact orderedInsert_related agree head ih

end ParametricSort

end Sorting
