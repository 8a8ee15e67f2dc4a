import Mathlib.Data.List.Basic
import Mathlib.Order.Defs.LinearOrder

/-! The halving loop of a binary search over a list, for any test that says
whether an element lies before the target. -/
namespace BinarySearch

universe u
variable {α : Type u}

/-- The loop over `[low, high)`. Every round shrinks the interval, so the length
of the list is enough fuel. -/
def loop (before : α → Bool) (xs : List α) : Nat → Nat → Nat → Nat
  | 0, low, _ => low
  | fuel + 1, low, high =>
    if low < high then
      let middle := (low + high) / 2
      if xs[middle]?.any before then loop before xs fuel (middle + 1) high
      else loop before xs fuel low middle
    else low

/-- The index the search ends at. -/
def lowerBound (before : α → Bool) (xs : List α) : Nat := loop before xs xs.length 0 xs.length

/-- The elements before the target form a prefix of the list. -/
def Partitioned (before : α → Bool) (xs : List α) : Prop :=
  ∀ i j : Nat, i ≤ j → xs[j]?.any before = true → xs[i]?.any before = true

private theorem loop_spec (before : α → Bool) (xs : List α) (split : Partitioned before xs)
    (fuel low high : Nat) (enough : high - low ≤ fuel) (ordered : low ≤ high)
    (bounded : high ≤ xs.length)
    (below : ∀ i : Nat, i < low → xs[i]?.any before = true)
    (above : ∀ i : Nat, high ≤ i → xs[i]?.any before = false) :
    loop before xs fuel low high ≤ xs.length ∧
      (∀ i : Nat, i < loop before xs fuel low high → xs[i]?.any before = true) ∧
      (∀ i : Nat, loop before xs fuel low high ≤ i → xs[i]?.any before = false) := by
  induction fuel generalizing low high with
  | zero =>
    have closed : low = high := by omega
    subst closed
    exact ⟨by simpa [loop] using bounded, by simpa [loop] using below, by simpa [loop] using above⟩
  | succ fuel ih =>
    rw [loop]
    by_cases inside : low < high
    · simp only [inside, ↓reduceIte]
      by_cases test : xs[(low + high) / 2]?.any before = true
      · simp only [test, ↓reduceIte]
        apply ih _ _ (by omega) (by omega) bounded _ above
        intro i early
        exact split i ((low + high) / 2) (by omega) test
      · simp only [test, Bool.false_eq_true, ↓reduceIte]
        apply ih _ _ (by omega) (by omega) (by omega) below
        intro i late
        by_contra present
        exact test (split ((low + high) / 2) i late (by simpa using present))
    · have closed : low = high := by omega
      subst closed
      simpa using ⟨bounded, below, above⟩

/-- On a partitioned list the search ends exactly at the partition point. -/
theorem lowerBound_spec (before : α → Bool) (xs : List α) (split : Partitioned before xs) :
    lowerBound before xs ≤ xs.length ∧
      (∀ i : Nat, i < lowerBound before xs → xs[i]?.any before = true) ∧
      (∀ i : Nat, lowerBound before xs ≤ i → xs[i]?.any before = false) := by
  apply loop_spec before xs split
  · omega
  · omega
  · exact Nat.le_refl _
  · intro i early
    omega
  · intro i late
    simp [List.getElem?_eq_none_iff.mpr late]

theorem mem_take_lowerBound (before : α → Bool) (xs : List α) (split : Partitioned before xs) :
    (∀ x ∈ xs.take (lowerBound before xs), before x = true) ∧
      ∀ x ∈ xs.drop (lowerBound before xs), before x = false := by
  obtain ⟨_, front, back⟩ := lowerBound_spec before xs split
  constructor
  · intro x member
    obtain ⟨i, bound, rfl⟩ := List.mem_iff_getElem.mp member
    rw [List.length_take] at bound
    have early := front i (by omega)
    rw [List.getElem?_eq_getElem (by omega)] at early
    simpa [List.getElem_take] using early
  · intro x member
    obtain ⟨i, bound, rfl⟩ := List.mem_iff_getElem.mp member
    rw [List.length_drop] at bound
    have late := back (lowerBound before xs + i) (by omega)
    rw [List.getElem?_eq_getElem (by omega)] at late
    simpa [List.getElem_drop] using late

/-- The positions that the halving of `[low, high)` looks at on its way to a position. -/
def path (target : Nat) : Nat → Nat → Nat → List Nat
  | 0, _, _ => []
  | fuel + 1, low, high =>
    if low < high then
      let middle := (low + high) / 2
      middle :: if middle < target then path target fuel (middle + 1) high
        else path target fuel low middle
    else []

theorem loop_mem (before : α → Bool) (xs : List α) (fuel low high : Nat) (ordered : low ≤ high) :
    low ≤ loop before xs fuel low high ∧ loop before xs fuel low high ≤ high := by
  induction fuel generalizing low high with
  | zero => exact ⟨Nat.le_refl _, ordered⟩
  | succ fuel ih =>
    rw [loop]
    split
    · dsimp only
      split
      · have inside := ih ((low + high) / 2 + 1) high (by omega)
        omega
      · have inside := ih low ((low + high) / 2) (by omega)
        omega
    · omega

/-- The search ends at a position exactly when what it looks at on the way there agrees. -/
theorem loop_eq_iff (before : α → Bool) (xs : List α) (target fuel low high : Nat)
    (enough : high - low ≤ fuel) (above : low ≤ target) (below : target ≤ high) :
    loop before xs fuel low high = target ↔
      ∀ i ∈ path target fuel low high, xs[i]?.any before = decide (i < target) := by
  induction fuel generalizing low high with
  | zero =>
    have closed : low = target := by omega
    exact iff_of_true closed nofun
  | succ fuel ih =>
    rw [loop, path]
    by_cases inside : low < high
    · simp only [inside, ↓reduceIte, List.forall_mem_cons]
      by_cases late : (low + high) / 2 < target
      · simp only [late, ↓reduceIte, decide_true]
        rw [← ih _ _ (by omega) (by omega) below]
        cases test : xs[(low + high) / 2]?.any before with
        | true => simp
        | false =>
          have bounds := loop_mem before xs fuel low ((low + high) / 2) (by omega)
          simp only [Bool.false_eq_true, ↓reduceIte, false_and, iff_false]
          omega
      · simp only [late, ↓reduceIte, decide_false]
        rw [← ih _ _ (by omega) above (by omega)]
        cases test : xs[(low + high) / 2]?.any before with
        | true =>
          have bounds := loop_mem before xs fuel ((low + high) / 2 + 1) high (by omega)
          simp only [↓reduceIte, Bool.true_eq_false, false_and, iff_false]
          omega
        | false => simp
    · simp only [inside, ↓reduceIte]
      have closed : low = target := by omega
      exact iff_of_true closed nofun

theorem lowerBound_eq_iff (before : α → Bool) (xs : List α) (target : Nat)
    (bounded : target ≤ xs.length) :
    lowerBound before xs = target ↔
      ∀ i ∈ path target xs.length 0 xs.length, xs[i]?.any before = decide (i < target) :=
  loop_eq_iff before xs target xs.length 0 xs.length (by omega) (Nat.zero_le _) bounded

end BinarySearch
