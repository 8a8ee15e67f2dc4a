import Mathlib.Algebra.BigOperators.Group.List.Basic
import Mathlib.Algebra.GroupWithZero.Nat
import Mathlib.Data.List.Count

/-! Counting the elements of a list key by key. -/
namespace Tally

universe u
variable {Key : Type u} [DecidableEq Key]

private theorem countP_cons_keys (key : Key) (keys elements : List Key) (fresh : key ∉ keys) :
    elements.countP (fun x => x ∈ key :: keys) =
      elements.count key + elements.countP (fun x => x ∈ keys) := by
  induction elements with
  | nil => rfl
  | cons first rest ih =>
    rw [List.countP_cons, List.countP_cons, List.count_cons, ih]
    by_cases same : first = key
    · subst same
      simp [fresh]
      omega
    · simp [same]
      omega

theorem sum_count (keys elements : List Key) (distinct : keys.Nodup) :
    (keys.map fun key => elements.count key).sum = elements.countP (fun x => x ∈ keys) := by
  induction keys with
  | nil => simp
  | cons key rest ih =>
    obtain ⟨fresh, distinct⟩ := List.nodup_cons.mp distinct
    rw [List.map_cons, List.sum_cons, ih distinct, countP_cons_keys key rest elements fresh]

end Tally
