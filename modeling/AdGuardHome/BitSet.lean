import AdGuardHome.Lib.FiniteMap
import Mathlib.Data.BitVec

namespace AdGuardHome

def bitsPerWord : Nat := 64

/-- `bitSet`: words of 64 bits by index. -/
structure BitSet where
  words : FiniteMap Nat (BitVec 64)

namespace BitSet

/-- `newBitSet`. -/
def new : BitSet := ⟨∅⟩

/-- `bitSet.isSet`. -/
def isSet (s : BitSet) (n : Nat) : Bool :=
  match s.words.get (n / bitsPerWord) with
  | some word => word &&& BitVec.twoPow 64 (n % bitsPerWord) != 0
  | none => false

/-- `bitSet.set`. -/
def set (s : BitSet) (n : Nat) (ok : Bool) : BitSet :=
  let word := (s.words.get (n / bitsPerWord)).getD 0
  let bit := BitVec.twoPow 64 (n % bitsPerWord)
  ⟨s.words.set (n / bitsPerWord) (if ok then word ||| bit else word &&& ~~~bit)⟩

@[simp] theorem isSet_new (n : Nat) : new.isSet n = false := by
  simp [isSet, new]

private theorem and_bit_ne_zero (word : BitVec 64) (i : Nat) (bound : i < 64) :
    (word &&& BitVec.twoPow 64 i != 0) = word.getLsbD i := by
  have nonzero : BitVec.twoPow 64 i ≠ 0 := by
    intro zero
    have bit := congrArg (fun v : BitVec 64 => v.getLsbD i) zero
    simp [bound] at bit
  rw [BitVec.and_twoPow]
  by_cases present : word.getLsbD i
  · simpa [present] using nonzero
  · simp [present]

theorem isSet_set (s : BitSet) (n : Nat) (ok : Bool) (m : Nat) :
    (s.set n ok).isSet m = if m = n then ok else s.isSet m := by
  have read : ∀ (t : BitSet) (k : Nat),
      t.isSet k = ((t.words.get (k / bitsPerWord)).getD 0).getLsbD (k % bitsPerWord) := by
    intro t k
    have bound : k % bitsPerWord < 64 := Nat.mod_lt _ (by decide)
    unfold isSet
    cases t.words.get (k / bitsPerWord) with
    | none => simp
    | some word => exact and_bit_ne_zero word _ bound
  have boundM : m % bitsPerWord < 64 := Nat.mod_lt _ (by decide)
  rw [read, read]
  simp only [set, FiniteMap.get_set]
  by_cases sameWord : m / bitsPerWord = n / bitsPerWord
  · rw [if_pos sameWord, sameWord, Option.getD_some]
    by_cases same : m = n
    · subst same
      cases ok <;> simp [boundM]
    · have otherBit : n % bitsPerWord ≠ m % bitsPerWord := by
        intro sameBit
        apply same
        rw [← Nat.div_add_mod m bitsPerWord, ← Nat.div_add_mod n bitsPerWord, sameWord, sameBit]
      cases ok <;> simp [same, Ne.symm otherBit, boundM]
  · have different : m ≠ n := by
      rintro rfl
      exact sameWord rfl
    rw [if_neg sameWord, if_neg different]

end BitSet

end AdGuardHome
