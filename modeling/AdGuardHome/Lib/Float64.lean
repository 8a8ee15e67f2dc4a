import Mathlib.Algebra.Order.WithTop.Untop0
import Mathlib.Data.Int.Log
import Mathlib.Data.Rat.Floor
import Mathlib.Tactic.Positivity

/-! Binary floating-point numbers with a significand of 53 bits, as far as they are not
negative: a rational number, or the infinite one at the top. The exponent has no bounds,
so the operations are those of the format for results between `2 ^ -1022` and `2 ^ 1024`. -/

/-- A number of the format `binary64`. -/
abbrev Float64 := WithTop ℚ

namespace Float64

/-- The nearest integer, and the even one of two. -/
def nearest (x : ℚ) : ℤ :=
  if Int.fract x < 1 / 2 ∨ Int.fract x = 1 / 2 ∧ ⌊x⌋ % 2 = 0 then ⌊x⌋ else ⌊x⌋ + 1

/-- What the last bit of the significand of a number stands for. -/
def ulp (x : ℚ) : ℚ := 2 ^ (Int.log 2 x - 52)

/-- The nearest number with a significand of 53 bits. -/
def round (x : ℚ) : ℚ := nearest (x / ulp x) * ulp x

/-- The conversion of an integer. -/
def ofNat (n : ℕ) : Float64 := (round n : ℚ)

def add (x y : Float64) : Float64 := WithTop.map round (x + y)

/-- The product with a finite number. -/
def scale (x : Float64) (factor : ℚ) : Float64 := x.map fun value => round (value * factor)

/-- The quotient of two numbers that are not both zero. -/
def div : Float64 → Float64 → Float64
  | ⊤, _ => ⊤
  | (_ : ℚ), ⊤ => (0 : ℚ)
  | (x : ℚ), (y : ℚ) => if y = 0 then ⊤ else (round (x / y) : ℚ)

theorem abs_nearest_sub_le (x : ℚ) : |(nearest x : ℚ) - x| ≤ 1 / 2 := by
  have whole := Int.floor_add_fract x
  have low := Int.fract_nonneg x
  unfold nearest
  split
  · rename_i down
    have half : Int.fract x ≤ 1 / 2 := down.elim le_of_lt fun tie => tie.1.le
    rw [abs_le]
    constructor <;> linarith
  · rename_i up
    have half : 1 / 2 ≤ Int.fract x := not_lt.mp fun less => up (.inl less)
    have high := Int.fract_lt_one x
    push_cast
    rw [abs_le]
    constructor <;> linarith

@[simp] theorem nearest_intCast (n : ℤ) : nearest n = n := by
  simp [nearest]

theorem ulp_pos (x : ℚ) : 0 < ulp x := zpow_pos (by norm_num) _

theorem ulp_le {x : ℚ} (positive : 0 < x) : ulp x * 2 ^ 52 ≤ x := by
  have bound : (2 : ℚ) ^ Int.log 2 x ≤ x := Int.zpow_log_le_self (by norm_num) positive
  calc ulp x * 2 ^ 52 = (2 : ℚ) ^ Int.log 2 x := by
        rw [ulp, zpow_sub₀ (by norm_num)]
        norm_num
    _ ≤ x := bound

@[simp] theorem round_zero : round 0 = 0 := by
  simp [round, nearest]

theorem abs_round_sub_le {x : ℚ} (nonneg : 0 ≤ x) : |round x - x| ≤ x / 2 ^ 53 := by
  rcases nonneg.eq_or_lt with rfl | positive
  · simp
  · have unit := ulp_pos x
    have moved := abs_nearest_sub_le (x / ulp x)
    have split_ : round x - x = (nearest (x / ulp x) - x / ulp x) * ulp x := by
      rw [sub_mul, div_mul_cancel₀ _ unit.ne', round]
    calc |round x - x| = |(nearest (x / ulp x) : ℚ) - x / ulp x| * ulp x := by
          rw [split_, abs_mul, abs_of_pos unit]
      _ ≤ 1 / 2 * ulp x := mul_le_mul_of_nonneg_right moved unit.le
      _ ≤ x / 2 ^ 53 := by
          rw [le_div_iff₀ (by norm_num)]
          linarith [ulp_le positive]

theorem round_lt_round {x y : ℚ} (nonneg : 0 ≤ x) (apart : x + (x + y) / 2 ^ 53 < y) :
    round x < round y := by
  have positive : 0 ≤ y := by
    by_contra negative
    have below : y / 2 ^ 53 ≤ 0 := div_nonpos_of_nonpos_of_nonneg (by linarith) (by norm_num)
    have above : y ≤ y / 2 ^ 53 := by
      rw [le_div_iff₀ (by norm_num)]
      linarith
    have part : 0 ≤ x / 2 ^ 53 := div_nonneg nonneg (by norm_num)
    have parts : (x + y) / 2 ^ 53 = x / 2 ^ 53 + y / 2 ^ 53 := add_div _ _ _
    linarith
  have low := (abs_le.mp (abs_round_sub_le nonneg)).2
  have high := (abs_le.mp (abs_round_sub_le positive)).1
  have parts : (x + y) / 2 ^ 53 = x / 2 ^ 53 + y / 2 ^ 53 := add_div _ _ _
  linarith

theorem round_natCast {n : ℕ} (small : n < 2 ^ 53) : round (n : ℚ) = n := by
  rcases Nat.eq_zero_or_pos n with rfl | positive
  · simp
  · have log : Int.log 2 (n : ℚ) ≤ 52 := by
      rw [Int.log_natCast]
      have digits := Nat.log_lt_of_lt_pow positive.ne' small
      omega
    have whole : (n : ℚ) / ulp n = ((n * 2 ^ (52 - Int.log 2 (n : ℚ)).toNat : ℤ) : ℚ) := by
      have exponent : ((52 - Int.log 2 (n : ℚ)).toNat : ℤ) = 52 - Int.log 2 (n : ℚ) :=
        Int.toNat_of_nonneg (by omega)
      rw [ulp, div_eq_mul_inv, ← zpow_neg, neg_sub]
      push_cast
      rw [← zpow_natCast, exponent]
    rw [round, whole, nearest_intCast, ← whole, div_mul_cancel₀ _ (ulp_pos _).ne']

end Float64
