import AdGuardHome.Dhcpsvc.NetInterface

namespace AdGuardHome.Dhcpsvc

/-- `time.Second`. -/
def second : Nat := 10 ^ 9

/-- The quotient rounded to the nearest integer, and to the even one of two. -/
def roundQuotient (n unit : Nat) : Nat :=
  let quotient := n / unit
  let rest := n % unit
  if 2 * rest < unit ∨ 2 * rest = unit ∧ quotient % 2 = 0 then quotient else quotient + 1

/-- Floats are counted in units of `2 ^ -82`: a quotient by `time.Second` is no smaller
than `2 ^ -30`, and its significand has 53 bits. -/
def fractionBits : Nat := 82

/-- How many of its last bits a significand of 53 bits does not keep. -/
def dropped (n : Nat) : Nat := n.log2 - 52

/-- The `float64` nearest to `float64(nsec)/1e9`. -/
def floatFraction (nsec : Nat) : Nat :=
  let unit := 2 ^ dropped (nsec * 2 ^ fractionBits / second)
  roundQuotient (nsec * 2 ^ fractionBits) (second * unit) * unit

/-- The `float64` nearest to an exact sum. -/
def nearestFloat (n : Nat) : Nat := roundQuotient n (2 ^ dropped n) * 2 ^ dropped n

/-- `Duration.Seconds` of as many nanoseconds, without its fraction. -/
def wholeSeconds (nanoseconds : Nat) : Nat :=
  nearestFloat (nanoseconds / second * 2 ^ fractionBits + floatFraction (nanoseconds % second)) /
    2 ^ fractionBits

/-- `uint32(d.Seconds())`. The sign of a duration is that of its seconds, and a fraction
of a second becomes zero. -/
def uint32Seconds (env : Env) (d : Duration) : BitVec 32 :=
  let seconds := wholeSeconds d.natAbs
  if seconds = 0 then 0
  else if 0 ≤ d ∧ seconds < 2 ^ 32 then BitVec.ofNat 32 seconds
  else env.uint32Overflow d

def ofSeconds (seconds : BitVec 32) : Duration := seconds.toNat * second

example : wholeSeconds (86399 * second + 999999999) = 86399 := by decide

/-- From `2 ^ 24` seconds on, one nanosecond less than a full second rounds up. -/
example : wholeSeconds (2 ^ 24 * second + 999999999) = 2 ^ 24 + 1 := by decide

private theorem roundQuotient_bounds (n unit : Nat) :
    n / unit ≤ roundQuotient n unit ∧ roundQuotient n unit ≤ n / unit + 1 := by
  unfold roundQuotient
  dsimp only
  split <;> omega

private theorem two_pow_dropped_le (n : Nat) : 2 ^ dropped n ≤ n + 1 := by
  by_cases zero : n = 0
  · subst zero
    decide
  · calc 2 ^ dropped n ≤ 2 ^ n.log2 := Nat.pow_le_pow_right (by decide) (Nat.sub_le _ _)
      _ ≤ n := Nat.log2_self_le zero
      _ ≤ n + 1 := Nat.le_succ n

private theorem floatFraction_le {nsec : Nat} (bound : nsec < second) :
    floatFraction nsec ≤ 2 ^ 84 := by
  have scaled : nsec * 2 ^ fractionBits / second < 2 ^ fractionBits := by
    rw [Nat.div_lt_iff_lt_mul (by decide), Nat.mul_comm]
    exact Nat.mul_lt_mul_of_pos_left bound (by decide)
  unfold floatFraction
  dsimp only
  generalize amount : nsec * 2 ^ fractionBits = n at scaled ⊢
  have unit := two_pow_dropped_le (n / second)
  generalize 2 ^ dropped (n / second) = u at unit
  have rounded := (roundQuotient_bounds n (second * u)).2
  have fits : n / (second * u) * u ≤ n / second := by
    rw [← Nat.div_div_eq_div_mul]
    exact Nat.div_mul_le_self _ _
  have limit : (2 : Nat) ^ fractionBits = 2 ^ 82 := rfl
  calc roundQuotient n (second * u) * u ≤ (n / (second * u) + 1) * u :=
        Nat.mul_le_mul_right u rounded
    _ = n / (second * u) * u + u := Nat.succ_mul _ _
    _ ≤ 2 ^ 84 := by omega

private theorem dropped_le {n : Nat} (small : n < 2 ^ (134 + 1)) : dropped n ≤ fractionBits := by
  have digits : n.log2 < 134 + 1 := by
    by_cases zero : n = 0
    · subst zero
      decide
    · exact (Nat.log2_lt zero).mpr small
  unfold dropped fractionBits
  omega

theorem le_wholeSeconds {nanoseconds : Nat} (bound : nanoseconds / second < 2 ^ 32) :
    nanoseconds / second ≤ wholeSeconds nanoseconds := by
  unfold wholeSeconds
  have fraction := floatFraction_le (Nat.mod_lt nanoseconds (by decide : 0 < second))
  generalize floatFraction (nanoseconds % second) = part at fraction
  generalize nanoseconds / second = whole at bound
  generalize sum : whole * 2 ^ fractionBits + part = n
  have limit : (2 : Nat) ^ fractionBits = 2 ^ 82 := rfl
  have short : dropped n ≤ fractionBits := by
    have full : whole * 2 ^ fractionBits ≤ 2 ^ 32 * 2 ^ 82 :=
      Nat.mul_le_mul (Nat.le_of_lt bound) (Nat.le_of_eq limit)
    exact dropped_le (by omega)
  have multiple : whole * 2 ^ fractionBits = whole * 2 ^ (fractionBits - dropped n) *
      2 ^ dropped n := by
    rw [Nat.mul_assoc, ← Nat.pow_add, Nat.sub_add_cancel short]
  have quotient : whole * 2 ^ (fractionBits - dropped n) ≤ n / 2 ^ dropped n := by
    rw [Nat.le_div_iff_mul_le (Nat.two_pow_pos _), ← multiple]
    omega
  rw [Nat.le_div_iff_mul_le (Nat.two_pow_pos _), multiple]
  exact Nat.mul_le_mul_right _ (Nat.le_trans quotient (roundQuotient_bounds _ _).1)

private theorem roundQuotient_mul {quotient unit : Nat} (positive : 0 < unit) :
    roundQuotient (quotient * unit) unit = quotient := by
  have whole : quotient * unit / unit = quotient := Nat.mul_div_cancel _ positive
  have rest : quotient * unit % unit = 0 := Nat.mul_mod_left _ _
  simp only [roundQuotient, whole, rest]
  exact if_pos (.inl (by omega))

private theorem floatFraction_zero : floatFraction 0 = 0 := by decide

theorem wholeSeconds_mul {seconds : Nat} (bound : seconds < 2 ^ 32) :
    wholeSeconds (seconds * second) = seconds := by
  have whole : seconds * second / second = seconds := Nat.mul_div_cancel _ (by decide)
  have rest : seconds * second % second = 0 := Nat.mul_mod_left _ _
  unfold wholeSeconds
  rw [whole, rest, floatFraction_zero, Nat.add_zero]
  generalize exact_ : seconds * 2 ^ fractionBits = n
  have limit : (2 : Nat) ^ fractionBits = 2 ^ 82 := rfl
  have full : seconds * 2 ^ fractionBits ≤ 2 ^ 32 * 2 ^ 82 :=
    Nat.mul_le_mul (Nat.le_of_lt bound) (Nat.le_of_eq limit)
  have short : dropped n ≤ fractionBits := dropped_le (by omega)
  have multiple : n = seconds * 2 ^ (fractionBits - dropped n) * 2 ^ dropped n := by
    rw [Nat.mul_assoc, ← Nat.pow_add, Nat.sub_add_cancel short, exact_]
  have kept : nearestFloat n = n := by
    unfold nearestFloat
    generalize dropped n = bits at multiple ⊢
    rw [multiple, roundQuotient_mul (Nat.two_pow_pos _)]
  rw [kept, ← exact_, Nat.mul_div_cancel _ (Nat.two_pow_pos _)]

theorem uint32Seconds_ofSeconds (env : Env) (seconds : BitVec 32) :
    uint32Seconds env (ofSeconds seconds) = seconds := by
  have amount : (ofSeconds seconds).natAbs = seconds.toNat * second := by
    rw [ofSeconds, ← Nat.cast_mul, Int.natAbs_natCast]
  have positive : 0 ≤ ofSeconds seconds := Int.mul_nonneg (Int.natCast_nonneg _) (by decide)
  unfold uint32Seconds
  rw [amount, wholeSeconds_mul seconds.isLt]
  simp only
  split
  · rename_i zero
    exact (BitVec.eq_of_toNat_eq zero).symm
  · rw [if_pos ⟨positive, seconds.isLt⟩, BitVec.ofNat_toNat, BitVec.setWidth_eq]

/-- A duration that is not negative and whose seconds do not round up. -/
def Backed (d : Duration) : Prop := 0 ≤ d ∧ wholeSeconds d.natAbs ≤ d.natAbs / second

instance (d : Duration) : Decidable (Backed d) := inferInstanceAs (Decidable (_ ∧ _))

private theorem uint32Seconds_le (env : Env) {d : Duration} (positive : 0 ≤ d) :
    (uint32Seconds env d).toNat ≤ wholeSeconds d.natAbs := by
  unfold uint32Seconds
  dsimp only
  generalize wholeSeconds d.natAbs = seconds
  split
  · rename_i zero
    rw [zero]
    simp
  split
  · rw [BitVec.toNat_ofNat]
    exact Nat.mod_le _ _
  · rename_i out
    have large : 2 ^ 32 ≤ seconds := by
      by_contra small
      exact out ⟨positive, Nat.lt_of_not_le small⟩
    exact Nat.le_trans (Nat.le_of_lt (BitVec.isLt _)) large

theorem Backed.ofSeconds_le {d : Duration} (backed : Backed d) (env : Env) :
    ofSeconds (uint32Seconds env d) ≤ d := by
  obtain ⟨positive, rounded⟩ := backed
  have seconds := Nat.le_trans (uint32Seconds_le env positive) rounded
  have product : (uint32Seconds env d).toNat * second ≤ d.natAbs :=
    Nat.le_trans (Nat.mul_le_mul_right second seconds) (Nat.div_mul_le_self _ _)
  calc ofSeconds (uint32Seconds env d)
      = (((uint32Seconds env d).toNat * second : Nat) : Int) := (Nat.cast_mul _ _).symm
    _ ≤ (d.natAbs : Int) := Int.ofNat_le.mpr product
    _ = d := Int.natAbs_of_nonneg positive

/-- A duration of whole seconds that a message can carry, apart from a fraction. -/
structure Fits (d : Duration) : Prop where
  atLeast : (second : Int) ≤ d
  below : d.natAbs / second < 2 ^ 32
  backed : Backed d

instance (d : Duration) : Decidable (Fits d) :=
  decidable_of_iff ((second : Int) ≤ d ∧ d.natAbs / second < 2 ^ 32 ∧ Backed d)
    ⟨fun ⟨atLeast, below, backed⟩ => ⟨atLeast, below, backed⟩,
      fun fits => ⟨fits.atLeast, fits.below, fits.backed⟩⟩

theorem Fits.uint32Seconds_eq {d : Duration} (fits : Fits d) (env : Env) :
    (uint32Seconds env d).toNat = d.natAbs / second := by
  obtain ⟨_, below, positive, rounded⟩ := fits
  have exact_ := Nat.le_antisymm rounded (le_wholeSeconds below)
  unfold uint32Seconds
  dsimp only
  rw [exact_]
  generalize d.natAbs / second = seconds at below
  split
  · rename_i zero
    rw [zero]
    rfl
  · rw [if_pos ⟨positive, below⟩, BitVec.toNat_ofNat, Nat.mod_eq_of_lt below]

theorem Fits.ofSeconds_eq {d : Duration} (fits : Fits d) (env : Env) :
    ofSeconds (uint32Seconds env d) = d - d % second := by
  have value : (d.natAbs : Int) = d := Int.natAbs_of_nonneg fits.backed.1
  have parts : ((d.natAbs / second * second : Nat) : Int) + (d.natAbs % second : Nat) = d := by
    rw [← Nat.cast_add, Nat.div_add_mod', value]
  unfold ofSeconds
  rw [fits.uint32Seconds_eq env, ← Nat.cast_mul]
  have rest : ((d.natAbs % second : Nat) : Int) = d % second := by
    rw [Int.natCast_mod, value]
  rw [← rest]
  exact eq_sub_of_add_eq parts

theorem Fits.ofSeconds_pos {d : Duration} (fits : Fits d) (env : Env) :
    0 < ofSeconds (uint32Seconds env d) := by
  have whole : second ≤ d.natAbs := by
    have value : (d.natAbs : Int) = d := Int.natAbs_of_nonneg fits.backed.1
    exact Int.ofNat_le.mp (value ▸ fits.atLeast)
  have positive : 0 < second := by decide
  have seconds : 0 < (uint32Seconds env d).toNat := by
    rw [fits.uint32Seconds_eq env]
    exact Nat.div_pos whole positive
  unfold ofSeconds
  exact Int.mul_pos (Int.natCast_pos.mpr seconds) (Int.natCast_pos.mpr positive)

end AdGuardHome.Dhcpsvc
