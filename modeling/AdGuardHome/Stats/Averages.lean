import AdGuardHome.Stats.Unit
import Mathlib.Algebra.Group.Action.Defs
import Mathlib.Data.Finset.Max

namespace AdGuardHome.Stats

/-- A unit of the memory, and the orders in which it is stored. -/
abbrev Recorded := Unit × MapOrders

def stored (recorded : List Recorded) : List UnitDB := recorded.map fun r => r.1.serialize r.2

def unitAverages (units : List UnitDB) : List (BitVec 32) :=
  (units.map UnitDB.timeAvg).filter (· ≠ 0)

def inSeconds (average : BitVec 32) : Float64 :=
  microsecondsToSeconds (Float64.ofNat average.toNat)

/-- The reported average is between the smallest and the largest one of the units. -/
def AverageWithin (units : List UnitDB) : Prop :=
  ∀ low ∈ unitAverages units, ∀ high ∈ unitAverages units,
    (∀ t ∈ unitAverages units, low ≤ t ∧ t ≤ high) →
      inSeconds low ≤ avgProcessingTime units ∧ avgProcessingTime units ≤ inSeconds high

/-- The sum of the averages, as far as 32 bits hold it, is no less than as many times the
smallest one; a sum that does not overflow never is. -/
def SumHeld (averages : List (BitVec 32)) : Prop :=
  ∀ low ∈ averages, (∀ t ∈ averages, low ≤ t) →
    averages.length * low.toNat ≤ (averages.map BitVec.toNat).sum % 2 ^ 32

private theorem toNat_sum (values : List (BitVec 32)) :
    values.sum.toNat = (values.map BitVec.toNat).sum % 2 ^ 32 := by
  induction values with
  | nil => rfl
  | cons value rest ih =>
    rw [List.sum_cons, BitVec.toNat_add, ih, Nat.add_mod_mod, List.map_cons, List.sum_cons]

private theorem sum_filter_ne_zero (values : List (BitVec 32)) :
    ((values.filter (· ≠ 0)).map BitVec.toNat).sum = (values.map BitVec.toNat).sum := by
  induction values with
  | nil => rfl
  | cons value rest ih =>
    by_cases zero : value = 0
    · subst zero
      simpa using ih
    · rw [List.filter_cons_of_pos (by simpa using zero), List.map_cons, List.sum_cons, ih,
        List.map_cons, List.sum_cons]

private theorem sum_le_length_mul {values : List (BitVec 32)} {high : BitVec 32}
    (greatest : ∀ t ∈ values, t ≤ high) :
    (values.map BitVec.toNat).sum ≤ values.length * high.toNat := by
  have bound := List.sum_le_card_nsmul (values.map BitVec.toNat) high.toNat (by
    intro t member
    obtain ⟨value, inside, rfl⟩ := List.mem_map.mp member
    exact greatest value inside)
  rwa [List.length_map, smul_eq_mul] at bound

theorem length_unitAverages (units : List UnitDB) :
    (unitAverages units).length = units.countP fun u => u.timeAvg ≠ 0 := by
  rw [unitAverages, ← List.countP_eq_length_filter, List.countP_map]
  rfl

theorem toNat_average (units : List UnitDB) (few : units.length < 2 ^ 32) :
    (sumTimeAvg units / timeN units).toNat =
      ((unitAverages units).map BitVec.toNat).sum % 2 ^ 32 / (unitAverages units).length := by
  have count : (units.countP fun u => u.timeAvg ≠ 0) < 2 ^ 32 :=
    Nat.lt_of_le_of_lt List.countP_le_length few
  rw [BitVec.toNat_udiv, sumTimeAvg, toNat_sum, timeN, BitVec.toNat_ofNat, Nat.mod_eq_of_lt count,
    length_unitAverages, unitAverages, sum_filter_ne_zero]

private theorem microsecond_pos : 0 < Float64.round (1 / 10 ^ 6) := by
  have moved := (abs_le.mp (Float64.abs_round_sub_le (by norm_num : (0 : ℚ) ≤ 1 / 10 ^ 6))).1
  linarith

theorem inSeconds_eq (average : BitVec 32) :
    inSeconds average =
      (Float64.round ((average.toNat : ℚ) * Float64.round (1 / 10 ^ 6)) : ℚ) := by
  have small : average.toNat < 2 ^ 53 :=
    Nat.lt_of_lt_of_le average.isLt (Nat.pow_le_pow_right (by decide) (by decide))
  rw [inSeconds, microsecondsToSeconds, Float64.ofNat, Float64.round_natCast small, Float64.scale,
    WithTop.map_coe]

theorem inSeconds_lt {a b : BitVec 32} (less : a < b) : inSeconds a < inSeconds b := by
  have unit := microsecond_pos
  rw [inSeconds_eq, inSeconds_eq, WithTop.coe_lt_coe]
  generalize Float64.round (1 / 10 ^ 6) = micro at unit
  have below : (a.toNat : ℚ) + 1 ≤ b.toNat := by
    exact_mod_cast Nat.succ_le_of_lt (BitVec.lt_def.mp less)
  have bound : (b.toNat : ℚ) < 2 ^ 32 := by exact_mod_cast b.isLt
  apply Float64.round_lt_round (mul_nonneg (Nat.cast_nonneg _) unit.le)
  have gap : (a.toNat : ℚ) + (a.toNat + b.toNat) / 2 ^ 53 < b.toNat := by
    have part : ((a.toNat : ℚ) + b.toNat) / 2 ^ 53 < 1 := by
      rw [div_lt_one (by norm_num)]
      linarith
    linarith
  calc (a.toNat : ℚ) * micro + (a.toNat * micro + b.toNat * micro) / 2 ^ 53
      = (a.toNat + (a.toNat + b.toNat) / 2 ^ 53) * micro := by ring
    _ < b.toNat * micro := mul_lt_mul_of_pos_right gap unit

theorem inSeconds_le_iff {a b : BitVec 32} : inSeconds a ≤ inSeconds b ↔ a ≤ b := by
  constructor
  · intro le
    by_contra above
    exact absurd (inSeconds_lt (BitVec.not_le.mp above)) (not_lt.mpr le)
  · intro le
    by_cases same : a = b
    · rw [same]
    · exact (inSeconds_lt (BitVec.lt_of_le_ne le same)).le

theorem averageWithin_iff {units : List UnitDB} (few : units.length < 2 ^ 32) :
    AverageWithin units ↔ SumHeld (unitAverages units) := by
  have value := toNat_average units few
  have length := length_unitAverages units
  have count : (unitAverages units).length < 2 ^ 32 :=
    length ▸ Nat.lt_of_le_of_lt List.countP_le_length few
  have reported : ∀ low ∈ unitAverages units,
      0 < (unitAverages units).length ∧
        avgProcessingTime units = inSeconds (sumTimeAvg units / timeN units) := by
    intro low member
    have some_ : 0 < (unitAverages units).length := List.length_pos_of_mem member
    refine ⟨some_, if_pos ?_⟩
    intro zero
    have none_ := congrArg BitVec.toNat zero
    rw [timeN, ← length, BitVec.toNat_ofNat, Nat.mod_eq_of_lt count] at none_
    exact absurd none_ some_.ne'
  have lower : ∀ low ∈ unitAverages units, inSeconds low ≤ avgProcessingTime units ↔
      (unitAverages units).length * low.toNat ≤
        ((unitAverages units).map BitVec.toNat).sum % 2 ^ 32 := by
    intro low member
    obtain ⟨some_, same⟩ := reported low member
    rw [same, inSeconds_le_iff, BitVec.le_def, value, Nat.le_div_iff_mul_le some_, Nat.mul_comm]
  constructor
  · intro within low member least
    obtain ⟨high, inside, greatest⟩ := (unitAverages units).toFinset.exists_max_image BitVec.toNat
      ⟨low, List.mem_toFinset.mpr member⟩
    refine ((lower low member).mp (within low member high (List.mem_toFinset.mp inside) ?_).1)
    exact fun t there => ⟨least t there, greatest t (List.mem_toFinset.mpr there)⟩
  · intro held low member high inside between
    refine ⟨(lower low member).mpr (held low member fun t there => (between t there).1), ?_⟩
    obtain ⟨some_, same⟩ := reported low member
    rw [same, inSeconds_le_iff, BitVec.le_def, value]
    apply Nat.div_le_of_le_mul
    exact Nat.le_trans (Nat.mod_le _ _) (sum_le_length_mul fun t there => (between t there).2)

/-- The responses that all units have recorded for an upstream. -/
def totalResponses (recorded : List Recorded) (name : String) : Nat :=
  (recorded.map fun r => ((r.1.upstreamsResponses.get name).getD 0).toNat).sum

/-- The query time in microseconds that all units have recorded for an upstream. -/
def totalTime (recorded : List Recorded) (name : String) : Nat :=
  (recorded.map fun r => ((r.1.upstreamsTimeSum.get name).getD 0).toNat).sum

/-- The reported average of each upstream is its time divided by its responses. -/
def UpstreamAverages (recorded : List Recorded) (orders : TopOrders) : Prop :=
  ∀ name average, (name, average) ∈ (topUpstreamsPairs (stored recorded) orders).2 →
    average = microsecondsToSeconds
      ((Float64.ofNat (totalTime recorded name)).div (Float64.ofNat (totalResponses recorded name)))

/-- No unit drops an upstream that has one of its numbers when it is stored. -/
def Keeps (pairs : List CountPair) (m : FiniteMap String Counter) (name : String) : Prop :=
  ∀ n, m.get name = some n → ∃ cp ∈ pairs, cp.name = name

/-- An upstream that some unit keeps is dropped by none, and its totals are exact. -/
def Undropped (recorded : List Recorded) : Prop :=
  ∀ name, (∃ r ∈ recorded, ∃ cp ∈ (r.1.serialize r.2).upstreamsResponses, cp.name = name) →
    (∀ r ∈ recorded,
      Keeps (r.1.serialize r.2).upstreamsResponses r.1.upstreamsResponses name ∧
        Keeps (r.1.serialize r.2).upstreamsTimeSum r.1.upstreamsTimeSum name) ∧
    totalResponses recorded name < 2 ^ 64 ∧ totalTime recorded name < 2 ^ 53

private theorem filter_of_nodup {pairs : List CountPair} (nodup : (pairs.map (·.name)).Nodup)
    {cp : CountPair} (member : cp ∈ pairs) : pairs.filter (·.name = cp.name) = [cp] := by
  induction pairs with
  | nil => cases member
  | cons first rest ih =>
    obtain ⟨fresh, nodup⟩ := List.nodup_cons.mp nodup
    rcases List.mem_cons.mp member with rfl | later
    · have none_ : rest.filter (·.name = cp.name) = [] := by
        apply List.filter_eq_nil_iff.mpr
        intro other inside
        have different : other.name ≠ cp.name := fun same =>
          fresh (List.mem_map.mpr ⟨other, inside, same⟩)
        simpa using different
      rw [List.filter_cons_of_pos (by simp), none_]
    · have different : first.name ≠ cp.name := fun same =>
        fresh (List.mem_map.mpr ⟨cp, later, same.symm⟩)
      rw [List.filter_cons_of_neg (by simpa using different), ih nodup later]

theorem keeps_of_few (order : WalkOrder String) {m : FiniteMap String Counter} {maxVal : Nat}
    (few : m.keys.length ≤ maxVal) (name : String) :
    Keeps (convertMapToSlice order m maxVal) m name := by
  intro n found
  refine ⟨⟨name, n⟩, ?_, rfl⟩
  rw [convertMapToSlice_eq, List.take_of_length_le (by rwa [length_sortedPairs])]
  exact (mem_sortedPairs order).mpr found

/-- The pairs of a name that is kept are its entry of the map. -/
theorem filter_convertMapToSlice (order : WalkOrder String) (m : FiniteMap String Counter)
    (maxVal : Nat) {name : String} (kept : Keeps (convertMapToSlice order m maxVal) m name) :
    (convertMapToSlice order m maxVal).filter (·.name = name) =
      ((m.get name).map (CountPair.mk name)).toList := by
  obtain ⟨nodup, counts⟩ := convertMapToSlice_spec order m maxVal
  cases found : m.get name with
  | none =>
    apply List.filter_eq_nil_iff.mpr
    intro cp member
    have different : cp.name ≠ name := by
      rintro rfl
      rw [counts cp member] at found
      cases found
    simpa using different
  | some n =>
    obtain ⟨cp, member, rfl⟩ := kept n found
    rw [filter_of_nodup nodup member]
    rw [counts cp member] at found
    cases found
    rfl

private theorem toNat_zero : (0 : Counter).toNat = 0 := rfl

/-- The counts of one name in all units, from what was there before. -/
private theorem foldl_counts (tables : List (FiniteMap String Counter)) (name : String)
    (before : Option Counter)
    (fits : (before.getD 0).toNat + (tables.map fun m => ((m.get name).getD 0).toNat).sum < 2 ^ 64) :
    (((tables.flatMap fun m => ((m.get name).map (CountPair.mk name)).toList).foldl
      (fun (n : Option Counter) cp => some (n.getD 0 + cp.count)) before).getD 0).toNat =
        (before.getD 0).toNat + (tables.map fun m => ((m.get name).getD 0).toNat).sum := by
  induction tables generalizing before with
  | nil => rfl
  | cons m rest ih =>
    rw [List.map_cons, List.sum_cons] at fits ⊢
    rw [List.flatMap_cons, List.foldl_append]
    cases found : m.get name with
    | none =>
      rw [found] at fits
      simp only [Option.getD_none, toNat_zero, Nat.zero_add] at fits ⊢
      exact ih before fits
    | some n =>
      rw [found] at fits
      simp only [Option.getD_some] at fits ⊢
      have sum : (before.getD 0 + n).toNat = (before.getD 0).toNat + n.toNat := by
        rw [BitVec.toNat_add, Nat.mod_eq_of_lt (by omega)]
      have next := ih (some (before.getD 0 + n)) (by rw [Option.getD_some, sum]; omega)
      rw [Option.getD_some, sum] at next
      rw [← Nat.add_assoc]
      exact next

private theorem add_ofNat {a b : Nat} (small : a + b < 2 ^ 53) :
    (Float64.ofNat a).add (Float64.ofNat b) = Float64.ofNat (a + b) := by
  rw [Float64.ofNat, Float64.ofNat, Float64.round_natCast (by omega),
    Float64.round_natCast (by omega), Float64.add, ← WithTop.coe_add, WithTop.map_coe, Float64.ofNat]
  push_cast
  rfl

/-- The times of one name in all units: below `2 ^ 53` the sum is exact. -/
private theorem foldl_times (tables : List (FiniteMap String Counter)) (name : String)
    (before : Option Float64) (sum : Nat) (start : before.getD 0 = Float64.ofNat sum)
    (fits : sum + (tables.map fun m => ((m.get name).getD 0).toNat).sum < 2 ^ 53) :
    ((tables.flatMap fun m => ((m.get name).map (CountPair.mk name)).toList).foldl
      (fun (time : Option Float64) cp => some ((time.getD 0).add (Float64.ofNat cp.count.toNat)))
        before).getD 0 =
      Float64.ofNat (sum + (tables.map fun m => ((m.get name).getD 0).toNat).sum) := by
  induction tables generalizing before sum with
  | nil => exact start
  | cons m rest ih =>
    rw [List.map_cons, List.sum_cons] at fits ⊢
    rw [List.flatMap_cons, List.foldl_append]
    cases found : m.get name with
    | none =>
      rw [found] at fits
      simp only [Option.getD_none, toNat_zero, Nat.zero_add] at fits ⊢
      exact ih before sum start fits
    | some n =>
      rw [found] at fits
      simp only [Option.getD_some] at fits ⊢
      have added : (before.getD 0).add (Float64.ofNat n.toNat) = Float64.ofNat (sum + n.toNat) := by
        rw [start, add_ofNat (by omega)]
      have next := ih (some ((before.getD 0).add (Float64.ofNat n.toNat))) (sum + n.toNat)
        (by rw [Option.getD_some, added]) (by omega)
      rw [← Nat.add_assoc]
      exact next

private theorem filter_flatMap (recorded : List Recorded) (pairs : UnitDB → List CountPair)
    (table : Unit → FiniteMap String Counter) (name : String)
    (kept : ∀ r ∈ recorded, (pairs (r.1.serialize r.2)).filter (·.name = name) =
      (((table r.1).get name).map (CountPair.mk name)).toList) :
    ((stored recorded).flatMap pairs).filter (·.name = name) =
      (recorded.map fun r => table r.1).flatMap fun m =>
        ((m.get name).map (CountPair.mk name)).toList := by
  induction recorded with
  | nil => rfl
  | cons r rest ih =>
    rw [stored, List.map_cons, ← stored, List.flatMap_cons, List.filter_append,
      kept r List.mem_cons_self, ih fun other member => kept other (List.mem_cons_of_mem _ member),
      List.map_cons, List.flatMap_cons]

section Upstream

variable {recorded : List Recorded} {name : String}

theorem toNat_responsesOf
    (kept : ∀ r ∈ recorded,
      Keeps (r.1.serialize r.2).upstreamsResponses r.1.upstreamsResponses name)
    (fits : totalResponses recorded name < 2 ^ 64) :
    (((responsesOf (stored recorded)).get name).getD 0).toNat = totalResponses recorded name := by
  have pairs := filter_flatMap recorded UnitDB.upstreamsResponses Unit.upstreamsResponses name
    fun r member => filter_convertMapToSlice _ _ _ (kept r member)
  have sum : ((recorded.map fun r => r.1.upstreamsResponses).map fun m =>
      ((m.get name).getD 0).toNat).sum = totalResponses recorded name := by
    rw [List.map_map]
    rfl
  have counted := foldl_counts (recorded.map fun r => r.1.upstreamsResponses) name none (by
    rw [sum, Option.getD_none, toNat_zero, Nat.zero_add]
    exact fits)
  rw [sum, Option.getD_none, toNat_zero, Nat.zero_add] at counted
  have value := FiniteMap.get_foldl_set CountPair.name
    (fun (n : Option Counter) cp => n.getD 0 + cp.count)
    ((stored recorded).flatMap UnitDB.upstreamsResponses) ∅ name
  rw [FiniteMap.get_empty, pairs] at value
  rw [← counted, ← value]
  rfl

theorem timeSumOf_eq
    (kept : ∀ r ∈ recorded, Keeps (r.1.serialize r.2).upstreamsTimeSum r.1.upstreamsTimeSum name)
    (fits : totalTime recorded name < 2 ^ 53) :
    ((timeSumOf (stored recorded)).get name).getD 0 =
      Float64.ofNat (totalTime recorded name) := by
  have pairs := filter_flatMap recorded UnitDB.upstreamsTimeSum Unit.upstreamsTimeSum name
    fun r member => filter_convertMapToSlice _ _ _ (kept r member)
  have sum : ((recorded.map fun r => r.1.upstreamsTimeSum).map fun m =>
      ((m.get name).getD 0).toNat).sum = totalTime recorded name := by
    rw [List.map_map]
    rfl
  have zero : (none : Option Float64).getD 0 = Float64.ofNat 0 := by
    rw [Float64.ofNat, Nat.cast_zero, Float64.round_zero, Option.getD_none, WithTop.coe_zero]
  have timed := foldl_times (recorded.map fun r => r.1.upstreamsTimeSum) name none 0 zero (by
    rw [sum, Nat.zero_add]
    exact fits)
  rw [sum, Nat.zero_add] at timed
  have value := FiniteMap.get_foldl_set CountPair.name
    (fun (time : Option Float64) cp => (time.getD 0).add (Float64.ofNat cp.count.toNat))
    ((stored recorded).flatMap UnitDB.upstreamsTimeSum) ∅ name
  rw [FiniteMap.get_empty, pairs] at value
  rw [← timed, ← value]
  rfl

theorem kept_of_responsesOf {n : Counter}
    (found : (responsesOf (stored recorded)).get name = some n) :
    ∃ r ∈ recorded, ∃ cp ∈ (r.1.serialize r.2).upstreamsResponses, cp.name = name := by
  have value := FiniteMap.get_foldl_set CountPair.name
    (fun (n : Option Counter) cp => n.getD 0 + cp.count)
    ((stored recorded).flatMap UnitDB.upstreamsResponses) ∅ name
  have same : (responsesOf (stored recorded)).get name = _ := value
  rw [found, FiniteMap.get_empty] at same
  cases pairs : ((stored recorded).flatMap UnitDB.upstreamsResponses).filter (·.name = name) with
  | nil =>
    rw [pairs] at same
    cases same
  | cons cp rest =>
    have member : cp ∈ ((stored recorded).flatMap UnitDB.upstreamsResponses).filter
        (·.name = name) := pairs ▸ List.mem_cons_self
    obtain ⟨inside, named⟩ := List.mem_filter.mp member
    obtain ⟨u, unit, here⟩ := List.mem_flatMap.mp inside
    obtain ⟨r, given, rfl⟩ := List.mem_map.mp unit
    exact ⟨r, given, cp, here, of_decide_eq_true named⟩

end Upstream

/-- What is listed is an average of the two tables. -/
theorem mem_topUpstreamsPairs {units : List UnitDB} {orders : TopOrders} {name : String}
    {average : Float64} (member : (name, average) ∈ (topUpstreamsPairs units orders).2) :
    ∃ n, (responsesOf units).get name = some n ∧ average = microsecondsToSeconds
      ((((timeSumOf units).get name).getD 0).div (Float64.ofNat n.toNat)) := by
  unfold topUpstreamsPairs prepareTopUpstreamsAvgTime at member
  dsimp only at member
  have listed := (List.mergeSort_perm _ _).mem_iff.mp member
  obtain ⟨key, inside, same⟩ := List.mem_map.mp listed
  obtain ⟨rfl, rfl⟩ := Prod.mk.inj same
  obtain ⟨value, found⟩ := (FiniteMap.mem_keys _ key).mp ((orders.averages.mem_arrange _ _).mp inside)
  rw [found, Option.getD_some]
  rw [FiniteMap.get_filterMap] at found
  obtain ⟨n, present, averaged⟩ := Option.bind_eq_some_iff.mp found
  refine ⟨n, present, ?_⟩
  unfold averageOf at averaged
  dsimp only at averaged
  split at averaged
  · exact (Option.some.inj averaged).symm
  · cases averaged

theorem upstreamAverages_of_undropped {recorded : List Recorded} (undropped : Undropped recorded)
    (orders : TopOrders) : UpstreamAverages recorded orders := by
  intro name average member
  obtain ⟨n, found, rfl⟩ := mem_topUpstreamsPairs member
  obtain ⟨kept, responses, time⟩ := undropped name (kept_of_responsesOf found)
  have total := toNat_responsesOf (fun r inside => (kept r inside).1) responses
  rw [found, Option.getD_some] at total
  rw [total, timeSumOf_eq (fun r inside => (kept r inside).2) time]

/-- The reported average time is within those of the units exactly when their sum is held,
and the averages of the upstreams are right as long as no unit drops one. -/
theorem average_times (recorded : List Recorded) (orders : TopOrders)
    (bounded : recorded.length ≤ 8760) :
    (AverageWithin (stored recorded) ↔ SumHeld (unitAverages (stored recorded))) ∧
      (Undropped recorded → UpstreamAverages recorded orders) := by
  have few : (stored recorded).length < 2 ^ 32 := by
    rw [stored, List.length_map]
    exact Nat.lt_of_le_of_lt bounded (by decide)
  exact ⟨averageWithin_iff few, fun undropped => upstreamAverages_of_undropped undropped orders⟩

/-- An hour in which the second of two upstreams has taken twice the time of the first one. -/
def upstreamsHour (n time : Counter) : Recorded :=
  ({ newUnit 0 with
      nTotal := n + n
      timeSum := time + (time + time)
      upstreamsResponses := (FiniteMap.set ∅ "192.0.2.53" n).set "192.0.2.54" n
      upstreamsTimeSum := (FiniteMap.set ∅ "192.0.2.53" time).set "192.0.2.54" (time + time) },
    .inserted)

def twoHours : List Recorded := [upstreamsHour 2 3000000, upstreamsHour 1 500000]

theorem average_times_of_two_hours :
    AverageWithin (stored twoHours) ∧ unitAverages (stored twoHours) = [2250000, 750000] ∧
      UpstreamAverages twoHours .inserted ∧ totalResponses twoHours "192.0.2.54" = 3 := by
  obtain ⟨within, upstreams⟩ := average_times twoHours .inserted (by decide)
  have averages : unitAverages (stored twoHours) = [2250000, 750000] := by decide
  refine ⟨within.mpr ?held, averages, upstreams ?undropped, by decide⟩
  case held =>
    rw [averages]
    intro low member least
    have below := least 750000 (by simp)
    rcases List.mem_pair.mp member with rfl | rfl
    · exact absurd below (by decide)
    · decide
  case undropped =>
    rintro name ⟨r, member, cp, inside, rfl⟩
    have totals : ∀ r ∈ twoHours, ∀ name ∈ r.1.upstreamsResponses.keys,
        totalResponses twoHours name < 2 ^ 64 ∧ totalTime twoHours name < 2 ^ 53 := by
      decide
    have few : ∀ r ∈ twoHours, r.1.upstreamsResponses.keys.length ≤ maxUpstreams ∧
        r.1.upstreamsTimeSum.keys.length ≤ maxUpstreams := by decide
    have counted := (convertMapToSlice_spec _ _ _).2 cp inside
    exact ⟨fun r here => ⟨keeps_of_few _ (few r here).1 _, keeps_of_few _ (few r here).2 _⟩,
      totals r member cp.name ((FiniteMap.mem_keys _ _).mpr ⟨_, counted⟩)⟩

def slowUnit (time : Counter) : Recorded :=
  ({ newUnit 0 with nTotal := 1, timeSum := time }, .inserted)

/-- Two hours with one query of 36 minutes each are reported with an average of zero. -/
theorem long_averages_overflow :
    ¬ ∀ (recorded : List Recorded) (orders : TopOrders), recorded.length ≤ 8760 →
      AverageWithin (stored recorded) ∧ UpstreamAverages recorded orders := by
  intro all
  have within := (all [slowUnit 0x80000000, slowUnit 0x80000000] .inserted (by decide)).1
  have few : (stored [slowUnit 0x80000000, slowUnit 0x80000000]).length < 2 ^ 32 := by decide
  have averages : unitAverages (stored [slowUnit 0x80000000, slowUnit 0x80000000]) =
      [0x80000000, 0x80000000] := by decide
  have held := (averageWithin_iff few).mp within
  rw [averages] at held
  have least := held 0x80000000 List.mem_cons_self (by simp)
  revert least
  decide

end AdGuardHome.Stats
