import AdGuardHome.Stats.Unit
import Mathlib.Algebra.BigOperators.Intervals

namespace AdGuardHome.Stats

open Finset

/-- The series of a response. -/
inductive Series where
  | dnsQueries
  | blockedFiltering
  | replacedSafebrowsing
  | replacedParental
deriving DecidableEq

def Collected.series (data : Collected) : Series → List Counter
  | .dnsQueries => data.dnsQueries
  | .blockedFiltering => data.blockedFiltering
  | .replacedSafebrowsing => data.replacedSafebrowsing
  | .replacedParental => data.replacedParental

def UnitDB.counted (u : UnitDB) : Series → Option Counter
  | .dnsQueries => some u.nTotal
  | .blockedFiltering => u.result rFiltered
  | .replacedSafebrowsing => u.result rSafeBrowsing
  | .replacedParental => u.result rParental

def UnitDB.Complete (u : UnitDB) : Prop := rParental.toNat < u.nResult.length

def counter (units : List UnitDB) (s : Series) (i : Nat) : Counter :=
  (units[i]?.bind fun u => u.counted s).getD 0

def amount (units : List UnitDB) (s : Series) (i : Nat) : Nat := (counter units s i).toNat

/-- The hour of the unit at one place of a list that ends at hour `curID`. -/
def hourID (curID : UnitID) (size i : Nat) : Int := curID.toNat - (size - 1 - i)

def dayTotal (units : List UnitDB) (curID : UnitID) (s : Series) (day : Int) : Nat :=
  ∑ i ∈ range units.length with hourID curID units.length i / 24 = day, amount units s i

def firstDay (curID : UnitID) (days : Nat) : Int := (curID.toNat : Int) / 24 - (days - 1)

/-- The daily series are the sums over the days up to the current one. -/
def DailyTotals (units : List UnitDB) (curID : UnitID) : Prop :=
  ∃ data, fillCollectedStats units curID = some data ∧
    ∀ s, (data.series s).map BitVec.toNat =
      (List.range (units.length / 24)).map fun (j : Nat) =>
        dayTotal units curID s (firstDay curID (units.length / 24) + j)

/-- The hours that the buckets of the code and the days do not share count nothing, and
no day overflows. -/
structure DayAligned (units : List UnitDB) (curID : UnitID) : Prop where
  complete : ∀ u ∈ units.drop (units.length - countHours curID (units.length / 24)), u.Complete
  fits : ∀ s, ∀ j < units.length / 24,
    dayTotal units curID s (firstDay curID (units.length / 24) + j) < 2 ^ 64
  /-- Hour zero of each day goes to the day before. -/
  midnight : curID.toNat % 24 ≠ 0 → ∀ s, ∀ i < units.length,
    firstDay curID (units.length / 24) ≤ hourID curID units.length i / 24 →
      hourID curID units.length i % 24 = 0 → amount units s i = 0
  /-- In hour zero the other hours of each day go to the day after. -/
  rest : curID.toNat % 24 = 0 → ∀ s, ∀ j < units.length / 24, 2 ^ 64 ∣
    ∑ i ∈ range units.length with
      hourID curID units.length i / 24 = firstDay curID (units.length / 24) - 1 + j ∧
        hourID curID units.length i % 24 ≠ 0, amount units s i

namespace Collected

def Sized (data : Collected) (size : Nat) : Prop := ∀ s, (data.series s).length = size

theorem sized_empty (timeUnits : TimeUnits) (size : Nat) : (empty timeUnits size).Sized size := by
  intro s
  cases s <;> exact List.length_replicate

theorem series_empty (timeUnits : TimeUnits) (size : Nat) (s : Series) :
    (empty timeUnits size).series s = List.replicate size 0 := by
  cases s <;> rfl

theorem addUnit_of_not_complete {u : UnitDB} (incomplete : ¬ u.Complete) (data : Collected)
    (i : Nat) : data.addUnit i u = none := by
  have missing : u.result rParental = none :=
    List.getElem?_eq_none (Nat.not_lt.mp incomplete)
  unfold addUnit
  rw [missing]
  cases increaseAt data.dnsQueries i u.nTotal <;> cases u.result rFiltered <;>
    cases u.result rSafeBrowsing <;> simp

private theorem result_of_complete {u : UnitDB} (complete : u.Complete) {r : Result}
    (code : r.toNat ≤ rParental.toNat) : ∃ n, u.result r = some n :=
  ⟨_, List.getElem?_eq_getElem (Nat.lt_of_le_of_lt code complete)⟩

theorem addUnit_of_complete {u : UnitDB} (complete : u.Complete) {data : Collected} {size i : Nat}
    (sized : data.Sized size) (inside : i < size) :
    ∃ next, data.addUnit i u = some next ∧ next.Sized size ∧
      ∀ s, next.series s = (data.series s).modify i (· + (u.counted s).getD 0) := by
  have increased : ∀ s n, increaseAt (data.series s) i n = some ((data.series s).modify i (· + n)) :=
    fun s n => if_pos ((sized s).symm ▸ inside)
  obtain ⟨filtered, hFiltered⟩ := result_of_complete complete (r := rFiltered) (by decide)
  obtain ⟨browsing, hBrowsing⟩ := result_of_complete complete (r := rSafeBrowsing) (by decide)
  obtain ⟨parental, hParental⟩ := result_of_complete complete (r := rParental) (by decide)
  have added := increased .dnsQueries u.nTotal
  have blocked := increased .blockedFiltering filtered
  have browsed := increased .replacedSafebrowsing browsing
  have replaced := increased .replacedParental parental
  simp only [series] at added blocked browsed replaced
  refine ⟨{ data with
    dnsQueries := data.dnsQueries.modify i (· + u.nTotal)
    blockedFiltering := data.blockedFiltering.modify i (· + filtered)
    replacedSafebrowsing := data.replacedSafebrowsing.modify i (· + browsing)
    replacedParental := data.replacedParental.modify i (· + parental) },
    by simp [addUnit, hFiltered, hBrowsing, hParental, added, blocked, browsed, replaced], ?_⟩
  rw [and_iff_right_of_imp]
  · intro s
    cases s <;> simp [series, UnitDB.counted, hFiltered, hBrowsing, hParental]
  · intro modified s
    rw [modified s, List.length_modify, sized s]

theorem addUnits_of_not_complete {units : List UnitDB} {u : UnitDB} (member : u ∈ units)
    (incomplete : ¬ u.Complete) (place : Nat → Nat) (data : Collected) (i : Nat) :
    data.addUnits place i units = none := by
  induction units generalizing data i with
  | nil => cases member
  | cons first rest ih =>
    rw [addUnits]
    rcases List.mem_cons.mp member with rfl | later
    · rw [addUnit_of_not_complete incomplete, Option.bind_none]
    · cases data.addUnit (place i) first with
      | none => rfl
      | some next => exact ih later next (i + 1)

private theorem counter_cons (u : UnitDB) (units : List UnitDB) (s : Series) (i : Nat) :
    counter (u :: units) s (i + 1) = counter units s i := rfl

/-- What the walk over the units leaves at each place of a series. -/
theorem addUnits_of_complete {place : Nat → Nat} {size : Nat} (units : List UnitDB)
    (complete : ∀ u ∈ units, u.Complete) {data : Collected} (sized : data.Sized size) (i : Nat)
    (inside : ∀ k < units.length, place (i + k) < size) :
    ∃ next, data.addUnits place i units = some next ∧ next.Sized size ∧
      ∀ s j, (next.series s).getD j 0 = (data.series s).getD j 0 +
        ∑ k ∈ range units.length with place (i + k) = j, counter units s k := by
  induction units generalizing data i with
  | nil => exact ⟨data, rfl, sized, fun s j => by simp⟩
  | cons u rest ih =>
    obtain ⟨first, added, firstSized, values⟩ :=
      addUnit_of_complete (complete u List.mem_cons_self) sized (inside 0 (by simp))
    have shifted : ∀ k < rest.length, place (i + 1 + k) < size := by
      intro k bound
      have next := inside (k + 1) (by simpa using bound)
      rwa [Nat.add_right_comm, Nat.add_assoc]
    obtain ⟨next, walked, nextSized, sums⟩ :=
      ih (fun u member => complete u (List.mem_cons_of_mem _ member)) firstSized (i + 1) shifted
    refine ⟨next, ?_, nextSized, ?_⟩
    · rw [addUnits]
      rw [Nat.add_zero] at added
      rw [added, Option.bind_some, walked]
    · intro s j
      have head : (first.series s).getD j 0 = (data.series s).getD j 0 +
          if place i = j then (u.counted s).getD 0 else 0 := by
        rw [values s, List.getD_eq_getElem?_getD, List.getElem?_modify, List.getD_eq_getElem?_getD]
        by_cases here : place i = j
        · have present : j < (data.series s).length := by
            rw [sized s, ← here]
            exact inside 0 (by simp)
          simp [here, List.getElem?_eq_getElem present]
        · simp [here]
      rw [sums s j, head, sum_filter, sum_filter, List.length_cons, sum_range_succ', add_assoc]
      congr 1
      rw [add_comm]
      congr 1
      apply sum_congr rfl
      intro k _
      rw [counter_cons, Nat.add_right_comm, Nat.add_assoc]

end Collected

private theorem toNat_counters (places : Finset Nat) (f : Nat → Counter) :
    (∑ i ∈ places, f i).toNat = (∑ i ∈ places, (f i).toNat) % 2 ^ 64 := by
  induction places using Finset.induction_on with
  | empty => rfl
  | insert i places fresh ih =>
    rw [sum_insert fresh, sum_insert fresh, BitVec.toNat_add, ih, Nat.add_mod_mod]

/-- A sum over places of one day is the sum over its hours. -/
private theorem sum_eq_sum_hours {places : Finset Nat} {f : Nat → Nat} {start : Nat}
    (within : ∀ i ∈ places, start ≤ i ∧ i < start + 24)
    (rest : ∀ k < 24, start + k ∉ places → f (start + k) = 0) :
    ∑ i ∈ places, f i = ∑ k ∈ range 24, f (start + k) := by
  have covered : ∑ i ∈ places, f i = ∑ i ∈ Ico start (start + 24), f i := by
    apply sum_subset
    · intro i member
      exact mem_Ico.mpr (within i member)
    · intro i inside outside
      obtain ⟨low, high⟩ := mem_Ico.mp inside
      have same : start + (i - start) = i := Nat.add_sub_cancel' low
      rw [← same] at outside ⊢
      exact rest (i - start) (by omega) outside
  rw [covered, sum_Ico_eq_sum_range, Nat.add_sub_cancel_left]

theorem amount_lt (units : List UnitDB) (s : Series) (i : Nat) : amount units s i < 2 ^ 64 :=
  (counter units s i).isLt

variable {units : List UnitDB}

theorem amount_of_length_le {i : Nat} (outside : units.length ≤ i)
    (s : Series) : amount units s i = 0 := by
  rw [amount, counter, List.getElem?_eq_none outside]
  rfl

/-- Where hour zero of the first day stands, and the buckets of the code after it. -/
structure Placed (units : List UnitDB) (curID : UnitID) (days first : Nat) : Prop where
  hours : first + (24 * (days - 1) + curID.toNat % 24 + 1) = units.length
  days : 0 < days

theorem placed (curID : UnitID) (many : 7 < units.length / 24) :
    Placed units curID (units.length / 24)
      (units.length - (24 * (units.length / 24 - 1) + curID.toNat % 24 + 1)) where
  hours := Nat.sub_add_cancel (by omega)
  days := by omega

theorem countHours_le (curID : UnitID) (many : 7 < units.length / 24) :
    countHours curID (units.length / 24) ≤ units.length := by
  unfold countHours
  dsimp only
  split <;> omega

section Placement

variable {units : List UnitDB} {curID : UnitID} {days first : Nat}

theorem Placed.dayTotal_eq (at_ : Placed units curID days first) (s : Series) (j : Nat) :
    dayTotal units curID s (firstDay curID days + j) =
      ∑ k ∈ range 24, amount units s (first + 24 * j + k) := by
  obtain ⟨hours, some_⟩ := at_
  apply sum_eq_sum_hours
  · intro i member
    obtain ⟨inside, day⟩ := mem_filter.mp member
    have bound := mem_range.mp inside
    unfold firstDay hourID at day
    omega
  · intro k less outside
    apply amount_of_length_le
    by_contra inside
    apply outside
    rw [mem_filter, mem_range]
    refine ⟨by omega, ?_⟩
    unfold firstDay hourID
    omega

/-- The hours of a day without its hour zero. -/
theorem Placed.rest_eq (at_ : Placed units curID days first) (midnight : curID.toNat % 24 = 0)
    (s : Series) (j start : Nat) (before : start + 23 = first + 24 * j) :
    ∑ i ∈ range units.length with
      hourID curID units.length i / 24 = firstDay curID days - 1 + j ∧
        hourID curID units.length i % 24 ≠ 0, amount units s i =
      ∑ k ∈ range 23, amount units s (start + k) := by
  obtain ⟨hours, some_⟩ := at_
  have covered : ∑ i ∈ range units.length with
      hourID curID units.length i / 24 = firstDay curID days - 1 + j ∧
        hourID curID units.length i % 24 ≠ 0, amount units s i =
      ∑ i ∈ Ico start (start + 23), amount units s i := by
    apply sum_subset
    · intro i member
      obtain ⟨inside, day, later⟩ := mem_filter.mp member
      have bound := mem_range.mp inside
      unfold firstDay hourID at day
      unfold hourID at later
      rw [mem_Ico]
      omega
    · intro i inside outside
      obtain ⟨low, high⟩ := mem_Ico.mp inside
      apply amount_of_length_le
      by_contra short
      apply outside
      rw [mem_filter, mem_range]
      unfold firstDay hourID
      refine ⟨by omega, by omega, by omega⟩
  rw [covered, sum_Ico_eq_sum_range, Nat.add_sub_cancel_left]

end Placement

theorem counter_drop (units : List UnitDB) (n : Nat) (s : Series) (i : Nat) :
    counter (units.drop n) s i = counter units s (n + i) := by
  rw [counter, List.getElem?_drop, counter]

theorem countHours_bounds (curID : UnitID) {days : Nat} (some_ : 0 < days) :
    24 * (days - 1) < countHours curID days ∧ countHours curID days ≤ 24 * days := by
  unfold countHours
  dsimp only
  split <;> omega

/-- The buckets of the code: 24 units each, from where the slice starts. -/
theorem fillCollectedStats_spec (curID : UnitID) (many : 7 < units.length / 24) {start : Nat}
    (cut : start + countHours curID (units.length / 24) = units.length)
    (complete : ∀ u ∈ units.drop start, u.Complete) :
    ∃ data, fillCollectedStats units curID = some data ∧ data.Sized (units.length / 24) ∧
      ∀ s, ∀ j < units.length / 24, ((data.series s).getD j 0).toNat =
        (∑ k ∈ range 24, amount units s (start + 24 * j + k)) % 2 ^ 64 := by
  have bounds := countHours_bounds curID (by omega : 0 < units.length / 24)
  have size : (units.drop start).length = countHours curID (units.length / 24) := by
    rw [List.length_drop]
    omega
  obtain ⟨data, walked, sized, sums⟩ :=
    @Collected.addUnits_of_complete ((· / 24)) _ (units.drop start) complete _ (Collected.sized_empty .days (units.length / 24)) 0 (by
        intro k bound
        rw [size] at bound
        omega)
  refine ⟨data, ?_, sized, ?_⟩
  · have from_ : units.length - countHours curID (units.length / 24) = start := by omega
    simp only [fillCollectedStats, fillCollectedStatsDaily]
    rw [if_pos many, if_pos (by omega), from_]
    exact walked
  · intro s j inside
    have zero : ((Collected.empty .days (units.length / 24)).series s).getD j 0 = 0 := by
      rw [Collected.series_empty]
      simp [List.getD_eq_getElem?_getD, inside]
    have hours : ∑ k ∈ range (units.drop start).length with (0 + k) / 24 = j,
        amount units s (start + k) = ∑ k ∈ range 24, amount units s (start + (24 * j + k)) := by
      apply sum_eq_sum_hours (f := fun i => amount units s (start + i))
      · intro i member
        obtain ⟨_, bucket⟩ := mem_filter.mp member
        omega
      · intro k less outside
        apply amount_of_length_le
        by_contra short
        apply outside
        rw [mem_filter, mem_range, size]
        omega
    have drop : ∀ k, counter (units.drop start) s k = counter units s (start + k) :=
      counter_drop units start s
    rw [sums s j, zero, zero_add]
    simp only [drop]
    rw [toNat_counters]
    change (∑ k ∈ range (units.drop start).length with (0 + k) / 24 = j,
      amount units s (start + k)) % 2 ^ 64 = _
    rw [hours]
    simp only [Nat.add_assoc]

/-- A unit that the slice keeps and that lacks a count is a panic. -/
theorem fillCollectedStats_complete {curID : UnitID} {data : Collected}
    (many : 7 < units.length / 24) (filled : fillCollectedStats units curID = some data) :
    ∀ u ∈ units.drop (units.length - countHours curID (units.length / 24)), u.Complete := by
  intro u member
  by_contra incomplete
  simp only [fillCollectedStats, fillCollectedStatsDaily] at filled
  rw [if_pos many, if_pos (countHours_le curID many),
    Collected.addUnits_of_not_complete member incomplete] at filled
  cases filled

/-- The series are the totals of the days exactly when each bucket is, without overflow. -/
theorem dailyTotals_iff {curID : UnitID} (many : 7 < units.length / 24) {start first : Nat}
    (cut : start + countHours curID (units.length / 24) = units.length)
    (at_ : Placed units curID (units.length / 24) first) :
    DailyTotals units curID ↔
      (∀ u ∈ units.drop (units.length - countHours curID (units.length / 24)), u.Complete) ∧
        ∀ s, ∀ j < units.length / 24,
          (∑ k ∈ range 24, amount units s (start + 24 * j + k)) % 2 ^ 64 =
            ∑ k ∈ range 24, amount units s (first + 24 * j + k) := by
  have from_ : units.length - countHours curID (units.length / 24) = start := by omega
  constructor
  · rintro ⟨data, filled, totals⟩
    have complete := fillCollectedStats_complete many filled
    refine ⟨complete, ?_⟩
    intro s j inside
    obtain ⟨data', filled', sized, buckets⟩ :=
      fillCollectedStats_spec curID many cut (from_ ▸ complete)
    rw [filled] at filled'
    cases filled'
    have entry := congrArg (fun table : List Nat => table.getD j 0) (totals s)
    simp only [List.getD_eq_getElem?_getD, List.getElem?_map, List.getElem?_range inside,
      Option.map_some, Option.getD_some] at entry
    have present : j < (data.series s).length := by rw [sized s]; exact inside
    rw [← buckets s j inside, ← at_.dayTotal_eq, ← entry, List.getD_eq_getElem?_getD,
      List.getElem?_eq_getElem present]
    rfl
  · rintro ⟨complete, sums⟩
    obtain ⟨data, filled, sized, buckets⟩ :=
      fillCollectedStats_spec curID many cut (from_ ▸ complete)
    refine ⟨data, filled, ?_⟩
    intro s
    apply List.ext_getElem
    · rw [List.length_map, List.length_map, List.length_range, sized s]
    · intro j inside _
      have bound : j < units.length / 24 := by
        rw [List.length_map, sized s] at inside
        exact inside
      have present : j < (data.series s).length := by rw [sized s]; exact bound
      rw [List.getElem_map, List.getElem_map, List.getElem_range, at_.dayTotal_eq, ← sums s j bound,
        ← buckets s j bound, List.getD_eq_getElem?_getD, List.getElem?_eq_getElem present]
      rfl

private theorem all_zero {days : Nat} {h : Nat → Nat} (last : h days = 0)
    (step : ∀ j < days, h j = h (j + 1)) : ∀ j < days, h j = 0 := by
  have down : ∀ n j, j + n = days → h j = 0 := by
    intro n
    induction n with
    | zero =>
      intro j top
      rw [Nat.add_zero] at top
      rw [top, last]
    | succ n ih =>
      intro j below
      rw [step j (by omega), ih (j + 1) (by omega)]
  intro j below
  exact down (days - j) j (by omega)

/-- Buckets that start an hour late are the totals exactly when hour zero is empty. -/
private theorem late_iff {days : Nat} {bucket total zero : Nat → Nat}
    (shifted : ∀ j, bucket j + zero j = total j + zero (j + 1)) (part : ∀ j, zero j ≤ total j)
    (small : ∀ j, zero j < 2 ^ 64) (last : zero days = 0) :
    (∀ j < days, bucket j % 2 ^ 64 = total j) ↔
      (∀ j < days, total j < 2 ^ 64) ∧ ∀ j < days, zero j = 0 := by
  constructor
  · intro same
    have fits : ∀ j < days, total j < 2 ^ 64 := by
      intro j below
      rw [← same j below]
      exact Nat.mod_lt _ (Nat.two_pow_pos 64)
    refine ⟨fits, all_zero last ?_⟩
    intro j below
    have equal := same j below
    have bound := fits j below
    have sum := shifted j
    have within := part j
    have here := small j
    have next := small (j + 1)
    omega
  · rintro ⟨fits, empty⟩ j below
    have sum := shifted j
    have next : zero (j + 1) = 0 := by
      rcases Nat.lt_or_ge (j + 1) days with inside | top
      · exact empty (j + 1) inside
      · rw [show j + 1 = days by omega, last]
    rw [empty j below, next] at sum
    rw [show bucket j = total j by omega]
    exact Nat.mod_eq_of_lt (fits j below)

/-- Buckets that take the rest of the day before are the totals exactly when these rests
are nothing to a counter. -/
private theorem early_iff {days : Nat} {bucket total zero rest : Nat → Nat}
    (taken : ∀ j, bucket j = rest j + zero j) (left : ∀ j, total j = zero j + rest (j + 1))
    (last : rest days = 0) :
    (∀ j < days, bucket j % 2 ^ 64 = total j) ↔
      (∀ j < days, total j < 2 ^ 64) ∧ ∀ j < days, 2 ^ 64 ∣ rest j := by
  constructor
  · intro same
    have fits : ∀ j < days, total j < 2 ^ 64 := by
      intro j below
      rw [← same j below]
      exact Nat.mod_lt _ (Nat.two_pow_pos 64)
    refine ⟨fits, ?_⟩
    have zeros := all_zero (h := fun j => rest j % 2 ^ 64) (by rw [last, Nat.zero_mod]) (by
      intro j below
      have equal := same j below
      have bound := fits j below
      rw [taken j] at equal
      rw [left j] at equal bound
      omega)
    exact fun j below => Nat.dvd_of_mod_eq_zero (zeros j below)
  · rintro ⟨fits, empty⟩ j below
    have bound := fits j below
    have next : rest (j + 1) = 0 := by
      rcases Nat.lt_or_ge (j + 1) days with inside | top
      · have none_ := Nat.mod_eq_zero_of_dvd (empty (j + 1) inside)
        rw [left j] at bound
        omega
      · rw [show j + 1 = days by omega, last]
    have none_ := Nat.mod_eq_zero_of_dvd (empty j below)
    rw [left j, next] at bound
    rw [taken j, left j, next]
    omega

section Alignment

variable {units : List UnitDB} {curID : UnitID}

theorem Placed.midnight_iff {first : Nat} (at_ : Placed units curID (units.length / 24) first)
    (s : Series) :
    (∀ i < units.length, firstDay curID (units.length / 24) ≤ hourID curID units.length i / 24 →
      hourID curID units.length i % 24 = 0 → amount units s i = 0) ↔
      ∀ j < units.length / 24, amount units s (first + 24 * j) = 0 := by
  obtain ⟨hours, some_⟩ := at_
  unfold firstDay hourID
  constructor
  · intro empty j below
    by_cases inside : first + 24 * j < units.length
    · exact empty (first + 24 * j) inside (by omega) (by omega)
    · exact amount_of_length_le (by omega) s
  · intro empty i inside later midnight
    have place : i = first + 24 * ((i - first) / 24) := by omega
    rw [place]
    exact empty ((i - first) / 24) (by omega)

theorem dailyTotals_iff_of_ne (many : 7 < units.length / 24) (later : curID.toNat % 24 ≠ 0) :
    DailyTotals units curID ↔ DayAligned units curID := by
  have at_ := placed curID many
  generalize units.length - (24 * (units.length / 24 - 1) + curID.toNat % 24 + 1) = first at at_
  have cut : first + 1 + countHours curID (units.length / 24) = units.length := by
    have hours := at_.hours
    simp only [countHours, if_neg later]
    omega
  rw [dailyTotals_iff many cut at_]
  have each : ∀ s, (∀ j < units.length / 24,
      (∑ k ∈ range 24, amount units s (first + 1 + 24 * j + k)) % 2 ^ 64 =
        ∑ k ∈ range 24, amount units s (first + 24 * j + k)) ↔ _ := fun s =>
    @late_iff _ (fun j => ∑ k ∈ range 24, amount units s (first + 1 + 24 * j + k))
      (fun j => ∑ k ∈ range 24, amount units s (first + 24 * j + k))
      (fun j => amount units s (first + 24 * j))
      (by
        intro j
        have moved : ∀ k, first + 1 + 24 * j + k = first + 24 * j + (k + 1) := by omega
        have next : first + 24 * (j + 1) = first + 24 * j + 24 := by omega
        simp only [moved, next]
        exact (sum_range_succ' (fun k => amount units s (first + 24 * j + k)) 24).symm.trans
          (sum_range_succ _ 24))
      (by
        intro j
        exact single_le_sum_of_canonicallyOrdered
          (f := fun k => amount units s (first + 24 * j + k)) (mem_range.mpr (by decide : 0 < 24)))
      (fun j => amount_lt units s _)
      (amount_of_length_le (by have hours := at_.hours; omega) s)
  simp only [each]
  constructor
  · rintro ⟨complete, aligned⟩
    refine ⟨complete, ?_, ?_, fun midnight => absurd midnight later⟩
    · intro s j below
      rw [at_.dayTotal_eq]
      exact (aligned s).1 j below
    · intro _ s
      exact (at_.midnight_iff s).mpr (aligned s).2
  · intro aligned
    refine ⟨aligned.complete, fun s => ⟨?_, ?_⟩⟩
    · intro j below
      rw [← at_.dayTotal_eq]
      exact aligned.fits s j below
    · exact (at_.midnight_iff s).mp (aligned.midnight later s)

theorem dailyTotals_iff_of_eq (many : 7 < units.length / 24) (midnight : curID.toNat % 24 = 0) :
    DailyTotals units curID ↔ DayAligned units curID := by
  have at_ := placed curID many
  generalize units.length - (24 * (units.length / 24 - 1) + curID.toNat % 24 + 1) = first at at_
  obtain ⟨start, before⟩ : ∃ start, start + 23 = first :=
    ⟨first - 23, by have hours := at_.hours; omega⟩
  have cut : start + countHours curID (units.length / 24) = units.length := by
    have hours := at_.hours
    simp only [countHours, if_pos midnight]
    omega
  rw [dailyTotals_iff many cut at_]
  have each : ∀ s, (∀ j < units.length / 24,
      (∑ k ∈ range 24, amount units s (start + 24 * j + k)) % 2 ^ 64 =
        ∑ k ∈ range 24, amount units s (first + 24 * j + k)) ↔ _ := fun s =>
    @early_iff _ (fun j => ∑ k ∈ range 24, amount units s (start + 24 * j + k))
      (fun j => ∑ k ∈ range 24, amount units s (first + 24 * j + k))
      (fun j => amount units s (first + 24 * j))
      (fun j => ∑ k ∈ range 23, amount units s (start + 24 * j + k))
      (by
        intro j
        have same : start + 24 * j + 23 = first + 24 * j := by omega
        rw [sum_range_succ, same])
      (by
        intro j
        have moved : ∀ k, first + 24 * j + (k + 1) = start + 24 * (j + 1) + k := by omega
        rw [sum_range_succ', Nat.add_comm]
        simp only [moved, Nat.add_zero])
      (by
        apply sum_eq_zero
        intro k inside
        exact amount_of_length_le (by have hours := at_.hours; omega) s)
  have rests : ∀ s (j : Nat), ∑ i ∈ range units.length with
      hourID curID units.length i / 24 = firstDay curID (units.length / 24) - 1 + j ∧
        hourID curID units.length i % 24 ≠ 0, amount units s i =
      ∑ k ∈ range 23, amount units s (start + 24 * j + k) := fun s j =>
    at_.rest_eq midnight s j (start + 24 * j) (by omega)
  simp only [each]
  constructor
  · rintro ⟨complete, aligned⟩
    refine ⟨complete, ?_, fun later => absurd midnight later, ?_⟩
    · intro s j below
      rw [at_.dayTotal_eq]
      exact (aligned s).1 j below
    · intro _ s j below
      rw [rests]
      exact (aligned s).2 j below
  · intro aligned
    refine ⟨aligned.complete, fun s => ⟨?_, ?_⟩⟩
    · intro j below
      rw [← at_.dayTotal_eq]
      exact aligned.fits s j below
    · intro j below
      rw [← rests]
      exact aligned.rest midnight s j below

theorem dailyTotals_iff_dayAligned (many : 7 < units.length / 24) :
    DailyTotals units curID ↔ DayAligned units curID := by
  by_cases midnight : curID.toNat % 24 = 0
  · exact dailyTotals_iff_of_eq many midnight
  · exact dailyTotals_iff_of_ne many midnight

end Alignment

/-- The slice is always within the units. The buckets are the totals of the days exactly
when the hours that they put into another day count nothing. -/
theorem daily_series (units : List UnitDB) (curID : UnitID) (many : 7 < units.length / 24) :
    countHours curID (units.length / 24) ≤ units.length ∧
      (DailyTotals units curID ↔ DayAligned units curID) :=
  ⟨countHours_le curID many, dailyTotals_iff_dayAligned many⟩

def quietUnit (queries : Counter) : UnitDB :=
  ⟨List.replicate resultLast.toNat 0, [], [], [], [], [], queries, 0⟩

/-- Eight days with one query in every hour but the first of a day. -/
def daytimeUnits : List UnitDB :=
  (List.range 192).map fun i => quietUnit (if (i + 9) % 24 = 0 then 0 else 1)

theorem daily_series_of_daytime_hours :
    countHours 485000 8 ≤ 192 ∧ DailyTotals daytimeUnits 485000 ∧
      dayTotal daytimeUnits 485000 .dnsQueries 20207 = 23 := by
  have size : daytimeUnits.length = 192 := by simp [daytimeUnits]
  have series := daily_series daytimeUnits 485000 (by rw [size]; decide)
  rw [size] at series
  refine ⟨series.1, series.2.mpr ⟨?complete, ?fits, ?midnight, ?rest⟩, by decide +kernel⟩
  case complete =>
    intro u member
    obtain ⟨i, _, rfl⟩ := List.mem_map.mp (List.mem_of_mem_drop member)
    show rParental.toNat < (List.replicate resultLast.toNat (0 : Counter)).length
    decide
  case fits =>
    intro s
    cases s <;> decide +kernel
  case midnight =>
    intro _ s
    cases s <;> decide +kernel
  case rest => exact fun midnight => absurd midnight (by decide)

/-- With one query in every hour, eight in the morning has had nine. -/
theorem current_day_loses_an_hour :
    ¬ ∀ (units : List UnitDB) (curID : UnitID), 7 < units.length / 24 →
      countHours curID (units.length / 24) ≤ units.length ∧ DailyTotals units curID := by
  intro all
  have size : (List.replicate 192 (quietUnit 1)).length = 192 := List.length_replicate
  have many : 7 < (List.replicate 192 (quietUnit 1)).length / 24 := by
    rw [size]
    decide
  have aligned := (dailyTotals_iff_dayAligned many).mp (all _ 485000 many).2
  have midnight := aligned.midnight (by decide) .dnsQueries 183
  rw [size] at midnight
  have missing := midnight (by decide) (by decide) (by decide)
  have one : amount (List.replicate 192 (quietUnit 1)) .dnsQueries 183 = 1 := by
    rw [amount, counter, List.getElem?_replicate]
    rfl
  rw [one] at missing
  cases missing

end AdGuardHome.Stats
