import AdGuardHome.Dhcpsvc.IPRange
import AdGuardHome.Lib.Loop
import Mathlib.Data.String.Basic

namespace AdGuardHome.Dhcpsvc

open Netip
open Looping (Ends)
open Relation (ReflTransGen)

variable {a b : Addr}

theorem less_iff_lex :
    a.less b = true ↔ a.bitLen < b.bitLen ∨ a.bitLen = b.bitLen ∧
      (a.toNat < b.toNat ∨ a.toNat = b.toNat ∧ a.zone < b.zone) := by
  simp [Addr.less, Addr.compare, compareLex, compareOn, Ordering.then_eq_lt, compare_lt_iff_lt]

theorem less_false_iff :
    a.less b = false ↔ b.bitLen < a.bitLen ∨ a.bitLen = b.bitLen ∧
      (b.toNat < a.toNat ∨ a.toNat = b.toNat ∧ ¬ a.zone < b.zone) := by
  rw [← Bool.not_eq_true, less_iff_lex]
  by_cases zones : a.zone < b.zone <;> simp only [zones] <;> grind

theorem less_self (ip : Addr) : ip.less ip = false :=
  less_false_iff.mpr (.inr ⟨rfl, .inr ⟨rfl, lt_irrefl _⟩⟩)

theorem less_asymm (less : a.less b = true) : b.less a = false := by
  rw [less_iff_lex] at less
  rw [less_false_iff]
  rcases less with shorter | ⟨same, lower | ⟨equal, zones⟩⟩
  · exact .inl shorter
  · exact .inr ⟨same.symm, .inl lower⟩
  · exact .inr ⟨same.symm, .inr ⟨equal.symm, zones.asymm⟩⟩

def lastOf : Addr → Addr
  | .zero => .zero
  | .v4 _ => .v4 (-1)
  | .v6 _ zone => .v6 (-1) zone

structure Mate (a b : Addr) : Prop where
  bitLen : a.bitLen = b.bitLen
  zone : a.zone = b.zone

theorem Mate.eq (mate : Mate a b) (same : a.toNat = b.toNat) : a = b :=
  Addr.eq_of_parts mate.bitLen same mate.zone

theorem Mate.is4 (mate : Mate a b) : a.is4 = b.is4 := by
  have lengths := mate.bitLen
  cases a <;> cases b <;> simp_all [Addr.bitLen, Addr.is4]

theorem lastOf_mate (a : Addr) : Mate (lastOf a) a := by
  cases a <;> exact ⟨rfl, rfl⟩

theorem toNat_le_lastOf (mate : Mate a b) : a.toNat ≤ (lastOf b).toNat := by
  have lengths := mate.bitLen
  cases a with
  | zero => exact Nat.zero_le _
  | v4 value =>
    cases b with
    | zero | v6 => cases lengths
    | v4 other =>
      have bound := value.isLt
      change value.toNat ≤ 2 ^ 32 - 1
      omega
  | v6 value zone =>
    cases b with
    | zero | v4 => cases lengths
    | v6 other zone' =>
      have bound := value.isLt
      change value.toNat ≤ 2 ^ 128 - 1
      omega

theorem succ_cases_32 (value : BitVec 32) :
    value = -1 ∧ value + 1 = 0 ∨ value + 1 ≠ 0 ∧ (value + 1).toNat = value.toNat + 1 := by
  bv_omega

theorem succ_cases_128 (value : BitVec 128) :
    value = -1 ∧ value + 1 = 0 ∨ value + 1 ≠ 0 ∧ (value + 1).toNat = value.toNat + 1 := by
  bv_omega

theorem next_cases (mate : Mate a b) (valid : b.isValid = true) :
    a = lastOf b ∧ a.next = .zero ∨ Mate a.next b ∧ a.next.toNat = a.toNat + 1 := by
  obtain ⟨lengths, zones⟩ := mate
  cases b with
  | zero => cases valid
  | v4 other =>
    cases a with
    | zero | v6 => cases lengths
    | v4 value =>
      rcases succ_cases_32 value with ⟨last, wraps⟩ | ⟨more, succ⟩
      · exact .inl ⟨congrArg Addr.v4 last, if_pos wraps⟩
      · have next : (Addr.v4 value).next = .v4 (value + 1) := if_neg more
        exact .inr (next ▸ ⟨⟨rfl, rfl⟩, succ⟩)
  | v6 other zone =>
    cases a with
    | zero | v4 => cases lengths
    | v6 value zone' =>
      obtain rfl : zone' = zone := zones
      rcases succ_cases_128 value with ⟨last, wraps⟩ | ⟨more, succ⟩
      · exact .inl ⟨congrArg (Addr.v6 · zone') last, if_pos wraps⟩
      · have next : (Addr.v6 value zone').next = .v6 (value + 1) zone' := if_neg more
        exact .inr (next ▸ ⟨⟨rfl, rfl⟩, succ⟩)

namespace IPRange

/-- One round of `ipRange.find`. -/
def findRound (r : IPRange) (p : Addr → Bool) (ip : Addr) : Addr ⊕ Addr :=
  if r.stop.less ip then .inr .zero
  else if p ip then .inr ip
  else .inl ip.next

/-- The predicate is called on an address: a round comes to it. -/
def Calls (r : IPRange) (p : Addr → Bool) (ip : Addr) : Prop :=
  ReflTransGen (fun ip next => r.findRound p ip = .inl next) r.start ip ∧ r.stop.less ip = false

/-- The search of a range whose addresses are these: it ends, calls the predicate on them
only, and finds the lowest one that is accepted. -/
structure Searches (r : IPRange) (within : Addr → Prop) : Prop where
  terminates : ∀ p, ∃ ip, Ends (r.findRound p) r.start ip
  calls : ∀ p ip, r.Calls p ip → within ip
  none : ∀ p ip, Ends (r.findRound p) r.start ip →
    (ip = .zero ↔ ∀ other, within other → p other = false)
  lowest : ∀ p ip, Ends (r.findRound p) r.start ip → ip ≠ .zero →
    within ip ∧ p ip = true ∧ ∀ other, within other → p other = true → other.less ip = false

/-- The numbering of a range whose addresses are these: by the distance from the start, with
different numbers for different ones, and of nothing that the range does not contain. -/
structure Numbers (r : IPRange) (within : Addr → Prop) : Prop where
  injective : ∀ ip other, within ip → within other → r.offset ip = r.offset other → ip = other
  distance : ∀ ip, within ip → r.offset ip = some (ip.toNat - r.start.toNat)
  isSome : ∀ ip, (r.offset ip).isSome = true ↔ r.contains ip = true

structure InZone (r : IPRange) (ip : Addr) : Prop where
  contained : r.contains ip = true
  zone : ip.zone = r.start.zone

variable {r : IPRange}

theorem contains_iff {ip : Addr} : r.contains ip = true ↔
    r.start.is4 = ip.is4 ∧ ip.less r.start = false ∧ r.stop.less ip = false := by
  simp [contains, and_assoc]

/-- A range that does not contain the last address of its start's family and zone. -/
def Open (r : IPRange) : Prop := r.contains (lastOf r.start) = false

instance (r : IPRange) : Decidable r.Open := inferInstanceAs (Decidable (_ = _))

theorem lastOf_less_start (r : IPRange) : (lastOf r.start).less r.start = false := by
  have mate := lastOf_mate r.start
  have bound := toNat_le_lastOf (a := r.start) ⟨rfl, rfl⟩
  have zones : ¬ (lastOf r.start).zone < r.start.zone := by
    rw [mate.zone]
    exact lt_irrefl _
  rw [less_false_iff]
  by_cases same : (lastOf r.start).toNat = r.start.toNat
  · exact .inr ⟨mate.bitLen, .inr ⟨same, zones⟩⟩
  · exact .inr ⟨mate.bitLen, .inl (by omega)⟩

theorem open_iff (r : IPRange) : r.Open ↔ r.stop.less (lastOf r.start) = true := by
  have family := (lastOf_mate r.start).is4
  simp [Open, contains, lastOf_less_start, family]

theorem not_less_zero (ip : Addr) : ip.less .zero = false := by
  rw [less_false_iff]
  cases ip with
  | zero => exact .inr ⟨rfl, .inr ⟨rfl, lt_irrefl _⟩⟩
  | v4 | v6 => exact .inl (by simp [Addr.bitLen])

theorem started_of_open (open_ : r.Open) : r.start.isValid = true := by
  cases begins : r.start with
  | v4 | v6 => rfl
  | zero =>
    rw [open_iff, begins] at open_
    exact absurd open_ (by simp [lastOf, not_less_zero])

theorem next_of_open (open_ : r.Open) {ip : Addr} (mate : Mate ip r.start)
    (high : r.stop.less ip = false) :
    Mate ip.next r.start ∧ ip.next.toNat = ip.toNat + 1 := by
  rcases next_cases mate (started_of_open open_) with ⟨rfl, -⟩ | next
  · rw [open_iff, high] at open_
    cases open_
  · exact next

section Accepted

variable {start stop : Addr} {r : IPRange} (accepted : newIPRange start stop = some r)
include accepted

theorem accepted_ends : r.start.is4 = r.stop.is4 ∧ r.start.less r.stop = true ∧
    r.stop.toNat - r.start.toNat ≤ maxRangeLen := by
  obtain ⟨rfl, family, ordered, short⟩ := newIPRange_spec accepted
  exact ⟨family, ordered, short⟩

theorem bounds_of_contains (started : r.start.isValid = true) {ip : Addr}
    (inside : r.contains ip = true) :
    ip.bitLen = r.start.bitLen ∧ r.start.toNat ≤ ip.toNat ∧ ip.toNat ≤ r.stop.toNat := by
  obtain ⟨family, ordered, -⟩ := accepted_ends accepted
  obtain ⟨sameFamily, low, high⟩ := contains_iff.mp inside
  rw [less_false_iff] at low high
  rw [less_iff_lex] at ordered
  have stopLength : r.stop.bitLen = r.start.bitLen := by
    cases begins : r.start <;> cases ends : r.stop <;>
      simp_all [Addr.bitLen, Addr.is4, Addr.isValid]
  have length : ip.bitLen = r.start.bitLen := by
    cases begins : r.start <;> cases ip <;> simp_all [Addr.bitLen, Addr.is4, Addr.isValid]
  omega

theorem InZone.mate (started : r.start.isValid = true) {ip : Addr} (inside : r.InZone ip) :
    Mate ip r.start :=
  ⟨(bounds_of_contains accepted started inside.contained).1, inside.zone⟩

omit accepted in
theorem inZone_of_mate {ip : Addr} (mate : Mate ip r.start) (low : r.start.toNat ≤ ip.toNat)
    (high : r.stop.less ip = false) : r.InZone ip := by
  refine ⟨contains_iff.mpr ⟨mate.is4.symm, ?_, high⟩, mate.zone⟩
  have zones : ¬ ip.zone < r.start.zone := by
    rw [mate.zone]
    exact lt_irrefl _
  rw [less_false_iff]
  by_cases same : ip.toNat = r.start.toNat
  · exact .inr ⟨mate.bitLen, .inr ⟨same, zones⟩⟩
  · exact .inr ⟨mate.bitLen, .inl (by omega)⟩

/-- Where the loop stands: all accepted addresses are still to come. -/
structure Standing (r : IPRange) (p : Addr → Bool) (ip : Addr) : Prop where
  mate : Mate ip r.start
  low : r.start.toNat ≤ ip.toNat
  ahead : ∀ other, r.InZone other → p other = true → ip.toNat ≤ other.toNat

theorem standing_start (started : r.start.isValid = true) (p : Addr → Bool) :
    Standing r p r.start :=
  ⟨⟨rfl, rfl⟩, le_rfl, fun _ inside _ =>
    (bounds_of_contains accepted started inside.contained).2.1⟩

variable {p : Addr → Bool}

/-- An address that is rejected is passed by. -/
theorem Standing.pass (started : r.start.isValid = true) {ip : Addr} (standing : Standing r p ip)
    (rejected : p ip ≠ true) {other : Addr} (inside : r.InZone other)
    (taken : p other = true) : ip.toNat < other.toNat := by
  have ahead := standing.ahead other inside taken
  have different : ip.toNat ≠ other.toNat := by
    intro same
    have mates : Mate ip other :=
      ⟨standing.mate.bitLen.trans (inside.mate accepted started).bitLen.symm,
        standing.mate.zone.trans inside.zone.symm⟩
    exact rejected (mates.eq same ▸ taken)
  omega

theorem Standing.again (open_ : r.Open) {ip next : Addr} (standing : Standing r p ip)
    (goes : r.findRound p ip = .inl next) :
    r.InZone ip ∧ Standing r p next ∧ next.toNat = ip.toNat + 1 := by
  unfold findRound at goes
  split at goes
  · cases goes
  next within =>
    split at goes
    · cases goes
    next rejected =>
      obtain rfl := Sum.inl.inj goes
      have high := Bool.eq_false_iff.mpr within
      obtain ⟨mate, succ⟩ := next_of_open open_ standing.mate high
      have inside := inZone_of_mate standing.mate standing.low high
      refine ⟨inside, ⟨mate, ?_, ?_⟩, succ⟩
      · have low := standing.low
        omega
      · intro other otherInside taken
        have passed := standing.pass accepted (started_of_open open_) rejected otherInside taken
        omega

/-- What the loop leaves with: nothing was accepted, or the lowest address that is. -/
theorem Standing.leaves (started : r.start.isValid = true) {ip result : Addr}
    (standing : Standing r p ip) (left : r.findRound p ip = .inr result) :
    (result = .zero ∧ ∀ other, r.InZone other → p other = false) ∨
      r.InZone result ∧ p result = true ∧
        ∀ other, r.InZone other → p other = true → other.less result = false := by
  unfold findRound at left
  split at left
  next beyond =>
    obtain rfl := Sum.inr.inj left
    refine .inl ⟨rfl, fun other inside => Bool.eq_false_iff.mpr fun taken => ?_⟩
    have ahead := standing.ahead other inside taken
    have lengths := (inside.mate accepted started).bitLen.trans standing.mate.bitLen.symm
    have high := (contains_iff.mp inside.contained).2.2
    rw [less_false_iff] at high
    rw [less_iff_lex] at beyond
    have zones : other.zone = ip.zone := inside.zone.trans standing.mate.zone.symm
    rw [zones] at high
    have same : r.stop.toNat = ip.toNat := by omega
    have below : r.stop.zone < ip.zone := by
      rcases beyond with shorter | ⟨-, lower | ⟨-, lower⟩⟩
      · omega
      · omega
      · exact lower
    rcases high with longer | ⟨-, lower | ⟨-, notBelow⟩⟩
    · omega
    · omega
    · exact notBelow below
  next within =>
    split at left
    next taken =>
      obtain rfl := Sum.inr.inj left
      have inside := inZone_of_mate standing.mate standing.low (Bool.eq_false_iff.mpr within)
      refine .inr ⟨inside, taken, fun other otherInside otherTaken => ?_⟩
      have ahead := standing.ahead other otherInside otherTaken
      have zones : ¬ other.zone < ip.zone := by
        rw [otherInside.zone, inside.zone]
        exact lt_irrefl _
      have lengths := (otherInside.mate accepted started).bitLen.trans standing.mate.bitLen.symm
      rw [less_false_iff]
      by_cases same : other.toNat = ip.toNat
      · exact .inr ⟨lengths, .inr ⟨same, zones⟩⟩
      · exact .inr ⟨lengths, .inl (by omega)⟩
    · cases left

theorem ends_measure (open_ : r.Open) {ip next : Addr} (standing : Standing r p ip)
    (goes : r.findRound p ip = .inl next) :
    Standing r p next ∧ r.stop.toNat + 1 - next.toNat < r.stop.toNat + 1 - ip.toNat := by
  obtain ⟨inside, after, succ⟩ := standing.again accepted open_ goes
  have bounds := bounds_of_contains accepted (started_of_open open_) inside.contained
  exact ⟨after, by omega⟩

theorem searches_of_open (open_ : r.Open) : r.Searches r.InZone := by
  have spec : ∀ p ip, Ends (r.findRound p) r.start ip →
      (ip = .zero ∧ ∀ other, r.InZone other → p other = false) ∨
        r.InZone ip ∧ p ip = true ∧
          ∀ other, r.InZone other → p other = true → other.less ip = false := by
    intro p ip ends
    exact ends.post (Standing r p) _ (standing_start accepted (started_of_open open_) p)
      (fun _ _ standing goes => (standing.again accepted open_ goes).2.1)
      (fun _ _ standing left => standing.leaves accepted (started_of_open open_) left)
  have valid : ∀ ip, r.InZone ip → ip ≠ .zero := by
    rintro ip inside rfl
    have started := started_of_open open_
    have length := (inside.mate accepted started).bitLen
    cases begins : r.start <;> simp_all [Addr.bitLen, Addr.isValid]
  constructor
  · intro p
    exact Looping.ends_of_measure (fun ip => r.stop.toNat + 1 - ip.toNat) (Standing r p)
      (fun _ _ standing goes => ends_measure accepted open_ standing goes)
      (standing_start accepted (started_of_open open_) p)
  · rintro p ip ⟨reached, high⟩
    have standing : Standing r p ip := by
      clear high
      induction reached with
      | refl => exact standing_start accepted (started_of_open open_) p
      | tail _ goes ih => exact (ih.again accepted open_ goes).2.1
    exact inZone_of_mate standing.mate standing.low high
  · intro p ip ends
    rcases spec p ip ends with ⟨rfl, none⟩ | ⟨inside, taken, -⟩
    · exact ⟨fun _ => none, fun _ => rfl⟩
    · refine ⟨fun zero => absurd zero (valid ip inside), fun none => ?_⟩
      rw [none ip inside] at taken
      cases taken
  · intro p ip ends found
    rcases spec p ip ends with ⟨rfl, -⟩ | lowest
    · exact absurd rfl found
    · exact lowest

theorem offset_of_contains (started : r.start.isValid = true) {ip : Addr}
    (inside : r.contains ip = true) : r.offset ip = some (ip.toNat - r.start.toNat) := by
  obtain ⟨-, -, short⟩ := accepted_ends accepted
  obtain ⟨length, low, high⟩ := bounds_of_contains accepted started inside
  have valid : ip.isValid = true := by
    cases begins : r.start <;> cases ip <;> simp_all [Addr.bitLen, Addr.isValid]
  rw [offset, if_pos inside, as16_eq valid, as16_eq started, length]
  generalize (if r.start.bitLen = 32 then mappedPrefix else 0) = base
  rw [maxRangeLen] at short
  congr 1
  omega

theorem numbers_of_open (open_ : r.Open) : r.Numbers r.InZone := by
  have started := started_of_open open_
  refine ⟨fun ip other inside otherInside same => ?_, fun ip inside => ?_, fun ip => offset_isSome⟩
  · rw [offset_of_contains accepted started inside.contained,
      offset_of_contains accepted started otherInside.contained] at same
    have low := (bounds_of_contains accepted started inside.contained).2.1
    have otherLow := (bounds_of_contains accepted started otherInside.contained).2.1
    have mates : Mate ip other :=
      ⟨(inside.mate accepted started).bitLen.trans (otherInside.mate accepted started).bitLen.symm,
        inside.zone.trans otherInside.zone.symm⟩
    exact mates.eq (by have distances := Option.some.inj same; omega)
  · exact offset_of_contains accepted started inside.contained

end Accepted

theorem open_of_beyond {ip : Addr} (mate : Mate ip r.start)
    (high : r.stop.less ip = true) : r.Open := by
  rw [open_iff]
  have bound := toNat_le_lastOf mate
  have last := lastOf_mate r.start
  have lengths := last.bitLen.trans mate.bitLen.symm
  have zones : (lastOf r.start).zone = ip.zone := last.zone.trans mate.zone.symm
  rw [less_iff_lex] at high ⊢
  rw [zones]
  rcases high with shorter | ⟨same, lower | ⟨equal, lower⟩⟩
  · exact .inl (by omega)
  · exact .inr ⟨by omega, .inl (by omega)⟩
  · by_cases further : r.stop.toNat = (lastOf r.start).toNat
    · exact .inr ⟨by omega, .inr ⟨further, lower⟩⟩
    · exact .inr ⟨by omega, .inl (by omega)⟩

theorem endless_of_not_open (closed : ¬ r.Open) (ip : Addr) :
    ¬ Ends (r.findRound fun _ => false) r.start ip := by
  intro ends
  refine ends.post (fun ip => ip = .zero ∨ r.start.isValid = true ∧ Mate ip r.start)
    (fun _ => False) ?_ ?_ ?_
  · cases begins : r.start with
    | zero => exact .inl rfl
    | v4 | v6 => exact .inr ⟨rfl, rfl, rfl⟩
  · intro ip next inv goes
    unfold findRound at goes
    split at goes
    · cases goes
    · obtain rfl := Sum.inl.inj goes
      rcases inv with rfl | ⟨started, mate⟩
      · exact .inl rfl
      · rcases next_cases mate started with ⟨-, zero⟩ | ⟨after, -⟩
        · exact .inl zero
        · exact .inr ⟨started, after⟩
  · intro ip result inv left
    have high : r.stop.less ip = true := by
      unfold findRound at left
      split at left
      · assumption
      · cases left
    rcases inv with rfl | ⟨started, mate⟩
    · rw [not_less_zero] at high
      cases high
    · exact closed (open_of_beyond mate high)

theorem lt_append_letter (zone : String) : zone < zone ++ "x" := by
  rw [String.lt_iff_toList_lt, String.toList_append]
  have longer : zone.toList ++ [] < zone.toList ++ "x".toList := List.append_left_lt (by decide)
  rwa [List.append_nil] at longer

theorem not_numbers_of_v6 {start stop : Addr} (accepted : newIPRange start stop = some r)
    (started : r.start.isValid = true)
    (six : r.start.is4 = false) : ¬ r.Numbers (r.contains · = true) := by
  obtain ⟨family, ordered, -⟩ := accepted_ends accepted
  have startIn : r.contains r.start = true :=
    contains_iff.mpr ⟨rfl, less_self _, less_asymm ordered⟩
  intro numbers
  -- another address with the value of the start
  obtain ⟨other, otherIn, value, above⟩ : ∃ other, r.contains other = true ∧
      other.toNat = r.start.toNat ∧ r.start.less other = true := by
    rw [less_iff_lex] at ordered
    cases begins : r.start with
    | zero => rw [begins] at started; cases started
    | v4 => rw [begins] at six; cases six
    | v6 value zone =>
      rw [begins] at ordered family
      by_cases same : r.stop.toNat = value.toNat
      · refine ⟨r.stop, contains_iff.mpr ⟨begins ▸ family, ?_, less_self _⟩, same, ?_⟩
        · rw [begins]
          exact less_asymm (less_iff_lex.mpr ordered)
        · exact less_iff_lex.mpr ordered
      · have above : (Addr.v6 value zone).less (.v6 value (zone ++ "x")) = true :=
          less_iff_lex.mpr (.inr ⟨rfl, .inr ⟨rfl, lt_append_letter zone⟩⟩)
        have below : (Addr.v6 value (zone ++ "x")).less r.stop = true := by
          rw [less_iff_lex]
          rcases ordered with shorter | ⟨length, lower | ⟨equal, -⟩⟩
          · exact .inl shorter
          · exact .inr ⟨length, .inl lower⟩
          · exact absurd equal.symm same
        refine ⟨_, contains_iff.mpr ⟨?_, ?_, less_asymm below⟩, rfl, above⟩
        · rw [begins]
          rfl
        · rw [begins]
          exact less_asymm above
  have same := numbers.injective r.start other startIn otherIn
    (by rw [numbers.distance _ startIn, numbers.distance _ otherIn, value])
  rw [← same, less_self] at above
  cases above

/-- An accepted range is searched and numbered as its documentation says iff it does not
contain the last address of its family, its addresses being those in the zone of its start.
With addresses of all zones, it has to be of IPv4, too. -/
theorem exact_iff {start stop : Addr} {r : IPRange} (accepted : newIPRange start stop = some r) :
    (r.Searches r.InZone ∧ r.Numbers r.InZone ↔ r.contains (lastOf r.start) = false) ∧
      (r.Searches (r.contains · = true) ∧ r.Numbers (r.contains · = true) ↔
        r.start.is4 = true ∧ r.contains (lastOf r.start) = false) := by
  have mustBeOpen : ∀ within, r.Searches within → r.Open := by
    intro within searches
    by_contra closed
    obtain ⟨ip, ends⟩ := searches.terminates fun _ => false
    exact endless_of_not_open closed ip ends
  constructor
  · exact ⟨fun exact_ => mustBeOpen _ exact_.1,
      fun open_ => ⟨searches_of_open accepted open_, numbers_of_open accepted open_⟩⟩
  · constructor
    · rintro ⟨searches, numbers⟩
      have open_ := mustBeOpen _ searches
      refine ⟨?_, open_⟩
      by_contra six
      exact not_numbers_of_v6 accepted (started_of_open open_) (Bool.eq_false_iff.mpr six) numbers
    · rintro ⟨four, open_⟩
      have zoneless : ∀ ip : Addr, ip.is4 = true → ip.zone = "" := by
        intro ip
        cases ip <;> simp [Addr.is4, Addr.zone]
      have same : r.InZone = (r.contains · = true) := by
        funext ip
        refine propext ⟨InZone.contained, fun inside => ⟨inside, ?_⟩⟩
        have family := (contains_iff.mp inside).1
        rw [zoneless ip (family ▸ four), zoneless r.start four]
      rw [← same]
      exact ⟨searches_of_open accepted open_, numbers_of_open accepted open_⟩

/-- A range within its family. -/
theorem exact_inside :
    let r : IPRange := ⟨.v4 0xc0a80002, .v4 0xc0a800fe⟩
    newIPRange r.start r.stop = some r ∧ r.Searches (r.contains · = true) ∧
      r.Numbers (r.contains · = true) := by
  intro r
  have accepted : newIPRange r.start r.stop = some r := by decide
  exact ⟨accepted, (exact_iff accepted).2.mpr (by decide)⟩

/-- The search of a range up to 255.255.255.255 for an address that is not there has no end,
and it calls the predicate on the zero value, which is not in the range. -/
theorem search_passes_last_address :
    let r : IPRange := ⟨.v4 0xfffffffe, .v4 0xffffffff⟩
    newIPRange r.start r.stop = some r ∧ (∀ ip, ¬ Ends (r.findRound fun _ => false) r.start ip) ∧
      r.Calls (fun _ => false) .zero ∧ r.contains .zero = false ∧
      ¬ r.Searches (r.contains · = true) := by
  intro r
  have endless : ∀ ip, ¬ Ends (r.findRound fun _ => false) r.start ip := fun ip =>
    endless_of_not_open (by decide) ip
  have calls : r.Calls (fun _ => false) .zero :=
    ⟨.tail (.single (b := .v4 0xffffffff) (by decide)) (by decide), by decide⟩
  refine ⟨by decide, endless, calls, by decide, fun searches => ?_⟩
  exact absurd (searches.calls _ _ calls) (by decide)

end IPRange

end AdGuardHome.Dhcpsvc
