import AdGuardHome.Netip
import Mathlib.Algebra.Group.Nat.Defs

namespace AdGuardHome.Dhcpsvc

open Netip

/-- `ipRange`. -/
structure IPRange where
  start : Addr
  stop : Addr
deriving DecidableEq

/-- `maxRangeLen`. -/
def maxRangeLen : Nat := 2 ^ 32 - 1

def mappedPrefix : Nat := 0xffff * 2 ^ 32

/-- `Addr.As16`, as a number. -/
def as16 : Addr → Nat
  | .zero => 0
  | .v4 value => mappedPrefix + value.toNat
  | .v6 value _ => value.toNat

namespace IPRange

def zero : IPRange := ⟨.zero, .zero⟩

/-- `newIPRange`, where `none` is an error. -/
def newIPRange (start stop : Addr) : Option IPRange :=
  if start.is4 ≠ stop.is4 then none
  else if !start.less stop then none
  else if maxRangeLen < stop.toNat - start.toNat then none
  else some ⟨start, stop⟩

/-- `ipRange.contains`. -/
def contains (r : IPRange) (ip : Addr) : Bool :=
  r.start.is4 == ip.is4 && !ip.less r.start && !r.stop.less ip

/-- `ipRange.offset`: the difference of the last eight bytes. -/
def offset (r : IPRange) (ip : Addr) : Option Nat :=
  if r.contains ip then some ((as16 ip % 2 ^ 64 + 2 ^ 64 - as16 r.start % 2 ^ 64) % 2 ^ 64)
  else none

/-- The loop of `ipRange.find`. The predicate panics on `none`; so does the loop when
it runs out of rounds. -/
def findLoop (r : IPRange) (p : Addr → Option Bool) : Nat → Addr → Option Addr
  | 0, _ => none
  | rounds + 1, ip =>
    if r.stop.less ip then some .zero
    else match p ip with
      | none => none
      | some true => some ip
      | some false => findLoop r p rounds ip.next

/-- `ipRange.find`. One round more than the range has addresses: the address after the
last one of a family is the zero value, and the one after that is the zero value again. -/
def find (r : IPRange) (p : Addr → Option Bool) : Option Addr :=
  r.findLoop p (r.stop.toNat - r.start.toNat + 2) r.start

/-- What the loop returns is the zero value or accepted, and of the kind it starts with. -/
theorem findLoop_spec {r : IPRange} {p : Addr → Option Bool} (kind : Addr → Prop)
    (next : ∀ ip, kind ip → kind ip.next) {rounds : Nat} {ip found : Addr} (first : kind ip)
    (result : r.findLoop p rounds ip = some found) :
    found = .zero ∨ p found = some true ∧ kind found := by
  induction rounds generalizing ip with
  | zero => cases result
  | succ rounds ih =>
    unfold findLoop at result
    split at result
    · left
      exact (Option.some.inj result).symm
    · split at result
      · cases result
      · rename_i accepted
        obtain rfl := Option.some.inj result
        exact .inr ⟨accepted, first⟩
      · exact ih (next ip first) result

/-- A range as `newIPRange` makes it from addresses without zones, or the zero range. -/
def Proper (r : IPRange) : Prop :=
  r = zero ∨ r.start.isValid = true ∧ r.start.zone = "" ∧ r.stop.zone = "" ∧
    newIPRange r.start r.stop = some r

theorem newIPRange_spec {start stop : Addr} {r : IPRange}
    (made : newIPRange start stop = some r) :
    r = ⟨start, stop⟩ ∧ start.is4 = stop.is4 ∧ start.less stop = true ∧
      stop.toNat - start.toNat ≤ maxRangeLen := by
  unfold newIPRange at made
  split at made
  · cases made
  split at made
  · cases made
  split at made
  · cases made
  · rename_i family ordered short
    refine ⟨(Option.some.inj made).symm, by simpa using family, by simpa using ordered, ?_⟩
    omega

theorem proper_newIPRange {start stop : Addr} (valid : start.isValid = true)
    (startZone : start.zone = "") (stopZone : stop.zone = "") :
    ((newIPRange start stop).getD zero).Proper := by
  cases made : newIPRange start stop with
  | none => exact .inl rfl
  | some r =>
    obtain ⟨rfl, _⟩ := newIPRange_spec made
    exact .inr ⟨valid, startZone, stopZone, made⟩

private theorem bitLen_of_is4 {a b : Addr} (validA : a.isValid = true) (validB : b.isValid = true)
    (family : a.is4 = b.is4) : a.bitLen = b.bitLen := by
  cases a with
  | zero => cases validA
  | v4 value =>
    cases b with
    | zero => cases validB
    | v4 other => rfl
    | v6 other zone => cases family
  | v6 value zone =>
    cases b with
    | zero => cases validB
    | v4 other => cases family
    | v6 other zone => rfl

private theorem isValid_iff (a : Addr) : a.isValid = true ↔ 0 < a.bitLen := by
  cases a <;> simp [Addr.isValid, Addr.bitLen]

structure Leasable (r : IPRange) (ip : Addr) : Prop where
  valid : ip.isValid = true
  zoneless : ip.zone = ""
  inRange : r.contains ip = true

/-- The valid addresses of a range lie between its ends. -/
theorem Proper.bounds {r : IPRange} (proper : r.Proper) {ip : Addr} (valid : ip.isValid = true)
    (zoneless : ip.zone = "") (inside : r.contains ip = true) :
    r.start.isValid = true ∧ ip.bitLen = r.start.bitLen ∧ r.start.toNat ≤ ip.toNat ∧
      ip.toNat ≤ r.start.toNat + maxRangeLen := by
  simp only [contains, Bool.and_eq_true, beq_iff_eq, Bool.not_eq_true'] at inside
  obtain ⟨⟨family, low⟩, high⟩ := inside
  rcases proper with rfl | ⟨started, startZone, stopZone, made⟩
  · cases ip with
    | zero => cases valid
    | v4 value => cases family
    | v6 value zone =>
      have beyond : Addr.zero.less (.v6 value zone) = true := by
        rw [Addr.less_iff (show Addr.zone .zero = Addr.zone (.v6 value zone) from zoneless.symm)]
        exact .inl (by simp [Addr.bitLen])
      exact absurd beyond (by simpa [zero] using high)
  · obtain ⟨_, sameFamily, ordered, short⟩ := newIPRange_spec made
    have ordered := (Addr.less_iff (startZone.trans stopZone.symm)).mp ordered
    have low := Bool.eq_false_iff.mp low
    have high := Bool.eq_false_iff.mp high
    rw [ne_eq, Addr.less_iff (zoneless.trans startZone.symm)] at low
    rw [ne_eq, Addr.less_iff (stopZone.trans zoneless.symm)] at high
    have length := bitLen_of_is4 valid started family.symm
    have stopValid : r.stop.isValid = true := by
      rw [isValid_iff] at started ⊢
      omega
    have stopLength := bitLen_of_is4 stopValid started sameFamily.symm
    rw [length] at high
    refine ⟨started, length, ?_, ?_⟩
    · by_contra below
      exact low (.inr ⟨length, by omega⟩)
    · by_contra above
      exact high (.inr ⟨stopLength, by omega⟩)

theorem as16_eq {a : Addr} (valid : a.isValid = true) :
    as16 a = (if a.bitLen = 32 then mappedPrefix else 0) + a.toNat := by
  cases a with
  | zero => cases valid
  | v4 value => simp [as16, Addr.bitLen, Addr.toNat]
  | v6 value zone => simp [as16, Addr.bitLen, Addr.toNat]

theorem Proper.start_zone {r : IPRange} (proper : r.Proper) : r.start.zone = "" := by
  rcases proper with rfl | ⟨_, zoneless, _⟩
  · rfl
  · exact zoneless

/-- In a proper range an offset is the distance from the start. -/
theorem Proper.offset_eq {r : IPRange} (proper : r.Proper) {ip : Addr}
    (valid : ip.isValid = true) (zoneless : ip.zone = "") {k : Nat} (found : r.offset ip = some k) :
    ip.bitLen = r.start.bitLen ∧ ip.toNat = r.start.toNat + k := by
  unfold offset at found
  split at found
  · rename_i inside
    obtain ⟨started, lengths, low, high⟩ := proper.bounds valid zoneless inside
    refine ⟨lengths, ?_⟩
    have found := Option.some.inj found
    rw [as16_eq valid, as16_eq started, lengths] at found
    generalize (if r.start.bitLen = 32 then mappedPrefix else 0) = base at found
    rw [maxRangeLen] at high
    omega
  · cases found

/-- Different addresses of a proper range have different offsets. -/
theorem Proper.offset_injective {r : IPRange} (proper : r.Proper) {a b : Addr}
    (validA : a.isValid = true) (zoneA : a.zone = "") (validB : b.isValid = true)
    (zoneB : b.zone = "") {k : Nat} (first : r.offset a = some k) (second : r.offset b = some k) :
    a = b := by
  obtain ⟨lengthA, valueA⟩ := proper.offset_eq validA zoneA first
  obtain ⟨lengthB, valueB⟩ := proper.offset_eq validB zoneB second
  exact Addr.eq_of_parts (lengthA.trans lengthB.symm) (valueA.trans valueB.symm)
    (zoneA.trans zoneB.symm)

theorem offset_isSome {r : IPRange} {ip : Addr} :
    (r.offset ip).isSome = true ↔ r.contains ip = true := by
  unfold offset
  split <;> simp_all

end IPRange

end AdGuardHome.Dhcpsvc
