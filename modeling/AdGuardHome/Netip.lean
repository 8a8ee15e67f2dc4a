import Mathlib.Order.Defs.LinearOrder
import Std.Data.TreeMap

namespace AdGuardHome.Netip

open Std

/-- `netip.Addr`: the zero value, an IPv4 address, or an IPv6 address with a zone. -/
inductive Addr where
  | zero
  | v4 (value : BitVec 32)
  | v6 (value : BitVec 128) (zone : String)
deriving DecidableEq, Repr

instance : Inhabited Addr := ⟨.zero⟩

namespace Addr

def isValid : Addr → Bool
  | zero => false
  | _ => true

def is4 : Addr → Bool
  | v4 _ => true
  | _ => false

def is6 : Addr → Bool
  | v6 _ _ => true
  | _ => false

def bitLen : Addr → Nat
  | zero => 0
  | v4 _ => 32
  | v6 _ _ => 128

def toNat : Addr → Nat
  | zero => 0
  | v4 value => value.toNat
  | v6 value _ => value.toNat

def zone : Addr → String
  | v6 _ zone => zone
  | _ => ""

def withZone (addr : Addr) (zone : String) : Addr :=
  match addr with
  | v6 value _ => v6 value zone
  | other => other

/-- The IPv4-mapped prefix `::ffff:0:0/96`. -/
def is4In6 : Addr → Bool
  | v6 value _ => value >>> 32 == 0xffff#128
  | _ => false

def unmap (addr : Addr) : Addr :=
  match addr with
  | v6 value _ => if addr.is4In6 then v4 (value.setWidth 32) else addr
  | other => other

def isUnspecified (addr : Addr) : Bool := addr == v4 0 || addr == v6 0 ""

/-- Addresses are ordered by length, then by value, then by zone. -/
def compare : Addr → Addr → Ordering :=
  compareLex (compareOn bitLen) (compareLex (compareOn toNat) (compareOn zone))

def less (a b : Addr) : Bool := compare a b == .lt

/-- The following address, or the zero value after the last one of the family. -/
def next : Addr → Addr
  | zero => zero
  | v4 value => if value + 1 = 0 then zero else v4 (value + 1)
  | v6 value zone => if value + 1 = 0 then Addr.zero else v6 (value + 1) zone

theorem zone_next {addr : Addr} (zoneless : addr.zone = "") : addr.next.zone = "" := by
  cases addr with
  | zero => rfl
  | v4 value => simp only [next]; split <;> rfl
  | v6 value zone =>
    simp only [next]
    split
    · rfl
    · exact zoneless

instance : TransCmp compare := inferInstanceAs (TransCmp (compareLex _ _))

instance : LawfulEqCmp compare where
  eq_of_compare := by
    intro a b same
    simp only [compare, compareLex, compareOn, Ordering.then_eq_eq,
      LawfulEqCmp.compare_eq_iff_eq] at same
    obtain ⟨lengths, values, zones⟩ := same
    cases a <;> cases b <;> simp_all [bitLen, toNat, zone, BitVec.toNat_inj]

theorem less_iff {a b : Addr} (zones : a.zone = b.zone) :
    a.less b = true ↔ a.bitLen < b.bitLen ∨ a.bitLen = b.bitLen ∧ a.toNat < b.toNat := by
  have equal : Ord.compare a.zone b.zone = .eq := by
    rw [zones]
    exact LawfulEqCmp.compare_eq_iff_eq.mpr rfl
  simp [less, compare, compareLex, compareOn, Ordering.then_eq_lt, Nat.compare_eq_lt, equal]

theorem eq_of_parts {a b : Addr} (lengths : a.bitLen = b.bitLen) (values : a.toNat = b.toNat)
    (zones : a.zone = b.zone) : a = b := by
  apply (LawfulEqCmp.compare_eq_iff_eq : compare a b = .eq ↔ a = b).mp
  simp only [compare, compareLex, compareOn, Ordering.then_eq_eq,
    LawfulEqCmp.compare_eq_iff_eq]
  exact ⟨lengths, values, zones⟩

end Addr

/-- `netip.Prefix`. The address of a prefix never carries a zone; `bits` is `-1`
for the invalid prefix. -/
structure Prefix where
  addr : Addr
  bits : Int
  zoneless : addr.zone = ""
deriving DecidableEq

namespace Prefix

/-- `netip.PrefixFrom`: it drops the zone, and a length beyond the address is invalid. -/
def ofAddr (addr : Addr) (bits : Nat) : Prefix where
  addr := addr.withZone ""
  bits := if addr.isValid ∧ bits ≤ addr.bitLen then bits else -1
  zoneless := by cases addr <;> rfl

def isValid (pref : Prefix) : Bool := 0 ≤ pref.bits

/-- The leading `bits` bits agree and the address has the family of the prefix and
no zone. -/
def contains (pref : Prefix) (addr : Addr) : Bool :=
  pref.isValid && addr.zone == "" && addr.bitLen != 0 && pref.addr.bitLen == addr.bitLen &&
    (addr.toNat >>> (addr.bitLen - pref.bits.toNat) ==
      pref.addr.toNat >>> (addr.bitLen - pref.bits.toNat))

end Prefix

/-- `netip.AddrPort`. -/
structure AddrPort where
  addr : Addr
  port : BitVec 16
deriving DecidableEq, Repr

end AdGuardHome.Netip
