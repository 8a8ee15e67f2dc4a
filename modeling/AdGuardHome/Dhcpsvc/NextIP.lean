import AdGuardHome.Dhcpsvc.Filed
import AdGuardHome.Dhcpsvc.IPRangeSearch
import AdGuardHome.Dhcpsvc.Restart

namespace AdGuardHome.Dhcpsvc

open Netip

namespace IPRange

section Accepted

variable {start stop : Addr} {r : IPRange} (accepted : newIPRange start stop = some r)
  (started : r.start.isValid = true)
include accepted started

omit accepted started in
theorem not_open_of_last (inside : r.InZone (lastOf r.start)) : ¬ r.Open := by
  intro open_
  have outside : r.contains (lastOf r.start) = false := open_
  rw [inside.contained] at outside
  cases outside

/-- What the loop finds from where it stands, with rounds enough to get beyond the end: the
lowest accepted address, or nothing, and then it ends only where the range is open. -/
theorem findLoop_cases {p : Addr → Option Bool} {q : Addr → Bool}
    (agree : ∀ ip, r.InZone ip → p ip = some (q ip)) (outside : p .zero = none) (rounds : Nat)
    {ip : Addr} (standing : Standing r q ip) (near : ip.toNat ≤ r.stop.toNat + 1)
    (enough : r.stop.toNat + 2 ≤ rounds + ip.toNat) :
    (∃ x, (r.InZone x ∧ q x = true ∧
        ∀ other, r.InZone other → q other = true → other.less x = false) ∧
      r.findLoop p rounds ip = some x) ∨
    (∀ other, r.InZone other → q other = false) ∧
      r.findLoop p rounds ip = if r.Open then some .zero else none := by
  induction rounds generalizing ip with
  | zero => omega
  | succ rounds ih =>
    by_cases beyond : r.stop.less ip = true
    · have left : r.findRound q ip = .inr .zero := if_pos beyond
      rw [findLoop, if_pos beyond, if_pos (open_of_beyond standing.mate beyond)]
      rcases standing.leaves accepted started left with ⟨_, none⟩ | ⟨inside, _⟩
      · exact .inr ⟨none, rfl⟩
      · have length := (inside.mate accepted started).bitLen
        cases begins : r.start <;> simp_all [Addr.isValid]
    · have inside := inZone_of_mate standing.mate standing.low (Bool.eq_false_iff.mpr beyond)
      have high := (bounds_of_contains accepted started inside.contained).2.2
      rw [findLoop, if_neg beyond, agree ip inside]
      cases taken : q ip with
      | true =>
        have left : r.findRound q ip = .inr ip := by
          rw [findRound, if_neg beyond, taken]
          rfl
        rcases standing.leaves accepted started left with ⟨rfl, none⟩ | lowest
        · rw [none _ inside] at taken
          cases taken
        · exact .inl ⟨ip, lowest, rfl⟩
      | false =>
        have rejected : q ip ≠ true := Bool.eq_false_iff.mp taken
        dsimp only
        rcases next_cases standing.mate started with ⟨last, wraps⟩ | ⟨mate, succ⟩
        · -- After the last address of the family the predicate gets the zero value.
          obtain ⟨rounds, rfl⟩ : ∃ k, rounds = k + 1 := ⟨rounds - 1, by omega⟩
          refine .inr ⟨fun other otherInside => Bool.eq_false_iff.mpr fun otherTaken => ?_, ?_⟩
          · have passed := standing.pass accepted started rejected otherInside otherTaken
            have bound := toNat_le_lastOf (otherInside.mate accepted started)
            rw [last] at passed
            omega
          · rw [if_neg (not_open_of_last (last ▸ inside)), wraps, findLoop,
              not_less_zero, if_neg Bool.false_ne_true, outside]
        · refine ih ⟨mate, ?_, ?_⟩ (by omega) (by omega)
          · have low := standing.low
            omega
          · intro other otherInside otherTaken
            have passed := standing.pass accepted started rejected otherInside otherTaken
            omega

theorem find_cases {p : Addr → Option Bool} {q : Addr → Bool}
    (agree : ∀ ip, r.InZone ip → p ip = some (q ip)) (outside : p .zero = none) :
    (∃ x, (r.InZone x ∧ q x = true ∧
        ∀ other, r.InZone other → q other = true → other.less x = false) ∧
      r.find p = some x) ∨
    (∀ other, r.InZone other → q other = false) ∧
      r.find p = if r.Open then some .zero else none := by
  refine findLoop_cases accepted started agree outside _ (standing_start accepted started q) ?_ ?_
  · have ordered := (accepted_ends accepted).2.1
    have first : r.contains r.start = true :=
      contains_iff.mpr ⟨rfl, less_self _, less_asymm ordered⟩
    have bounds := bounds_of_contains accepted started first
    omega
  · omega

end Accepted

end IPRange

namespace NetInterface

variable {iface : NetInterface} {ip : Addr}

def Clear (iface : NetInterface) (ip : Addr) : Prop :=
  ∃ offset, iface.addrSpace.offset ip = some offset ∧ iface.leasedOffsets.isSet offset = false

structure FirstFree (iface : NetInterface) (ip : Addr) : Prop where
  inZone : iface.addrSpace.InZone ip
  clear : iface.Clear ip
  lowest : ∀ other, iface.addrSpace.InZone other → iface.Clear other → other.less ip = false

/-- All bits are set, and the range ends before the last address of its family. -/
structure Exhausted (iface : NetInterface) : Prop where
  ends : iface.addrSpace.Open
  taken : ∀ ip, iface.addrSpace.InZone ip → ¬ iface.Clear ip

/-- The range is one that `newIPRange` accepts. -/
structure Ranged (iface : NetInterface) : Prop where
  accepted : IPRange.newIPRange iface.addrSpace.start iface.addrSpace.stop = some iface.addrSpace
  started : iface.addrSpace.start.isValid = true

theorem Ranged.congr (ranged : iface.Ranged) {other : NetInterface}
    (space : other.addrSpace = iface.addrSpace) : other.Ranged := by
  refine ⟨?_, ?_⟩ <;> rw [space]
  · exact ranged.accepted
  · exact ranged.started

theorem Ranged.offset (ranged : iface.Ranged) (inside : iface.addrSpace.contains ip = true) :
    iface.addrSpace.offset ip = some (ip.toNat - iface.addrSpace.start.toNat) :=
  IPRange.offset_of_contains ranged.accepted ranged.started inside

theorem Ranged.valid (ranged : iface.Ranged) (inside : iface.addrSpace.contains ip = true) :
    ip.isValid = true := by
  have length := (IPRange.bounds_of_contains ranged.accepted ranged.started inside).1
  have started := ranged.started
  cases begins : iface.addrSpace.start <;> cases ip <;> simp_all [Addr.bitLen, Addr.isValid]

/-- What `nextIP` returns. -/
theorem Ranged.nextIP_cases (ranged : iface.Ranged) :
    (∃ x, iface.FirstFree x ∧ iface.nextIP = some x) ∨
      (∀ ip, iface.addrSpace.InZone ip → ¬ iface.Clear ip) ∧
        iface.nextIP = if iface.addrSpace.Open then some .zero else none := by
  have agree : ∀ ip, iface.addrSpace.InZone ip →
      ((iface.addrSpace.offset ip).map fun offset => !iface.leasedOffsets.isSet offset) =
        some (!iface.leasedOffsets.isSet (ip.toNat - iface.addrSpace.start.toNat)) := by
    intro ip inside
    rw [ranged.offset inside.contained]
    rfl
  have outside : ((iface.addrSpace.offset .zero).map fun offset =>
      !iface.leasedOffsets.isSet offset) = none := by
    rw [Option.map_eq_none_iff]
    cases position : iface.addrSpace.offset .zero with
    | none => rfl
    | some offset =>
      have inside : iface.addrSpace.contains .zero = true := by
        rw [← IPRange.offset_isSome, position]
        rfl
      cases ranged.valid inside
  have clear : ∀ ip, iface.addrSpace.InZone ip →
      (iface.Clear ip ↔
        (!iface.leasedOffsets.isSet (ip.toNat - iface.addrSpace.start.toNat)) = true) := by
    intro ip inside
    simp [Clear, ranged.offset inside.contained]
  rcases IPRange.find_cases ranged.accepted ranged.started agree outside with
    ⟨x, ⟨inside, free, lowest⟩, found⟩ | ⟨none, found⟩
  · refine .inl ⟨x, ⟨inside, (clear x inside).mpr free, ?_⟩, found⟩
    exact fun other otherInside otherClear =>
      lowest other otherInside ((clear other otherInside).mp otherClear)
  · refine .inr ⟨fun ip inside free => ?_, found⟩
    have set := (clear ip inside).mp free
    rw [none ip inside] at set
    cases set

theorem FirstFree.unique (ranged : iface.Ranged) {x y : Addr} (first : iface.FirstFree x)
    (second : iface.FirstFree y) : x = y := by
  have above := first.lowest y second.inZone second.clear
  have below := second.lowest x first.inZone first.clear
  have mateX := first.inZone.mate ranged.accepted ranged.started
  have mateY := second.inZone.mate ranged.accepted ranged.started
  have mates : Mate x y :=
    ⟨mateX.bitLen.trans mateY.bitLen.symm, mateX.zone.trans mateY.zone.symm⟩
  rw [less_false_iff] at above below
  have lengths := mates.bitLen
  exact mates.eq (by omega)

theorem Ranged.nextIP_firstFree (ranged : iface.Ranged) {x : Addr} (first : iface.FirstFree x) :
    iface.nextIP = some x ∧ x ≠ .zero := by
  refine ⟨?_, ?_⟩
  · rcases ranged.nextIP_cases with ⟨y, second, found⟩ | ⟨none, _⟩
    · rw [found, first.unique ranged second]
    · exact absurd first.clear (none x first.inZone)
  · rintro rfl
    cases ranged.valid first.inZone.contained

theorem Ranged.nextIP_exhausted (ranged : iface.Ranged) (exhausted : iface.Exhausted) :
    iface.nextIP = some .zero := by
  rcases ranged.nextIP_cases with ⟨y, second, _⟩ | ⟨_, found⟩
  · exact absurd second.clear (exhausted.taken y second.inZone)
  · rw [found, if_pos exhausted.ends]

theorem Ranged.nextIP_zero (ranged : iface.Ranged) (found : iface.nextIP = some .zero) :
    iface.Exhausted := by
  rcases ranged.nextIP_cases with ⟨y, second, other⟩ | ⟨none, other⟩
  · obtain rfl := Option.some.inj (other.symm.trans found)
    cases ranged.valid second.inZone.contained
  · rw [found] at other
    split at other
    · rename_i ends
      exact ⟨ends, none⟩
    · cases other

theorem Ranged.firstFree_of_nextIP (ranged : iface.Ranged) {x : Addr}
    (found : iface.nextIP = some x) (valid : x ≠ .zero) : iface.FirstFree x := by
  rcases ranged.nextIP_cases with ⟨y, second, other⟩ | ⟨_, other⟩
  · obtain rfl := Option.some.inj (other.symm.trans found)
    exact second
  · rw [found] at other
    split at other
    · exact absurd (Option.some.inj other) valid
    · cases other

end NetInterface

namespace DHCPServer

variable {s : DHCPServer} {conf : Config} {iface : NetInterface}

private theorem ranged_or {start stop : Addr} (started : start.isValid = true)
    (space : iface.addrSpace = (IPRange.newIPRange start stop).getD .zero) :
    iface.Ranged ∨ iface.addrSpace = .zero := by
  cases made : IPRange.newIPRange start stop with
  | none =>
    rw [made] at space
    exact .inr space
  | some r =>
    obtain ⟨rfl, _⟩ := IPRange.newIPRange_spec made
    rw [made] at space
    refine .inl ⟨?_, ?_⟩
    · rw [space]
      exact made
    · rw [space]
      exact started

theorem Configured.ranged (configured : s.Configured conf) {id : IfaceID}
    (here : s.common id = some iface) : iface.Ranged ∨ iface.addrSpace = .zero := by
  obtain ⟨other, there, same⟩ := configured.common (Configured.empty conf) here
  rcases common_empty there with ⟨c, member, _, rfl⟩ | ⟨c, member, _, rfl⟩
  · have valid := conf.valid4 c member
    simp only [IPv4Config.validate, Bool.and_eq_true] at valid
    refine ranged_or ?_ same.symm
    cases start : c.1.rangeStart <;> simp_all [Addr.is4, Addr.isValid]
  · have valid := conf.valid6 c member
    simp only [IPv6Config.validate, Bool.and_eq_true] at valid
    refine ranged_or ?_ same.symm
    cases start : c.1.rangeStart <;> simp_all [Addr.is6, Addr.isValid]

theorem Configured.ranged4 (configured : s.Configured conf) {i : Nat}
    (here : s.common (.v4 i) = some iface) :
    iface.Ranged ∧ iface.addrSpace.start.is4 = true := by
  obtain ⟨other, there, same⟩ := configured.common (Configured.empty conf) here
  rcases common_empty there with ⟨c, member, _, rfl⟩ | ⟨_, _, ⟨j, other⟩, _⟩
  · have valid := conf.valid4 c member
    simp only [IPv4Config.validate, Bool.and_eq_true, Option.any_eq_true] at valid
    obtain ⟨⟨⟨⟨⟨⟨_, _⟩, start⟩, _⟩, _⟩, _⟩, r, made, _⟩ := valid
    have space : iface.addrSpace = r := by
      rw [← same]
      change (IPRange.newIPRange c.1.rangeStart c.1.rangeEnd).getD .zero = r
      rw [made]
      rfl
    obtain ⟨rfl, _⟩ := IPRange.newIPRange_spec made
    refine ⟨(configured.ranged here).resolve_right fun zero => ?_, ?_⟩
    · rw [space] at zero
      rw [(IPRange.mk.inj zero).1] at start
      cases start
    · rw [space]
      exact start
  · cases other

end DHCPServer

end AdGuardHome.Dhcpsvc
