import AdGuardHome.Dhcpd.V4Handlers

namespace AdGuardHome.Dhcpd

open Netip Heap
open Dhcpsvc (Lease Time Duration)

namespace IPRange

private theorem ordered_toNat (r : IPRange) : r.start.toNat < r.stop.toNat := r.ordered

theorem offset_v4 (r : IPRange) (value : BitVec 32) :
    r.offset (.v4 value) =
      if r.start.toNat ≤ value.toNat ∧ value.toNat ≤ r.stop.toNat then
        some (value.toNat - r.start.toNat)
      else none := by
  simp only [offset, addr16, Nat.add_le_add_iff_left, Nat.add_sub_add_left]

theorem offset_injective (r : IPRange) {a b : Addr} (a4 : a.is4 = true) (b4 : b.is4 = true)
    {k : Nat} (first : r.offset a = some k) (second : r.offset b = some k) : a = b := by
  cases a with
  | zero => cases a4
  | v6 value zone => cases a4
  | v4 v =>
    cases b with
    | zero => cases b4
    | v6 value zone => cases b4
    | v4 w =>
      rw [offset_v4] at first second
      split at first
      · split at second
        · simp only [Option.some.injEq] at first second
          congr 1
          apply BitVec.eq_of_toNat_eq
          omega
        · cases second
      · cases first

theorem offset_start (r : IPRange) : r.offset (.v4 r.start) = some 0 := by
  have order := r.ordered_toNat
  rw [offset_v4, if_pos (by omega), Nat.sub_self]

theorem mem_addrs (r : IPRange) {ip : Addr} (member : ip ∈ r.addrs) :
    ip.is4 = true ∧ (r.offset ip).isSome := by
  obtain ⟨i, bound, rfl⟩ := List.mem_map.mp member
  have order := r.ordered_toNat
  have stopBound := r.stop.isLt
  rw [List.mem_range] at bound
  refine ⟨rfl, ?_⟩
  rw [offset_v4, if_pos]
  · rfl
  · rw [BitVec.toNat_add, BitVec.toNat_ofNat]
    omega

end IPRange

namespace V4Server

variable {l : Ref} {s : V4Server} {change : Lease → Lease}

theorem lease_setLease (known : l < s.heap.size) (change : Lease → Lease) (other : Ref) :
    (s.setLease l change).lease other = if other = l then change (s.lease l) else s.lease other :=
  read_modify known change other

theorem setLease_unknown (unknown : s.heap.size ≤ l)
    (change : Lease → Lease) : s.setLease l change = s := by
  rw [setLease, Heap.modify, write_unknown unknown]

/-- Writes to other fields leave both addresses of every lease alone. -/
theorem addresses_setLease
    (same : ∀ lease, (change lease).ip = lease.ip ∧ (change lease).hwAddr = lease.hwAddr)
    (l other : Ref) :
    ((s.setLease l change).lease other).ip = (s.lease other).ip ∧
      ((s.setLease l change).lease other).hwAddr = (s.lease other).hwAddr := by
  by_cases known : l < s.heap.size
  · rw [lease_setLease known]
    split
    · rename_i here
      rw [here]
      exact same _
    · exact ⟨rfl, rfl⟩
  · rw [setLease_unknown (Nat.le_of_not_lt known)]
    exact ⟨rfl, rfl⟩

theorem lease_alloc (s : V4Server) (l : Lease) (other : Ref) :
    ({ s with heap := (s.heap.alloc l).1 } : V4Server).lease other =
      if other = s.heap.size then l else s.lease other :=
  read_alloc s.heap l other

/-- No two elements have one address, no two elements that are not blocklisted have one
hardware address, the index maps exactly the leased addresses to their leases, and the
bit of an address in the range is set exactly if it is leased. -/
structure Agrees (s : V4Server) : Prop where
  ips : s.leases.Pairwise fun a b => (s.lease a).ip ≠ (s.lease b).ip
  macs : s.leases.Pairwise fun a b =>
    (s.lease a).hwAddr = (s.lease b).hwAddr → isBlocklisted (s.lease a) = true
  index : ∀ ip l, s.ipIndex.get ip = some l ↔ l ∈ s.leases ∧ (s.lease l).ip = ip
  offsets : ∀ ip offset, ip.is4 = true → s.conf.ipRange.offset ip = some offset →
    (s.leasedOffsets.isSet offset = true ↔ ∃ l ∈ s.leases, (s.lease l).ip = ip)

/-- The parts agree, and the table only has stored leases with IPv4 addresses. -/
structure Consistent (s : V4Server) : Prop extends Agrees s where
  known : ∀ l ∈ s.leases, l < s.heap.size
  is4 : ∀ l ∈ s.leases, (s.lease l).ip.is4 = true

theorem Consistent.new (conf : V4ServerConf) : (new conf).Consistent where
  known := by simp [V4Server.new]
  is4 := by simp [V4Server.new]
  ips := .nil
  macs := .nil
  index := by simp [V4Server.new]
  offsets := by simp [V4Server.new]

theorem Consistent.eq_of_ip (consistent : s.Consistent) {a b : Ref} (first : a ∈ s.leases)
    (second : b ∈ s.leases) (same : (s.lease a).ip = (s.lease b).ip) :
    a = b := by
  have one := (consistent.index (s.lease a).ip a).mpr ⟨first, rfl⟩
  have two := (consistent.index (s.lease a).ip b).mpr ⟨second, same.symm⟩
  exact Option.some.inj (one.symm.trans two)

/-- Two elements with one hardware address are blocklisted. -/
theorem Consistent.blocklisted_of_mac (consistent : s.Consistent) {a b : Ref} (first : a ∈ s.leases)
    (second : b ∈ s.leases) (different : a ≠ b)
    (same : (s.lease a).hwAddr = (s.lease b).hwAddr) : isBlocklisted (s.lease a) = true := by
  have : Std.Symm fun a b : Ref =>
      (s.lease a).hwAddr = (s.lease b).hwAddr → isBlocklisted (s.lease a) = true := by
    constructor
    intro a b blocked here
    rw [isBlocklisted, here]
    exact blocked here.symm
  exact consistent.macs.forall first second different same

/-- The addresses, hardware addresses and indexes are all that matters. -/
theorem Consistent.frame {s t : V4Server} (consistent : s.Consistent)
    (conf : t.conf = s.conf) (leases : t.leases = s.leases) (ipIndex : t.ipIndex = s.ipIndex)
    (offsets : t.leasedOffsets = s.leasedOffsets) (grown : s.heap.size ≤ t.heap.size)
    (same : ∀ l ∈ s.leases,
      (t.lease l).ip = (s.lease l).ip ∧ (t.lease l).hwAddr = (s.lease l).hwAddr) :
    t.Consistent where
  known := by
    intro l member
    rw [leases] at member
    exact Nat.lt_of_lt_of_le (consistent.known l member) grown
  is4 := by
    intro l member
    rw [leases] at member
    rw [(same l member).1]
    exact consistent.is4 l member
  ips := by
    rw [leases]
    refine consistent.ips.imp_of_mem ?_
    intro a b first second different
    rwa [(same a first).1, (same b second).1]
  macs := by
    rw [leases]
    refine consistent.macs.imp_of_mem ?_
    intro a b first second blocked
    rw [isBlocklisted, (same a first).2, (same b second).2]
    exact blocked
  index := by
    intro ip l
    rw [ipIndex, leases, consistent.index]
    constructor
    · rintro ⟨member, here⟩
      exact ⟨member, (same l member).1.trans here⟩
    · rintro ⟨member, here⟩
      exact ⟨member, (same l member).1.symm.trans here⟩
  offsets := by
    intro ip offset four found
    rw [offsets, leases]
    rw [conf] at found
    rw [consistent.offsets ip offset four found]
    constructor
    · rintro ⟨l, member, here⟩
      exact ⟨l, member, (same l member).1.trans here⟩
    · rintro ⟨l, member, here⟩
      exact ⟨l, member, (same l member).1.symm.trans here⟩

/-- A write that leaves both addresses of a lease alone. -/
theorem Consistent.setLease (consistent : s.Consistent) (l : Ref)
    (same : ∀ lease, (change lease).ip = lease.ip ∧ (change lease).hwAddr = lease.hwAddr) :
    (s.setLease l change).Consistent := by
  refine consistent.frame rfl rfl rfl rfl (by simp [V4Server.setLease]) ?_
  intro other _
  exact addresses_setLease same l other

/-- A write that gives a lease a hardware address which no other lease needs. -/
theorem Consistent.rebind (consistent : s.Consistent) (known : l < s.heap.size)
    (same : (change (s.lease l)).ip = (s.lease l).ip)
    (free : ∀ other ∈ s.leases, other ≠ l →
      (s.lease other).hwAddr = (change (s.lease l)).hwAddr →
        isBlocklisted (s.lease other) = true) : (s.setLease l change).Consistent := by
  have ip : ∀ other, ((s.setLease l change).lease other).ip = (s.lease other).ip := by
    intro other
    rw [lease_setLease known]
    split
    · rename_i here
      rw [here, same]
    · rfl
  have distinct : s.leases.Pairwise fun a b => a ≠ b := consistent.ips.imp (by
    rintro a b different rfl
    exact different rfl)
  refine ⟨⟨?_, ?_, ?_, ?_⟩, ?_, ?_⟩
  · refine consistent.ips.imp ?_
    intro a b different
    rwa [ip, ip]
  · refine (consistent.macs.and distinct).imp_of_mem ?_
    rintro a b first second ⟨blocked, different⟩
    rw [lease_setLease known, lease_setLease known]
    by_cases isA : a = l
    · subst isA
      rw [if_pos rfl, if_neg (Ne.symm different)]
      intro clash
      have blocklisted := free b second (Ne.symm different) clash.symm
      rw [isBlocklisted] at blocklisted ⊢
      rwa [clash]
    · rw [if_neg isA]
      split
      · exact free a first isA
      · exact blocked
  · intro address other
    rw [ip]
    exact consistent.index address other
  · intro address offset four found
    simp only [ip]
    exact consistent.offsets address offset four found
  · intro other member
    simpa [V4Server.setLease] using consistent.known other member
  · intro other member
    rw [ip]
    exact consistent.is4 other member

theorem Consistent.alloc (consistent : s.Consistent) (l : Lease) :
    ({ s with heap := (s.heap.alloc l).1 } : V4Server).Consistent := by
  refine consistent.frame rfl rfl rfl rfl (by simp) ?_
  intro other member
  rw [lease_alloc, if_neg (Nat.ne_of_lt (consistent.known other member))]
  exact ⟨rfl, rfl⟩

/-- The server with one more object, which the table does not know. -/
def withObject (s : V4Server) (object : Lease) : V4Server :=
  { s with heap := (s.heap.alloc object).1 }

theorem withObject_size (s : V4Server) (object : Lease) :
    (s.withObject object).heap.size = s.heap.size + 1 :=
  size_alloc _ _

theorem withObject_new (s : V4Server) (object : Lease) :
    (s.withObject object).lease s.heap.size = object := by
  rw [withObject, lease_alloc, if_pos rfl]

theorem Consistent.withObject_old (consistent : s.Consistent) (object : Lease) {other : Ref}
    (member : other ∈ s.leases) : (s.withObject object).lease other = s.lease other := by
  rw [withObject, lease_alloc, if_neg (Nat.ne_of_lt (consistent.known other member))]

theorem mem_eraseIdx_of_nodup {leases : List Ref} (once : leases.Nodup) {i : Nat}
    (found : leases[i]? = some l) (other : Ref) :
    other ∈ leases.eraseIdx i ↔ other ∈ leases ∧ other ≠ l := by
  obtain ⟨bound, here⟩ := List.getElem?_eq_some_iff.mp found
  rw [← once.erase_getElem i bound, once.mem_erase_iff, here, and_comm]

theorem Consistent.mem_eraseIdx (consistent : s.Consistent) {i : Nat}
    (found : s.leases[i]? = some l) (other : Ref) :
    other ∈ s.leases.eraseIdx i ↔ other ∈ s.leases ∧ other ≠ l := by
  have nodup : s.leases.Nodup := consistent.ips.imp (by
    rintro a b different rfl
    exact different rfl)
  exact mem_eraseIdx_of_nodup nodup found other

/-- The index of a table with one lease less. -/
theorem Consistent.index_eraseIdx (consistent : s.Consistent) {i : Nat}
    (found : s.leases[i]? = some l) (ip : Addr) (other : Ref) :
    (s.ipIndex.delete (s.lease l).ip).get ip = some other ↔
      other ∈ s.leases.eraseIdx i ∧ (s.lease other).ip = ip := by
  have member : l ∈ s.leases := List.mem_of_getElem? found
  rw [FiniteMap.get_delete, consistent.mem_eraseIdx found]
  by_cases same : ip = (s.lease l).ip
  · rw [if_pos same]
    constructor
    · intro impossible
      cases impossible
    · rintro ⟨⟨present, different⟩, at_ip⟩
      exact absurd (consistent.eq_of_ip present member (at_ip.trans same)) different
  · rw [if_neg same, consistent.index]
    constructor
    · rintro ⟨present, at_ip⟩
      refine ⟨⟨present, ?_⟩, at_ip⟩
      rintro rfl
      exact same at_ip.symm
    · rintro ⟨⟨present, _⟩, at_ip⟩
      exact ⟨present, at_ip⟩

/-- The addresses of a table with one lease less. -/
theorem Consistent.leased_eraseIdx (consistent : s.Consistent) {i : Nat}
    (found : s.leases[i]? = some l) (ip : Addr) :
    (∃ other ∈ s.leases.eraseIdx i, (s.lease other).ip = ip) ↔
      ip ≠ (s.lease l).ip ∧ ∃ other ∈ s.leases, (s.lease other).ip = ip := by
  have member : l ∈ s.leases := List.mem_of_getElem? found
  have kept := consistent.mem_eraseIdx found
  constructor
  · rintro ⟨other, remains, rfl⟩
    obtain ⟨present, different⟩ := (kept other).mp remains
    refine ⟨?_, other, present, rfl⟩
    intro same
    exact different (consistent.eq_of_ip present member same)
  · rintro ⟨different, other, present, rfl⟩
    refine ⟨other, (kept other).mpr ⟨present, ?_⟩, rfl⟩
    rintro rfl
    exact different rfl

theorem Consistent.rmLeaseByIndex (consistent : s.Consistent) (i : Nat) :
    (s.rmLeaseByIndex i).Consistent := by
  unfold V4Server.rmLeaseByIndex
  cases found : s.leases[i]? with
  | none => exact consistent
  | some l =>
    have member : l ∈ s.leases := List.mem_of_getElem? found
    have sub : (s.leases.eraseIdx i).Sublist s.leases := List.eraseIdx_sublist _ _
    refine ⟨⟨consistent.ips.sublist sub, consistent.macs.sublist sub,
      consistent.index_eraseIdx found, ?_⟩, ?_, ?_⟩
    · intro ip offset four at_offset
      change (_ ↔ ∃ other ∈ s.leases.eraseIdx i, (s.lease other).ip = ip)
      rw [consistent.leased_eraseIdx found]
      have before := consistent.offsets ip offset four at_offset
      cases removed : s.conf.ipRange.offset (s.lease l).ip with
      | none =>
        have different : ip ≠ (s.lease l).ip := by
          rintro rfl
          simp [removed] at at_offset
        simpa [removed, different] using before
      | some gone =>
        simp only [removed, BitSet.isSet_set]
        by_cases same : offset = gone
        · subst same
          have equal := s.conf.ipRange.offset_injective four (consistent.is4 l member) at_offset
            removed
          simp [equal]
        · have different : ip ≠ (s.lease l).ip := by
            rintro rfl
            rw [removed, Option.some.injEq] at at_offset
            exact same at_offset.symm
          simpa [same, different] using before
    · intro other remains
      exact consistent.known other (sub.subset remains)
    · intro other remains
      exact consistent.is4 other (sub.subset remains)

/-- A lease that the table can take in: neither of its addresses is in use, and it is in
the range unless the first address of the range is leased. -/
structure Fits (s : V4Server) (l : Ref) : Prop where
  known : l < s.heap.size
  is4 : (s.lease l).ip.is4 = true
  ip : ∀ other ∈ s.leases, (s.lease other).ip ≠ (s.lease l).ip
  mac : ∀ other ∈ s.leases, (s.lease other).hwAddr = (s.lease l).hwAddr →
    isBlocklisted (s.lease other) = true
  inRange : (s.conf.ipRange.offset (s.lease l).ip).isSome ∨
    ∃ other ∈ s.leases, (s.lease other).ip = .v4 s.conf.ipRange.start

/-- A new object fits if its addresses are not in use. -/
theorem Consistent.fits_withObject (consistent : s.Consistent) {object : Lease}
    (is4 : object.ip.is4 = true) (ip : ∀ other ∈ s.leases, (s.lease other).ip ≠ object.ip)
    (mac : ∀ other ∈ s.leases, (s.lease other).hwAddr = object.hwAddr →
      isBlocklisted (s.lease other) = true)
    (inRange : (s.conf.ipRange.offset object.ip).isSome ∨
      ∃ other ∈ s.leases, (s.lease other).ip = .v4 s.conf.ipRange.start) :
    (s.withObject object).Fits s.heap.size where
  known := by
    rw [withObject_size]
    exact Nat.lt_succ_self _
  is4 := by rwa [withObject_new]
  ip := by
    intro other member
    rw [consistent.withObject_old object member, withObject_new]
    exact ip other member
  mac := by
    intro other member
    rw [consistent.withObject_old object member, withObject_new]
    exact mac other member
  inRange := by
    rw [withObject_new]
    refine inRange.imp id ?_
    rintro ⟨other, member, start⟩
    exact ⟨other, member, by rwa [consistent.withObject_old object member]⟩

/-- The index of a table with one more lease. -/
theorem Consistent.index_append (consistent : s.Consistent)
    (unused : ∀ other ∈ s.leases, (s.lease other).ip ≠ (s.lease l).ip) (ip : Addr) (other : Ref) :
    (s.ipIndex.set (s.lease l).ip l).get ip = some other ↔
      other ∈ s.leases ++ [l] ∧ (s.lease other).ip = ip := by
  rw [FiniteMap.get_set, List.mem_append, List.mem_singleton]
  by_cases same : ip = (s.lease l).ip
  · rw [if_pos same, Option.some.injEq]
    constructor
    · rintro rfl
      exact ⟨.inr rfl, same.symm⟩
    · rintro ⟨old | new, at_ip⟩
      · exact absurd (at_ip.trans same) (unused other old)
      · exact new.symm
  · rw [if_neg same, consistent.index]
    constructor
    · rintro ⟨old, at_ip⟩
      exact ⟨.inl old, at_ip⟩
    · rintro ⟨old | rfl, at_ip⟩
      · exact ⟨old, at_ip⟩
      · exact absurd at_ip.symm same

/-- The bit set of a table with one more lease. -/
theorem Consistent.offsets_append (consistent : s.Consistent) (fits : s.Fits l) {ip : Addr}
    {offset : Nat} (four : ip.is4 = true) (at_offset : s.conf.ipRange.offset ip = some offset) :
    (s.leasedOffsets.set ((s.conf.ipRange.offset (s.lease l).ip).getD 0) true).isSet offset =
      true ↔ ∃ other ∈ s.leases ++ [l], (s.lease other).ip = ip := by
  have others : (∃ other ∈ s.leases ++ [l], (s.lease other).ip = ip) ↔
      (s.lease l).ip = ip ∨ ∃ other ∈ s.leases, (s.lease other).ip = ip := by
    simp [or_comm, or_and_right, exists_or]
  rw [others, BitSet.isSet_set]
  have before := consistent.offsets ip offset four at_offset
  cases position : s.conf.ipRange.offset (s.lease l).ip with
  | some added =>
    simp only [Option.getD_some]
    by_cases same : offset = added
    · subst same
      have equal := s.conf.ipRange.offset_injective four fits.is4 at_offset position
      simp [equal]
    · have different : (s.lease l).ip ≠ ip := by
        rintro rfl
        rw [position, Option.some.injEq] at at_offset
        exact same at_offset.symm
      simpa [same, different] using before
  | none =>
    -- The bit of the first address is set instead; it already was.
    have different : (s.lease l).ip ≠ ip := by
      rintro rfl
      simp [position] at at_offset
    have startLeased : ∃ other ∈ s.leases, (s.lease other).ip = .v4 s.conf.ipRange.start := by
      rcases fits.inRange with inside | leased
      · simp [position] at inside
      · exact leased
    simp only [Option.getD_none, different, false_or]
    by_cases zero : offset = 0
    · subst zero
      have first := s.conf.ipRange.offset_injective four rfl at_offset
        s.conf.ipRange.offset_start
      subst first
      simpa using startLeased
    · simpa [zero] using before

theorem Consistent.addLease (consistent : s.Consistent)
    (fits : (s.addLease l).2 = .ok () → s.Fits l) : (s.addLease l).1.Consistent := by
  unfold V4Server.addLease at fits ⊢
  dsimp only at fits ⊢
  split
  · exact consistent
  rename_i inSubnet
  split
  · exact consistent
  rename_i inRange
  split
  · exact consistent
  rename_i unique
  rw [if_neg inSubnet, if_neg inRange, if_neg unique] at fits
  have fits := fits rfl
  refine ⟨⟨?_, ?_, consistent.index_append fits.ip, ?_⟩, ?_, ?_⟩
  · refine List.pairwise_append.mpr ⟨consistent.ips, List.pairwise_singleton _ _, ?_⟩
    intro other old new member
    rw [List.mem_singleton.mp member]
    exact fits.ip other old
  · refine List.pairwise_append.mpr ⟨consistent.macs, List.pairwise_singleton _ _, ?_⟩
    intro other old new member
    rw [List.mem_singleton.mp member]
    exact fits.mac other old
  · intro ip offset four at_offset
    exact consistent.offsets_append fits four at_offset
  · intro other member
    rcases List.mem_append.mp member with old | new
    · exact consistent.known other old
    · rw [List.mem_singleton.mp new]
      exact fits.known
  · intro other member
    rcases List.mem_append.mp member with old | new
    · exact consistent.is4 other old
    · rw [List.mem_singleton.mp new]
      exact fits.is4

end V4Server

end AdGuardHome.Dhcpd
