import AdGuardHome.Dhcpsvc.Operation

namespace AdGuardHome.Dhcpsvc

open Netip Heap

/-- A map of leases and a bit set of offsets agree: the keys are the hardware addresses, no
two leases have one address, and the bit of an address is set exactly if it is leased. -/
structure NetInterface.Agrees (iface : NetInterface) (heap : Heap Lease) : Prop where
  keys : ∀ key l, iface.leases.get key = some l → (heap.read l).hwAddr = key.val
  ips : ∀ key l other k, iface.leases.get key = some l → iface.leases.get k = some other →
    (heap.read l).ip = (heap.read other).ip → key = k
  offsets : ∀ ip offset, ip.isValid = true → ip.zone = "" →
    iface.addrSpace.offset ip = some offset →
      (iface.leasedOffsets.isSet offset = true ↔
        ∃ key l, iface.leases.get key = some l ∧ (heap.read l).ip = ip)

/-- The tables agree, and only stored leases of the address space are in them. -/
structure NetInterface.Consistent (iface : NetInterface) (heap : Heap Lease) : Prop
    extends NetInterface.Agrees iface heap where
  proper : iface.addrSpace.Proper
  known : ∀ key l, iface.leases.get key = some l → l < heap.size
  leasable : ∀ key l, iface.leases.get key = some l → iface.addrSpace.Leasable (heap.read l).ip

namespace NetInterface

variable {iface : NetInterface} {heap : Heap Lease}

theorem Consistent.key_unique (consistent : iface.Consistent heap) {key k : MacKey} {l : Ref}
    (first : iface.leases.get key = some l) (second : iface.leases.get k = some l) : key = k :=
  consistent.ips key l l k first second rfl

/-- Only the addresses of the mapped leases matter. -/
theorem Consistent.frame (consistent : iface.Consistent heap) {heap' : Heap Lease}
    (grown : heap.size ≤ heap'.size)
    (same : ∀ key l, iface.leases.get key = some l →
      (heap'.read l).ip = (heap.read l).ip ∧ (heap'.read l).hwAddr = (heap.read l).hwAddr) :
    iface.Consistent heap' where
  keys := by
    intro key l member
    rw [(same key l member).2]
    exact consistent.keys key l member
  ips := by
    intro key l other k first second equal
    rw [(same key l first).1, (same k other second).1] at equal
    exact consistent.ips key l other k first second equal
  offsets := by
    intro ip offset valid zoneless found
    rw [consistent.offsets ip offset valid zoneless found]
    constructor
    · rintro ⟨key, l, member, here⟩
      exact ⟨key, l, member, (same key l member).1.trans here⟩
    · rintro ⟨key, l, member, here⟩
      exact ⟨key, l, member, (same key l member).1.symm.trans here⟩
  proper := consistent.proper
  known := by
    intro key l member
    exact Nat.lt_of_lt_of_le (consistent.known key l member) grown
  leasable := by
    intro key l member
    rw [(same key l member).1]
    exact consistent.leasable key l member

theorem Consistent.alloc (consistent : iface.Consistent heap) (object : Lease) :
    iface.Consistent (heap.alloc object).1 := by
  refine consistent.frame ?_ ?_
  · exact Nat.le_trans (Nat.le_succ _) (Nat.le_of_eq (size_alloc _ _).symm)
  · intro key l member
    rw [read_alloc, if_neg (Nat.ne_of_lt (consistent.known key l member))]
    exact ⟨rfl, rfl⟩

/-- Only what the map answers matters. -/
theorem Consistent.congr (consistent : iface.Consistent heap) {other : NetInterface}
    (leases : ∀ key, other.leases.get key = iface.leases.get key)
    (leasedOffsets : other.leasedOffsets = iface.leasedOffsets)
    (addrSpace : other.addrSpace = iface.addrSpace) : other.Consistent heap := by
  refine ⟨⟨?_, ?_, ?_⟩, ?_, ?_, ?_⟩
  · intro key l
    rw [leases]
    exact consistent.keys key l
  · intro key l l' key'
    rw [leases, leases]
    exact consistent.ips key l l' key'
  · intro ip offset
    simp only [leases, leasedOffsets, addrSpace]
    exact consistent.offsets ip offset
  · rw [addrSpace]
    exact consistent.proper
  · intro key l
    rw [leases]
    exact consistent.known key l
  · intro key l
    rw [leases, addrSpace]
    exact consistent.leasable key l

theorem Consistent.delete (consistent : iface.Consistent heap) {key : MacKey} {l : Ref}
    (member : iface.leases.get key = some l) :
    (({ iface with leases := iface.leases.delete key } : NetInterface).setOffset
      (heap.read l).ip false).Consistent heap := by
  have kept : ∀ k other, (iface.leases.delete key).get k = some other ↔
      k ≠ key ∧ iface.leases.get k = some other := by
    intro k other
    rw [FiniteMap.get_delete]
    by_cases here : k = key
    · simp [here]
    · simp [here]
  refine ⟨⟨?_, ?_, ?_⟩, consistent.proper, ?_, ?_⟩
  · intro k other remains
    exact consistent.keys k other ((kept k other).mp remains).2
  · intro k other other' k' first second
    exact consistent.ips k other other' k' ((kept k other).mp first).2
      ((kept k' other').mp second).2
  · intro ip offset valid zoneless found
    change iface.addrSpace.offset ip = some offset at found
    have place := consistent.leasable key l member
    obtain ⟨gone, position⟩ := Option.isSome_iff_exists.mp
      (IPRange.offset_isSome.mpr place.inRange)
    have others : (∃ k other, (iface.leases.delete key).get k = some other ∧
        (heap.read other).ip = ip) ↔
        ip ≠ (heap.read l).ip ∧
          ∃ k other, iface.leases.get k = some other ∧ (heap.read other).ip = ip := by
      constructor
      · rintro ⟨k, other, remains, rfl⟩
        obtain ⟨different, present⟩ := (kept k other).mp remains
        refine ⟨?_, k, other, present, rfl⟩
        intro same
        exact different (consistent.ips k other l key present member same)
      · rintro ⟨different, k, other, present, rfl⟩
        refine ⟨k, other, (kept k other).mpr ⟨?_, present⟩, rfl⟩
        rintro rfl
        rw [present, Option.some.injEq] at member
        exact different (by rw [member])
    change ((iface.leasedOffsets.set ((iface.addrSpace.offset (heap.read l).ip).getD 0)
      false).isSet offset = true ↔ ∃ k other, (iface.leases.delete key).get k = some other ∧
        (heap.read other).ip = ip)
    have before := consistent.offsets ip offset valid zoneless found
    rw [others, BitSet.isSet_set, position, Option.getD_some]
    by_cases same : offset = gone
    · subst same
      have equal := consistent.proper.offset_injective valid zoneless place.valid
        place.zoneless found position
      simp [equal]
    · have different : ip ≠ (heap.read l).ip := by
        rintro rfl
        rw [position, Option.some.injEq] at found
        exact same found.symm
      simpa [same, different] using before
  · intro k other remains
    exact consistent.known k other ((kept k other).mp remains).2
  · intro k other remains
    exact consistent.leasable k other ((kept k other).mp remains).2

/-- Mapping a key that is free to a lease with an address that is free sets its bit. -/
theorem Consistent.insert (consistent : iface.Consistent heap) {key : MacKey} {l : Ref}
    (free : iface.leases.get key = none) (known : l < heap.size)
    (owner : (heap.read l).hwAddr = key.val) (place : iface.addrSpace.Leasable (heap.read l).ip)
    (unleased : ∀ k other, iface.leases.get k = some other →
      (heap.read other).ip ≠ (heap.read l).ip) :
    (({ iface with leases := iface.leases.set key l } : NetInterface).setOffset
      (heap.read l).ip true).Consistent heap := by
  have grown : ∀ k other, (iface.leases.set key l).get k = some other ↔
      k = key ∧ other = l ∨ iface.leases.get k = some other := by
    intro k other
    rw [FiniteMap.get_set]
    by_cases here : k = key
    · subst here
      simp [free, eq_comm]
    · simp [here]
  refine ⟨⟨?_, ?_, ?_⟩, consistent.proper, ?_, ?_⟩
  · intro k other member
    rcases (grown k other).mp member with ⟨rfl, rfl⟩ | old
    · exact owner
    · exact consistent.keys k other old
  · intro k other other' k' first second same
    rcases (grown k other).mp first with ⟨rfl, rfl⟩ | old
    · rcases (grown k' other').mp second with ⟨rfl, rfl⟩ | old'
      · rfl
      · exact absurd same.symm (unleased k' other' old')
    · rcases (grown k' other').mp second with ⟨rfl, rfl⟩ | old'
      · exact absurd same (unleased k other old)
      · exact consistent.ips k other other' k' old old' same
  · intro ip offset valid zoneless found
    change iface.addrSpace.offset ip = some offset at found
    obtain ⟨added, position⟩ := Option.isSome_iff_exists.mp
      (IPRange.offset_isSome.mpr place.inRange)
    have others : (∃ k other, (iface.leases.set key l).get k = some other ∧
        (heap.read other).ip = ip) ↔
        (heap.read l).ip = ip ∨
          ∃ k other, iface.leases.get k = some other ∧ (heap.read other).ip = ip := by
      constructor
      · rintro ⟨k, other, member, here⟩
        rcases (grown k other).mp member with ⟨rfl, rfl⟩ | old
        · exact .inl here
        · exact .inr ⟨k, other, old, here⟩
      · rintro (here | ⟨k, other, old, here⟩)
        · exact ⟨key, l, (grown key l).mpr (.inl ⟨rfl, rfl⟩), here⟩
        · exact ⟨k, other, (grown k other).mpr (.inr old), here⟩
    change ((iface.leasedOffsets.set ((iface.addrSpace.offset (heap.read l).ip).getD 0)
      true).isSet offset = true ↔ ∃ k other, (iface.leases.set key l).get k = some other ∧
        (heap.read other).ip = ip)
    have before := consistent.offsets ip offset valid zoneless found
    rw [others, BitSet.isSet_set, position, Option.getD_some]
    by_cases same : offset = added
    · subst same
      have equal := consistent.proper.offset_injective valid zoneless place.valid
        place.zoneless found position
      simp [equal]
    · have different : (heap.read l).ip ≠ ip := by
        rintro rfl
        rw [position, Option.some.injEq] at found
        exact same found.symm
      simpa [same, different] using before
  · intro k other member
    rcases (grown k other).mp member with ⟨rfl, rfl⟩ | old
    · exact known
    · exact consistent.known k other old
  · intro k other member
    rcases (grown k other).mp member with ⟨rfl, rfl⟩ | old
    · exact place
    · exact consistent.leasable k other old

/-- A lease may be replaced by one of the same address. -/
theorem Consistent.replace (consistent : iface.Consistent heap) {key : MacKey} {prev l : Ref}
    (member : iface.leases.get key = some prev) (known : l < heap.size)
    (owner : (heap.read l).hwAddr = key.val) (same : (heap.read prev).ip = (heap.read l).ip) :
    ({ iface with leases := iface.leases.set key l } : NetInterface).Consistent heap := by
  have changed : ∀ k other, (iface.leases.set key l).get k = some other →
      ∃ before, iface.leases.get k = some before ∧ (heap.read before).ip = (heap.read other).ip ∧
        other < heap.size ∧ (heap.read other).hwAddr = k.val := by
    intro k other found
    rcases FiniteMap.of_get_set found with ⟨rfl, rfl⟩ | ⟨_, old⟩
    · exact ⟨prev, member, same, known, owner⟩
    · exact ⟨other, old, rfl, consistent.known k other old, consistent.keys k other old⟩
  have kept : ∀ k before, iface.leases.get k = some before →
      ∃ other, (iface.leases.set key l).get k = some other ∧
        (heap.read other).ip = (heap.read before).ip := by
    intro k before found
    rw [FiniteMap.get_set]
    split
    · rename_i here
      subst here
      rw [member, Option.some.injEq] at found
      exact ⟨l, rfl, by rw [← found, same]⟩
    · exact ⟨before, found, rfl⟩
  refine ⟨⟨?_, ?_, ?_⟩, consistent.proper, ?_, ?_⟩
  · intro k other found
    obtain ⟨_, _, _, _, mac⟩ := changed k other found
    exact mac
  · intro k other other' k' first second equal
    obtain ⟨before, was, ip, _⟩ := changed k other first
    obtain ⟨before', was', ip', _⟩ := changed k' other' second
    exact consistent.ips k before before' k' was was' (ip.trans (equal.trans ip'.symm))
  · intro ip offset valid zoneless found
    rw [consistent.offsets ip offset valid zoneless found]
    constructor
    · rintro ⟨k, before, was, here⟩
      obtain ⟨other, present, equal⟩ := kept k before was
      exact ⟨k, other, present, equal.trans here⟩
    · rintro ⟨k, other, present, here⟩
      obtain ⟨before, was, equal, _⟩ := changed k other present
      exact ⟨k, before, was, equal.trans here⟩
  · intro k other found
    obtain ⟨_, _, _, bound, _⟩ := changed k other found
    exact bound
  · intro k other found
    obtain ⟨before, was, equal, _⟩ := changed k other found
    rw [← equal]
    exact consistent.leasable k before was

/-- `nextIP` finds an address that nobody leases. -/
theorem Consistent.nextIP (consistent : iface.Consistent heap) {ip : Addr}
    (found : iface.nextIP = some ip) (some : ip ≠ .zero) :
    iface.addrSpace.Leasable ip ∧ ∀ k other, iface.leases.get k = .some other → (heap.read other).ip ≠ ip := by
  rcases IPRange.findLoop_spec (fun ip => ip.zone = "") (fun _ => Addr.zone_next)
    consistent.proper.start_zone found with none | ⟨accepted, zoneless⟩
  · exact absurd none some
  · simp only [Option.map_eq_some_iff, Bool.not_eq_true'] at accepted
    obtain ⟨offset, position, unset⟩ := accepted
    have valid : ip.isValid = true := by
      cases ip with
      | zero => exact absurd rfl some
      | v4 value => rfl
      | v6 value zone => rfl
    refine ⟨⟨valid, zoneless, ?_⟩, ?_⟩
    · rw [← IPRange.offset_isSome, position]
      rfl
    · intro k other member here
      have set := (consistent.offsets ip offset valid zoneless position).mpr
        ⟨k, other, member, here⟩
      rw [unset] at set
      cases set

end NetInterface

namespace World

variable {env : Env} {w : World} {l : Ref} {iface changed : NetInterface} {lease : Lease}
  {key : MacKey}

theorem lease_setLease (w : World) (known : l < w.heap.size) (change : Lease → Lease)
    (other : Ref) :
    (w.setLease l change).lease other = if other = l then change (w.lease l) else w.lease other :=
  read_modify known change other

theorem size_setLease (w : World) (l : Ref) (change : Lease → Lease) :
    (w.setLease l change).heap.size = w.heap.size :=
  size_modify _ _ _

theorem removeLease_ok (done : iface.removeLease lease = .ok changed) :
    ∃ key l, key.val = lease.hwAddr ∧ iface.leases.get key = some l ∧
      changed = ({ iface with leases := iface.leases.delete key }).setOffset lease.ip false := by
  unfold NetInterface.removeLease at done
  cases named : macToKey lease.hwAddr with
  | none => simp [named] at done
  | some key =>
    cases member : iface.leases.get key with
    | none => simp [named, member] at done
    | some l =>
      simp only [named, member, Option.isNone_some, Bool.false_eq_true, if_false,
        Except.ok.injEq] at done
      exact ⟨key, l, macToKey_eq_some.mp named, member, done.symm⟩

theorem addLease_ok (done : iface.addLease l lease = .ok changed) :
    ∃ key, key.val = lease.hwAddr ∧ iface.leases.get key = none ∧
      changed = ({ iface with leases := iface.leases.set key l }).setOffset lease.ip true := by
  unfold NetInterface.addLease at done
  cases named : macToKey lease.hwAddr with
  | none => simp [named] at done
  | some key =>
    cases member : iface.leases.get key with
    | some other => simp [named, member] at done
    | none =>
      simp only [named, member, Option.isSome_none, Bool.false_eq_true, if_false,
        Except.ok.injEq] at done
      exact ⟨key, macToKey_eq_some.mp named, member, done.symm⟩

def added (env : Env) (w : World) (key : MacKey) (l : Ref) : World :=
  { w with
    iface := ({ w.iface with leases := w.iface.leases.set key l }).setOffset (w.lease l).ip true
    index.byAddr := w.index.byAddr.set (w.lease l).ip l
    index.byName := w.index.byName.set (env.toLower (w.lease l).hostname) l }

/-- An addition fails or maps a key, an address and a hostname that are free. -/
theorem add_ok {w' : World} (done : w.add env l = .ok w') :
    ∃ key : MacKey, key.val = (w.lease l).hwAddr ∧ w.iface.leases.get key = none ∧
      w.index.byAddr.get (w.lease l).ip = none ∧
      w.index.byName.get (env.toLower (w.lease l).hostname) = none ∧ w' = w.added env key l := by
  unfold add at done
  dsimp only at done
  split at done
  · cases done
  rename_i freeAddr
  split at done
  · cases done
  rename_i freeName
  split at done
  · cases done
  · rename_i iface mapped
    obtain ⟨key, owner, free, rfl⟩ := addLease_ok mapped
    refine ⟨key, owner, free, ?_, ?_, (Except.ok.inj done).symm⟩
    · simpa using freeAddr
    · simpa using freeName

theorem add_of_free (owner : key.val = (w.lease l).hwAddr) (free : w.iface.leases.get key = none)
    (freeAddr : w.index.byAddr.get (w.lease l).ip = none)
    (freeName : w.index.byName.get (env.toLower (w.lease l).hostname) = none) :
    w.add env l = .ok (w.added env key l) := by
  have named : macToKey (w.lease l).hwAddr = some key := macToKey_eq_some.mpr owner
  simp [add, NetInterface.addLease, freeAddr, freeName, named, free, added]

def removed (env : Env) (w : World) (key : MacKey) (lease : Lease) : World :=
  { w with
    iface := ({ w.iface with leases := w.iface.leases.delete key }).setOffset lease.ip false
    index.byAddr := w.index.byAddr.delete lease.ip
    index.byName := w.index.byName.delete (env.toLower lease.hostname) }

/-- A removal does nothing or takes out the key that the lease names. -/
theorem remove_cases (env : Env) (w : World) (lease : Lease) (stored : Bool) :
    (w.remove env lease stored).1 = w ∨
      ∃ key l, key.val = lease.hwAddr ∧ w.iface.leases.get key = some l ∧
        (w.index.byAddr.get lease.ip).isSome = true ∧
        (w.index.byName.get (env.toLower lease.hostname)).isSome = true ∧
        (w.remove env lease stored).1 = w.removed env key lease := by
  unfold remove
  dsimp only
  split
  · exact .inl rfl
  rename_i hasAddr
  split
  · exact .inl rfl
  rename_i hasName
  cases done : w.iface.removeLease lease with
  | error error => exact .inl rfl
  | ok iface =>
    obtain ⟨key, l, owner, member, rfl⟩ := removeLease_ok done
    refine .inr ⟨key, l, owner, member, ?_, ?_, rfl⟩
    · simpa [Option.isSome_iff_ne_none] using hasAddr
    · simpa [Option.isSome_iff_ne_none] using hasName

theorem remove_of_member {held : Ref} (owner : key.val = lease.hwAddr)
    (member : w.iface.leases.get key = some held)
    (hasAddr : (w.index.byAddr.get lease.ip).isSome = true)
    (hasName : (w.index.byName.get (env.toLower lease.hostname)).isSome = true) (stored : Bool) :
    w.remove env lease stored =
      (w.removed env key lease, if stored then .ok () else .error .store) := by
  have named : macToKey lease.hwAddr = some key := macToKey_eq_some.mpr owner
  simp [remove, NetInterface.removeLease, Option.isSome_iff_ne_none.mp hasAddr,
    Option.isSome_iff_ne_none.mp hasName, named, member, removed]

/-- A removal that does not name a lease by each of its three values is rejected. -/
theorem remove_rejected (env : Env) (w : World) (lease : Lease) (stored : Bool)
    (absent : ¬ ∃ key held, key.val = lease.hwAddr ∧ w.iface.leases.get key = some held ∧
      (w.index.byAddr.get lease.ip).isSome = true ∧
        (w.index.byName.get (env.toLower lease.hostname)).isSome = true) :
    (w.remove env lease stored).1 = w ∧ (w.remove env lease stored).2 ≠ .ok () := by
  unfold remove
  dsimp only
  split
  · exact ⟨rfl, by simp⟩
  rename_i hasAddr
  split
  · exact ⟨rfl, by simp⟩
  rename_i hasName
  cases done : w.iface.removeLease lease with
  | error error => exact ⟨rfl, by simp⟩
  | ok iface =>
    obtain ⟨key, held, owner, member, _⟩ := removeLease_ok done
    refine absurd ⟨key, held, owner, member, ?_, ?_⟩ absent
    · simpa [Option.isSome_iff_ne_none] using hasAddr
    · simpa [Option.isSome_iff_ne_none] using hasName

theorem remove_frame (env : Env) (w : World) (lease : Lease) (stored : Bool) :
    (w.remove env lease stored).1.heap = w.heap ∧
      (w.remove env lease stored).1.iface.addrSpace = w.iface.addrSpace := by
  rcases remove_cases env w lease stored with same | ⟨_, _, _, _, _, _, result⟩
  · rw [same]
    exact ⟨rfl, rfl⟩
  · rw [result]
    exact ⟨rfl, rfl⟩

/-- The world after the index has taken a lease of the interface. -/
def updated (env : Env) (w : World) (key : MacKey) (l prev : Ref) : World :=
  { w with
    iface := { w.iface with leases := w.iface.leases.set key l }
    index.byAddr := (w.index.byAddr.delete (w.lease prev).ip).set (w.lease l).ip l
    index.byName := (w.index.byName.delete (env.toLower (w.lease prev).hostname)).set
      (env.toLower (w.lease l).hostname) l }

/-- An update is rejected or replaces the lease of a key. -/
theorem update_cases (env : Env) (w : World) (l : Ref) (stored : Bool) :
    ((w.update env l stored).1 = w ∧ (w.update env l stored).2 ≠ .ok ()) ∨
      ∃ key prev, key.val = (w.lease l).hwAddr ∧ w.iface.leases.get key = some prev ∧
        w.isTaken (w.lease l).hwAddr (w.index.byAddr.get (w.lease l).ip) = false ∧
        w.isTaken (w.lease l).hwAddr
          (w.index.byName.get (env.toLower (w.lease l).hostname)) = false ∧
        (w.update env l stored).1 = w.updated env key l prev := by
  unfold update NetInterface.updateLease
  dsimp only
  split
  · exact .inl ⟨rfl, by simp⟩
  rename_i freeAddr
  split
  · exact .inl ⟨rfl, by simp⟩
  rename_i freeName
  cases named : macToKey (w.lease l).hwAddr with
  | none => exact .inl ⟨rfl, by simp⟩
  | some key =>
    cases member : w.iface.leases.get key with
    | none => exact .inl ⟨by simp [member], by simp [member]⟩
    | some prev =>
      refine .inr ⟨key, prev, macToKey_eq_some.mp named, member, ?_, ?_, by simp [member, updated]⟩
      · simpa using freeAddr
      · simpa using freeName

theorem update_of_member {l prev : Ref} (owner : key.val = (w.lease l).hwAddr)
    (member : w.iface.leases.get key = some prev)
    (freeAddr : w.isTaken (w.lease l).hwAddr (w.index.byAddr.get (w.lease l).ip) = false)
    (freeName : w.isTaken (w.lease l).hwAddr
      (w.index.byName.get (env.toLower (w.lease l).hostname)) = false) (stored : Bool) :
    w.update env l stored =
      (w.updated env key l prev, if stored then .ok () else .error .store) := by
  have named : macToKey (w.lease l).hwAddr = some key := macToKey_eq_some.mpr owner
  simp [update, NetInterface.updateLease, freeAddr, freeName, named, member, updated]

theorem member_update (env : Env) (member : w.iface.leases.get key = some l)
    (stored : Bool) : (w.update env l stored).1.iface.leases.get key = some l := by
  rcases update_cases env w l stored with ⟨same, _⟩ | ⟨set, _, _, _, _, _, result⟩
  · rwa [same]
  · rw [result]
    change (w.iface.leases.set set l).get key = some l
    rw [FiniteMap.get_set]
    split
    · rfl
    · exact member

theorem heap_update (env : Env) (w : World) (l : Ref) (stored : Bool) :
    (w.update env l stored).1.heap = w.heap := by
  rcases update_cases env w l stored with ⟨same, _⟩ | ⟨_, _, _, _, _, _, result⟩
  · rw [same]
  · rw [result]
    rfl

theorem leaseTTL_update (env : Env) (w : World) (l : Ref) (stored : Bool) :
    (w.update env l stored).1.iface.leaseTTL = w.iface.leaseTTL := by
  rcases update_cases env w l stored with ⟨same, _⟩ | ⟨_, _, _, _, _, _, result⟩
  · rw [same]
  · rw [result]
    rfl

end World

namespace World

variable {env : Env} {first w : World}

def Within (first w : World) (l : Ref) : Prop :=
  (∃ key, first.iface.leases.get key = some l) ∨ first.heap.size ≤ l ∧ l < w.heap.size

/-- Since `first`, only leases of the interface and new ones have changed. -/
structure Local (first w : World) : Prop where
  grown : first.heap.size ≤ w.heap.size
  untouched : ∀ l, l < first.heap.size → (∀ key, first.iface.leases.get key ≠ some l) →
    w.lease l = first.lease l
  within : ∀ key l, w.iface.leases.get key = some l → Within first w l
  addrSpace : w.iface.addrSpace = first.iface.addrSpace
  leaseTTL : w.iface.leaseTTL = first.iface.leaseTTL

theorem Local.refl (w : World) : Local w w where
  grown := Nat.le_refl _
  untouched := fun _ _ _ => rfl
  within := fun key _ member => .inl ⟨key, member⟩
  addrSpace := rfl
  leaseTTL := rfl

variable {l : Ref}

theorem Local.setLease (unchanged : Local first w) (own : Within first w l)
    (change : Lease → Lease) : Local first (w.setLease l change) where
  grown := by
    rw [size_setLease]
    exact unchanged.grown
  untouched := by
    intro other old foreign
    rw [← unchanged.untouched other old foreign]
    refine read_modify_ne ?_ _ _
    rintro rfl
    rcases own with ⟨key, member⟩ | ⟨new, _⟩
    · exact foreign key member
    · omega
  within := by
    intro key other member
    rw [Within, size_setLease]
    exact unchanged.within key other member
  addrSpace := unchanged.addrSpace
  leaseTTL := unchanged.leaseTTL

/-- The index and the offsets do not matter, and the map may only point to own leases. -/
theorem Local.congr (unchanged : Local first w) {other : World} (heap : other.heap = w.heap)
    (addrSpace : other.iface.addrSpace = w.iface.addrSpace)
    (leaseTTL : other.iface.leaseTTL = w.iface.leaseTTL)
    (within : ∀ key l, other.iface.leases.get key = some l → Within first w l) :
    Local first other where
  grown := by
    rw [heap]
    exact unchanged.grown
  untouched := by
    intro l old foreign
    unfold lease
    rw [heap]
    exact unchanged.untouched l old foreign
  within := by
    unfold Within
    rw [heap]
    exact within
  addrSpace := addrSpace.trans unchanged.addrSpace
  leaseTTL := leaseTTL.trans unchanged.leaseTTL

private theorem Local.within_delete (unchanged : Local first w) {gone key : MacKey}
    (member : (w.iface.leases.delete gone).get key = some l) : Within first w l :=
  unchanged.within key l (FiniteMap.of_get_delete member).2

private theorem Local.within_set (unchanged : Local first w) {new key : MacKey} {l other : Ref}
    (own : Within first w l) (member : (w.iface.leases.set new l).get key = some other) :
    Within first w other := by
  rcases FiniteMap.of_get_set member with ⟨_, rfl⟩ | ⟨_, before⟩
  · exact own
  · exact unchanged.within key other before

theorem Local.remove (unchanged : Local first w) (env : Env) (lease : Lease) (stored : Bool) :
    Local first (w.remove env lease stored).1 := by
  rcases remove_cases env w lease stored with same | ⟨gone, _, _, _, _, _, result⟩
  · rwa [same]
  · rw [result]
    exact unchanged.congr rfl rfl rfl fun _ _ => unchanged.within_delete

theorem Local.update (unchanged : Local first w) (env : Env) (own : Within first w l)
    (stored : Bool) : Local first (w.update env l stored).1 := by
  rcases update_cases env w l stored with ⟨same, _⟩ | ⟨key, prev, _, _, _, _, result⟩
  · rwa [same]
  · rw [result]
    exact unchanged.congr rfl rfl rfl fun _ _ => unchanged.within_set own

theorem Local.removeLease (unchanged : Local first w) {lease : Lease} {iface : NetInterface}
    (done : w.iface.removeLease lease = .ok iface) : Local first { w with iface } := by
  obtain ⟨gone, _, _, _, rfl⟩ := removeLease_ok done
  exact unchanged.congr rfl rfl rfl fun _ _ => unchanged.within_delete

theorem Local.blockLease (unchanged : Local first w) (own : Within first w l) (now : Time)
    (stored : Bool) : Local first (w.blockLease l now stored).1 := by
  unfold World.blockLease
  split
  · exact unchanged
  · rename_i iface done
    exact (unchanged.removeLease done).setLease own _

theorem Local.commit6 (unchanged : Local first w) (env : Env) (req : DHCPv6)
    (own : Within first w l) (stored : Bool) (now : Time) :
    Local first (w.commit6 env req l stored now).1 := by
  unfold World.commit6
  dsimp only
  have named := unchanged.setLease own fun lease => committed env req lease now w.iface.leaseTTL
  have ownNamed : Within first (w.setLease l fun lease =>
      committed env req lease now w.iface.leaseTTL) l := by
    rwa [Within, size_setLease]
  have updated := named.update env ownNamed stored
  split
  · rename_i w' done
    rwa [done] at updated
  · rename_i w' error failed
    rw [failed] at updated
    split
    · exact updated
    · rename_i iface removed
      exact updated.removeLease removed

theorem local_withFresh (w : World) (key : MacKey) (ip : Addr) (now : Time) :
    Local w (w.withFresh key ip now) where
  grown := Nat.le_trans (Nat.le_succ _) (Nat.le_of_eq (size_alloc _ _).symm)
  untouched := by
    intro l old _
    change (w.heap.alloc _).1.read l = w.heap.read l
    rw [read_alloc, if_neg (Nat.ne_of_lt old)]
  within := by
    intro k l member
    change (w.iface.leases.set key w.heap.size).get k = some l at member
    rcases FiniteMap.of_get_set member with ⟨_, rfl⟩ | ⟨_, before⟩
    · exact .inr ⟨Nat.le_refl _, Nat.lt_of_lt_of_eq (Nat.lt_succ_self _) (size_alloc _ _).symm⟩
    · exact .inl ⟨k, before⟩
  addrSpace := rfl
  leaseTTL := rfl

theorem Local.reassigned (w : World) (env : Env) (key : MacKey) {k : MacKey}
    (member : w.iface.leases.get k = some l) (now : Time) :
    Local w (w.reassigned env key l now) := by
  have own : ∀ other, Within w other l := fun _ => .inl ⟨k, member⟩
  have changed := ((Local.refl w).remove env (w.lease l) true).setLease (own _) fun lease =>
    recycled lease key now w.iface.leaseTTL
  exact changed.congr rfl rfl rfl fun _ _ => changed.within_set (own _)

theorem Local.added (unchanged : Local first w) (env : Env) (key : MacKey)
    (own : Within first w l) : Local first (w.added env key l) :=
  unchanged.congr rfl rfl rfl fun _ _ => unchanged.within_set own

theorem Allocation.local {key : MacKey} {now : Time} {order : WalkOrder MacKey} {w' : World}
    (allocation : Allocation env w key now order w' l) : Local w w' := by
  cases allocation with
  | fresh found valid => exact local_withFresh w key _ now
  | recycled full expired =>
    obtain ⟨k, member, _⟩ := findExpiredLease_some expired
    exact Local.reassigned w env key member now

theorem local_perform (env : Env) {key : MacKey} {op : Operation} (plans : w.Plans key op) (chance : Chance)
    (clock : Readings) : Local w (w.perform env chance clock op) := by
  have own : ∀ {l}, w.iface.leases.get key = some l → ∀ other, Within w other l :=
    fun member _ => .inl ⟨key, member⟩
  cases op with
  | nothing => exact Local.refl w
  | refresh l => exact (Local.refl w).setLease (own plans _) _
  | allocate k =>
    rcases allocate_cases env w k clock.now chance.order with ⟨_, failed⟩ | ⟨w', l, done, allocated⟩
    · simpa only [perform, failed] using Local.refl w
    · simpa only [perform, done] using allocated.local
  | allocateCommitted k req =>
    rcases allocate_cases env w k clock.now chance.order with ⟨_, failed⟩ | ⟨w', l, done, allocated⟩
    · simpa only [perform, failed] using Local.refl w
    · have unchanged := allocated.local
      simpa only [perform, done] using
        unchanged.commit6 env req (unchanged.within k l allocated.member) chance.stored clock.later
  | commit4 l hostname =>
    exact ((Local.refl w).setLease (own plans _) _).update env (own plans _) chance.stored
  | commit6 l req instant => exact (Local.refl w).commit6 env req (own plans _) _ _
  | block l => exact (Local.refl w).blockLease (own plans _) _ _
  | release l => exact (Local.refl w).remove env _ _

end World

end AdGuardHome.Dhcpsvc
