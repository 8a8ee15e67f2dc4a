import AdGuardHome.Dhcpsvc.IndexInvariant

namespace AdGuardHome.Dhcpsvc

open Netip Heap

theorem macKey_ne_nil (key : MacKey) : key.val ≠ [] := by
  intro empty
  rcases key.property with six | eight | twenty <;> simp_all

/-- The change of a lease leaves it its address and some hardware address. -/
def Mild (change : Lease → Lease) : Prop :=
  ∀ l : Lease, (change l).ip = l.ip ∧ (l.hwAddr ≠ [] → (change l).hwAddr ≠ [])

theorem mild_recycled (key : MacKey) (now : Time) (ttl : Duration) :
    Mild fun lease => World.recycled lease key now ttl := by
  intro l
  refine ⟨World.recycled_ip l key now ttl, fun _ => ?_⟩
  rw [World.recycled_hwAddr]
  exact macKey_ne_nil key

theorem mild_committed (env : Env) (req : DHCPv6) (now : Time) (ttl : Duration) :
    Mild fun lease => World.committed env req lease now ttl := by
  intro l
  simp

namespace World

variable {env : Env} {w : World}

/-- The index has leases under their addresses, and the interface those of its range. -/
structure Filed (w : World) : Prop where
  byAddr : ∀ ip l, w.index.byAddr.get ip = some l →
    l < w.heap.size ∧ (w.lease l).ip = ip ∧ (w.lease l).hwAddr ≠ []
  byName : ∀ name l, w.index.byName.get name = some l → l < w.heap.size
  held : ∀ key l, w.iface.leases.get key = some l →
    l < w.heap.size ∧ w.iface.addrSpace.contains (w.lease l).ip = true

variable {change : Lease → Lease} {key : MacKey} {l : Ref}

/-- Of a reference that is not handed out a write changes nothing. -/
theorem lease_setLease_mild (w : World) (l : Ref) (mild : Mild change) (other : Ref) :
    ((w.setLease l change).lease other).ip = (w.lease other).ip ∧
      ((w.lease other).hwAddr ≠ [] → ((w.setLease l change).lease other).hwAddr ≠ []) := by
  by_cases known : l < w.heap.size
  · rw [lease_setLease w known]
    split
    · rename_i same
      rw [same]
      exact mild (w.lease l)
    · exact ⟨rfl, id⟩
  · have unwritten : (w.setLease l change).lease other = w.lease other :=
      congrArg (fun heap => heap.read other) (write_unknown (Nat.le_of_not_lt known) _)
    rw [unwritten]
    exact ⟨rfl, id⟩

theorem Filed.setLease (filed : w.Filed) (l : Ref) (mild : Mild change) :
    (w.setLease l change).Filed where
  byAddr := by
    intro ip other found
    obtain ⟨known, here, owned⟩ := filed.byAddr ip other found
    obtain ⟨kept, still⟩ := lease_setLease_mild w l mild other
    rw [size_setLease, kept]
    exact ⟨known, here, still owned⟩
  byName := by
    intro name other found
    rw [size_setLease]
    exact filed.byName name other found
  held := by
    intro key other member
    obtain ⟨known, inside⟩ := filed.held key other member
    rw [size_setLease, (lease_setLease_mild w l mild other).1]
    exact ⟨known, inside⟩

/-- The tables may lose leases and get such that fit. -/
theorem Filed.congr (filed : w.Filed) {other : World} (heap : other.heap = w.heap)
    (space : other.iface.addrSpace = w.iface.addrSpace)
    (byAddr : ∀ ip l, other.index.byAddr.get ip = some l → w.index.byAddr.get ip = some l ∨
      l < w.heap.size ∧ (w.lease l).ip = ip ∧ (w.lease l).hwAddr ≠ [])
    (byName : ∀ name l, other.index.byName.get name = some l →
      w.index.byName.get name = some l ∨ l < w.heap.size)
    (held : ∀ key l, other.iface.leases.get key = some l →
      (∃ k, w.iface.leases.get k = some l) ∨
        l < w.heap.size ∧ w.iface.addrSpace.contains (w.lease l).ip = true) : other.Filed where
  byAddr := by
    intro ip l found
    unfold lease
    rw [heap]
    rcases byAddr ip l found with before | fits
    · exact filed.byAddr ip l before
    · exact fits
  byName := by
    intro name l found
    rw [heap]
    rcases byName name l found with before | known
    · exact filed.byName name l before
    · exact known
  held := by
    intro key l member
    unfold lease
    rw [heap, space]
    rcases held key l member with ⟨k, before⟩ | fits
    · exact filed.held k l before
    · exact fits

theorem Filed.removeLease (filed : w.Filed) {lease : Lease} {iface : NetInterface}
    (done : w.iface.removeLease lease = .ok iface) : ({ w with iface } : World).Filed := by
  obtain ⟨gone, _, _, _, rfl⟩ := removeLease_ok done
  exact filed.congr rfl rfl (fun _ _ found => .inl found) (fun _ _ found => .inl found)
    fun key _ member => .inl ⟨key, (FiniteMap.of_get_delete member).2⟩

theorem Filed.remove (filed : w.Filed) (env : Env) (lease : Lease) (stored : Bool) :
    (w.remove env lease stored).1.Filed := by
  rcases remove_cases env w lease stored with same | ⟨gone, _, _, _, _, _, result⟩
  · rwa [same]
  · rw [result]
    exact filed.congr rfl rfl (fun _ _ found => .inl (FiniteMap.of_get_delete found).2)
      (fun _ _ found => .inl (FiniteMap.of_get_delete found).2) fun key _ member =>
        .inl ⟨key, (FiniteMap.of_get_delete member).2⟩

structure Fitting (w : World) (l : Ref) : Prop where
  known : l < w.heap.size
  inside : w.iface.addrSpace.contains (w.lease l).ip = true

theorem Filed.fits (filed : w.Filed) (member : w.iface.leases.get key = some l) : w.Fitting l :=
  ⟨(filed.held key l member).1, (filed.held key l member).2⟩

theorem Fitting.setLease (fits : w.Fitting l) (other : Ref)
    (mild : Mild change) : (w.setLease other change).Fitting l := by
  refine ⟨Nat.lt_of_lt_of_eq fits.known (size_setLease _ _ _).symm, ?_⟩
  rw [(lease_setLease_mild w other mild l).1]
  exact fits.inside

theorem Fitting.remove (fits : w.Fitting l) (env : Env) (lease : Lease) (stored : Bool) :
    (w.remove env lease stored).1.Fitting l := by
  rcases remove_cases env w lease stored with same | ⟨gone, _, _, _, _, _, result⟩
  · rwa [same]
  · rw [result]
    exact ⟨fits.known, fits.inside⟩

private theorem hwAddr_ne_nil (owner : key.val = (w.lease l).hwAddr) :
    (w.lease l).hwAddr ≠ [] := by
  rw [← owner]
  exact macKey_ne_nil key

theorem Filed.update (filed : w.Filed) (env : Env) (fits : w.Fitting l) (stored : Bool) :
    (w.update env l stored).1.Filed := by
  rcases update_cases env w l stored with ⟨same, _⟩ | ⟨set, prev, owner, _, _, _, result⟩
  · rwa [same]
  · rw [result]
    refine filed.congr rfl rfl ?_ ?_ ?_
    · intro ip other found
      rcases FiniteMap.of_get_set found with ⟨rfl, rfl⟩ | ⟨_, before⟩
      · exact .inr ⟨fits.known, rfl, hwAddr_ne_nil owner⟩
      · exact .inl ((FiniteMap.of_get_delete before).2)
    · intro name other found
      rcases FiniteMap.of_get_set found with ⟨_, rfl⟩ | ⟨_, before⟩
      · exact .inr fits.known
      · exact .inl ((FiniteMap.of_get_delete before).2)
    · intro key other member
      rcases FiniteMap.of_get_set member with ⟨_, rfl⟩ | ⟨_, before⟩
      · exact .inr ⟨fits.known, fits.inside⟩
      · exact .inl ⟨key, before⟩

theorem Filed.added (filed : w.Filed) (env : Env) (fits : w.Fitting l)
    (owner : key.val = (w.lease l).hwAddr) : (w.added env key l).Filed := by
  refine filed.congr rfl rfl ?_ ?_ ?_
  · intro ip other found
    rcases FiniteMap.of_get_set found with ⟨rfl, rfl⟩ | ⟨_, before⟩
    · exact .inr ⟨fits.known, rfl, hwAddr_ne_nil owner⟩
    · exact .inl before
  · intro name other found
    rcases FiniteMap.of_get_set found with ⟨_, rfl⟩ | ⟨_, before⟩
    · exact .inr fits.known
    · exact .inl before
  · intro k other member
    rcases FiniteMap.of_get_set member with ⟨_, rfl⟩ | ⟨_, before⟩
    · exact .inr ⟨fits.known, fits.inside⟩
    · exact .inl ⟨k, before⟩

theorem Filed.blockLease (filed : w.Filed) (l : Ref) (now : Time) (stored : Bool) :
    (w.blockLease l now stored).1.Filed := by
  unfold World.blockLease
  split
  · exact filed
  · rename_i iface done
    exact (filed.removeLease done).setLease l fun lease => ⟨rfl, fun _ => List.cons_ne_nil _ _⟩

theorem Filed.commit6 (filed : w.Filed) (env : Env) (req : DHCPv6) (fits : w.Fitting l)
    (stored : Bool) (now : Time) : (w.commit6 env req l stored now).1.Filed := by
  unfold World.commit6
  dsimp only
  have mild := mild_committed env req now w.iface.leaseTTL
  have updated := (filed.setLease l mild).update env (fits.setLease l mild) stored
  split
  · rename_i w' done
    rwa [done] at updated
  · rename_i w' error failed
    rw [failed] at updated
    split
    · exact updated
    · rename_i iface removed
      exact updated.removeLease removed

theorem Filed.alloc (filed : w.Filed) (object : Lease) :
    ({ w with heap := (w.heap.alloc object).1 } : World).Filed := by
  have grown : ∀ {l}, l < w.heap.size → l < (w.heap.alloc object).1.size ∧
      (w.heap.alloc object).1.read l = w.heap.read l := by
    intro l known
    rw [size_alloc, read_alloc, if_neg (Nat.ne_of_lt known)]
    exact ⟨Nat.lt_succ_of_lt known, rfl⟩
  refine ⟨?_, ?_, ?_⟩
  · intro ip l found
    obtain ⟨known, fits⟩ := filed.byAddr ip l found
    refine ⟨(grown known).1, ?_⟩
    rw [lease, (grown known).2]
    exact fits
  · exact fun name l found => (grown (filed.byName name l found)).1
  · intro key l member
    obtain ⟨known, inside⟩ := filed.held key l member
    refine ⟨(grown known).1, ?_⟩
    rw [lease, (grown known).2]
    exact inside

theorem nextIP_free {iface : NetInterface} {ip : Addr} (found : iface.nextIP = some ip)
    (valid : ip ≠ .zero) :
    ∃ offset, iface.addrSpace.offset ip = some offset ∧
      iface.leasedOffsets.isSet offset = false := by
  rcases IPRange.findLoop_spec (fun _ => True) (fun _ _ => trivial) trivial found with
    none | ⟨accepted, _⟩
  · exact absurd none valid
  · simpa only [Option.map_eq_some_iff, Bool.not_eq_true'] using accepted

theorem Filed.allocation (filed : w.Filed) {now : Time} {order : WalkOrder MacKey} {w' : World}
    (allocation : Allocation env w key now order w' l) : w'.Filed ∧ w'.Fitting l := by
  cases allocation with
  | @fresh ip found valid =>
    obtain ⟨offset, position, _⟩ := nextIP_free found valid
    have inside : w.iface.addrSpace.contains ip = true := by
      rw [← IPRange.offset_isSome, position]
      rfl
    have new : (w.heap.alloc ⟨ip, now + w.iface.leaseTTL, "", key.val, false⟩).1.read w.heap.size =
        ⟨ip, now + w.iface.leaseTTL, "", key.val, false⟩ := by
      rw [read_alloc, if_pos rfl]
    have fits : (w.withFresh key ip now).Fitting w.heap.size := by
      refine ⟨Nat.lt_of_lt_of_eq (Nat.lt_succ_self _) (size_alloc _ _).symm, ?_⟩
      change w.iface.addrSpace.contains
        (Lease.ip ((w.heap.alloc ⟨ip, now + w.iface.leaseTTL, "", key.val, false⟩).1.read _)) = true
      rwa [new]
    refine ⟨?_, fits⟩
    refine (filed.alloc ⟨ip, now + w.iface.leaseTTL, "", key.val, false⟩).congr rfl rfl
      (fun _ _ found => .inl found) (fun _ _ found => .inl found) ?_
    intro k other member
    rcases FiniteMap.of_get_set member with ⟨_, rfl⟩ | ⟨_, before⟩
    · exact .inr ⟨fits.known, fits.inside⟩
    · exact .inl ⟨k, before⟩
  | recycled full expired =>
    obtain ⟨k, member, _⟩ := findExpiredLease_some expired
    have mild := mild_recycled key now w.iface.leaseTTL
    have fits := ((filed.fits member).remove env (w.lease l) true).setLease l mild
    refine ⟨?_, fits.known, fits.inside⟩
    refine ((filed.remove env (w.lease l) true).setLease l mild).congr rfl rfl
      (fun _ _ found => .inl found) (fun _ _ found => .inl found) ?_
    intro k other member
    rcases FiniteMap.of_get_set member with ⟨_, rfl⟩ | ⟨_, before⟩
    · exact .inr ⟨fits.known, fits.inside⟩
    · exact .inl ⟨k, before⟩

theorem Filed.perform (filed : w.Filed) {op : Operation} (plans : w.Plans key op) (chance : Chance)
    (clock : Readings) : (w.perform env chance clock op).Filed := by
  cases op with
  | nothing => exact filed
  | refresh l => exact filed.setLease l fun lease => by simp
  | allocate k =>
    rcases allocate_cases env w k clock.now chance.order with ⟨_, failed⟩ | ⟨w', l, done, allocated⟩
    · simpa only [World.perform, failed] using filed
    · simpa only [World.perform, done] using (filed.allocation allocated).1
  | allocateCommitted k req =>
    rcases allocate_cases env w k clock.now chance.order with ⟨_, failed⟩ | ⟨w', l, done, allocated⟩
    · simpa only [World.perform, failed] using filed
    · obtain ⟨filed', fits⟩ := filed.allocation allocated
      simpa only [World.perform, done] using filed'.commit6 env req fits chance.stored clock.later
  | commit4 l hostname =>
    have mild : Mild fun lease => { lease with hostname } := fun lease => ⟨rfl, id⟩
    exact (filed.setLease l mild).update env ((filed.fits plans).setLease l mild) chance.stored
  | commit6 l req instant => exact filed.commit6 env req (filed.fits plans) _ _
  | block l => exact filed.blockLease l _ _
  | release l => exact filed.remove env _ _

end World

namespace DHCPServer

variable {env : Env} {s : DHCPServer}

def Filed (s : DHCPServer) : Prop := ∀ id iface, s.common id = some iface → (s.world iface).Filed

theorem Filed.setWorld (filed : s.Filed) (owned : s.Owned) {id : IfaceID} {iface : NetInterface}
    (here : s.common id = some iface) {w : World} (unchanged : World.Local (s.world iface) w)
    (fits : w.Filed) : (s.setWorld id w).Filed := by
  intro other iface' found
  rw [common_setWorld here] at found
  split at found
  · obtain rfl := Option.some.inj found
    exact fits
  · rename_i different
    refine ⟨fits.byAddr, fits.byName, ?_⟩
    intro key l member
    obtain ⟨known, inside⟩ := (filed other iface' found).held key l member
    refine ⟨Nat.lt_of_lt_of_le known unchanged.grown, ?_⟩
    have same := owned.lease_setWorld here unchanged found different member
    change iface'.addrSpace.contains ((s.setWorld id w).heap.read l).ip = true
    rw [same]
    exact inside

theorem Filed.worldWith (filed : s.Filed) {l : Lease} {id : IfaceID} {iface : NetInterface}
    (found : s.ifaceAt l.ip = some (id, iface)) :
    (s.worldWith iface l).Filed ∧ (s.worldWith iface l).Fitting s.heap.size := by
  refine ⟨(filed id iface (common_of_ifaceAt found)).alloc l, size_worldWith s iface l, ?_⟩
  rw [lease_worldWith]
  exact contains_of_ifaceAt found

theorem Filed.addLease (filed : s.Filed) (owned : s.Owned) (l : Lease) (stored : Bool) :
    (s.addLease env l stored).1.Filed := by
  rcases addLease_cases env s l stored with
    same | ⟨id, iface, key, here, found, owner, _, _, _, result⟩
  · rwa [same]
  · obtain ⟨unchanged, own⟩ := local_worldWith s iface l
    obtain ⟨filed', fits⟩ := filed.worldWith found
    rw [result]
    refine filed.setWorld owned here (unchanged.added env key own) (filed'.added env fits ?_)
    rw [lease_worldWith]
    exact owner

theorem Filed.updateStaticLease (filed : s.Filed) (owned : s.Owned) (l : Lease) (stored : Bool) :
    (s.updateStaticLease env l stored).1.Filed := by
  unfold DHCPServer.updateStaticLease
  cases found : s.ifaceAt l.ip with
  | none => exact filed
  | some at_ =>
    obtain ⟨id, iface⟩ := at_
    obtain ⟨unchanged, own⟩ := local_worldWith s iface l
    obtain ⟨filed', fits⟩ := filed.worldWith found
    exact filed.setWorld owned (common_of_ifaceAt found) (unchanged.update env own stored)
      (filed'.update env fits stored)

theorem Filed.removeLease (filed : s.Filed) (owned : s.Owned) (l : Lease) (stored : Bool) :
    (s.removeLease env l stored).1.Filed := by
  unfold DHCPServer.removeLease
  cases found : s.ifaceAt l.ip with
  | none => exact filed
  | some at_ =>
    have here := common_of_ifaceAt found
    exact filed.setWorld owned here ((World.Local.refl _).remove env l stored)
      ((filed _ _ here).remove env l stored)

theorem Filed.reset (s : DHCPServer) (stored : Bool) : (s.reset stored).1.Filed := by
  intro id iface found
  rw [common_reset, Option.map_eq_some_iff] at found
  obtain ⟨before, _, rfl⟩ := found
  refine ⟨?_, ?_, ?_⟩
  · intro ip l found
    simp [world, DHCPServer.reset] at found
  · intro name l found
    simp [world, DHCPServer.reset] at found
  · intro key l member
    simp [world, NetInterface.reset] at member

theorem filed_empty (conf : Config) : (empty conf).Filed := by
  intro id iface found
  refine ⟨?_, ?_, ?_⟩
  · intro ip l found
    simp [world, empty] at found
  · intro name l found
    simp [world, empty] at found
  · intro key l member
    simp [world, (leases_empty found).1] at member

end DHCPServer

namespace System

variable {env : Env}

theorem filed_next {s : System} (filed : s.server.Filed) (owned : s.server.Owned) (event : Event) :
    ((machine env).next s event).server.Filed := by
  cases event with
  | message4 i req chance delay =>
    change (s.server.serve4 env i req chance (s.readings delay)).1.Filed
    cases found : s.server.interfaces4[i]? with
    | none => simpa [DHCPServer.serve4, found] using filed
    | some iface =>
      have here := DHCPServer.common_of_interfaces4 found
      rw [DHCPServer.serve4_server found]
      refine filed.setWorld owned here (DHCPServer.local_plan4 env _ _ _ _ _) ?_
      rcases World.plan4_plans iface.conf (s.server.world iface.common) req with
        idle | ⟨key, _, plans⟩
      · rw [idle]
        exact filed _ _ here
      · exact (filed _ _ here).perform plans chance _
  | message6 i srcMAC req chance delay =>
    change (s.server.serve6 env i srcMAC req chance (s.readings delay)).1.Filed
    cases found : s.server.interfaces6[i]? with
    | none => simpa [DHCPServer.serve6, found] using filed
    | some iface =>
      have here := DHCPServer.common_of_interfaces6 found
      have plans := World.plan6_plans env iface.conf (s.server.world iface.common) srcMAC req
      rw [DHCPServer.serve6_server found]
      exact filed.setWorld owned here (World.local_perform env plans chance _)
        ((filed _ _ here).perform plans chance _)
  | addLease l stored => exact filed.addLease owned l stored
  | updateStaticLease l stored => exact filed.updateStaticLease owned l stored
  | removeLease l stored => exact filed.removeLease owned l stored
  | reset stored => exact DHCPServer.Filed.reset s.server stored

theorem filed_reachable {conf : Config} {stored : List Lease} {clock : Time} {s : System}
    (reached : (machine env).Reachable (start env conf stored clock) s) :
    s.server.Owned ∧ s.server.Filed := by
  refine (machine env).reachable_invariant (fun s => s.server.Owned ∧ s.server.Filed) ?_ ?_ reached
  · exact fun s event both => ⟨owned_next both.1 event, filed_next both.2 both.1 event⟩
  · refine DHCPServer.new_invariant env conf (fun s => s.Owned ∧ s.Filed) ?_ ?_
    · exact ⟨DHCPServer.owned_empty conf, DHCPServer.filed_empty conf⟩
    · rintro s l _ ⟨owned, filed⟩
      exact ⟨(DHCPServer.change_addLease env s l true).owned owned, filed.addLease owned l true⟩

end System

end AdGuardHome.Dhcpsvc
