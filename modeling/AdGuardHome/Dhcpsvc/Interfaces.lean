import AdGuardHome.Dhcpsvc.Frame

namespace AdGuardHome.Dhcpsvc

open Netip Heap

namespace DHCPServer

variable {env : Env} {s : DHCPServer} {id : IfaceID} {iface : NetInterface}

theorem common_setWorld (here : s.common id = some iface) (w : World) (other : IfaceID) :
    (s.setWorld id w).common other = if other = id then some w.iface else s.common other := by
  cases id with
  | v4 i =>
    cases other with
    | v4 j =>
      by_cases same : j = i
      · subst same
        simp only [common, Option.map_eq_some_iff] at here
        obtain ⟨found, member, _⟩ := here
        simp [common, setWorld, setCommon, member]
      · simp [common, setWorld, setCommon, same, Ne.symm same]
    | v6 j => simp [common, setWorld, setCommon]
  | v6 i =>
    cases other with
    | v4 j => simp [common, setWorld, setCommon]
    | v6 j =>
      by_cases same : j = i
      · subst same
        simp only [common, Option.map_eq_some_iff] at here
        obtain ⟨found, member, _⟩ := here
        simp [common, setWorld, setCommon, member]
      · simp [common, setWorld, setCommon, same, Ne.symm same]

/-- The interfaces hold stored leases, and each lease is held by one interface. -/
structure Owned (s : DHCPServer) : Prop where
  known : ∀ id iface key l, s.common id = some iface → iface.leases.get key = some l →
    l < s.heap.size
  apart : ∀ id iface key id' iface' key' l, s.common id = some iface →
    iface.leases.get key = some l → s.common id' = some iface' →
      iface'.leases.get key' = some l → id = id'

/-- After a method of one interface, its leases are old ones or new ones. -/
private theorem within_known (owned : s.Owned) (here : s.common id = some iface) {w : World}
    (unchanged : World.Local (s.world iface) w) {l : Ref}
    (own : World.Within (s.world iface) w l) : l < w.heap.size := by
  rcases own with ⟨key, member⟩ | ⟨_, bound⟩
  · exact Nat.lt_of_lt_of_le (owned.known id iface key l here member) unchanged.grown
  · exact bound

private theorem within_foreign (owned : s.Owned) (here : s.common id = some iface) {w : World}
    {l : Ref} (own : World.Within (s.world iface) w l) {other : IfaceID} {iface' : NetInterface}
    (there : s.common other = some iface') {key : MacKey}
    (member : iface'.leases.get key = some l) : other = id := by
  rcases own with ⟨k, held⟩ | ⟨new, _⟩
  · exact owned.apart other iface' key id iface k l there member here held
  · have old : l < s.heap.size := owned.known other iface' key l there member
    exact absurd old (Nat.not_lt.mpr new)

theorem Owned.setWorld (owned : s.Owned) (here : s.common id = some iface) {w : World}
    (unchanged : World.Local (s.world iface) w) :
    (s.setWorld id w).Owned := by
  refine ⟨?_, ?_⟩
  · intro other iface' key l found member
    rw [common_setWorld here] at found
    split at found
    · obtain rfl := Option.some.inj found
      exact within_known owned here unchanged (unchanged.within key l member)
    · exact Nat.lt_of_lt_of_le (owned.known other iface' key l found member) unchanged.grown
  · intro a ifaceA keyA b ifaceB keyB l foundA memberA foundB memberB
    rw [common_setWorld here] at foundA foundB
    split at foundA
    · rename_i sameA
      obtain rfl := Option.some.inj foundA
      split at foundB
      · rename_i sameB
        exact sameA.trans sameB.symm
      · rw [sameA]
        exact (within_foreign owned here (unchanged.within keyA l memberA) foundB memberB).symm
    · split at foundB
      · rename_i sameB
        obtain rfl := Option.some.inj foundB
        rw [sameB]
        exact within_foreign owned here (unchanged.within keyB l memberB) foundA memberA
      · exact owned.apart a ifaceA keyA b ifaceB keyB l foundA memberA foundB memberB

/-- The leases of the other interfaces stay as they are. -/
theorem Owned.lease_setWorld (owned : s.Owned) (here : s.common id = some iface) {w : World}
    (unchanged : World.Local (s.world iface) w) {other : IfaceID} {iface' : NetInterface}
    (there : s.common other = some iface') (different : other ≠ id) {key : MacKey} {l : Ref}
    (member : iface'.leases.get key = some l) :
    (s.setWorld id w).heap.read l = s.heap.read l := by
  refine unchanged.untouched l (owned.known other iface' key l there member) ?_
  intro k held
  exact different (owned.apart other iface' key id iface k l there member here held)

theorem common_reset (s : DHCPServer) (stored : Bool) (id : IfaceID) :
    (s.reset stored).1.common id = (s.common id).map NetInterface.reset := by
  cases id <;> simp [reset, common, Function.comp_def]

theorem Owned.reset (s : DHCPServer) (stored : Bool) : (s.reset stored).1.Owned := by
  have none_held : ∀ id iface key l, (s.reset stored).1.common id = some iface →
      iface.leases.get key ≠ some l := by
    intro id iface key l found
    rw [common_reset, Option.map_eq_some_iff] at found
    obtain ⟨before, _, rfl⟩ := found
    simp [NetInterface.reset]
  refine ⟨?_, ?_⟩
  · intro id iface key l found member
    exact absurd member (none_held id iface key l found)
  · intro a ifaceA keyA b ifaceB keyB l foundA memberA _ _
    exact absurd memberA (none_held a ifaceA keyA l foundA)

theorem common_of_interfaces4 {i : Nat} {iface : Interface4}
    (found : s.interfaces4[i]? = some iface) : s.common (.v4 i) = some iface.common := by
  simp [common, found]

theorem common_of_interfaces6 {i : Nat} {iface : Interface6}
    (found : s.interfaces6[i]? = some iface) : s.common (.v6 i) = some iface.common := by
  simp [common, found]

theorem serve4_server {i : Nat} {iface : Interface4} (found : s.interfaces4[i]? = some iface)
    (req : DHCPv4) (chance : Chance) (clock : Readings) :
    (s.serve4 env i req chance clock).1 = s.setWorld (.v4 i)
      ((s.world iface.common).perform env chance clock
        ((s.world iface.common).plan4 iface.conf req)) := by
  unfold serve4
  rw [found, ← World.serveV4_world]

theorem serve6_server {i : Nat} {iface : Interface6} (found : s.interfaces6[i]? = some iface)
    (srcMAC : MacKey) (req : DHCPv6) (chance : Chance) (clock : Readings) :
    (s.serve6 env i srcMAC req chance clock).1 = s.setWorld (.v6 i)
      ((s.world iface.common).perform env chance clock
        ((s.world iface.common).plan6 env iface.conf srcMAC req)) := by
  unfold serve6
  rw [found, ← World.handleDHCPv6_world]

/-- What a call or a message makes of a server: nothing, or what a method of one interface
makes of its leases. -/
inductive Change (s : DHCPServer) : DHCPServer → Prop
  | same : Change s s
  | onOne {id : IfaceID} {iface : NetInterface} {w : World} (here : s.common id = some iface)
    (unchanged : World.Local (s.world iface) w) : Change s (s.setWorld id w)

theorem Change.owned {s' : DHCPServer} (change : Change s s') (owned : s.Owned) : s'.Owned := by
  cases change with
  | same => exact owned
  | onOne here unchanged => exact owned.setWorld here unchanged

/-- The interfaces keep their address spaces and lease times. -/
theorem Change.common {s' : DHCPServer} (change : Change s s') (found : s'.common id = some iface) :
    ∃ old, s.common id = some old ∧ old.addrSpace = iface.addrSpace ∧
      old.leaseTTL = iface.leaseTTL := by
  cases change with
  | same => exact ⟨iface, found, rfl, rfl⟩
  | onOne here unchanged =>
    rw [common_setWorld here] at found
    split at found
    · rename_i same
      subst same
      obtain rfl := Option.some.inj found
      exact ⟨_, here, unchanged.addrSpace.symm, unchanged.leaseTTL.symm⟩
    · exact ⟨iface, found, rfl, rfl⟩

theorem local_plan4 (env : Env) (conf : DHCPInterfaceV4) (w : World) (req : DHCPv4) (chance : Chance)
    (clock : Readings) : World.Local w (w.perform env chance clock (w.plan4 conf req)) := by
  rcases World.plan4_plans conf w req with idle | ⟨key, _, plans⟩
  · rw [idle]
    exact World.Local.refl w
  · exact World.local_perform env plans chance clock

theorem change_serve4 (env : Env) (s : DHCPServer) (i : Nat) (req : DHCPv4) (chance : Chance)
    (clock : Readings) : Change s (s.serve4 env i req chance clock).1 := by
  cases found : s.interfaces4[i]? with
  | none => simpa [serve4, found] using Change.same
  | some iface =>
    rw [serve4_server found]
    exact .onOne (common_of_interfaces4 found) (local_plan4 env _ _ _ _ _)

theorem change_serve6 (env : Env) (s : DHCPServer) (i : Nat) (srcMAC : MacKey) (req : DHCPv6)
    (chance : Chance) (clock : Readings) :
    Change s (s.serve6 env i srcMAC req chance clock).1 := by
  cases found : s.interfaces6[i]? with
  | none => simpa [serve6, found] using Change.same
  | some iface =>
    rw [serve6_server found]
    exact .onOne (common_of_interfaces6 found)
      (World.local_perform env (World.plan6_plans _ _ _ _ _) chance clock)

theorem common_of_ifaceAt {addr : Addr}
    (found : s.ifaceAt addr = some (id, iface)) : s.common id = some iface := by
  obtain ⟨chosen, _, here⟩ := Option.bind_eq_some_iff.mp found
  obtain ⟨common, present, equal⟩ := Option.map_eq_some_iff.mp here
  obtain ⟨rfl, rfl⟩ := Prod.mk.inj equal
  exact present

theorem local_worldWith (s : DHCPServer) (iface : NetInterface) (l : Lease) :
    World.Local (s.world iface) (s.worldWith iface l) ∧
      World.Within (s.world iface) (s.worldWith iface l) s.heap.size := by
  refine ⟨⟨?_, ?_, fun key _ member => .inl ⟨key, member⟩, rfl, rfl⟩, .inr ⟨Nat.le_refl _, ?_⟩⟩
  · exact Nat.le_trans (Nat.le_succ _) (Nat.le_of_eq (size_alloc _ _).symm)
  · intro other old _
    have old : other < s.heap.size := old
    change (s.heap.alloc l).1.read other = s.heap.read other
    rw [read_alloc, if_neg (Nat.ne_of_lt old)]
  · exact Nat.lt_of_lt_of_eq (Nat.lt_succ_self _) (size_alloc _ _).symm

theorem lease_worldWith (s : DHCPServer) (iface : NetInterface) (l : Lease) :
    (s.worldWith iface l).lease s.heap.size = l := by
  change (s.heap.alloc l).1.read s.heap.size = l
  rw [read_alloc, if_pos rfl]

/-- What `AddLease` does. -/
theorem addLease_cases (env : Env) (s : DHCPServer) (l : Lease) (stored : Bool) :
    (s.addLease env l stored).1 = s ∨
      ∃ id iface key, s.common id = some iface ∧ s.ifaceAt l.ip = some (id, iface) ∧
        key.val = l.hwAddr ∧ iface.leases.get key = none ∧
        s.leases.byAddr.get l.ip = none ∧ s.leases.byName.get (env.toLower l.hostname) = none ∧
        (s.addLease env l stored).1 =
          s.setWorld id ((s.worldWith iface l).added env key s.heap.size) := by
  unfold addLease
  cases found : s.ifaceAt l.ip with
  | none => exact .inl rfl
  | some at_ =>
    obtain ⟨id, iface⟩ := at_
    dsimp only
    cases done : (s.worldWith iface l).add env s.heap.size with
    | error error => exact .inl rfl
    | ok w =>
      obtain ⟨key, owner, free, freeAddr, freeName, rfl⟩ := World.add_ok done
      rw [lease_worldWith] at owner freeAddr freeName
      exact .inr ⟨id, iface, key, common_of_ifaceAt found, rfl, owner, free, freeAddr, freeName,
        rfl⟩

theorem change_addLease (env : Env) (s : DHCPServer) (l : Lease) (stored : Bool) :
    Change s (s.addLease env l stored).1 := by
  rcases addLease_cases env s l stored with same | ⟨id, iface, key, here, _, _, _, _, _, result⟩
  · rw [same]
    exact .same
  · obtain ⟨unchanged, own⟩ := local_worldWith s iface l
    rw [result]
    exact .onOne here (unchanged.added env key own)

theorem change_updateStaticLease (env : Env) (s : DHCPServer) (l : Lease) (stored : Bool) :
    Change s (s.updateStaticLease env l stored).1 := by
  unfold updateStaticLease
  cases found : s.ifaceAt l.ip with
  | none => exact .same
  | some at_ =>
    obtain ⟨unchanged, own⟩ := local_worldWith s at_.2 l
    exact .onOne (common_of_ifaceAt found) (unchanged.update env own stored)

theorem change_removeLease (env : Env) (s : DHCPServer) (l : Lease) (stored : Bool) :
    Change s (s.removeLease env l stored).1 := by
  unfold removeLease
  cases found : s.ifaceAt l.ip with
  | none => exact .same
  | some at_ =>
    exact .onOne (common_of_ifaceAt found) ((World.Local.refl _).remove env l stored)

end DHCPServer

namespace System

variable {env : Env}

theorem next_cases (s : System) (event : Event) :
    (∃ stored, event = .reset stored) ∨
      DHCPServer.Change s.server ((machine env).next s event).server := by
  cases event with
  | message4 i req chance delay => exact .inr (DHCPServer.change_serve4 env _ i req chance _)
  | message6 i srcMAC req chance delay =>
    exact .inr (DHCPServer.change_serve6 env _ i srcMAC req chance _)
  | addLease l stored => exact .inr (DHCPServer.change_addLease env _ l stored)
  | updateStaticLease l stored => exact .inr (DHCPServer.change_updateStaticLease env _ l stored)
  | removeLease l stored => exact .inr (DHCPServer.change_removeLease env _ l stored)
  | reset stored => exact .inl ⟨stored, rfl⟩

theorem owned_next {s : System} (owned : s.server.Owned) (event : Event) :
    ((machine env).next s event).server.Owned := by
  rcases next_cases s event with ⟨stored, rfl⟩ | change
  · exact DHCPServer.Owned.reset s.server stored
  · exact change.owned owned

end System

namespace DHCPServer

def empty (conf : Config) : DHCPServer where
  heap := .empty
  leases := ⟨∅, ∅⟩
  interfaces4 := conf.interfaces4.map fun c => newDHCPInterfaceV4 c.1 c.2
  interfaces6 := conf.interfaces6.map fun c => newDHCPInterfaceV6 c.1 c.2

theorem common_empty {conf : Config} {id : IfaceID} {iface : NetInterface}
    (found : (empty conf).common id = some iface) :
    (∃ c ∈ conf.interfaces4, (∃ i, id = .v4 i) ∧
        iface = ⟨.new, ∅, c.1.addrSpace, c.1.leaseDuration⟩) ∨
      ∃ c ∈ conf.interfaces6, (∃ i, id = .v6 i) ∧
        iface = ⟨.new, ∅, c.1.addrSpace, c.1.leaseDuration⟩ := by
  cases id with
  | v4 i =>
    simp only [common, empty, List.getElem?_map, Option.map_map, Option.map_eq_some_iff] at found
    obtain ⟨c, present, rfl⟩ := found
    exact .inl ⟨c, List.mem_of_getElem? present, ⟨i, rfl⟩, rfl⟩
  | v6 i =>
    simp only [common, empty, List.getElem?_map, Option.map_map, Option.map_eq_some_iff] at found
    obtain ⟨c, present, rfl⟩ := found
    exact .inr ⟨c, List.mem_of_getElem? present, ⟨i, rfl⟩, rfl⟩

theorem leases_empty {conf : Config} {id : IfaceID} {iface : NetInterface}
    (found : (empty conf).common id = some iface) : iface.leases = ∅ ∧ iface.leasedOffsets = .new := by
  rcases common_empty found with ⟨_, _, _, rfl⟩ | ⟨_, _, _, rfl⟩ <;> exact ⟨rfl, rfl⟩

theorem owned_empty (conf : Config) : (empty conf).Owned := by
  refine ⟨?_, ?_⟩
  · intro id iface key l found member
    simp [(leases_empty found).1] at member
  · intro a ifaceA keyA b ifaceB keyB l foundA memberA _ _
    simp [(leases_empty foundA).1] at memberA

/-- What every loaded lease preserves holds of a new server. -/
theorem new_invariant (env : Env) (conf : Config) (inv : DHCPServer → Prop)
    (initially : inv (empty conf)) {stored : List Lease}
    (preserved : ∀ s, ∀ l ∈ stored, inv s → inv (s.indexLease env l)) :
    inv (new env conf stored) := by
  have fold : ∀ (rest : List Lease) (s : DHCPServer), (∀ l ∈ rest, l ∈ stored) → inv s →
      inv (rest.foldl (indexLease env) s) := by
    intro rest
    induction rest with
    | nil => exact fun _ _ holds => holds
    | cons l rest ih =>
      intro s known holds
      exact ih _ (fun other later => known other (.tail _ later))
        (preserved s l (known l (.head _)) holds)
  exact fold stored (empty conf) (fun _ member => member) initially

end DHCPServer

namespace System

variable {env : Env}

theorem owned_reachable {conf : Config} {stored : List Lease} {clock : Time} {s : System}
    (reached : (machine env).Reachable (start env conf stored clock) s) : s.server.Owned := by
  refine (machine env).reachable_invariant (fun s => s.server.Owned) ?_ ?_ reached
  · exact fun s event owned => owned_next owned event
  · exact DHCPServer.new_invariant env conf _ (DHCPServer.owned_empty conf) fun s l _ owned =>
      (DHCPServer.change_addLease env s l true).owned owned

end System

end AdGuardHome.Dhcpsvc
