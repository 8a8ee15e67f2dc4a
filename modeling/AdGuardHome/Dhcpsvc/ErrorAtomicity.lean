import AdGuardHome.Dhcpsvc.Filed
import AdGuardHome.Dhcpsvc.Restart

namespace AdGuardHome.Dhcpsvc

open Netip Heap

namespace DHCPServer

variable {env : Env} {s t : DHCPServer}

/-- `DHCPServer.HostByIP`. -/
def hostByIP (s : DHCPServer) (ip : Addr) : String := ((s.leaseByAddr ip).map (·.hostname)).getD ""

/-- `DHCPServer.MACByIP`, where `nil` is the empty address. -/
def macByIP (s : DHCPServer) (ip : Addr) : HardwareAddr :=
  ((s.leaseByAddr ip).map (·.hwAddr)).getD []

/-- `DHCPServer.IPByHost`. -/
def ipByHost (env : Env) (s : DHCPServer) (host : String) : Addr :=
  ((s.leaseByName (env.toLower host)).map (·.ip)).getD .zero

/-- What `DHCPServer.cloneLeases` makes of a lease. -/
def listed (l : Lease) : Option Lease := if l.isBlocked then none else some l

/-- `DHCPServer.cloneLeases`, walking over the index by name in some order. -/
def cloneLeases (s : DHCPServer) (order : WalkOrder String) : List Lease :=
  (order.arrange s.leases.byName.keys).filterMap fun name => (s.leaseByName name).bind listed

/-- `DHCPServer.Leases`. -/
def sortedLeases (s : DHCPServer) (order : WalkOrder String) : List Lease :=
  (s.cloneLeases order).mergeSort fun a b => !b.ip.less a.ip

/-- The second server answers as the first one, but for the order of the leases, which is
undefined. -/
structure SameAnswers (env : Env) (s t : DHCPServer) : Prop where
  leases : ∀ order other, (t.sortedLeases other).Perm (s.sortedLeases order)
  hosts : ∀ ip, t.hostByIP ip = s.hostByIP ip
  macs : ∀ ip, t.macByIP ip = s.macByIP ip
  addrs : ∀ host, t.ipByHost env host = s.ipByHost env host
  available : ∀ id ip, t.Available id ip ↔ s.Available id ip

def listing (s : DHCPServer) : List Lease :=
  s.leases.byName.listing fun l => listed (s.heap.read l)

theorem sortedLeases_perm (s : DHCPServer) (order : WalkOrder String) :
    (s.sortedLeases order).Perm s.listing := by
  refine (List.mergeSort_perm _ _).trans (((order.perm _).filterMap _).trans (.of_eq ?_))
  unfold listing FiniteMap.listing
  apply List.filterMap_congr
  intro name _
  rw [leaseByName, Option.bind_map]
  rfl

theorem sortedLeases_iff (s t : DHCPServer) :
    (∀ order other, (t.sortedLeases other).Perm (s.sortedLeases order)) ↔
      t.listing.Perm s.listing := by
  constructor
  · intro same
    exact (sortedLeases_perm t .inserted).symm.trans
      ((same .inserted .inserted).trans (sortedLeases_perm s .inserted))
  · intro same order other
    exact (sortedLeases_perm t other).trans (same.trans (sortedLeases_perm s order).symm)

/-- An index that stays, with leases that stay, answers as before. -/
theorem sameAnswers_of_index (index : t.leases = s.leases)
    (byAddr : ∀ ip l, s.leases.byAddr.get ip = some l → t.heap.read l = s.heap.read l)
    (byName : ∀ name l, s.leases.byName.get name = some l → t.heap.read l = s.heap.read l)
    (available : ∀ id ip, t.Available id ip ↔ s.Available id ip) : s.SameAnswers env t := by
  have addr : ∀ ip, t.leaseByAddr ip = s.leaseByAddr ip := by
    intro ip
    unfold leaseByAddr
    rw [index]
    exact Option.map_congr fun l found => byAddr ip l found
  have name : ∀ name, t.leaseByName name = s.leaseByName name := by
    intro name
    unfold leaseByName
    rw [index]
    exact Option.map_congr fun l found => byName name l found
  refine ⟨?_, ?_, ?_, ?_, available⟩
  · rw [sortedLeases_iff]
    refine .of_eq ?_
    unfold listing
    rw [index]
    apply FiniteMap.listing_congr
    intro key l found
    rw [byName key l found]
  · intro ip
    rw [hostByIP, addr, hostByIP]
  · intro ip
    rw [macByIP, addr, macByIP]
  · intro host
    rw [ipByHost, name, ipByHost]

structure Rewritten (env : Env) (s t : DHCPServer) (l old : Lease) : Prop where
  byAddr : ∀ ip, t.leaseByAddr ip =
    if ip = l.ip then some l else if ip = old.ip then none else s.leaseByAddr ip
  byName : ∀ name, t.leaseByName name =
    if name = env.toLower l.hostname then some l
    else if name = env.toLower old.hostname then none else s.leaseByName name
  listing : ∃ rest, t.listing.Perm ((listed l).toList ++ rest) ∧
    s.listing.Perm (((s.leaseByName (env.toLower old.hostname)).bind listed).toList ++
      ((if env.toLower l.hostname = env.toLower old.hostname then none
        else s.leaseByName (env.toLower l.hostname)).bind listed).toList ++ rest)
  available : ∀ id ip, t.Available id ip ↔ s.Available id ip

/-- The lookups of the old and of the new address and hostname find already what they find
when the lease is in place of the old one. -/
structure Restated (env : Env) (s : DHCPServer) (l old : Lease) : Prop where
  here : ∃ x, s.leaseByAddr l.ip = some x ∧ x.hostname = l.hostname ∧ x.hwAddr = l.hwAddr
  there : old.ip = l.ip ∨ s.leaseByAddr old.ip = none
  named : s.ipByHost env l.hostname = l.ip
  renamed : env.toLower old.hostname = env.toLower l.hostname ∨
    s.ipByHost env old.hostname = .zero
  listed : ((s.leaseByName (env.toLower old.hostname)).bind listed).toList ++
      ((if env.toLower l.hostname = env.toLower old.hostname then none
        else s.leaseByName (env.toLower l.hostname)).bind DHCPServer.listed).toList =
    (DHCPServer.listed l).toList

section Rewritten

variable {l old : Lease}

/-- What is found under addresses stays exactly if it is there before. -/
theorem Rewritten.byAddr_iff (rewritten : Rewritten env s t l old) (named : l.hwAddr ≠ [])
    (indexed : ∀ ip x, s.leaseByAddr ip = some x → x.hwAddr ≠ []) :
    (∀ ip, t.hostByIP ip = s.hostByIP ip ∧ t.macByIP ip = s.macByIP ip) ↔
      (∃ x, s.leaseByAddr l.ip = some x ∧ x.hostname = l.hostname ∧ x.hwAddr = l.hwAddr) ∧
        (old.ip = l.ip ∨ s.leaseByAddr old.ip = none) := by
  constructor
  · intro same
    constructor
    · obtain ⟨host, mac⟩ := same l.ip
      simp only [hostByIP, macByIP, rewritten.byAddr, if_true, Option.map_some,
        Option.getD_some] at host mac
      cases found : s.leaseByAddr l.ip with
      | none =>
        rw [found] at mac
        exact absurd mac named
      | some x =>
        rw [found] at host mac
        exact ⟨x, rfl, host.symm, mac.symm⟩
    · by_cases moved : old.ip = l.ip
      · exact .inl moved
      · right
        have mac := (same old.ip).2
        simp only [macByIP, rewritten.byAddr, if_neg moved, if_true, Option.map_none,
          Option.getD_none] at mac
        cases found : s.leaseByAddr old.ip with
        | none => rfl
        | some x =>
          rw [found] at mac
          exact absurd mac.symm (indexed old.ip x found)
  · rintro ⟨⟨x, found, host, mac⟩, there⟩ ip
    unfold hostByIP macByIP
    rw [rewritten.byAddr]
    by_cases new : ip = l.ip
    · rw [if_pos new, new, found]
      exact ⟨host.symm, mac.symm⟩
    · rw [if_neg new]
      by_cases gone : ip = old.ip
      · rcases there with moved | absent
        · exact absurd (gone.trans moved) new
        · rw [if_pos gone, gone, absent]
          exact ⟨rfl, rfl⟩
      · rw [if_neg gone]
        exact ⟨rfl, rfl⟩

/-- What is found under hostnames stays exactly if it is there before. -/
theorem Rewritten.byName_iff (rewritten : Rewritten env s t l old) :
    (∀ host, t.ipByHost env host = s.ipByHost env host) ↔
      s.ipByHost env l.hostname = l.ip ∧ (env.toLower old.hostname = env.toLower l.hostname ∨
        s.ipByHost env old.hostname = .zero) := by
  constructor
  · intro same
    constructor
    · rw [← same, ipByHost, rewritten.byName, if_pos rfl]
      rfl
    · by_cases renamed : env.toLower old.hostname = env.toLower l.hostname
      · exact .inl renamed
      · right
        rw [← same, ipByHost, rewritten.byName, if_neg renamed, if_pos rfl]
        rfl
  · rintro ⟨named, renamed⟩ host
    by_cases new : env.toLower host = env.toLower l.hostname
    · have before : s.ipByHost env host = s.ipByHost env l.hostname := by
        rw [ipByHost, new, ipByHost]
      rw [before, named, ipByHost, rewritten.byName, if_pos new]
      rfl
    · by_cases gone : env.toLower host = env.toLower old.hostname
      · have before : s.ipByHost env host = s.ipByHost env old.hostname := by
          rw [ipByHost, gone, ipByHost]
        rcases renamed with same | absent
        · exact absurd (gone.trans same) new
        · rw [before, absent, ipByHost, rewritten.byName, if_neg new, if_pos gone]
          rfl
      · rw [ipByHost, rewritten.byName, if_neg new, if_neg gone, ipByHost]

private theorem perm_toList {α : Type} {found : Option α} {l : List α} :
    l.Perm found.toList ↔ l = found.toList := by
  cases found with
  | none => simp
  | some a => simp

theorem Rewritten.sameAnswers_iff (rewritten : Rewritten env s t l old) (named : l.hwAddr ≠ [])
    (indexed : ∀ ip x, s.leaseByAddr ip = some x → x.hwAddr ≠ []) :
    s.SameAnswers env t ↔ Restated env s l old := by
  have listing : t.listing.Perm s.listing ↔
      ((s.leaseByName (env.toLower old.hostname)).bind DHCPServer.listed).toList ++
        ((if env.toLower l.hostname = env.toLower old.hostname then none
          else s.leaseByName (env.toLower l.hostname)).bind DHCPServer.listed).toList =
      (DHCPServer.listed l).toList := by
    obtain ⟨rest, after, before⟩ := rewritten.listing
    rw [after.congr_left, before.congr_right, List.perm_append_right_iff, ← perm_toList]
    exact List.perm_comm
  constructor
  · intro same
    obtain ⟨here, there⟩ := (rewritten.byAddr_iff named indexed).mp
      fun ip => ⟨same.hosts ip, same.macs ip⟩
    obtain ⟨nameHere, nameThere⟩ := rewritten.byName_iff.mp same.addrs
    exact ⟨here, there, nameHere, nameThere,
      listing.mp ((sortedLeases_iff s t).mp same.leases)⟩
  · intro restated
    have byAddr := (rewritten.byAddr_iff named indexed).mpr ⟨restated.here, restated.there⟩
    exact ⟨(sortedLeases_iff s t).mpr (listing.mpr restated.listed), fun ip => (byAddr ip).1,
      fun ip => (byAddr ip).2, rewritten.byName_iff.mpr ⟨restated.named, restated.renamed⟩,
      rewritten.available⟩

end Rewritten

end DHCPServer

/-- A call that changes the leases. -/
inductive Call where
  | addLease (l : Lease)
  | updateStaticLease (l : Lease)
  | removeLease (l : Lease)

/-- The server after a call and what the call returns, with the outcome of `Database.Store`. -/
def Call.run (env : Env) (s : DHCPServer) (stored : Bool) :
    Call → DHCPServer × Except Error Unit
  | .addLease l => s.addLease env l stored
  | .updateStaticLease l => s.updateStaticLease env l stored
  | .removeLease l => s.removeLease env l stored

namespace DHCPServer

variable {env : Env} {s t : DHCPServer} {l : Lease} {id : IfaceID} {iface : NetInterface}
  {key : MacKey}

def heldBy (s : DHCPServer) (id : IfaceID) (key : MacKey) : Option Ref :=
  (s.common id).bind fun iface => iface.leases.get key

def Stored (s : DHCPServer) (x : Ref) : Prop :=
  (∃ ip, s.leases.byAddr.get ip = some x) ∨ (∃ name, s.leases.byName.get name = some x) ∨
    ∃ id key, s.heldBy id key = some x

/-- The lease has the address, the hostname and the hardware address of another. -/
def Named (s : DHCPServer) (l : Lease) (x : Ref) : Prop :=
  (s.heap.read x).ip = l.ip ∧ (s.heap.read x).hostname = l.hostname ∧
    (s.heap.read x).hwAddr = l.hwAddr

instance (s : DHCPServer) (l : Lease) (x : Ref) : Decidable (s.Named l x) :=
  inferInstanceAs (Decidable (_ ∧ _))

structure Without (s t : DHCPServer) (x : Ref) : Prop where
  byAddr : ∀ ip, t.leases.byAddr.get ip = (s.leases.byAddr.get ip).filter (· ≠ x)
  byName : ∀ name, t.leases.byName.get name = (s.leases.byName.get name).filter (· ≠ x)
  heldBy : ∀ id key, t.heldBy id key = (s.heldBy id key).filter (· ≠ x)
  leases : ∀ y, t.heap.read y = s.heap.read y

/-- A single stored lease has the values of `l`, and it is what is removed. -/
def RemovesOne (s t : DHCPServer) (l : Lease) : Prop :=
  ∃ x, s.Stored x ∧ s.Named l x ∧ (∀ y, s.Stored y → s.Named l y → y = x) ∧ s.Without t x

/-- A call that fails does not show, and a removal that succeeds takes out the lease it is
asked for. -/
structure Atomic (env : Env) (s : DHCPServer) (stored : Bool) (call : Call) : Prop where
  unchanged : (call.run env s stored).2 ≠ .ok () → s.SameAnswers env (call.run env s stored).1
  removesOne : ∀ l, call = .removeLease l → (call.run env s stored).2 = .ok () →
    s.RemovesOne (call.run env s stored).1 l

/-- The checks of `AddLease` let the lease pass. -/
structure Adds (env : Env) (s : DHCPServer) (l : Lease) (id : IfaceID) (iface : NetInterface)
    (key : MacKey) : Prop where
  found : s.ifaceAt l.ip = some (id, iface)
  owner : key.val = l.hwAddr
  free : iface.leases.get key = none
  freeAddr : s.leases.byAddr.get l.ip = none
  freeName : s.leases.byName.get (env.toLower l.hostname) = none

/-- The checks of `UpdateStaticLease` let the lease pass. -/
structure Updates (env : Env) (s : DHCPServer) (l : Lease) (id : IfaceID) (iface : NetInterface)
    (key : MacKey) (prev : Ref) : Prop where
  found : s.ifaceAt l.ip = some (id, iface)
  owner : key.val = l.hwAddr
  member : iface.leases.get key = some prev
  freeAddr : ∀ x, s.leases.byAddr.get l.ip = some x → (s.heap.read x).hwAddr = l.hwAddr
  freeName : ∀ x, s.leases.byName.get (env.toLower l.hostname) = some x →
    (s.heap.read x).hwAddr = l.hwAddr

/-- The checks of `RemoveLease` let the lease pass. -/
structure Removes (env : Env) (s : DHCPServer) (l : Lease) (id : IfaceID) (iface : NetInterface)
    (key : MacKey) (held : Ref) : Prop where
  found : s.ifaceAt l.ip = some (id, iface)
  owner : key.val = l.hwAddr
  member : iface.leases.get key = some held
  hasAddr : (s.leases.byAddr.get l.ip).isSome = true
  hasName : (s.leases.byName.get (env.toLower l.hostname)).isSome = true

/-- What is found under each of the three values of a lease is one lease with these values,
which is found under no other hostname and for no other hardware address of the interface,
and the only one with these values. -/
structure Sole (env : Env) (s : DHCPServer) (l : Lease) (iface : NetInterface) (key : MacKey)
    (held : Ref) : Prop where
  byAddr : s.leases.byAddr.get l.ip = some held
  byName : s.leases.byName.get (env.toLower l.hostname) = some held
  named : s.Named l held
  names : ∀ name, s.leases.byName.get name = some held → name = env.toLower l.hostname
  keys : ∀ k, iface.leases.get k = some held → k = key
  only : ∀ y, s.Stored y → s.Named l y → y = held

def Harmless (env : Env) (s : DHCPServer) (stored : Bool) : Call → Prop
  | .addLease l => ∀ id iface key, s.Adds env l id iface key → stored = true
  | .updateStaticLease l => ∀ id iface key prev, s.Updates env l id iface key prev →
    stored = true ∨ s.Restated env l (s.heap.read prev)
  | .removeLease l => ∀ id iface key held, s.Removes env l id iface key held →
    stored = true ∧ s.Sole env l iface key held

section Available

theorem available_setWorld (here : s.common id = some iface) {w : World}
    (space : w.iface.addrSpace = iface.addrSpace)
    (offsets : w.iface.leasedOffsets = iface.leasedOffsets) (other : IfaceID) (ip : Addr) :
    (s.setWorld id w).Available other ip ↔ s.Available other ip := by
  unfold Available
  rw [common_setWorld here]
  by_cases same : other = id
  · subst same
    rw [if_pos rfl, here]
    constructor
    · rintro ⟨found, offset, equal, position, unset⟩
      obtain rfl := Option.some.inj equal
      exact ⟨iface, offset, rfl, space ▸ position, offsets ▸ unset⟩
    · rintro ⟨found, offset, equal, position, unset⟩
      obtain rfl := Option.some.inj equal
      exact ⟨w.iface, offset, rfl, space.symm ▸ position, offsets.symm ▸ unset⟩
  · rw [if_neg same]

/-- A method that only makes a new object does not show. -/
theorem sameAnswers_setWorld (filed : s.Filed) (here : s.common id = some iface) {w : World}
    (index : w.index = s.leases) (kept : ∀ x, x < s.heap.size → w.heap.read x = s.heap.read x)
    (same : w.iface = iface) : s.SameAnswers env (s.setWorld id w) := by
  refine sameAnswers_of_index index ?_ ?_ ?_
  · exact fun ip x found => kept x ((filed id iface here).byAddr ip x found).1
  · exact fun name x found => kept x ((filed id iface here).byName name x found)
  · exact available_setWorld here (congrArg _ same) (congrArg _ same)

theorem sameAnswers_refl (s : DHCPServer) : s.SameAnswers env s :=
  sameAnswers_of_index rfl (fun _ _ _ => rfl) (fun _ _ _ => rfl) fun _ _ => .rfl

end Available

section Adding

theorem Adds.run (adds : s.Adds env l id iface key) (stored : Bool) :
    s.addLease env l stored =
      (s.setWorld id ((s.worldWith iface l).added env key s.heap.size),
        if stored then .ok () else .error .store) := by
  have object := lease_worldWith s iface l
  have done : (s.worldWith iface l).add env s.heap.size =
      .ok ((s.worldWith iface l).added env key s.heap.size) := by
    refine World.add_of_free ?_ adds.free ?_ ?_
    · rw [object, adds.owner]
    · rw [object]
      exact adds.freeAddr
    · rw [object]
      exact adds.freeName
  rw [addLease, adds.found]
  dsimp only
  rw [done]

theorem Adds.shows (adds : s.Adds env l id iface key) :
    ¬ s.SameAnswers env (s.setWorld id ((s.worldWith iface l).added env key s.heap.size)) := by
  intro same
  have object : (s.worldWith iface l).heap.read s.heap.size = l := lease_worldWith s iface l
  have mac := same.macs l.ip
  have after : (s.setWorld id ((s.worldWith iface l).added env key s.heap.size)).leaseByAddr l.ip =
      some l := by
    change ((s.leases.byAddr.set ((s.worldWith iface l).heap.read s.heap.size).ip s.heap.size).get
      l.ip).map (s.worldWith iface l).heap.read = some l
    rw [object, FiniteMap.get_set_self, Option.map_some, object]
  have before : s.leaseByAddr l.ip = none := by
    rw [leaseByAddr, adds.freeAddr]
    rfl
  rw [macByIP, after, macByIP, before] at mac
  exact macKey_ne_nil key (adds.owner.trans mac)

theorem atomic_addLease (stored : Bool) :
    s.Atomic env stored (.addLease l) ↔ s.Harmless env stored (.addLease l) := by
  constructor
  · intro atomic id iface key adds
    cases stored with
    | true => rfl
    | false =>
      have unchanged := atomic.unchanged
      simp only [Call.run, adds.run] at unchanged
      exact absurd (unchanged nofun) adds.shows
  · intro harmless
    refine ⟨?_, fun _ other => by cases other⟩
    intro failed
    rcases addLease_cases env s l stored with
      same | ⟨id, iface, key, _, found, owner, free, freeAddr, freeName, _⟩
    · rw [Call.run, same]
      exact sameAnswers_refl s
    · have adds : s.Adds env l id iface key := ⟨found, owner, free, freeAddr, freeName⟩
      have kept := harmless id iface key adds
      subst kept
      rw [Call.run, adds.run] at failed
      exact absurd rfl failed

end Adding

section Updating

variable {prev : Ref}

/-- The new object does not change who has a lease. -/
private theorem isTaken_worldWith {found : Option Ref}
    (known : ∀ x, found = some x → x < s.heap.size) (mac : HardwareAddr) :
    (s.worldWith iface l).isTaken mac found = false ↔
      ∀ x, found = some x → (s.heap.read x).hwAddr = mac := by
  cases found with
  | none => simp [World.isTaken]
  | some x =>
    have read : (s.worldWith iface l).lease x = s.heap.read x :=
      read_worldWith s iface l (known x rfl)
    simp [World.isTaken, read]

theorem Updates.update (updates : s.Updates env l id iface key prev) (filed : s.Filed)
    (stored : Bool) :
    (s.worldWith iface l).update env s.heap.size stored =
      ((s.worldWith iface l).updated env key s.heap.size prev,
        if stored then .ok () else .error .store) := by
  have here := common_of_ifaceAt updates.found
  have object := lease_worldWith s iface l
  refine World.update_of_member ?_ updates.member ?_ ?_ stored
  · rw [object, updates.owner]
  · rw [object]
    exact (isTaken_worldWith (fun x found => ((filed id iface here).byAddr _ x found).1) _).mpr
      updates.freeAddr
  · rw [object]
    exact (isTaken_worldWith ((filed id iface here).byName _) _).mpr updates.freeName

theorem Updates.run (updates : s.Updates env l id iface key prev) (filed : s.Filed)
    (stored : Bool) :
    s.updateStaticLease env l stored =
      (s.setWorld id ((s.worldWith iface l).updated env key s.heap.size prev),
        if stored then .ok () else .error .store) := by
  rw [updateStaticLease, updates.found]
  dsimp only
  rw [updates.update filed]

/-- An update is refused, where it can leave an object that nobody has, or goes through. -/
theorem updateStaticLease_cases (filed : s.Filed) (l : Lease) (stored : Bool) :
    (s.updateStaticLease env l stored).1 = s ∨
      (∃ id iface, s.common id = some iface ∧
        (s.updateStaticLease env l stored).1 = s.setWorld id (s.worldWith iface l)) ∨
      ∃ id iface key prev, s.Updates env l id iface key prev := by
  cases found : s.ifaceAt l.ip with
  | none =>
    rw [updateStaticLease, found]
    exact .inl rfl
  | some at_ =>
    obtain ⟨id, iface⟩ := at_
    have here := common_of_ifaceAt found
    rcases World.update_cases env (s.worldWith iface l) s.heap.size stored with
      ⟨same, _⟩ | ⟨key, prev, owner, member, freeAddr, freeName, _⟩
    · refine .inr (.inl ⟨id, iface, here, ?_⟩)
      rw [updateStaticLease, found]
      exact congrArg (s.setWorld id) same
    · rw [lease_worldWith] at owner freeAddr freeName
      refine .inr (.inr ⟨id, iface, key, prev, found, owner, member, ?_, ?_⟩)
      · exact (isTaken_worldWith (fun x found => ((filed id iface here).byAddr _ x found).1) _).mp
          freeAddr
      · exact (isTaken_worldWith ((filed id iface here).byName _) _).mp freeName

theorem Updates.rewritten (updates : s.Updates env l id iface key prev) (filed : s.Filed) :
    s.Rewritten env (s.setWorld id ((s.worldWith iface l).updated env key s.heap.size prev)) l
      (s.heap.read prev) := by
  have here := common_of_ifaceAt updates.found
  have files := filed id iface here
  have object : (s.worldWith iface l).heap.read s.heap.size = l := lease_worldWith s iface l
  have old : (s.worldWith iface l).heap.read prev = s.heap.read prev :=
    read_worldWith s iface l (files.held key prev updates.member).1
  have index : (s.setWorld id ((s.worldWith iface l).updated env key s.heap.size prev)).leases =
      ⟨(s.leases.byAddr.delete (s.heap.read prev).ip).set l.ip s.heap.size,
        (s.leases.byName.delete (env.toLower (s.heap.read prev).hostname)).set
          (env.toLower l.hostname) s.heap.size⟩ := by
    change LeaseIndex.mk
      ((s.leases.byAddr.delete ((s.worldWith iface l).heap.read prev).ip).set
        ((s.worldWith iface l).heap.read s.heap.size).ip s.heap.size)
      ((s.leases.byName.delete (env.toLower ((s.worldWith iface l).heap.read prev).hostname)).set
        (env.toLower ((s.worldWith iface l).heap.read s.heap.size).hostname) s.heap.size) = _
    rw [object, old]
  refine ⟨?byAddr, ?byName, ?listing, available_setWorld here rfl rfl⟩
  case byAddr =>
    intro ip
    unfold leaseByAddr
    rw [index]
    change (((s.leases.byAddr.delete _).set l.ip _).get ip).map (s.worldWith iface l).heap.read = _
    rw [FiniteMap.get_set, FiniteMap.get_delete]
    split
    · rw [Option.map_some, object]
    split
    · rfl
    · exact Option.map_congr fun x found => read_worldWith s iface l (files.byAddr ip x found).1
  case byName =>
    intro name
    unfold leaseByName
    rw [index]
    change (((s.leases.byName.delete _).set _ _).get name).map (s.worldWith iface l).heap.read = _
    rw [FiniteMap.get_set, FiniteMap.get_delete]
    split
    · rw [Option.map_some, object]
    split
    · rfl
    · exact Option.map_congr fun x found => read_worldWith s iface l (files.byName name x found)
  case listing =>
    let f := fun x => listed ((s.worldWith iface l).heap.read x)
    have kept : ∀ name x, s.leases.byName.get name = some x → listed (s.heap.read x) = f x :=
      fun name x found => congrArg listed (read_worldWith s iface l (files.byName name x found)).symm
    have shown : ∀ name, (s.leaseByName name).bind listed = (s.leases.byName.get name).bind f := by
      intro name
      unfold leaseByName
      cases found : s.leases.byName.get name with
      | none => rfl
      | some x => exact kept name x found
    have unlisted : s.listing = s.leases.byName.listing f := FiniteMap.listing_congr _ kept
    refine ⟨((s.leases.byName.delete (env.toLower (s.heap.read prev).hostname)).delete
      (env.toLower l.hostname)).listing f, ?_, ?_⟩
    · have written := FiniteMap.listing_set
        (s.leases.byName.delete (env.toLower (s.heap.read prev).hostname))
        (env.toLower l.hostname) s.heap.size f
      rw [DHCPServer.listing, index]
      refine written.trans (.of_eq ?_)
      rw [show f s.heap.size = listed l from congrArg listed object]
    · have first := s.leases.byName.listing_delete (env.toLower (s.heap.read prev).hostname) f
      have second := (s.leases.byName.delete (env.toLower (s.heap.read prev).hostname)).listing_delete
        (env.toLower l.hostname) f
      rw [unlisted, shown, List.append_assoc]
      refine first.trans (List.Perm.append_left _ (second.trans (.of_eq ?_)))
      rw [FiniteMap.get_delete]
      split
      · rfl
      · rw [shown]

theorem atomic_updateStaticLease (filed : s.Filed) (stored : Bool) :
    s.Atomic env stored (.updateStaticLease l) ↔ s.Harmless env stored (.updateStaticLease l) := by
  have indexed : ∀ {id iface}, s.common id = some iface →
      ∀ ip x, s.leaseByAddr ip = some x → x.hwAddr ≠ [] := by
    intro id iface here ip x found
    obtain ⟨ref, member, rfl⟩ := Option.map_eq_some_iff.mp found
    exact ((filed id iface here).byAddr ip ref member).2.2
  constructor
  · intro atomic id iface key prev updates
    have here := common_of_ifaceAt updates.found
    cases stored with
    | true => exact .inl rfl
    | false =>
      have named : l.hwAddr ≠ [] := updates.owner ▸ macKey_ne_nil key
      have unchanged := atomic.unchanged
      simp only [Call.run, updates.run filed] at unchanged
      exact .inr (((updates.rewritten filed).sameAnswers_iff named (indexed here)).mp
        (unchanged nofun))
  · intro harmless
    refine ⟨?_, fun _ other => by cases other⟩
    intro failed
    rcases updateStaticLease_cases filed l stored with
      same | ⟨id, iface, here, rejected⟩ | ⟨id, iface, key, prev, updates⟩
    · rw [Call.run, same]
      exact sameAnswers_refl s
    · rw [Call.run, rejected]
      exact sameAnswers_setWorld filed here rfl (fun x known => read_worldWith s iface l known) rfl
    · have run := updates.run filed stored
      rcases harmless id iface key prev updates with kept | restated
      · subst kept
        rw [Call.run, run] at failed
        exact absurd rfl failed
      · rw [Call.run, run]
        exact ((updates.rewritten filed).sameAnswers_iff (updates.owner ▸ macKey_ne_nil key)
          (indexed (common_of_ifaceAt updates.found))).mpr restated

end Updating

section Removing

variable {held : Ref}

theorem Removes.run (removes : s.Removes env l id iface key held) (stored : Bool) :
    s.removeLease env l stored = (s.setWorld id ((s.world iface).removed env key l),
      if stored then .ok () else .error .store) := by
  rw [removeLease, removes.found]
  dsimp only
  rw [World.remove_of_member removes.owner removes.member removes.hasAddr removes.hasName]

theorem Removes.shows (removes : s.Removes env l id iface key held) (filed : s.Filed) :
    ¬ s.SameAnswers env (s.setWorld id ((s.world iface).removed env key l)) := by
  intro same
  obtain ⟨x, found⟩ := Option.isSome_iff_exists.mp removes.hasAddr
  obtain ⟨_, _, named⟩ := (filed id iface (common_of_ifaceAt removes.found)).byAddr l.ip x found
  have mac := same.macs l.ip
  have after : (s.setWorld id ((s.world iface).removed env key l)).leaseByAddr l.ip = none := by
    change ((s.leases.byAddr.delete l.ip).get l.ip).map s.heap.read = none
    rw [FiniteMap.get_delete_self, Option.map_none]
  have before : s.leaseByAddr l.ip = some (s.heap.read x) := by
    rw [leaseByAddr, found, Option.map_some]
  rw [macByIP, after, macByIP, before] at mac
  exact named mac.symm

theorem heldBy_removed (here : s.common id = some iface) (other : IfaceID) (k : MacKey) :
    (s.setWorld id ((s.world iface).removed env key l)).heldBy other k =
      if other = id ∧ k = key then none else s.heldBy other k := by
  rw [heldBy, common_setWorld here]
  by_cases same : other = id
  · subst same
    rw [if_pos rfl]
    change (iface.leases.delete key).get k = _
    rw [FiniteMap.get_delete, heldBy, here]
    by_cases own : k = key
    · rw [if_pos own, if_pos ⟨rfl, own⟩]
    · rw [if_neg own, if_neg fun both => own both.2]
      rfl
  · rw [if_neg same, if_neg fun both => same both.1, heldBy]

private theorem filter_ne {found : Option Ref} {x : Ref} (absent : found ≠ some x) :
    found.filter (· ≠ x) = found := by
  cases found with
  | none => rfl
  | some y =>
    have different : y ≠ x := by
      rintro rfl
      exact absent rfl
    simp [Option.filter, different]

private theorem eq_of_filter {found : Option Ref} {x y : Ref} (gone : found.filter (· ≠ x) = none)
    (present : found = some y) : y = x := by
  subst present
  by_contra different
  simp [Option.filter, different] at gone

private theorem ne_of_filter {found : Option Ref} {x : Ref}
    (kept : found = found.filter (· ≠ x)) : found ≠ some x := by
  intro present
  rw [present] at kept
  simp [Option.filter] at kept

theorem Removes.removesOne_iff (removes : s.Removes env l id iface key held) (filed : s.Filed)
    (owned : s.Owned) :
    s.RemovesOne (s.setWorld id ((s.world iface).removed env key l)) l ↔
      s.Sole env l iface key held := by
  have here := common_of_ifaceAt removes.found
  have ownHeld : s.heldBy id key = some held := by
    rw [heldBy, here]
    exact removes.member
  constructor
  · rintro ⟨x, _, named, only, without⟩
    have addr := without.byAddr l.ip
    have name := without.byName (env.toLower l.hostname)
    have mac := without.heldBy id key
    change (s.leases.byAddr.delete l.ip).get l.ip = _ at addr
    change (s.leases.byName.delete (env.toLower l.hostname)).get _ = _ at name
    rw [FiniteMap.get_delete_self] at addr name
    rw [heldBy_removed here, if_pos ⟨rfl, rfl⟩] at mac
    obtain rfl := eq_of_filter mac.symm ownHeld
    obtain ⟨a, hasAddr⟩ := Option.isSome_iff_exists.mp removes.hasAddr
    obtain ⟨b, hasName⟩ := Option.isSome_iff_exists.mp removes.hasName
    obtain rfl := eq_of_filter addr.symm hasAddr
    obtain rfl := eq_of_filter name.symm hasName
    refine ⟨hasAddr, hasName, named, ?_, ?_, only⟩
    · intro other found
      by_contra different
      have kept := without.byName other
      change (s.leases.byName.delete (env.toLower l.hostname)).get other = _ at kept
      rw [FiniteMap.get_delete, if_neg different] at kept
      exact ne_of_filter kept found
    · intro k found
      by_contra different
      have kept := without.heldBy id k
      rw [heldBy_removed here, if_neg fun both => different both.2] at kept
      refine ne_of_filter kept ?_
      rw [heldBy, here]
      exact found
  · intro sole
    refine ⟨held, .inl ⟨l.ip, sole.byAddr⟩, sole.named, sole.only, ⟨?_, ?_, ?_, fun _ => rfl⟩⟩
    · intro ip
      change (s.leases.byAddr.delete l.ip).get ip = _
      rw [FiniteMap.get_delete]
      by_cases gone : ip = l.ip
      · rw [if_pos gone, gone, sole.byAddr]
        simp [Option.filter]
      · rw [if_neg gone, filter_ne]
        intro found
        exact gone (((filed id iface here).byAddr ip held found).2.1.symm.trans sole.named.1)
    · intro name
      change (s.leases.byName.delete (env.toLower l.hostname)).get name = _
      rw [FiniteMap.get_delete]
      by_cases gone : name = env.toLower l.hostname
      · rw [if_pos gone, gone, sole.byName]
        simp [Option.filter]
      · rw [if_neg gone, filter_ne fun found => gone (sole.names name found)]
    · intro other k
      rw [heldBy_removed here]
      by_cases gone : other = id ∧ k = key
      · rw [if_pos gone, gone.1, gone.2, ownHeld]
        simp [Option.filter]
      · rw [if_neg gone, filter_ne]
        intro found
        obtain ⟨iface', there, member⟩ := Option.bind_eq_some_iff.mp found
        obtain rfl := owned.apart other iface' k id iface key held there member here removes.member
        obtain rfl := Option.some.inj (there.symm.trans here)
        exact gone ⟨rfl, sole.keys k member⟩

theorem removeLease_rejected (filed : s.Filed)
    (absent : ¬ ∃ id iface key held, s.Removes env l id iface key held) (stored : Bool) :
    s.SameAnswers env (s.removeLease env l stored).1 ∧ (s.removeLease env l stored).2 ≠ .ok () := by
  unfold removeLease
  cases found : s.ifaceAt l.ip with
  | none => exact ⟨sameAnswers_refl s, by simp⟩
  | some at_ =>
    obtain ⟨id, iface⟩ := at_
    obtain ⟨same, refused⟩ := World.remove_rejected env (s.world iface) l stored <| by
      rintro ⟨key, held, owner, member, hasAddr, hasName⟩
      exact absent ⟨id, iface, key, held, found, owner, member, hasAddr, hasName⟩
    refine ⟨?_, refused⟩
    change s.SameAnswers env (s.setWorld id ((s.world iface).remove env l stored).1)
    rw [same]
    exact sameAnswers_setWorld filed (common_of_ifaceAt found) rfl (fun _ _ => rfl) rfl

theorem atomic_removeLease (filed : s.Filed) (owned : s.Owned) (stored : Bool) :
    s.Atomic env stored (.removeLease l) ↔ s.Harmless env stored (.removeLease l) := by
  constructor
  · rintro ⟨unchanged, removesOne⟩ id iface key held removes
    simp only [Call.run, removes.run] at unchanged
    cases stored with
    | false => exact absurd (unchanged nofun) (removes.shows filed)
    | true =>
      have one := removesOne l rfl
      simp only [Call.run, removes.run] at one
      exact ⟨rfl, (removes.removesOne_iff filed owned).mp (one rfl)⟩
  · intro harmless
    by_cases removable : ∃ id iface key held, s.Removes env l id iface key held
    · obtain ⟨id, iface, key, held, removes⟩ := removable
      obtain ⟨rfl, sole⟩ := harmless id iface key held removes
      refine ⟨fun failed => absurd ?_ failed, ?_⟩
      · rw [Call.run, removes.run]
        rfl
      · intro other same _
        obtain rfl := Call.removeLease.inj same
        rw [Call.run, removes.run]
        exact (removes.removesOne_iff filed owned).mpr sole
    · obtain ⟨same, refused⟩ := removeLease_rejected filed removable stored
      exact ⟨fun _ => same, fun _ _ done => absurd done refused⟩

end Removing

end DHCPServer

namespace System

variable {env : Env}

/-- In a reachable state a call is atomic exactly if it is harmless. -/
theorem calls_atomic {conf : Config} {stored : List Lease} {clock : Time} {s : System}
    (reached : (machine env).Reachable (start env conf stored clock) s) (outcome : Bool)
    (call : Call) : s.server.Atomic env outcome call ↔ s.server.Harmless env outcome call := by
  obtain ⟨owned, filed⟩ := filed_reachable reached
  cases call with
  | addLease l => exact DHCPServer.atomic_addLease outcome
  | updateStaticLease l => exact DHCPServer.atomic_updateStaticLease filed outcome
  | removeLease l => exact DHCPServer.atomic_removeLease filed owned outcome

section Examples

private def host (client last : BitVec 8) (hostname : String) : Lease :=
  ⟨.v4 (0xC0A800#24 ++ last), 0, hostname, sampleMAC.set 5 client, true⟩

private def twoHosts : System :=
  (machine sampleEnv).run (start sampleEnv sampleConfig [] 0)
    [.addLease (host 1 100 "a") true, .addLease (host 2 101 "b") true]

private theorem cells_twoHosts :
    twoHosts.server.heap.cells = [host 1 100 "a", host 2 101 "b"] := by decide +kernel

/-- The second host is removed as it was added. -/
theorem calls_atomic_removed :
    twoHosts.server.RemovesOne (twoHosts.server.removeLease sampleEnv (host 2 101 "b") true).1
      (host 2 101 "b") := by
  refine ((calls_atomic ⟨_, rfl⟩ true (.removeLease (host 2 101 "b"))).mpr ?_).removesOne _ rfl
    (by decide +kernel)
  intro id iface key held removes
  have ofHost : ∀ here ∈ twoHosts.server.ifaceAt (host 2 101 "b").ip,
      ∀ k ∈ here.2.leases.keys, k.val = (host 2 101 "b").hwAddr ↔
        here.2.leases.get k = some 1 := by decide +kernel
  have named : ∀ name ∈ twoHosts.server.leases.byName.keys,
      twoHosts.server.leases.byName.get name = some 1 → name = "b" := by decide +kernel
  obtain rfl : held = 1 := by
    have there := (ofHost _ removes.found key
      ((FiniteMap.mem_keys _ _).mpr ⟨_, removes.member⟩)).mp removes.owner
    exact Option.some.inj (removes.member.symm.trans there)
  refine ⟨rfl, by decide +kernel, by decide +kernel, by decide +kernel, ?_, ?_, ?_⟩
  · exact fun name found => named name ((FiniteMap.mem_keys _ _).mpr ⟨_, found⟩) found
  · intro k found
    have owner := (ofHost _ removes.found k ((FiniteMap.mem_keys _ _).mpr ⟨_, found⟩)).mpr found
    exact Subtype.ext (owner.trans removes.owner.symm)
  · intro y _ same
    change twoHosts.server.Named _ y at same
    unfold DHCPServer.Named Heap.read at same
    rw [cells_twoHosts] at same
    rcases y with _ | _ | y
    · exact absurd same (by decide)
    · rfl
    · simp [host, default] at same

/-- The values of two leases together remove parts of both. -/
theorem mixed_removal_succeeds :
    ¬ ∀ events outcome call, ((machine sampleEnv).run (start sampleEnv sampleConfig [] 0) events
      ).server.Atomic sampleEnv outcome call := by
  intro claim
  have atomic := claim [.addLease (host 1 100 "a") true, .addLease (host 2 101 "b") true] true
    (.removeLease (host 2 100 "a"))
  obtain ⟨x, _, named, _⟩ := atomic.removesOne _ rfl (by decide +kernel)
  have apart : ∀ x, ¬ twoHosts.server.Named (host 2 100 "a") x := by
    intro x
    unfold DHCPServer.Named Heap.read
    rw [cells_twoHosts]
    rcases x with _ | _ | x
    · decide
    · decide
    · simp [host, default]
  exact apart x named

end Examples

end System

end AdGuardHome.Dhcpsvc
