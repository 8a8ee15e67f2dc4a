import AdGuardHome.Dhcpsvc.IndexInvariant
import AdGuardHome.Dhcpsvc.JSONDatabase

namespace AdGuardHome.Dhcpsvc

open Netip Heap

def Lease.truncated (l : Lease) : Lease := { l with expiry := l.expiry / second * second }

theorem Lease.reopened_eq {l : Lease} (static : l.isStatic = true → l.expiry / second = 0)
    (text : IsUTF8 l.hostname) : l.reopened = l.truncated := by
  unfold reopened reread truncated
  rw [(jsonString_eq_iff _).mpr text]
  cases isStatic : l.isStatic with
  | true => rw [if_pos rfl, static isStatic, Int.zero_mul]
  | false => rw [if_neg (by simp)]

namespace DHCPServer

variable {env : Env} {conf : Config} {s t : DHCPServer}

def leaseByName (s : DHCPServer) (name : String) : Option Lease :=
  (s.leases.byName.get name).map s.heap.read

def leaseByMAC (s : DHCPServer) (id : IfaceID) (key : MacKey) : Option Lease :=
  (s.common id).bind fun iface => (iface.leases.get key).map s.heap.read

/-- The address may be returned by `nextIP` of an interface. -/
def Available (s : DHCPServer) (id : IfaceID) (ip : Addr) : Prop :=
  ∃ iface offset, s.common id = some iface ∧ iface.addrSpace.offset ip = some offset ∧
    iface.leasedOffsets.isSet offset = false

/-- The second server has the leases of the first one, in whole seconds. -/
structure SameLeases (s t : DHCPServer) : Prop where
  byAddr : ∀ ip, t.leaseByAddr ip = (s.leaseByAddr ip).map Lease.truncated
  byName : ∀ name, t.leaseByName name = (s.leaseByName name).map Lease.truncated
  byMAC : ∀ id key, t.leaseByMAC id key = (s.leaseByMAC id key).map Lease.truncated
  available : ∀ id ip, t.Available id ip ↔ s.Available id ip

/-- A new server that loads what has been stored has the same leases. -/
def Restores (env : Env) (conf : Config) (order : WalkOrder Addr) (s : DHCPServer) : Prop :=
  ∃ t, dbLoad env conf (s.dbStore order) = some t ∧ s.SameLeases t

/-- The index by address tells all: it has the leases under their own addresses and with
different names in UTF-8, and the index by name, the maps of the interfaces and their bits
know these leases and no others. -/
structure Settled (env : Env) (s : DHCPServer) : Prop where
  address : ∀ ip l, s.leaseByAddr ip = some l → l.ip = ip
  static : ∀ ip l, s.leaseByAddr ip = some l → l.isStatic = true → l.expiry / second = 0
  text : ∀ ip l, s.leaseByAddr ip = some l → IsUTF8 l.hostname
  names : ∀ ip l other l', s.leaseByAddr ip = some l → s.leaseByAddr other = some l' →
    env.toLower l.hostname = env.toLower l'.hostname → ip = other
  held : ∀ ip l, s.leaseByAddr ip = some l →
    ∃ (id : IfaceID) (key : MacKey), s.ifaceForAddr ip = some id ∧ key.val = l.hwAddr
  byName : ∀ name l, (s.leaseByName name).map Lease.truncated = some l ↔
    ∃ ip, (s.leaseByAddr ip).map Lease.truncated = some l ∧ env.toLower l.hostname = name
  byMAC : ∀ id key l, (s.leaseByMAC id key).map Lease.truncated = some l ↔
    ∃ ip, (s.leaseByAddr ip).map Lease.truncated = some l ∧ s.ifaceForAddr ip = some id ∧
      key.val = l.hwAddr
  offsets : ∀ id iface ip offset, s.common id = some iface →
    iface.addrSpace.offset ip = some offset →
      (iface.leasedOffsets.isSet offset = true ↔ ∃ other l, s.leaseByAddr other = some l ∧
        s.ifaceForAddr other = some id ∧ iface.addrSpace.offset other = some offset)

/-- The interfaces have the address spaces of the configuration. -/
structure Configured (conf : Config) (s : DHCPServer) : Prop where
  spaces4 : s.interfaces4.map (·.common.addrSpace) = conf.interfaces4.map (·.1.addrSpace)
  spaces6 : s.interfaces6.map (·.common.addrSpace) = conf.interfaces6.map (·.1.addrSpace)

namespace Configured

theorem empty (conf : Config) : Configured conf (empty conf) := by
  refine ⟨?_, ?_⟩
  · rw [DHCPServer.empty, List.map_map]
    rfl
  · rw [DHCPServer.empty, List.map_map]
    rfl

theorem ifaceForAddr (first : Configured conf s) (second : Configured conf t) (ip : Addr) :
    s.ifaceForAddr ip = t.ifaceForAddr ip := by
  have search : ∀ {α : Type} (space : α → IPRange) (l : List α),
      l.findIdx? (fun a => (space a).contains ip) =
        (l.map space).findIdx? fun r => r.contains ip := by
    intro α space l
    rw [List.findIdx?_map]
    rfl
  unfold DHCPServer.ifaceForAddr
  rw [search fun iface : Interface4 => iface.common.addrSpace,
    search fun iface : Interface6 => iface.common.addrSpace,
    search fun iface : Interface4 => iface.common.addrSpace,
    search fun iface : Interface6 => iface.common.addrSpace,
    first.spaces4, first.spaces6, second.spaces4, second.spaces6]

theorem common (first : Configured conf s) (second : Configured conf t) {id : IfaceID}
    {iface : NetInterface} (here : s.common id = some iface) :
    ∃ iface', t.common id = some iface' ∧ iface'.addrSpace = iface.addrSpace := by
  cases id with
  | v4 i =>
    obtain ⟨i4, found, rfl⟩ := Option.map_eq_some_iff.mp here
    have spaces := congrArg (·[i]?) (second.spaces4.trans first.spaces4.symm)
    simp only [List.getElem?_map, found, Option.map_some] at spaces
    obtain ⟨j4, present, same⟩ := Option.map_eq_some_iff.mp spaces
    exact ⟨j4.common, by simp [DHCPServer.common, present], same⟩
  | v6 i =>
    obtain ⟨i6, found, rfl⟩ := Option.map_eq_some_iff.mp here
    have spaces := congrArg (·[i]?) (second.spaces6.trans first.spaces6.symm)
    simp only [List.getElem?_map, found, Option.map_some] at spaces
    obtain ⟨j6, present, same⟩ := Option.map_eq_some_iff.mp spaces
    exact ⟨j6.common, by simp [DHCPServer.common, present], same⟩

private theorem map_modify {α β : Type} (f : α → β) (change : α → α) {l : List α} {i : Nat}
    (same : ∀ a, l[i]? = some a → f (change a) = f a) : (l.modify i change).map f = l.map f := by
  apply List.ext_getElem?
  intro j
  simp only [List.getElem?_map, List.getElem?_modify]
  by_cases here : i = j
  · subst here
    cases found : l[i]? with
    | none => rfl
    | some a => simp [same a found]
  · simp [here]

theorem setWorld (configured : Configured conf s) {id : IfaceID} {iface : NetInterface}
    (here : s.common id = some iface) {w : World} (same : w.iface.addrSpace = iface.addrSpace) :
    Configured conf (s.setWorld id w) := by
  cases id with
  | v4 i =>
    refine ⟨?_, configured.spaces6⟩
    rw [← configured.spaces4]
    apply map_modify
    intro i4 found
    simp only [DHCPServer.common, found, Option.map_some, Option.some.injEq] at here
    rw [here]
    exact same
  | v6 i =>
    refine ⟨configured.spaces4, ?_⟩
    rw [← configured.spaces6]
    apply map_modify
    intro i6 found
    simp only [DHCPServer.common, found, Option.map_some, Option.some.injEq] at here
    rw [here]
    exact same

theorem change (configured : Configured conf s) (change : Change s t) : Configured conf t := by
  cases change with
  | same => exact configured
  | onOne here unchanged => exact configured.setWorld here unchanged.addrSpace

theorem reset (configured : Configured conf s) (stored : Bool) :
    Configured conf (s.reset stored).1 := by
  refine ⟨?_, ?_⟩
  · rw [← configured.spaces4, DHCPServer.reset, List.map_map]
    rfl
  · rw [← configured.spaces6, DHCPServer.reset, List.map_map]
    rfl

theorem new (env : Env) (conf : Config) (stored : List Lease) :
    Configured conf (new env conf stored) :=
  new_invariant env conf (Configured conf) (.empty conf) fun s l _ configured =>
    configured.change (change_addLease env s l true)

end Configured

structure Loaded (env : Env) (conf : Config) (leases : List Lease) (s : DHCPServer) : Prop where
  configured : Configured conf s
  owned : s.Owned
  known : ∀ ip l, s.leases.byAddr.get ip = some l → l < s.heap.size
  knownName : ∀ name l, s.leases.byName.get name = some l → l < s.heap.size
  byAddr : ∀ ip l, s.leaseByAddr ip = some l ↔ l ∈ leases ∧ l.ip = ip
  byName : ∀ name l, s.leaseByName name = some l ↔ l ∈ leases ∧ env.toLower l.hostname = name
  byMAC : ∀ id key l, s.leaseByMAC id key = some l ↔
    l ∈ leases ∧ s.ifaceForAddr l.ip = some id ∧ key.val = l.hwAddr
  held : ∀ l ∈ leases, ∃ (id : IfaceID) (key : MacKey),
    s.ifaceForAddr l.ip = some id ∧ key.val = l.hwAddr
  offsets : ∀ id iface offset, s.common id = some iface →
    (iface.leasedOffsets.isSet offset = true ↔ ∃ l ∈ leases, s.ifaceForAddr l.ip = some id ∧
      iface.addrSpace.offset l.ip = some offset)

theorem Loaded.empty (env : Env) (conf : Config) : Loaded env conf [] (empty conf) := by
  have none_held : ∀ id key l, (DHCPServer.empty conf).leaseByMAC id key ≠ some l := by
    intro id key l found
    obtain ⟨iface, here, member⟩ := Option.bind_eq_some_iff.mp found
    rw [(leases_empty here).1, FiniteMap.get_empty] at member
    cases member
  refine ⟨.empty conf, owned_empty conf, ?_, ?_, ?_, ?_, ?_, by simp, ?_⟩
  · intro ip l found
    simp [DHCPServer.empty] at found
  · intro name l found
    simp [DHCPServer.empty] at found
  · intro ip l
    simp [leaseByAddr, DHCPServer.empty]
  · intro name l
    simp [leaseByName, DHCPServer.empty]
  · intro id key l
    simp [none_held]
  · intro id iface offset here
    simp [(leases_empty here).2]

variable {leases : List Lease} {id : IfaceID} {iface : NetInterface} {order : WalkOrder Addr}

/-- A lookup that knows the leases of a list knows one lease more. -/
private theorem lookup_append {κ : Type} (before after : κ → Option Lease)
    (has : Lease → κ → Prop) {l : Lease} [DecidablePred (has l)]
    (knows : ∀ key l', before key = some l' ↔ l' ∈ leases ∧ has l' key)
    (free : ∀ key, has l key → before key = none)
    (grown : ∀ key, after key = if has l key then some l else before key) (key : κ) (l' : Lease) :
    after key = some l' ↔ l' ∈ leases ++ [l] ∧ has l' key := by
  rw [grown, List.mem_append, List.mem_singleton]
  by_cases here : has l key
  · rw [if_pos here, Option.some.injEq]
    constructor
    · rintro rfl
      exact ⟨.inr rfl, here⟩
    · rintro ⟨old | new, has'⟩
      · have taken := (knows key l').mpr ⟨old, has'⟩
        rw [free key here] at taken
        cases taken
      · exact new.symm
  · rw [if_neg here, knows]
    constructor
    · rintro ⟨old, has'⟩
      exact ⟨.inl old, has'⟩
    · rintro ⟨old | rfl, has'⟩
      · exact ⟨old, has'⟩
      · exact absurd has' here

structure Grown (env : Env) (s u : DHCPServer) (id : IfaceID) (iface : NetInterface) (key : MacKey)
    (l : Lease) : Prop where
  heap : u.heap = (s.heap.alloc l).1
  byAddr : u.leases.byAddr = s.leases.byAddr.set l.ip s.heap.size
  byName : u.leases.byName = s.leases.byName.set (env.toLower l.hostname) s.heap.size
  common : ∀ other, u.common other =
    if other = id then
      some (({ iface with leases := iface.leases.set key s.heap.size }).setOffset l.ip true)
    else s.common other

theorem grown_added {l : Lease} (key : MacKey) (found : s.ifaceAt l.ip = some (id, iface)) :
    Grown env s (s.setWorld id ((s.worldWith iface l).added env key s.heap.size)) id iface key
      l := by
  have object : (s.worldWith iface l).lease s.heap.size = l := lease_worldWith s iface l
  have changed : ((s.worldWith iface l).added env key s.heap.size).iface =
      ({ iface with leases := iface.leases.set key s.heap.size }).setOffset l.ip true := by
    change NetInterface.setOffset _ ((s.worldWith iface l).lease s.heap.size).ip true = _
    rw [object]
    rfl
  refine ⟨rfl, ?_, ?_, ?_⟩
  · change s.leases.byAddr.set ((s.worldWith iface l).lease s.heap.size).ip _ = _
    rw [object]
  · change s.leases.byName.set (env.toLower ((s.worldWith iface l).lease s.heap.size).hostname) _ = _
    rw [object]
  · intro other
    rw [common_setWorld (common_of_ifaceAt found), changed]

section Grown

variable {κ : Type} [DecidableEq κ] {table : FiniteMap κ Ref} {heap : Heap Lease}

private theorem read_old (known : ∀ key ref, table.get key = some ref → ref < heap.size) (l : Lease)
    (key : κ) : (table.get key).map (heap.alloc l).1.read = (table.get key).map heap.read := by
  cases held : table.get key with
  | none => rfl
  | some ref =>
    have old := Nat.ne_of_lt (known key ref held)
    rw [Option.map_some, Option.map_some, read_alloc, if_neg old]

/-- A table with a new object under one more key. -/
private theorem read_set (known : ∀ key ref, table.get key = some ref → ref < heap.size) (l : Lease)
    (mine key : κ) : ((table.set mine heap.size).get key).map (heap.alloc l).1.read =
      if mine = key then some l else (table.get key).map heap.read := by
  rw [FiniteMap.get_set]
  by_cases same : mine = key
  · rw [if_pos same, if_pos same.symm, Option.map_some, read_alloc, if_pos rfl]
  · rw [if_neg same, if_neg (Ne.symm same), read_old known]

private theorem known_set (known : ∀ key ref, table.get key = some ref → ref < heap.size) (l : Lease)
    (mine : κ) : ∀ key ref, (table.set mine heap.size).get key = some ref →
      ref < (heap.alloc l).1.size := by
  intro key ref held
  rw [size_alloc]
  rcases FiniteMap.of_get_set held with ⟨_, rfl⟩ | ⟨_, before⟩
  · exact Nat.lt_succ_self _
  · exact Nat.lt_succ_of_lt (known key ref before)

variable {u : DHCPServer} {id : IfaceID} {iface : NetInterface} {key : MacKey} {l : Lease}

/-- Where the leases of the interfaces are found after one more. -/
theorem Grown.leaseByMAC (grown : Grown env s u id iface key l) (owned : s.Owned)
    (here : s.common id = some iface) (other : IfaceID) (k : MacKey) :
    u.leaseByMAC other k = if id = other ∧ key = k then some l else s.leaseByMAC other k := by
  rw [DHCPServer.leaseByMAC, DHCPServer.leaseByMAC, grown.common, grown.heap]
  by_cases isId : other = id
  · subst isId
    rw [if_pos rfl, here, Option.bind_some, Option.bind_some]
    have set := read_set (fun k ref => owned.known other iface k ref here) l key k
    by_cases isKey : key = k
    · rw [if_pos ⟨rfl, isKey⟩]
      rwa [if_pos isKey] at set
    · rw [if_neg fun both => isKey both.2]
      rwa [if_neg isKey] at set
  · rw [if_neg isId, if_neg fun both => isId both.1.symm]
    cases there : s.common other with
    | none => rfl
    | some iface' =>
      rw [Option.bind_some, Option.bind_some]
      exact read_old (fun k ref => owned.known other iface' k ref there) l k

/-- The bit of the new lease is set with those of the leases before. -/
theorem Grown.offsets {leases : List Lease} (grown : Grown env s u id iface key l)
    (loaded : Loaded env conf leases s) (found : s.ifaceAt l.ip = some (id, iface))
    (responsible : s.ifaceForAddr l.ip = some id) {other : IfaceID} {iface' : NetInterface}
    {offset : Nat} (there : u.common other = some iface') :
    iface'.leasedOffsets.isSet offset = true ↔ ∃ l' ∈ leases ++ [l],
      s.ifaceForAddr l'.ip = some other ∧ iface'.addrSpace.offset l'.ip = some offset := by
  simp only [List.mem_append, List.mem_singleton, or_and_right, exists_or, exists_eq_left]
  rw [grown.common] at there
  by_cases isId : other = id
  · rw [if_pos isId] at there
    obtain rfl := Option.some.inj there
    obtain ⟨o, position⟩ := Option.isSome_iff_exists.mp
      (IPRange.offset_isSome.mpr (contains_of_ifaceAt found))
    change ((iface.leasedOffsets.set ((iface.addrSpace.offset l.ip).getD 0) true).isSet offset =
      true ↔ (∃ l ∈ leases, s.ifaceForAddr l.ip = some other ∧
        iface.addrSpace.offset l.ip = some offset) ∨ _ ∧ iface.addrSpace.offset l.ip = some offset)
    rw [BitSet.isSet_set, position, Option.getD_some, isId, responsible,
      ← loaded.offsets id iface offset (common_of_ifaceAt found)]
    by_cases bit : offset = o
    · simp [bit]
    · simp [bit, Ne.symm bit]
  · rw [if_neg isId] at there
    rw [loaded.offsets other iface' offset there, responsible]
    simp [Ne.symm isId]

end Grown

/-- Loading one more lease, with a free address, a free name and a free hardware address. -/
theorem Loaded.added (loaded : Loaded env conf leases s) {l : Lease} {key : MacKey}
    (found : s.ifaceAt l.ip = some (id, iface)) (owner : key.val = l.hwAddr)
    (free : iface.leases.get key = none) (freeAddr : s.leases.byAddr.get l.ip = none)
    (freeName : s.leases.byName.get (env.toLower l.hostname) = none) :
    Loaded env conf (leases ++ [l])
      (s.setWorld id ((s.worldWith iface l).added env key s.heap.size)) := by
  have here := common_of_ifaceAt found
  have responsible : s.ifaceForAddr l.ip = some id := by
    obtain ⟨chosen, position, rest⟩ := Option.bind_eq_some_iff.mp found
    obtain ⟨common, _, equal⟩ := Option.map_eq_some_iff.mp rest
    obtain ⟨rfl, rfl⟩ := Prod.mk.inj equal
    exact position
  obtain ⟨unchanged, own⟩ := local_worldWith s iface l
  have configured : Configured conf
      (s.setWorld id ((s.worldWith iface l).added env key s.heap.size)) :=
    loaded.configured.setWorld here rfl
  have owned := loaded.owned.setWorld here (unchanged.added env key own)
  have same := configured.ifaceForAddr loaded.configured
  have grown : Grown env s _ id iface key l := grown_added key found
  generalize s.setWorld id ((s.worldWith iface l).added env key s.heap.size) = u at *
  refine ⟨configured, owned, ?_, ?_, ?_, ?_, ?_, ?_, ?_⟩
  · rw [grown.byAddr, grown.heap]
    exact known_set loaded.known l l.ip
  · rw [grown.byName, grown.heap]
    exact known_set loaded.knownName l (env.toLower l.hostname)
  · refine lookup_append s.leaseByAddr u.leaseByAddr (fun l ip => l.ip = ip) loaded.byAddr ?_ ?_
    · rintro ip rfl
      rw [leaseByAddr, freeAddr]
      rfl
    · intro ip
      rw [leaseByAddr, grown.byAddr, grown.heap]
      exact read_set loaded.known l l.ip ip
  · refine lookup_append s.leaseByName u.leaseByName (fun l name => env.toLower l.hostname = name)
      loaded.byName ?_ ?_
    · rintro name rfl
      rw [leaseByName, freeName]
      rfl
    · intro name
      rw [leaseByName, grown.byName, grown.heap]
      exact read_set loaded.knownName l (env.toLower l.hostname) name
  · intro other k l'
    rw [same]
    refine lookup_append (fun p : IfaceID × MacKey => s.leaseByMAC p.1 p.2)
      (fun p => u.leaseByMAC p.1 p.2) (fun l p => s.ifaceForAddr l.ip = some p.1 ∧ p.2.val = l.hwAddr)
      (fun p => loaded.byMAC p.1 p.2) ?_ ?_ (other, k) l'
    · rintro ⟨other, k⟩ ⟨position, mine⟩
      obtain rfl := Option.some.inj (responsible.symm.trans position)
      obtain rfl : key = k := Subtype.ext (owner.trans mine.symm)
      simp [leaseByMAC, here, free]
    · rintro ⟨other, k⟩
      have mine : s.ifaceForAddr l.ip = some other ∧ k.val = l.hwAddr ↔ id = other ∧ key = k := by
        rw [responsible, Option.some.injEq, ← owner, Subtype.val_inj, eq_comm (a := k)]
      simp only [mine]
      exact grown.leaseByMAC loaded.owned here other k
  · intro l' member
    rw [List.mem_append, List.mem_singleton] at member
    rcases member with old | rfl
    · obtain ⟨other, k, position, mine⟩ := loaded.held l' old
      exact ⟨other, k, (same _).trans position, mine⟩
    · exact ⟨id, key, (same _).trans responsible, owner⟩
  · intro other iface' offset there
    simp only [same]
    exact grown.offsets loaded found responsible there

theorem Loaded.indexLease (loaded : Loaded env conf leases s) (l : Lease) :
    s.indexLease env l = s ∨ Loaded env conf (leases ++ [l]) (s.indexLease env l) := by
  rcases addLease_cases env s l true with
    same | ⟨id, iface, key, _, found, owner, free, freeAddr, freeName, result⟩
  · exact .inl same
  · right
    unfold DHCPServer.indexLease
    rw [result]
    exact loaded.added found owner free freeAddr freeName

theorem ifaceAt_of_ifaceForAddr {ip : Addr} (found : s.ifaceForAddr ip = some id) :
    ∃ iface, s.ifaceAt ip = some (id, iface) := by
  suffices present : ∃ iface, s.common id = some iface by
    obtain ⟨iface, here⟩ := present
    exact ⟨iface, by rw [ifaceAt, found, Option.bind_some, here, Option.map_some]⟩
  unfold ifaceForAddr at found
  split at found
  · obtain ⟨i, first, rfl⟩ := Option.map_eq_some_iff.mp found
    obtain ⟨bound, _⟩ := List.findIdx?_eq_some_iff_getElem.mp first
    exact ⟨s.interfaces4[i].common, by simp [common, List.getElem?_eq_getElem bound]⟩
  · obtain ⟨i, first, rfl⟩ := Option.map_eq_some_iff.mp found
    obtain ⟨bound, _⟩ := List.findIdx?_eq_some_iff_getElem.mp first
    exact ⟨s.interfaces6[i].common, by simp [common, List.getElem?_eq_getElem bound]⟩

structure Apart (env : Env) (s : DHCPServer) (a b : Lease) : Prop where
  ip : a.ip ≠ b.ip
  name : env.toLower a.hostname ≠ env.toLower b.hostname
  mac : s.ifaceForAddr a.ip = s.ifaceForAddr b.ip → a.hwAddr ≠ b.hwAddr

/-- An interface is responsible for the lease, and its hardware address is a key. -/
def Placed (s : DHCPServer) (l : Lease) : Prop :=
  ∃ (id : IfaceID) (key : MacKey), s.ifaceForAddr l.ip = some id ∧ key.val = l.hwAddr

/-- A lease that is apart from those already loaded is added. -/
theorem Loaded.indexLease_apart (loaded : Loaded env conf leases s) {l : Lease}
    (placed : s.Placed l) (apart : ∀ other ∈ leases, s.Apart env other l) :
    Loaded env conf (leases ++ [l]) (s.indexLease env l) := by
  obtain ⟨id, key, responsible, owner⟩ := placed
  obtain ⟨iface, found⟩ := ifaceAt_of_ifaceForAddr responsible
  have here := common_of_ifaceAt found
  have freeAddr : s.leases.byAddr.get l.ip = none := by
    cases held : s.leases.byAddr.get l.ip with
    | none => rfl
    | some ref =>
      obtain ⟨member, same⟩ := (loaded.byAddr l.ip (s.heap.read ref)).mp (by rw [leaseByAddr, held]; rfl)
      exact absurd same (apart _ member).ip
  have freeName : s.leases.byName.get (env.toLower l.hostname) = none := by
    cases held : s.leases.byName.get (env.toLower l.hostname) with
    | none => rfl
    | some ref =>
      obtain ⟨member, same⟩ := (loaded.byName _ (s.heap.read ref)).mp (by rw [leaseByName, held]; rfl)
      exact absurd same (apart _ member).name
  have free : iface.leases.get key = none := by
    cases held : iface.leases.get key with
    | none => rfl
    | some ref =>
      obtain ⟨member, position, mine⟩ := (loaded.byMAC id key (s.heap.read ref)).mp (by
        rw [leaseByMAC, here, Option.bind_some, held]
        rfl)
      exact absurd (mine.symm.trans owner) ((apart _ member).mac (position.trans responsible.symm))
  have mapped : macToKey l.hwAddr = some key := macToKey_eq_some.mpr owner
  have object : (s.worldWith iface l).lease s.heap.size = l := lease_worldWith s iface l
  have done : (s.worldWith iface l).add env s.heap.size =
      .ok ((s.worldWith iface l).added env key s.heap.size) := by
    have freeAddr : (s.worldWith iface l).index.byAddr.get l.ip = none := freeAddr
    have freeName : (s.worldWith iface l).index.byName.get (env.toLower l.hostname) = none :=
      freeName
    have accepted : (s.worldWith iface l).iface.addLease s.heap.size l =
        .ok (({ iface with leases := iface.leases.set key s.heap.size }).setOffset l.ip true) := by
      change iface.addLease s.heap.size l = _
      rw [NetInterface.addLease, mapped]
      dsimp only
      rw [free, if_neg (by simp)]
    unfold World.add World.added
    dsimp only
    rw [object, freeAddr, freeName, if_neg (by simp), if_neg (by simp), accepted]
    rfl
  have result : s.indexLease env l =
      s.setWorld id ((s.worldWith iface l).added env key s.heap.size) := by
    unfold DHCPServer.indexLease addLease
    rw [found]
    dsimp only
    rw [done]
  rw [result]
  exact loaded.added found owner free freeAddr freeName

theorem loaded_new (env : Env) (conf : Config) (stored : List Lease) :
    ∃ leases, (∀ l ∈ leases, l ∈ stored) ∧ Loaded env conf leases (new env conf stored) := by
  refine new_invariant env conf
    (fun s => ∃ leases, (∀ l ∈ leases, l ∈ stored) ∧ Loaded env conf leases s)
    ⟨[], by simp, .empty env conf⟩ ?_
  rintro s l member ⟨leases, fewer, loaded⟩
  rcases loaded.indexLease l with same | grown
  · rw [same]
    exact ⟨leases, fewer, loaded⟩
  · refine ⟨leases ++ [l], ?_, grown⟩
    intro other present
    rw [List.mem_append, List.mem_singleton] at present
    rcases present with old | rfl
    · exact fewer other old
    · exact member

/-- A new server has all of the stored leases if they are apart. -/
theorem Loaded.all {done rest : List Lease} (loaded : Loaded env conf done s)
    (placed : ∀ l ∈ rest, (DHCPServer.empty conf).Placed l)
    (apart : (done ++ rest).Pairwise ((DHCPServer.empty conf).Apart env)) :
    Loaded env conf (done ++ rest) (rest.foldl (DHCPServer.indexLease env) s) := by
  induction rest generalizing done s with
  | nil => rwa [List.append_nil]
  | cons l rest ih =>
    have same := loaded.configured.ifaceForAddr (.empty conf)
    rw [← List.singleton_append, ← List.append_assoc] at apart ⊢
    refine ih (loaded.indexLease_apart ?_ ?_) (fun other later => placed other (.tail _ later)) apart
    · unfold Placed
      rw [same]
      exact placed l (.head _)
    · intro other member
      have first := (List.pairwise_append.mp (List.pairwise_append.mp apart).1).2.2
      obtain ⟨ip, name, mac⟩ := first other member l List.mem_cons_self
      refine ⟨ip, name, ?_⟩
      rw [same, same]
      exact mac

def contents (s : DHCPServer) (order : WalkOrder Addr) : List Lease :=
  (order.arrange s.leases.byAddr.keys).filterMap s.leaseByAddr

theorem mem_contents (order : WalkOrder Addr) (l : Lease) :
    l ∈ s.contents order ↔ ∃ ip, s.leaseByAddr ip = some l := by
  unfold contents
  rw [List.mem_filterMap]
  constructor
  · rintro ⟨ip, _, found⟩
    exact ⟨ip, found⟩
  · rintro ⟨ip, found⟩
    refine ⟨ip, ?_, found⟩
    obtain ⟨ref, held, _⟩ := Option.map_eq_some_iff.mp found
    exact (order.mem_arrange _ ip).mpr ((FiniteMap.mem_keys _ ip).mpr ⟨ref, held⟩)

/-- Whether an address may be returned is told by its bit. -/
theorem available_iff {ip : Addr} {offset : Nat} (here : s.common id = some iface)
    (position : iface.addrSpace.offset ip = some offset) :
    s.Available id ip ↔ iface.leasedOffsets.isSet offset = false := by
  constructor
  · rintro ⟨iface', offset', found, position', unset⟩
    obtain rfl := Option.some.inj (here.symm.trans found)
    obtain rfl := Option.some.inj (position.symm.trans position')
    exact unset
  · intro unset
    exact ⟨iface, offset, here, position, unset⟩

theorem Configured.settled (configured : Configured conf s)
    (restored : s.Restores env conf order) : s.Settled env := by
  obtain ⟨t, opened, same⟩ := restored
  obtain ⟨stored, done, rfl⟩ := Option.map_eq_some_iff.mp opened
  obtain ⟨perm, _⟩ := JSONDatabase.load_store done
  obtain ⟨leases, fewer, loaded⟩ := loaded_new env conf stored
  generalize new env conf stored = t at same loaded
  have iface := loaded.configured.ifaceForAddr configured
  have known : ∀ ip l, s.leaseByAddr ip = some l → l.truncated ∈ leases ∧ l.ip = ip := by
    intro ip l found
    refine (loaded.byAddr ip l.truncated).mp ?_
    rw [same.byAddr, found]
    rfl
  refine ⟨fun ip l found => (known ip l found).2, ?_, ?_, ?_, ?_, ?_, ?_, ?_⟩
  · intro ip l found static
    obtain ⟨before, _, was⟩ := List.mem_map.mp (perm.mem_iff.mp (fewer _ (known ip l found).1))
    have isStatic : before.isStatic = true := by
      have both := congrArg Lease.isStatic was
      exact both.trans static
    have expiry := congrArg Lease.expiry was
    simp only [Lease.reopened, Lease.reread, isStatic, ↓reduceIte, Lease.truncated] at expiry
    have positive : (second : Int) ≠ 0 := by decide
    rcases Int.mul_eq_zero.mp expiry.symm with zero | impossible
    · exact zero
    · exact absurd impossible positive
  · -- The lease that was read is this one, since no other lease has its address.
    intro ip l found
    obtain ⟨before, stored, was⟩ := List.mem_map.mp (perm.mem_iff.mp (fewer _ (known ip l found).1))
    obtain ⟨own, here⟩ := (mem_contents order before).mp stored
    have address := congrArg Lease.ip was
    have name := congrArg Lease.hostname was
    change before.ip = l.ip at address
    change jsonString before.hostname = l.hostname at name
    rw [← (known own before here).2, address, (known ip l found).2] at here
    obtain rfl := Option.some.inj (here.symm.trans found)
    exact (jsonString_eq_iff _).mp name
  · intro ip l other l' found found' name
    obtain ⟨member, rfl⟩ := known ip l found
    obtain ⟨member', rfl⟩ := known other l' found'
    have one := (loaded.byName _ l.truncated).mpr ⟨member, name⟩
    have two := (loaded.byName _ l'.truncated).mpr ⟨member', rfl⟩
    have equal : l.truncated.ip = l'.truncated.ip :=
      congrArg Lease.ip (Option.some.inj (one.symm.trans two))
    exact equal
  · intro ip l found
    obtain ⟨member, rfl⟩ := known ip l found
    obtain ⟨id, key, responsible, owner⟩ := loaded.held _ member
    exact ⟨id, key, (iface _).symm.trans responsible, owner⟩
  · intro name l
    rw [← same.byName, loaded.byName]
    constructor
    · rintro ⟨member, lower⟩
      exact ⟨l.ip, by rw [← same.byAddr, loaded.byAddr]; exact ⟨member, rfl⟩, lower⟩
    · rintro ⟨ip, found, lower⟩
      rw [← same.byAddr, loaded.byAddr] at found
      exact ⟨found.1, lower⟩
  · intro id key l
    rw [← same.byMAC, loaded.byMAC, iface]
    constructor
    · rintro ⟨member, responsible, owner⟩
      exact ⟨l.ip, by rw [← same.byAddr, loaded.byAddr]; exact ⟨member, rfl⟩, responsible, owner⟩
    · rintro ⟨ip, found, responsible, owner⟩
      rw [← same.byAddr, loaded.byAddr] at found
      obtain ⟨member, rfl⟩ := found
      exact ⟨member, responsible, owner⟩
  · intro id here ip offset found position
    obtain ⟨there, present, space⟩ := configured.common loaded.configured found
    have free := same.available id ip
    rw [available_iff found position, available_iff present (by rw [space, position])] at free
    have bits : here.leasedOffsets.isSet offset = true ↔
        there.leasedOffsets.isSet offset = true := by
      rw [← Bool.not_eq_false, ← Bool.not_eq_false, free]
    rw [bits, loaded.offsets id there offset present]
    constructor
    · rintro ⟨l, member, responsible, at_offset⟩
      have found' : (s.leaseByAddr l.ip).map Lease.truncated = some l := by
        rw [← same.byAddr, loaded.byAddr]
        exact ⟨member, rfl⟩
      obtain ⟨before, was, _⟩ := Option.map_eq_some_iff.mp found'
      exact ⟨l.ip, before, was, (iface _).symm.trans responsible, by rw [← space, at_offset]⟩
    · rintro ⟨other, l, found', responsible, at_offset⟩
      obtain ⟨member, rfl⟩ := known other l found'
      exact ⟨l.truncated, member, (iface _).trans responsible, by rw [space]; exact at_offset⟩

theorem Settled.contents_apart (settled : s.Settled env) (order : WalkOrder Addr) :
    (s.contents order).Pairwise (s.Apart env) := by
  have distinct : (order.arrange s.leases.byAddr.keys).Pairwise (· ≠ ·) :=
    (order.perm _).nodup_iff.mpr (AList.keys_nodup _)
  refine distinct.filterMap s.leaseByAddr ?_
  intro a b different l found l' found'
  obtain rfl := settled.address a l found
  obtain rfl := settled.address b l' found'
  refine ⟨different, ?_, ?_⟩
  · intro name
    exact different (settled.names _ l _ l' found found' name)
  · intro responsible mac
    obtain ⟨id, key, position, owner⟩ := settled.held _ l found
    have one := (settled.byMAC id key l.truncated).mpr ⟨l.ip, by rw [found]; rfl, position, owner⟩
    have two := (settled.byMAC id key l'.truncated).mpr
      ⟨l'.ip, by rw [found']; rfl, responsible.symm.trans position, owner.trans mac⟩
    have equal : l.truncated.ip = l'.truncated.ip :=
      congrArg Lease.ip (Option.some.inj (one.symm.trans two))
    exact different equal

/-- A list that has just the leases of the index by address, in whole seconds. -/
def Describes (s : DHCPServer) (stored : List Lease) : Prop :=
  ∀ ip l, (s.leaseByAddr ip).map Lease.truncated = some l ↔ l ∈ stored ∧ l.ip = ip

theorem Settled.stored (settled : s.Settled env) (order : WalkOrder Addr) :
    ∃ stored, JSONDatabase.load (JSONDatabase.store (s.contents order)) = some stored ∧
      stored.Perm ((s.contents order).map Lease.truncated) := by
  have readable : ∀ l ∈ s.contents order, (macToKey l.hwAddr).isSome = true := by
    intro l member
    obtain ⟨ip, found⟩ := (mem_contents order l).mp member
    obtain ⟨_, key, _, owner⟩ := settled.held ip l found
    rw [macToKey_eq_some.mpr owner]
    rfl
  obtain ⟨stored, done⟩ := JSONDatabase.load_store_isSome readable
  obtain ⟨perm, _⟩ := JSONDatabase.load_store done
  have whole : (s.contents order).map Lease.reopened = (s.contents order).map Lease.truncated := by
    apply List.map_congr_left
    intro l member
    obtain ⟨ip, found⟩ := (mem_contents order l).mp member
    exact Lease.reopened_eq (settled.static ip l found) (settled.text ip l found)
  rw [whole] at perm
  exact ⟨stored, done, perm⟩

theorem Settled.describes (settled : s.Settled env) {stored : List Lease}
    (perm : stored.Perm ((s.contents order).map Lease.truncated)) : s.Describes stored := by
  intro ip l
  rw [perm.mem_iff, List.mem_map]
  constructor
  · intro found
    obtain ⟨before, was, rfl⟩ := Option.map_eq_some_iff.mp found
    exact ⟨⟨before, (mem_contents order before).mpr ⟨ip, was⟩, rfl⟩, settled.address ip before was⟩
  · rintro ⟨⟨before, present, rfl⟩, rfl⟩
    obtain ⟨ip, was⟩ := (mem_contents order before).mp present
    obtain rfl := settled.address ip before was
    exact congrArg (Option.map Lease.truncated) was

/-- The stored leases of a settled state fit into an empty server. -/
theorem Settled.loadable (settled : s.Settled env) (configured : Configured conf s)
    {stored : List Lease}
    (perm : stored.Perm ((s.contents order).map Lease.truncated)) :
    (∀ l ∈ stored, (DHCPServer.empty conf).Placed l) ∧
      stored.Pairwise ((DHCPServer.empty conf).Apart env) := by
  have same := (Configured.empty conf).ifaceForAddr configured
  constructor
  · intro l present
    obtain ⟨before, was, _⟩ := Option.map_eq_some_iff.mp
      ((settled.describes perm l.ip l).mpr ⟨present, rfl⟩)
    obtain ⟨id, key, responsible, owner⟩ := settled.held _ before was
    subst l
    exact ⟨id, key, (same _).trans responsible, owner⟩
  · have symmetric : ∀ {a b : Lease}, (DHCPServer.empty conf).Apart env a b →
        (DHCPServer.empty conf).Apart env b a := by
      rintro a b ⟨ip, name, mac⟩
      exact ⟨ip.symm, name.symm, fun same => (mac same.symm).symm⟩
    refine perm.symm.pairwise ?_ symmetric
    rw [List.pairwise_map]
    refine (settled.contents_apart order).imp ?_
    rintro a b ⟨ip, name, mac⟩
    refine ⟨ip, name, ?_⟩
    rw [same, same]
    exact mac

section Loaded

variable {stored : List Lease}

/-- The bits of the loaded server are those of the state. -/
theorem Loaded.isSet_iff (loaded : Loaded env conf stored t) (configured : Configured conf s)
    (settled : s.Settled env) (describes : s.Describes stored) {id : IfaceID}
    {here there : NetInterface} {ip : Addr} {offset : Nat} (found : s.common id = some here)
    (present : t.common id = some there) (space : there.addrSpace = here.addrSpace)
    (position : here.addrSpace.offset ip = some offset) :
    there.leasedOffsets.isSet offset = true ↔ here.leasedOffsets.isSet offset = true := by
  have iface := loaded.configured.ifaceForAddr configured
  rw [loaded.offsets id there offset present, settled.offsets id here ip offset found position,
    space]
  constructor
  · rintro ⟨l, known, responsible, at_offset⟩
    obtain ⟨before, was, _⟩ := Option.map_eq_some_iff.mp ((describes l.ip l).mpr ⟨known, rfl⟩)
    exact ⟨l.ip, before, was, (iface _).symm.trans responsible, at_offset⟩
  · rintro ⟨other, l, was, responsible, at_offset⟩
    obtain ⟨known, rfl⟩ := (describes other l.truncated).mp (by rw [was]; rfl)
    exact ⟨l.truncated, known, (iface _).trans responsible, at_offset⟩

theorem Loaded.sameLeases (loaded : Loaded env conf stored t) (configured : Configured conf s)
    (settled : s.Settled env) (describes : s.Describes stored) : s.SameLeases t := by
  have iface := loaded.configured.ifaceForAddr configured
  refine ⟨?_, ?_, ?_, ?_⟩
  · intro ip
    apply Option.ext
    intro l
    rw [loaded.byAddr, describes]
  · intro name
    apply Option.ext
    intro l
    rw [loaded.byName, settled.byName]
    constructor
    · rintro ⟨present, lower⟩
      exact ⟨l.ip, (describes l.ip l).mpr ⟨present, rfl⟩, lower⟩
    · rintro ⟨ip, found, lower⟩
      exact ⟨((describes ip l).mp found).1, lower⟩
  · intro id key
    apply Option.ext
    intro l
    rw [loaded.byMAC, settled.byMAC, iface]
    constructor
    · rintro ⟨present, responsible, owner⟩
      exact ⟨l.ip, (describes l.ip l).mpr ⟨present, rfl⟩, responsible, owner⟩
    · rintro ⟨ip, found, responsible, owner⟩
      obtain ⟨present, rfl⟩ := (describes ip l).mp found
      exact ⟨present, responsible, owner⟩
  · intro id ip
    constructor
    · rintro ⟨there, offset, present, position, unset⟩
      obtain ⟨here, found, space⟩ := loaded.configured.common configured present
      rw [← space] at position
      rw [available_iff found position, ← Bool.not_eq_true,
        ← loaded.isSet_iff configured settled describes found present space.symm position,
        Bool.not_eq_true]
      exact unset
    · rintro ⟨here, offset, found, position, unset⟩
      obtain ⟨there, present, space⟩ := configured.common loaded.configured found
      rw [available_iff present (by rw [space, position]), ← Bool.not_eq_true,
        loaded.isSet_iff configured settled describes found present space position,
        Bool.not_eq_true]
      exact unset

end Loaded

theorem Configured.restores (configured : Configured conf s) (settled : s.Settled env)
    (order : WalkOrder Addr) : s.Restores env conf order := by
  obtain ⟨stored, done, perm⟩ := settled.stored order
  obtain ⟨placed, apart⟩ := settled.loadable configured perm
  have loaded : Loaded env conf stored (DHCPServer.new env conf stored) :=
    Loaded.all (Loaded.empty env conf) placed apart
  refine ⟨DHCPServer.new env conf stored, by rw [dbLoad, dbStore, ← contents, done]; rfl, ?_⟩
  exact loaded.sameLeases configured settled (settled.describes perm)

/-- What has been loaded comes back again, unless its static leases have expiries or its names are
not in UTF-8. -/
theorem Loaded.settled (loaded : Loaded env conf leases t)
    (static : ∀ l ∈ leases, l.isStatic = true → l.expiry / second = 0)
    (text : ∀ l ∈ leases, IsUTF8 l.hostname) : t.Settled env := by
  have lookup : ∀ l, (∃ ip, (t.leaseByAddr ip).map Lease.truncated = some l) ↔
      ∃ before ∈ leases, before.truncated = l := by
    intro l
    constructor
    · rintro ⟨ip, found⟩
      obtain ⟨before, here, same⟩ := Option.map_eq_some_iff.mp found
      exact ⟨before, ((loaded.byAddr ip before).mp here).1, same⟩
    · rintro ⟨before, member, same⟩
      have here := (loaded.byAddr before.ip before).mpr ⟨member, rfl⟩
      exact ⟨before.ip, by rw [here, Option.map_some, same]⟩
  refine ⟨?_, ?_, ?_, ?_, ?_, ?_, ?_, ?_⟩
  · exact fun ip l found => ((loaded.byAddr ip l).mp found).2
  · exact fun ip l found => static l ((loaded.byAddr ip l).mp found).1
  · exact fun ip l found => text l ((loaded.byAddr ip l).mp found).1
  · intro ip l other l' found found' name
    obtain ⟨member, rfl⟩ := (loaded.byAddr ip l).mp found
    obtain ⟨member', rfl⟩ := (loaded.byAddr other l').mp found'
    have one := (loaded.byName _ l).mpr ⟨member, name⟩
    have two := (loaded.byName _ l').mpr ⟨member', rfl⟩
    exact congrArg Lease.ip (Option.some.inj (one.symm.trans two))
  · intro ip l found
    obtain ⟨member, rfl⟩ := (loaded.byAddr ip l).mp found
    exact loaded.held l member
  · intro name l
    rw [exists_and_right, lookup, Option.map_eq_some_iff]
    constructor
    · rintro ⟨before, found, rfl⟩
      obtain ⟨member, lower⟩ := (loaded.byName name before).mp found
      exact ⟨⟨before, member, rfl⟩, lower⟩
    · rintro ⟨⟨before, member, rfl⟩, lower⟩
      exact ⟨before, (loaded.byName name before).mpr ⟨member, lower⟩, rfl⟩
  · intro id key l
    rw [Option.map_eq_some_iff]
    constructor
    · rintro ⟨before, found, rfl⟩
      obtain ⟨member, responsible, owner⟩ := (loaded.byMAC id key before).mp found
      have here := (loaded.byAddr before.ip before).mpr ⟨member, rfl⟩
      exact ⟨before.ip, by rw [here]; rfl, responsible, owner⟩
    · rintro ⟨ip, found, responsible, owner⟩
      obtain ⟨before, here, rfl⟩ := Option.map_eq_some_iff.mp found
      obtain ⟨member, rfl⟩ := (loaded.byAddr ip before).mp here
      exact ⟨before, (loaded.byMAC id key before).mpr ⟨member, responsible, owner⟩, rfl⟩
  · intro id iface ip offset present _
    rw [loaded.offsets id iface offset present]
    constructor
    · rintro ⟨l, member, responsible, position⟩
      exact ⟨l.ip, l, (loaded.byAddr l.ip l).mpr ⟨member, rfl⟩, responsible, position⟩
    · rintro ⟨other, l, found, responsible, position⟩
      obtain ⟨member, rfl⟩ := (loaded.byAddr other l).mp found
      exact ⟨l, member, responsible, position⟩

theorem Configured.restores_iff (configured : Configured conf s) (order : WalkOrder Addr) :
    s.Restores env conf order ↔ s.Settled env :=
  ⟨configured.settled, fun settled => configured.restores settled order⟩

end DHCPServer

namespace System

variable {env : Env}

theorem configured_reachable {conf : Config} {stored : List Lease} {clock : Time} {s : System}
    (reached : (machine env).Reachable (start env conf stored clock) s) :
    s.server.Configured conf := by
  refine (machine env).reachable_invariant (fun s => s.server.Configured conf) ?_ ?_ reached
  · intro s event configured
    rcases next_cases s event with ⟨stored, rfl⟩ | change
    · exact configured.reset stored
    · exact configured.change change
  · exact DHCPServer.Configured.new env conf stored

/-- A reachable state comes back from the database file exactly if it is settled. -/
theorem leases_restored {conf : Config} {stored : List Lease} {clock : Time} {s : System}
    (reached : (machine env).Reachable (start env conf stored clock) s) (order : WalkOrder Addr) :
    s.server.Restores env conf order ↔ s.server.Settled env :=
  (configured_reachable reached).restores_iff order

section Examples

private def reserved (client last : BitVec 8) (hostname : String) : Event :=
  .addLease ⟨.v4 (0xC0A800#24 ++ last), 0, hostname, sampleMAC.set 5 client, true⟩ true

private def declined (client last : BitVec 8) : Event :=
  .message4 0 { sampleMessage DHCPMsgType.decline 0 [⟨DHCPOption.requestIP, [192, 168, 0, last]⟩]
    with clientHWAddr := sampleMAC.set 5 client } sampleChance ⟨0, 0⟩

/-- Two leases of the file, one of them static and the other with a fraction of a second. -/
private def kept : List Lease :=
  [⟨.v4 0xC0A80064, 0, "pc", sampleMAC.set 5 1, true⟩,
    ⟨.v4 0xC0A80065, 5 * second + 1, "Phone", sampleMAC.set 5 2, false⟩]

theorem leases_restored_kept :
    ((machine sampleEnv).run (start sampleEnv sampleConfig kept 0) []).server.Restores sampleEnv
      sampleConfig .inserted := by
  refine (leases_restored ⟨_, rfl⟩ .inserted).mpr ?_
  obtain ⟨leases, fewer, loaded⟩ := DHCPServer.loaded_new sampleEnv sampleConfig kept
  refine loaded.settled (fun l member => ?_) fun l member => ?_
  · have static : ∀ l ∈ kept, l.isStatic = true → l.expiry / second = 0 := by decide
    exact static l (fewer l member)
  · have text : ∀ l ∈ kept, UTF8.toValid (bytesOfString l.hostname) = bytesOfString l.hostname ∧
        (l.hostname.toList.all fun c => c.toNat < 256) = true := by decide
    exact ⟨by simpa using (text l (fewer l member)).2, (text l (fewer l member)).1⟩

/-- Of two addresses that have been declined the database gives back one. -/
theorem blocked_lease_lost :
    ¬ ∀ events, ((machine sampleEnv).run (start sampleEnv sampleConfig [] 0) events
      ).server.Restores sampleEnv sampleConfig .inserted := by
  intro restore
  obtain ⟨t, opened, same⟩ :=
    restore [reserved 1 100 "a", reserved 2 101 "b", declined 1 100, declined 2 101]
  have stored : (((machine sampleEnv).run (start sampleEnv sampleConfig [] 0)
      [reserved 1 100 "a", reserved 2 101 "b", declined 1 100, declined 2 101]
        ).server.leaseByAddr (.v4 0xC0A80065)).isSome = true := by
    decide +kernel
  have lost : ((DHCPServer.dbLoad sampleEnv sampleConfig
      (((machine sampleEnv).run (start sampleEnv sampleConfig [] 0)
        [reserved 1 100 "a", reserved 2 101 "b", declined 1 100, declined 2 101]
          ).server.dbStore .inserted)).bind fun t => t.leaseByAddr (.v4 0xC0A80065)) = none := by
    decide +kernel
  rw [opened, Option.bind_some, same.byAddr] at lost
  rw [Option.map_eq_none_iff] at lost
  rw [lost] at stored
  cases stored

end Examples

end System

end AdGuardHome.Dhcpsvc
