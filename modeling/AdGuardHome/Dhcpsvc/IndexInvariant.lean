import AdGuardHome.Dhcpsvc.Consistency
import AdGuardHome.Dhcpsvc.Interfaces

namespace AdGuardHome.Dhcpsvc

open Netip Heap

namespace DHCPServer

variable {env : Env} {s : DHCPServer}

/-- Each interface's tables agree, and the index knows leases by what they are. -/
structure IndexesAgree (env : Env) (s : DHCPServer) : Prop where
  interfaces : ∀ id iface, s.common id = some iface → iface.Agrees s.heap
  byAddr : ∀ ip l, s.leases.byAddr.get ip = some l → (s.heap.read l).ip = ip
  byName : ∀ name l, s.leases.byName.get name = some l →
    env.toLower (s.heap.read l).hostname = name

def Disjoint (s : DHCPServer) : Prop :=
  ∀ id iface other iface' ip, s.common id = some iface → s.common other = some iface' →
    ip.isValid = true → iface.addrSpace.contains ip = true → iface'.addrSpace.contains ip = true →
      id = other

/-- The leases belong to one interface each, and the tables of some interfaces agree. -/
structure Tables (P : IfaceID → Prop) (s : DHCPServer) : Prop where
  owned : s.Owned
  consistent : ∀ id iface, P id → s.common id = some iface → iface.Consistent s.heap

structure Sound (env : Env) (s : DHCPServer) : Prop where
  tables : s.Tables fun _ => True
  indexed : ∀ iface, (s.world iface).Indexed env

variable {P : IfaceID → Prop}

theorem Sound.agree (sound : s.Sound env) : s.IndexesAgree env where
  interfaces := fun id iface found => (sound.tables.consistent id iface trivial found).toAgrees
  byAddr := fun ip l found => ((sound.indexed ⟨.new, ∅, .zero, 0⟩).byAddr ip l found).2
  byName := fun name l found => ((sound.indexed ⟨.new, ∅, .zero, 0⟩).byName name l found).2

variable {id : IfaceID} {iface : NetInterface} {l : Lease}

theorem Tables.setWorld (tables : s.Tables P) (here : s.common id = some iface) {w : World}
    (unchanged : World.Local (s.world iface) w)
    (consistent : P id → w.Consistent) : (s.setWorld id w).Tables P where
  owned := tables.owned.setWorld here unchanged
  consistent := by
    intro other iface' relevant found
    rw [common_setWorld here] at found
    split at found
    · rename_i same
      obtain rfl := Option.some.inj found
      exact consistent (same ▸ relevant)
    · rename_i different
      refine (tables.consistent other iface' relevant found).frame unchanged.grown ?_
      intro key l member
      rw [tables.owned.lease_setWorld here unchanged found different member]
      exact ⟨rfl, rfl⟩

theorem Sound.setWorld (sound : s.Sound env) (here : s.common id = some iface) {w : World}
    (unchanged : World.Local (s.world iface) w) (consistent : w.Consistent)
    (indexed : w.Indexed env) : (s.setWorld id w).Sound env where
  tables := sound.tables.setWorld here unchanged fun _ => consistent
  indexed := fun _ => indexed.congr rfl (fun _ _ found => .inl found) fun _ _ found => .inl found

theorem Sound.world (sound : s.Sound env)
    (here : s.common id = some iface) : (s.world iface).Consistent :=
  sound.tables.consistent id iface trivial here

theorem Sound.worldWith (sound : s.Sound env) (here : s.common id = some iface) (l : Lease) :
    (s.worldWith iface l).Consistent ∧ (s.worldWith iface l).Indexed env :=
  ⟨NetInterface.Consistent.alloc (sound.world here) l, (sound.indexed iface).alloc l rfl rfl⟩

/-- The lease of a call to `AddLease` is new to its interface. -/
def Addable (s : DHCPServer) (l : Lease) : Prop :=
  l.ip.isValid = true ∧ l.ip.zone = "" ∧
    ∀ id iface, s.ifaceAt l.ip = some (id, iface) → s.leases.byAddr.get l.ip = none →
      ∀ key other, iface.leases.get key = some other → (s.heap.read other).ip ≠ l.ip

/-- A call to `UpdateStaticLease` that is not rejected keeps the address. -/
def Updatable (env : Env) (s : DHCPServer) (l : Lease) : Prop :=
  ∀ id iface key prev, s.ifaceAt l.ip = some (id, iface) → key.val = l.hwAddr →
    iface.leases.get key = some prev →
    (s.worldWith iface l).isTaken l.hwAddr (s.leases.byAddr.get l.ip) = false →
    (s.worldWith iface l).isTaken l.hwAddr (s.leases.byName.get (env.toLower l.hostname)) = false →
      (s.heap.read prev).ip = l.ip

/-- A call to `RemoveLease` that is not rejected names the address that the hardware
address has. -/
def Removable (env : Env) (s : DHCPServer) (l : Lease) : Prop :=
  ∀ id iface key held, s.ifaceAt l.ip = some (id, iface) → key.val = l.hwAddr →
    iface.leases.get key = some held → (s.leases.byAddr.get l.ip).isSome = true →
    (s.leases.byName.get (env.toLower l.hostname)).isSome = true → (s.heap.read held).ip = l.ip

def Unleased (s : DHCPServer) : Prop :=
  ∀ id iface, s.common id = some iface → ∀ key, iface.leases.get key = none

theorem contains_of_ifaceAt {addr : Addr}
    (found : s.ifaceAt addr = some (id, iface)) : iface.addrSpace.contains addr = true := by
  obtain ⟨chosen, position, here⟩ := Option.bind_eq_some_iff.mp found
  obtain ⟨common, present, equal⟩ := Option.map_eq_some_iff.mp here
  obtain ⟨rfl, rfl⟩ := Prod.mk.inj equal
  unfold ifaceForAddr at position
  split at position
  · obtain ⟨i, first, rfl⟩ := Option.map_eq_some_iff.mp position
    obtain ⟨bound, inside, _⟩ := List.findIdx?_eq_some_iff_getElem.mp first
    simp only [DHCPServer.common, List.getElem?_eq_getElem bound, Option.map_some,
      Option.some.injEq] at present
    rwa [← present]
  · obtain ⟨i, first, rfl⟩ := Option.map_eq_some_iff.mp position
    obtain ⟨bound, inside, _⟩ := List.findIdx?_eq_some_iff_getElem.mp first
    simp only [DHCPServer.common, List.getElem?_eq_getElem bound, Option.map_some,
      Option.some.injEq] at present
    rwa [← present]

theorem size_worldWith (s : DHCPServer) (iface : NetInterface) (l : Lease) :
    s.heap.size < (s.worldWith iface l).heap.size :=
  Nat.lt_of_lt_of_eq (Nat.lt_succ_self _) (size_alloc _ _).symm

theorem read_worldWith (s : DHCPServer) (iface : NetInterface) (l : Lease) {other : Ref}
    (old : other < s.heap.size) : (s.worldWith iface l).heap.read other = s.heap.read other := by
  change (s.heap.alloc l).1.read other = _
  rw [read_alloc, if_neg (Nat.ne_of_lt old)]

/-- Adding a lease of a free address to a consistent interface. -/
theorem Tables.added (tables : s.Tables P) (env : Env) {key : MacKey} (relevant : P id)
    (found : s.ifaceAt l.ip = some (id, iface)) (owner : key.val = l.hwAddr)
    (free : iface.leases.get key = none) (freeAddr : s.leases.byAddr.get l.ip = none)
    (addable : s.Addable l) :
    ((s.worldWith iface l).added env key s.heap.size).Consistent := by
  have here := common_of_ifaceAt found
  have consistent := tables.consistent id iface relevant here
  have object : (s.worldWith iface l).heap.read s.heap.size = l := lease_worldWith s iface l
  obtain ⟨valid, zoneless, fresh⟩ := addable
  have grown : iface.Consistent (s.worldWith iface l).heap := consistent.alloc l
  refine NetInterface.Consistent.insert grown free (size_worldWith s iface l) ?_ ?_ ?_
  · rw [object, owner]
  · rw [object]
    exact ⟨valid, zoneless, contains_of_ifaceAt found⟩
  · intro k other member
    rw [object, read_worldWith s iface l (consistent.known k other member)]
    exact fresh id iface found freeAddr k other member

theorem Sound.addLease (sound : s.Sound env) (addable : s.Addable l)
    (stored : Bool) : (s.addLease env l stored).1.Sound env := by
  rcases addLease_cases env s l stored with
    same | ⟨id, iface, key, here, found, owner, free, freeAddr, _, result⟩
  · rwa [same]
  · obtain ⟨unchanged, own⟩ := local_worldWith s iface l
    rw [result]
    exact sound.setWorld here (unchanged.added env key own)
      (sound.tables.added env trivial found owner free freeAddr addable)
      ((sound.worldWith here l).2.added key (size_worldWith s iface l))

theorem Sound.updateStaticLease (sound : s.Sound env) (updatable : s.Updatable env l)
    (stored : Bool) : (s.updateStaticLease env l stored).1.Sound env := by
  unfold DHCPServer.updateStaticLease
  cases found : s.ifaceAt l.ip with
  | none => exact sound
  | some at_ =>
    obtain ⟨id, iface⟩ := at_
    have here := common_of_ifaceAt found
    obtain ⟨unchanged, own⟩ := local_worldWith s iface l
    obtain ⟨consistent, indexed⟩ := sound.worldWith here l
    have known := size_worldWith s iface l
    have object : (s.worldWith iface l).lease s.heap.size = l := lease_worldWith s iface l
    refine sound.setWorld here (unchanged.update env own stored) ?_ (indexed.update known stored)
    rcases World.update_cases env (s.worldWith iface l) s.heap.size stored with
      ⟨same, _⟩ | ⟨key, prev, owner, member, freeAddr, freeName, result⟩
    · rwa [same]
    · rw [result]
      rw [object] at owner freeAddr freeName
      have read := read_worldWith s iface l (sound.tables.owned.known id iface key prev here member)
      have mine : (s.worldWith iface l).heap.read s.heap.size = l := object
      refine NetInterface.Consistent.replace consistent member known ?_ ?_
      · rw [mine, owner]
      · rw [read, mine]
        exact updatable id iface key prev found owner member freeAddr freeName

theorem Sound.removeLease (sound : s.Sound env) (removable : s.Removable env l)
    (stored : Bool) : (s.removeLease env l stored).1.Sound env := by
  unfold DHCPServer.removeLease
  cases found : s.ifaceAt l.ip with
  | none => exact sound
  | some at_ =>
    obtain ⟨id, iface⟩ := at_
    have here := common_of_ifaceAt found
    refine sound.setWorld here ((World.Local.refl _).remove env l stored) ?_
      ((sound.indexed iface).remove l stored)
    rcases World.remove_cases env (s.world iface) l stored with
      same | ⟨key, held, owner, member, hasAddr, hasName, result⟩
    · rw [same]
      exact sound.world here
    · rw [result]
      exact (sound.world here).removed env member
        (removable id iface key held found owner member hasAddr hasName).symm

theorem Sound.reset (sound : s.Sound env) (unleased : s.Unleased) (stored : Bool) :
    (s.reset stored).1.Sound env where
  tables := by
    refine ⟨Owned.reset s stored, ?_⟩
    intro id iface _ found
    rw [common_reset, Option.map_eq_some_iff] at found
    obtain ⟨before, present, rfl⟩ := found
    refine (sound.tables.consistent id before trivial present).congr ?_ rfl rfl
    intro key
    rw [unleased id before present key]
    exact FiniteMap.get_empty key
  indexed := by
    intro iface
    refine ⟨?_, ?_⟩ <;> intro _ _ found <;> simp [DHCPServer.world, DHCPServer.reset] at found

theorem Tables.perform (tables : s.Tables P) (here : s.common id = some iface) {key : MacKey}
    {op : Operation} {chance : Chance} {clock : Readings} (plans : (s.world iface).Plans key op)
    (safe : (s.world iface).Allocates env chance clock op) :
    (s.setWorld id ((s.world iface).perform env chance clock op)).Tables P := by
  refine tables.setWorld here (World.local_perform env plans chance clock) fun relevant => ?_
  have consistent : (s.world iface).Consistent := tables.consistent id iface relevant here
  exact consistent.perform plans safe

theorem Sound.perform (sound : s.Sound env) (here : s.common id = some iface) {key : MacKey}
    {op : Operation} {chance : Chance} {clock : Readings} (plans : (s.world iface).Plans key op)
    (safe : (s.world iface).Safe env chance clock op) :
    (s.setWorld id ((s.world iface).perform env chance clock op)).Sound env :=
  sound.setWorld here (World.local_perform env plans chance clock)
    ((sound.world here).perform plans safe.allocates)
    ((sound.indexed iface).perform (sound.world here) plans safe)

theorem proper_addrSpace4 {c : IPv4Config} (valid : c.validate = true) : c.addrSpace.Proper := by
  simp only [IPv4Config.validate, Bool.and_eq_true] at valid
  obtain ⟨⟨⟨⟨⟨⟨_, _⟩, start⟩, stop⟩, _⟩, _⟩, _⟩ := valid
  have zoneless : ∀ {addr : Addr}, addr.is4 = true → addr.isValid = true ∧ addr.zone = "" := by
    intro addr is4
    cases addr with
    | zero => cases is4
    | v4 value => exact ⟨rfl, rfl⟩
    | v6 value zone => cases is4
  exact IPRange.proper_newIPRange (zoneless start).1 (zoneless start).2 (zoneless stop).2

theorem proper_addrSpace6 {c : IPv6Config} (valid : c.validate = true)
    (zoneless : c.rangeStart.zone = "") : c.addrSpace.Proper := by
  simp only [IPv6Config.validate, Bool.and_eq_true] at valid
  refine IPRange.proper_newIPRange ?_ zoneless rfl
  cases start : c.rangeStart with
  | zero => simp [start, Addr.is6] at valid
  | v4 value => rfl
  | v6 value zone => rfl

/-- The ranges of the IPv6 interfaces start with addresses without zones. -/
def Zoneless (conf : Config) : Prop := ∀ c ∈ conf.interfaces6, c.1.rangeStart.zone = ""

theorem tables_empty {conf : Config}
    (proper : ∀ id iface, P id → (empty conf).common id = some iface → iface.addrSpace.Proper) :
    (empty conf).Tables P := by
  refine ⟨owned_empty conf, ?_⟩
  intro id iface relevant found
  obtain ⟨leases, offsets⟩ := leases_empty found
  have none_held : ∀ key l, iface.leases.get key ≠ some l := by
    intro key l member
    simp [leases] at member
  refine ⟨⟨?_, ?_, ?_⟩, proper id iface relevant found, ?_, ?_⟩
  · exact fun key l member => absurd member (none_held key l)
  · exact fun key l _ _ member _ => absurd member (none_held key l)
  · intro ip offset _ _ _
    rw [offsets]
    constructor
    · intro set
      simp at set
    · rintro ⟨key, l, member, _⟩
      exact absurd member (none_held key l)
  · exact fun key l member => absurd member (none_held key l)
  · exact fun key l member => absurd member (none_held key l)

theorem sound_empty {conf : Config} (zoneless : Zoneless conf) : (empty conf).Sound env where
  tables := by
    refine tables_empty ?_
    intro id iface _ found
    rcases common_empty found with ⟨c, member, _, rfl⟩ | ⟨c, member, _, rfl⟩
    · exact proper_addrSpace4 (conf.valid4 c member)
    · exact proper_addrSpace6 (conf.valid6 c member) (zoneless c member)
  indexed := by
    intro iface
    refine ⟨?_, ?_⟩ <;> intro _ _ found <;> simp [DHCPServer.world, empty] at found

/-- The index knows all leases, as it does while they are loaded. -/
def Listed (s : DHCPServer) : Prop :=
  ∀ id iface key l, s.common id = some iface → iface.leases.get key = some l →
    s.leases.byAddr.get (s.heap.read l).ip = some l

theorem Listed.addLease (listed : s.Listed) (owned : s.Owned) (l : Lease) (stored : Bool) :
    (s.addLease env l stored).1.Listed := by
  rcases addLease_cases env s l stored with
    same | ⟨id, iface, key, here, _, _, _, freeAddr, _, result⟩
  · rwa [same]
  · have new : (s.heap.alloc l).1.read s.heap.size = l := by
      rw [read_alloc, if_pos rfl]
    have index : (s.setWorld id ((s.worldWith iface l).added env key s.heap.size)).leases.byAddr =
        s.leases.byAddr.set l.ip s.heap.size := by
      change s.leases.byAddr.set ((s.worldWith iface l).lease s.heap.size).ip s.heap.size = _
      rw [lease_worldWith]
    have before : ∀ other iface' k l', s.common other = some iface' →
        iface'.leases.get k = some l' →
          (s.leases.byAddr.set l.ip s.heap.size).get ((s.heap.alloc l).1.read l').ip = some l' := by
      intro other iface' k l' found member
      rw [read_alloc, if_neg (Nat.ne_of_lt (owned.known other iface' k l' found member)),
        FiniteMap.get_set]
      have held := listed other iface' k l' found member
      split
      · rename_i equal
        rw [equal, freeAddr] at held
        cases held
      · exact held
    rw [result]
    intro other iface' k l' found member
    rw [index]
    change (s.leases.byAddr.set l.ip s.heap.size).get ((s.heap.alloc l).1.read l').ip = some l'
    rw [common_setWorld here] at found
    split at found
    · obtain rfl := Option.some.inj found
      change (iface.leases.set key s.heap.size).get k = some l' at member
      rcases FiniteMap.of_get_set member with ⟨_, rfl⟩ | ⟨_, old⟩
      · rw [new, FiniteMap.get_set, if_pos rfl]
      · exact before id iface k l' here old
    · exact before other iface' k l' found member

theorem Listed.addable (listed : s.Listed) (valid : l.ip.isValid = true)
    (zoneless : l.ip.zone = "") : s.Addable l := by
  refine ⟨valid, zoneless, ?_⟩
  intro id iface found free key other member equal
  have held := listed id iface key other (common_of_ifaceAt found) member
  rw [equal, free] at held
  cases held

theorem sound_new {conf : Config} (zoneless : Zoneless conf) {stored : List Lease}
    (loadable : ∀ l ∈ stored, l.ip.isValid = true ∧ l.ip.zone = "") :
    (new env conf stored).Sound env := by
  refine (new_invariant env conf (fun s => s.Sound env ∧ s.Listed) ?_ ?_).1
  · refine ⟨sound_empty zoneless, ?_⟩
    intro id iface key l found member
    simp [(leases_empty found).1] at member
  · rintro s l member ⟨sound, listed⟩
    obtain ⟨valid, zone⟩ := loadable l member
    exact ⟨sound.addLease (listed.addable valid zone) true,
      listed.addLease sound.tables.owned l true⟩

end DHCPServer

namespace System

variable {env : Env}

/-- What an event needs to keep the tables and the index right. -/
def Careful (env : Env) (s : System) : Event → Prop
  | .message4 i req chance delay => ∀ iface, s.server.interfaces4[i]? = some iface →
    (s.server.world iface.common).Safe env chance (s.readings delay)
      ((s.server.world iface.common).plan4 iface.conf req)
  | .message6 i srcMAC req chance delay => ∀ iface, s.server.interfaces6[i]? = some iface →
    (s.server.world iface.common).Safe env chance (s.readings delay)
      ((s.server.world iface.common).plan6 env iface.conf srcMAC req)
  | .addLease l _ => s.server.Addable l
  | .updateStaticLease l _ => s.server.Updatable env l
  | .removeLease l _ => s.server.Removable env l
  | .reset _ => s.server.Unleased

theorem sound_next {s : System} (sound : s.server.Sound env) {event : Event}
    (careful : s.Careful env event) : ((machine env).next s event).server.Sound env := by
  cases event with
  | message4 i req chance delay =>
    change (s.server.serve4 env i req chance (s.readings delay)).1.Sound env
    cases found : s.server.interfaces4[i]? with
    | none => simpa [DHCPServer.serve4, found] using sound
    | some iface =>
      have here := DHCPServer.common_of_interfaces4 found
      have safe := careful iface found
      rw [DHCPServer.serve4_server found]
      rcases World.plan4_plans iface.conf (s.server.world iface.common) req with
        idle | ⟨key, _, plans⟩
      · rw [idle]
        exact sound.setWorld here (World.Local.refl _) (sound.world here) (sound.indexed _)
      · exact sound.perform here plans safe
  | message6 i srcMAC req chance delay =>
    change (s.server.serve6 env i srcMAC req chance (s.readings delay)).1.Sound env
    cases found : s.server.interfaces6[i]? with
    | none => simpa [DHCPServer.serve6, found] using sound
    | some iface =>
      rw [DHCPServer.serve6_server found]
      exact sound.perform (DHCPServer.common_of_interfaces6 found)
        (World.plan6_plans env iface.conf _ srcMAC req) (careful iface found)
  | addLease l stored => exact sound.addLease careful stored
  | updateStaticLease l stored => exact sound.updateStaticLease careful stored
  | removeLease l stored => exact sound.removeLease careful stored
  | reset stored => exact sound.reset careful stored

/-- In a run of careful events the tables of each interface agree and the index is right. -/
theorem indexes_agree {conf : Config} (zoneless : DHCPServer.Zoneless conf) {stored : List Lease}
    (loadable : ∀ l ∈ stored, l.ip.isValid = true ∧ l.ip.zone = "") (clock : Time)
    {events : List Event}
    (careful : (machine env).Allowed (Careful env) (start env conf stored clock) events) :
    ((machine env).run (start env conf stored clock) events).server.IndexesAgree env :=
  ((machine env).run_invariant (fun s => s.server.Sound env)
    (fun _ _ sound careful => sound_next sound careful)
    (DHCPServer.sound_new zoneless loadable) careful).agree

private def printer (hostname : String) : Lease :=
  ⟨.v4 0xC0A80065, 0, hostname, sampleMAC.set 5 2, true⟩

/-- A client takes an address and a name, and the lease of a printer comes, changes and goes. -/
private def sampleDay : List Event :=
  [.message4 0 (sampleMessage DHCPMsgType.discover 0 []) sampleChance ⟨0, 0⟩,
    .message4 0 (sampleMessage DHCPMsgType.request 0xC0A80064 [⟨DHCPOption.hostname, [0x70, 0x63]⟩])
      sampleChance ⟨0, 0⟩,
    .addLease (printer "printer") true, .updateStaticLease (printer "scanner") true,
    .removeLease (printer "scanner") true]

private theorem read_of_all {s : DHCPServer} {ip : Addr} {P : MacKey → Lease → Prop}
    (all : ∀ here ∈ s.ifaceAt ip, ∀ key ∈ here.2.leases.keys, ∀ l ∈ here.2.leases.get key,
      P key (s.heap.read l)) {id : IfaceID} {iface : NetInterface} {key : MacKey} {l : Ref}
    (found : s.ifaceAt ip = some (id, iface)) (member : iface.leases.get key = some l) :
    P key (s.heap.read l) :=
  all _ found key ((FiniteMap.mem_keys _ _).mpr ⟨l, member⟩) l member

theorem indexes_agree_day :
    ((machine sampleEnv).run (start sampleEnv sampleConfig [] 0) sampleDay).server.IndexesAgree
        sampleEnv ∧
      (((machine sampleEnv).run (start sampleEnv sampleConfig [] 0) (sampleDay.take 4)
        ).server.leases.byName.keys = ["scanner", "pc"]) := by
  refine ⟨indexes_agree ?zoneless ?loadable 0 ⟨?discover, ?request, ?add, ?update, ?remove, trivial⟩,
    by decide +kernel⟩
  case zoneless => exact fun c member => absurd member (by simp [sampleConfig])
  case loadable => exact fun l member => absurd member (by simp)
  case discover =>
    intro iface found
    obtain rfl := Option.some.inj found
    intro full
    exact absurd full (by decide)
  case request =>
    intro iface found
    obtain rfl := Option.some.inj found
    intro unnamed
    exact absurd unnamed (by decide +kernel)
  case add =>
    refine ⟨rfl, rfl, ?_⟩
    intro id iface found _ key l member
    exact read_of_all (P := fun _ other => other.ip ≠ (printer "").ip) (by decide +kernel)
      found member
  case update =>
    intro id iface key prev found owner member _ _
    exact read_of_all (P := fun key other => key.val = (printer "").hwAddr →
      other.ip = (printer "").ip) (by decide +kernel) found member owner
  case remove =>
    intro id iface key held found owner member _ _
    exact read_of_all (P := fun key other => key.val = (printer "").hwAddr →
      other.ip = (printer "").ip) (by decide +kernel) found member owner

theorem disjoint_sample : (DHCPServer.empty sampleConfig).Disjoint := by
  have only : ∀ {id iface}, (DHCPServer.empty sampleConfig).common id = some iface →
      id = .v4 0 := by
    intro id iface found
    cases id with
    | v4 i =>
      cases i with
      | zero => rfl
      | succ i => simp [DHCPServer.common, DHCPServer.empty, sampleConfig] at found
    | v6 i => simp [DHCPServer.common, DHCPServer.empty, sampleConfig] at found
  intro id iface other iface' ip here there _ _ _
  rw [only here, only there]

/-- `Reset` forgets the leases, but not that their addresses are leased. -/
theorem reset_keeps_offsets :
    ¬ ∀ (env : Env) (conf : Config) (stored : List Lease) (clock : Time) (events : List Event),
      (DHCPServer.empty conf).Disjoint →
        ((machine env).run (start env conf stored clock) events).server.IndexesAgree env := by
  intro claim
  have agrees := claim sampleEnv sampleConfig [] 0
    [.addLease ⟨.v4 0xC0A80064, 0, "a", sampleMAC, true⟩ true, .reset true] disjoint_sample
  have interface := agrees.interfaces (.v4 0) _ rfl
  obtain ⟨key, l, member, _⟩ := (interface.offsets (.v4 0xC0A80064) 0 rfl rfl (by decide)).mp
    (by decide)
  cases (FiniteMap.get_empty key).symm.trans member

end System

end AdGuardHome.Dhcpsvc
