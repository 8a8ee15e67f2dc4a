import AdGuardHome.Dhcpsvc.Answers
import AdGuardHome.Dhcpsvc.IndexInvariant

namespace AdGuardHome.Dhcpsvc

open Netip Heap

def Operation.IsV4 : Operation → Prop
  | .allocateCommitted _ _ | .commit6 _ _ _ => False
  | _ => True

namespace World

variable {env : Env} {w : World}

theorem plan4_isV4 (conf : DHCPInterfaceV4) (w : World) (req : DHCPv4) :
    (w.plan4 conf req).IsV4 := by
  unfold plan4
  split
  · trivial
  split
  · trivial
  split
  · split
    · trivial
    · split <;> trivial
  split
  · split <;> trivial
  split
  · split <;> trivial
  split
  · split <;> trivial
  · trivial

/-- The client has the lease of an address, at least until some time. -/
structure Held (w : World) (key : MacKey) (l : Ref) (ip : Addr) (until_ : Time) : Prop where
  member : w.iface.leases.get key = some l
  ip : (w.lease l).ip = ip
  lasting : (w.lease l).isStatic = true ∨ until_ ≤ (w.lease l).expiry

variable {key : MacKey} {l : Ref} {ip : Addr} {until_ : Time}

theorem Held.congr (held : w.Held key l ip until_) {other : World}
    (member : other.iface.leases.get key = some l) (same : other.lease l = w.lease l) :
    other.Held key l ip until_ where
  member := member
  ip := by
    rw [same]
    exact held.ip
  lasting := by
    rw [same]
    exact held.lasting

variable {other : Ref} {k : MacKey}

/-- Writes to other leases do not matter, and those to the lease itself keep what counts. -/
theorem Held.setLease (held : w.Held key l ip until_) {change : Lease → Lease}
    (known : l < w.heap.size) (kept : other = l → (change (w.lease l)).ip = (w.lease l).ip ∧
      (change (w.lease l)).isStatic = (w.lease l).isStatic ∧
      (change (w.lease l)).expiry = (w.lease l).expiry) :
    (w.setLease other change).Held key l ip until_ := by
  by_cases same : other = l
  · obtain ⟨address, static, expiry⟩ := kept same
    subst same
    have written : (w.setLease other change).lease other = change (w.lease other) :=
      (lease_setLease w known change other).trans (if_pos rfl)
    refine ⟨held.member, ?_, ?_⟩
    · rw [written, address]
      exact held.ip
    · rw [written, static, expiry]
      exact held.lasting
  · exact held.congr held.member (read_modify_ne (Ne.symm same) _ _)

theorem Held.key_ne (held : w.Held key l ip until_) (there : w.iface.leases.get k = some other)
    (different : other ≠ l) : key ≠ k := by
  rintro rfl
  rw [held.member] at there
  exact different (Option.some.inj there).symm

theorem Held.removeLease (held : w.Held key l ip until_) (consistent : w.Consistent)
    (there : w.iface.leases.get k = some other) (different : other ≠ l) {iface : NetInterface}
    (done : w.iface.removeLease (w.lease other) = .ok iface) :
    ({ w with iface } : World).Held key l ip until_ := by
  obtain ⟨gone, _, owner, _, rfl⟩ := removeLease_ok done
  obtain rfl : gone = k := Subtype.ext (owner.trans (consistent.keys k other there))
  refine held.congr ?_ rfl
  change (w.iface.leases.delete gone).get key = some l
  rw [FiniteMap.get_delete, if_neg (held.key_ne there different)]
  exact held.member

theorem Held.remove (held : w.Held key l ip until_) (consistent : w.Consistent) (env : Env)
    (there : w.iface.leases.get k = some other) (different : other ≠ l)
    (stored : Bool) : (w.remove env (w.lease other) stored).1.Held key l ip until_ := by
  rcases remove_cases env w (w.lease other) stored with same | ⟨gone, _, owner, _, _, _, result⟩
  · rwa [same]
  · obtain rfl : gone = k := Subtype.ext (owner.trans (consistent.keys k other there))
    rw [result]
    refine held.congr ?_ rfl
    change (w.iface.leases.delete gone).get key = some l
    rw [FiniteMap.get_delete, if_neg (held.key_ne there different)]
    exact held.member

theorem Held.update (held : w.Held key l ip until_) (consistent : w.Consistent) (env : Env)
    (there : w.iface.leases.get k = some other) (stored : Bool) :
    (w.update env other stored).1.Held key l ip until_ := by
  rcases update_cases env w other stored with ⟨same, _⟩ | ⟨set, prev, owner, _, _, _, result⟩
  · rwa [same]
  · obtain rfl : set = k := Subtype.ext (owner.trans (consistent.keys k other there))
    rw [result]
    refine held.congr ?_ rfl
    change (w.iface.leases.set set other).get key = some l
    rw [FiniteMap.get_set]
    split
    · rename_i here
      rw [← here, held.member] at there
      exact there.symm
    · exact held.member

theorem Held.allocation (held : w.Held key l ip until_) (consistent : w.Consistent)
    {now : Time} {order : WalkOrder MacKey} {w' : World} {new : Ref}
    (free : w.iface.leases.get k = none) (unexpired : (w.lease l).isExpiredAt now = false)
    (allocation : Allocation env w k now order w' new) : w'.Held key l ip until_ := by
  have known : l < w.heap.size := consistent.known key l held.member
  have different : key ≠ k := by
    rintro rfl
    rw [held.member] at free
    cases free
  cases allocation with
  | fresh found valid =>
    refine held.congr ?_ ?_
    · change (w.iface.leases.set k w.heap.size).get key = some l
      rw [FiniteMap.get_set, if_neg different]
      exact held.member
    · change (w.heap.alloc _).1.read l = _
      rw [read_alloc, if_neg (Nat.ne_of_lt known)]
      rfl
  | recycled full expired =>
    obtain ⟨owner, there, dynamic, past⟩ := findExpiredLease_some expired
    have other : new ≠ l := by
      rintro rfl
      simp only [Lease.isExpiredAt, dynamic, Bool.false_eq_true, if_false,
        decide_eq_false_iff_not] at unexpired
      exact unexpired past
    have removed := held.remove consistent env there other true
    have knownRemoved : l < (w.remove env (w.lease new) true).1.heap.size :=
      Nat.lt_of_lt_of_le known ((Local.refl w).remove env _ true).grown
    have changed : ((w.remove env (w.lease new) true).1.setLease new fun lease =>
        recycled lease k now w.iface.leaseTTL).Held key l ip until_ :=
      removed.setLease knownRemoved fun same => absurd same other
    refine changed.congr ?_ rfl
    change (FiniteMap.set _ k new).get key = some l
    rw [FiniteMap.get_set, if_neg different]
    exact changed.member

/-- Messages of other clients, and those of the client itself that do not give the address
up, keep a lease that has not expired. -/
theorem Held.perform (held : w.Held key l ip until_) (consistent : w.Consistent) {op : Operation}
    (plans : w.Plans k op) (v4 : op.IsV4) {chance : Chance} {clock : Readings}
    (live : clock.now < until_) (kept : op ≠ .release l ∧ op ≠ .block l) :
    (w.perform env chance clock op).Held key l ip until_ := by
  have known : l < w.heap.size := consistent.known key l held.member
  have unexpired : (w.lease l).isStatic = true ∨ clock.now < (w.lease l).expiry :=
    held.lasting.imp_right fun lasting => Int.lt_of_lt_of_le live lasting
  cases op with
  | allocateCommitted _ _ => exact v4.elim
  | commit6 _ _ _ => exact v4.elim
  | nothing => exact held
  | refresh other =>
    refine held.setLease known fun _ => ⟨Lease.updateExpiry_ip .., Lease.updateExpiry_isStatic ..,
      ?_⟩
    rcases (w.lease l).updateExpiry_eq clock.now w.iface.leaseTTL with
      same | ⟨dynamic, expired, _⟩
    · rw [same]
    · rcases unexpired with static | later
      · rw [dynamic] at static
        cases static
      · exact absurd later (Int.not_lt.mpr expired)
  | allocate k' =>
    obtain ⟨rfl, free⟩ := plans
    have fresh : (w.lease l).isExpiredAt clock.now = false := by
      unfold Lease.isExpiredAt
      rcases unexpired with static | later
      · rw [static, if_pos rfl]
      · split
        · rfl
        · simpa using Int.le_of_lt later
    rcases allocate_cases env w k' clock.now chance.order with ⟨_, failed⟩ | ⟨w', new, done, allocated⟩
    · simpa only [World.perform, failed] using held
    · simpa only [World.perform, done] using held.allocation consistent free fresh allocated
  | commit4 other hostname =>
    have named : (w.setLease other fun lease => { lease with hostname }).Held key l ip until_ :=
      held.setLease known fun _ => ⟨rfl, rfl, rfl⟩
    have consistentNamed : (w.setLease other fun lease => { lease with hostname }).Consistent :=
      consistent.setLease (consistent.known k other plans) rfl rfl
    exact named.update consistentNamed env plans chance.stored
  | block other =>
    have different : other ≠ l := by
      rintro rfl
      exact kept.2 rfl
    dsimp only [World.perform]
    unfold World.blockLease
    split
    · exact held
    · rename_i iface done
      exact (held.removeLease consistent plans different done).setLease known fun same =>
        absurd same different
  | release other =>
    have different : other ≠ l := by
      rintro rfl
      exact kept.1 rfl
    exact held.remove consistent env plans different chance.stored

/-- What an operation needs so that it gives no address to two clients: an expired lease
that it hands on is removed first, and a lease it confirms lasts as long as it says. -/
def Honest (env : Env) (w : World) (chance : Chance) (clock : Readings) (op : Operation) : Prop :=
  Allocates env w chance clock op ∧ ∀ l hostname, op = .commit4 l hostname →
    ((w.setLease l fun lease => { lease with hostname }).update env l chance.stored).2 = .ok () →
      (w.lease l).isStatic = true ∨ Backed ((w.lease l).expiry - clock.later)

instance (env : Env) (w : World) (chance : Chance) (clock : Readings) (op : Operation) :
    Decidable (w.Honest env chance clock op) :=
  match op with
  | .commit4 l hostname =>
    decidable_of_iff
      (((w.setLease l fun lease => { lease with hostname }).update env l chance.stored).2 = .ok () →
        (w.lease l).isStatic = true ∨ Backed ((w.lease l).expiry - clock.later))
      ⟨fun holds => ⟨trivial, fun _ _ same => by cases same; exact holds⟩,
        fun honest => honest.2 l hostname rfl⟩
  | .allocate key =>
    decidable_of_iff (Recyclable env w clock.now chance.order)
      ⟨fun holds => ⟨holds, nofun⟩, fun honest => honest.1⟩
  | .allocateCommitted key req =>
    decidable_of_iff (Recyclable env w clock.now chance.order)
      ⟨fun holds => ⟨holds, nofun⟩, fun honest => honest.1⟩
  | .nothing => .isTrue ⟨trivial, nofun⟩
  | .refresh _ => .isTrue ⟨trivial, nofun⟩
  | .commit6 _ _ _ => .isTrue ⟨trivial, nofun⟩
  | .block _ => .isTrue ⟨trivial, nofun⟩
  | .release _ => .isTrue ⟨trivial, nofun⟩

/-- A client that gets a `DHCPACK` has the lease for as long as it says. -/
theorem held_of_ack (consistent : w.Consistent) {conf : DHCPInterfaceV4} {req : DHCPv4}
    {chance : Chance} {clock : Readings} {resp : Response4}
    (honest : w.Honest env chance clock (w.plan4 conf req))
    (sent : (w.serveV4 env conf req chance clock).2 = some resp)
    (ack : resp.messageType = DHCPMsgType.ack) {d : BitVec 32} (time : resp.leaseTime = some d) :
    ∃ (key : MacKey) (l : Ref), key.val = resp.clientHWAddr ∧
      (w.serveV4 env conf req chance clock).1.Held key l resp.yourClientIP
        (clock.later + ofSeconds d) := by
  obtain ⟨l, hostname, planned, ⟨asked, accepted⟩, answered⟩ := serveV4_ack sent ack
  obtain ⟨key, owner, there⟩ := requestedLease_owner asked
  refine ⟨key, l, owner.trans (by rw [answered]; rfl), ?_⟩
  rw [serveV4_world, planned]
  have known : l < w.heap.size := consistent.known key l there
  have consistentNamed : (w.setLease l fun lease => { lease with hostname }).Consistent :=
    consistent.setLease known rfl rfl
  have named : (w.setLease l fun lease => { lease with hostname }).lease l =
      { w.lease l with hostname } := (lease_setLease w known _ l).trans (if_pos rfl)
  have kept : ∀ until_, (w.lease l).isStatic = true ∨ until_ ≤ (w.lease l).expiry →
      (w.perform env chance clock (.commit4 l hostname)).Held key l (w.lease l).ip until_ := by
    intro until_ lasting
    have before : (w.setLease l fun lease => { lease with hostname }).Held key l (w.lease l).ip
        until_ := ⟨there, by rw [named], by rw [named]; exact lasting⟩
    exact before.update consistentNamed env there chance.stored
  have after := (kept (w.lease l).expiry (.inr (Int.le_refl _))).ip
  have same : (w.perform env chance clock (.commit4 l hostname)).lease l =
      { w.lease l with hostname } := by
    rcases update_cases env (w.setLease l fun lease => { lease with hostname }) l chance.stored with
      ⟨unchanged, _⟩ | ⟨_, _, _, _, _, _, result⟩
    · rw [perform, unchanged]
      exact named
    · rw [perform, result]
      exact named
  rw [answered] at time ⊢
  dsimp only [respondLease, leaseTimeOption] at time ⊢
  rw [after]
  refine kept _ ?_
  rw [same] at time
  by_cases static : (w.lease l).isStatic = true
  · exact .inl static
  · right
    have backed := (honest.2 l hostname planned accepted).resolve_left static
    have bound := backed.ofSeconds_le env
    have said := Option.some.inj time
    rw [if_neg static] at said
    rw [← said]
    calc clock.later + ofSeconds (uint32Seconds env ((w.lease l).expiry - clock.later))
        ≤ clock.later + ((w.lease l).expiry - clock.later) := Int.add_le_add_left bound _
      _ = (w.lease l).expiry := add_sub_cancel _ _

end World

namespace DHCPServer

variable {env : Env} {s : DHCPServer}

def IsV4 : IfaceID → Prop
  | .v4 _ => True
  | .v6 _ => False

/-- A client has a lease on an IPv4 interface, at least until some time. -/
def Held (s : DHCPServer) (i : Nat) (key : MacKey) (l : Ref) (ip : Addr) (until_ : Time) : Prop :=
  ∃ iface, s.common (.v4 i) = some iface ∧ (s.world iface).Held key l ip until_

def GivesUp (mac : HardwareAddr) (ip : Addr) (req : DHCPv4) : Prop :=
  req.clientHWAddr = mac ∧
    (req.msgType = some DHCPMsgType.release ∧ .v4 req.clientIP = ip ∨
      req.msgType = some DHCPMsgType.decline ∧ req.requestedIPv4 = some ip)

variable {key : MacKey} {l : Ref} {ip : Addr} {until_ : Time}

/-- Only a message that gives the address up releases or blocks its lease. -/
theorem givesUp_of_plan4 {conf : DHCPInterfaceV4} {w : World} (consistent : w.Consistent)
    (held : w.Held key l ip until_) {req : DHCPv4}
    (planned : w.plan4 conf req = .release l ∨ w.plan4 conf req = .block l) :
    GivesUp key.val ip req := by
  have mine : ∀ {mac x}, w.leaseByMacWithIP mac x = some l → mac = key.val ∧ x = ip := by
    intro mac x found
    obtain ⟨k, owner, there, here⟩ := World.leaseByMacWithIP_eq_some found
    obtain rfl := consistent.key_unique there held.member
    exact ⟨owner.symm, here.symm.trans held.ip⟩
  unfold World.plan4 at planned
  split at planned
  · rcases planned with planned | planned <;> cases planned
  split at planned
  · rcases planned with planned | planned <;> cases planned
  rename_i typ given
  split at planned
  · split at planned
    · rcases planned with planned | planned <;> cases planned
    · split at planned <;> rcases planned with planned | planned <;> cases planned
  split at planned
  · split at planned <;> rcases planned with planned | planned <;> cases planned
  split at planned
  · rename_i release
    split at planned
    · rcases planned with planned | planned <;> cases planned
    · rename_i other found
      rcases planned with planned | planned
      · obtain rfl := Operation.release.inj planned
        unfold World.releasedLease at found
        split at found
        · obtain ⟨owner, here⟩ := mine found
          exact ⟨owner, .inl ⟨by rw [given, release], here⟩⟩
        · cases found
      · cases planned
  split at planned
  · rename_i decline
    split at planned
    · rcases planned with planned | planned <;> cases planned
    · rename_i other found
      rcases planned with planned | planned
      · cases planned
      · obtain rfl := Operation.block.inj planned
        obtain ⟨reqIP, requested, found⟩ := Option.bind_eq_some_iff.mp found
        split at found
        · obtain ⟨owner, here⟩ := mine found
          exact ⟨owner, .inr ⟨by rw [given, decline], by rw [requested, here]⟩⟩
        · cases found
  · rcases planned with planned | planned <;> cases planned

variable {req : DHCPv4} {chance : Chance} {clock : Readings} {i j : Nat}

/-- A message on an IPv4 interface keeps the tables of all of them. -/
theorem Tables.serve4 (tables : s.Tables IsV4)
    (honest : ∀ iface, s.interfaces4[i]? = some iface →
      (s.world iface.common).Honest env chance clock
        ((s.world iface.common).plan4 iface.conf req)) :
    (s.serve4 env i req chance clock).1.Tables IsV4 := by
  cases found : s.interfaces4[i]? with
  | none => simpa [DHCPServer.serve4, found] using tables
  | some iface =>
    have here := common_of_interfaces4 found
    rw [serve4_server found]
    rcases World.plan4_plans iface.conf (s.world iface.common) req with idle | ⟨key, _, plans⟩
    · rw [idle]
      exact tables.setWorld here (World.Local.refl _) fun _ =>
        tables.consistent (.v4 i) iface.common trivial here
    · exact tables.perform here plans (honest iface found).1

/-- A message keeps a lease that has not expired, unless it gives the address up. -/
theorem Held.serve4 (held : s.Held i key l ip until_) (tables : s.Tables IsV4)
    (live : clock.now < until_) (kept : ¬ GivesUp key.val ip req) :
    (s.serve4 env j req chance clock).1.Held i key l ip until_ := by
  obtain ⟨common, present, held⟩ := held
  cases found : s.interfaces4[j]? with
  | none => exact ⟨common, by simpa [DHCPServer.serve4, found] using present,
      by simpa [DHCPServer.serve4, found] using held⟩
  | some iface =>
    have here := common_of_interfaces4 found
    have unchanged := local_plan4 env iface.conf (s.world iface.common) req chance clock
    have consistent : (s.world iface.common).Consistent :=
      tables.consistent (.v4 j) iface.common trivial here
    rw [serve4_server found]
    by_cases same : i = j
    · subst same
      obtain rfl := Option.some.inj (here.symm.trans present)
      have after : ((s.world iface.common).perform env chance clock
          ((s.world iface.common).plan4 iface.conf req)).Held key l ip until_ := by
        rcases World.plan4_plans iface.conf (s.world iface.common) req with idle | ⟨k, _, plans⟩
        · rw [idle]
          exact held
        · refine held.perform consistent plans (World.plan4_isV4 _ _ _) live ⟨?_, ?_⟩
          · exact fun planned => kept (givesUp_of_plan4 consistent held (.inl planned))
          · exact fun planned => kept (givesUp_of_plan4 consistent held (.inr planned))
      exact ⟨_, (common_setWorld here _ _).trans (if_pos rfl), after.congr after.member rfl⟩
    · have different : IfaceID.v4 i ≠ .v4 j := by
        intro equal
        exact same (IfaceID.v4.inj equal)
      have lease := tables.owned.lease_setWorld here unchanged present different held.member
      exact ⟨common, (common_setWorld here _ _).trans ((if_neg different).trans present),
        held.congr held.member lease⟩

/-- A client that gets a `DHCPACK` has the lease for as long as it says. -/
theorem held_of_serve4 (tables : s.Tables IsV4)
    (honest : ∀ iface, s.interfaces4[j]? = some iface →
      (s.world iface.common).Honest env chance clock
        ((s.world iface.common).plan4 iface.conf req)) {resp : Response4}
    (sent : (s.serve4 env j req chance clock).2 = some resp)
    (ack : resp.messageType = DHCPMsgType.ack) {d : BitVec 32} (time : resp.leaseTime = some d) :
    ∃ key l, key.val = resp.clientHWAddr ∧
      (s.serve4 env j req chance clock).1.Held j key l resp.yourClientIP
        (clock.later + ofSeconds d) := by
  cases found : s.interfaces4[j]? with
  | none => simp [DHCPServer.serve4, found] at sent
  | some iface =>
    have here := common_of_interfaces4 found
    have consistent : (s.world iface.common).Consistent :=
      tables.consistent (.v4 j) iface.common trivial here
    have answered : (s.serve4 env j req chance clock).2 =
        ((s.world iface.common).serveV4 env iface.conf req chance clock).2 := by
      simp [DHCPServer.serve4, found]
    rw [answered] at sent
    obtain ⟨key, l, owner, held⟩ := World.held_of_ack consistent (honest iface found) sent ack time
    rw [World.serveV4_world] at held
    rw [serve4_server found]
    exact ⟨key, l, owner, _, (common_setWorld here _ _).trans (if_pos rfl),
      held.congr held.member rfl⟩

def Disjoint4 (s : DHCPServer) : Prop :=
  ∀ i iface j iface' ip, s.common (.v4 i) = some iface → s.common (.v4 j) = some iface' →
    ip.isValid = true → iface.addrSpace.contains ip = true → iface'.addrSpace.contains ip = true →
      i = j

theorem Held.unique (tables : s.Tables IsV4) (disjoint : s.Disjoint4) {k : MacKey} {l' : Ref}
    {until' : Time} (held : s.Held i key l ip until_)
    (other : s.Held j k l' ip until') : key = k := by
  obtain ⟨iface, here, held⟩ := held
  obtain ⟨iface', there, other⟩ := other
  have consistent := tables.consistent (.v4 i) iface trivial here
  have consistent' := tables.consistent (.v4 j) iface' trivial there
  have place := consistent.leasable key l held.member
  have place' := consistent'.leasable k l' other.member
  rw [show (s.heap.read l).ip = ip from held.ip] at place
  rw [show (s.heap.read l').ip = ip from other.ip] at place'
  have equal := disjoint i iface j iface' ip here there place.valid place.inRange place'.inRange
  rw [← equal] at there
  obtain rfl := Option.some.inj (here.symm.trans there)
  exact consistent.ips key l l' k held.member other.member (held.ip.trans other.ip.symm)

theorem Disjoint4.change (disjoint : s.Disjoint4) {s' : DHCPServer} (change : Change s s') :
    s'.Disjoint4 := by
  intro a ifaceA b ifaceB x presentA presentB valid insideA insideB
  obtain ⟨oldA, wasA, spaceA, _⟩ := change.common presentA
  obtain ⟨oldB, wasB, spaceB, _⟩ := change.common presentB
  exact disjoint a oldA b oldB x wasA wasB valid (spaceA ▸ insideA) (spaceB ▸ insideB)

theorem tables_new (env : Env) (conf : Config) (stored : List Lease) :
    (new env conf stored).Tables IsV4 := by
  refine (new_invariant env conf (fun s => s.Tables IsV4 ∧ s.Listed) ?_ ?_).1
  · refine ⟨tables_empty ?_, ?_⟩
    · intro id iface v4 found
      rcases common_empty found with ⟨c, member, _, rfl⟩ | ⟨_, _, ⟨i, rfl⟩, _⟩
      · exact proper_addrSpace4 (conf.valid4 c member)
      · exact v4.elim
    · intro id iface key l found member
      simp [(leases_empty found).1] at member
  · rintro s l _ ⟨tables, listed⟩
    refine ⟨?_, listed.addLease tables.owned l true⟩
    unfold indexLease
    rcases addLease_cases env s l true with
      same | ⟨id, iface, key, here, found, owner, free, freeAddr, _, result⟩
    · rwa [same]
    · obtain ⟨unchanged, own⟩ := local_worldWith s iface l
      rw [result]
      refine tables.setWorld here (unchanged.added env key own) fun v4 => ?_
      have is4 : l.ip.is4 = true := by
        cases id with
        | v6 i => exact v4.elim
        | v4 i =>
          obtain ⟨chosen, position, equal⟩ := Option.bind_eq_some_iff.mp found
          obtain ⟨_, _, equal⟩ := Option.map_eq_some_iff.mp equal
          obtain ⟨rfl, _⟩ := Prod.mk.inj equal
          unfold ifaceForAddr at position
          split at position
          · assumption
          · simp at position
      have valid : l.ip.isValid = true ∧ l.ip.zone = "" := by
        cases address : l.ip with
        | zero => simp [address, Addr.is4] at is4
        | v4 value => exact ⟨rfl, rfl⟩
        | v6 value zone => simp [address, Addr.is4] at is4
      exact tables.added env v4 found owner free freeAddr (listed.addable valid.1 valid.2)

end DHCPServer

namespace System

variable {env : Env}

def Honest (env : Env) (s : System) : Event → Prop
  | .message4 i req chance delay => ∀ iface, s.server.interfaces4[i]? = some iface →
    (s.server.world iface.common).Honest env chance (s.readings delay)
      ((s.server.world iface.common).plan4 iface.conf req)
  | _ => False

instance (env : Env) (s : System) (event : Event) : Decidable (s.Honest env event) :=
  match event with
  | .message4 _ _ _ _ => inferInstanceAs (Decidable (∀ iface, _ = some iface → _))
  | .message6 _ _ _ _ _ | .addLease _ _ | .updateStaticLease _ _ | .removeLease _ _ | .reset _ =>
    .isFalse id

/-- The answer is a `DHCPACK`. -/
structure Acknowledges (answer : Answer) (ip : Addr) (mac : HardwareAddr) (d : BitVec 32)
    (time : Time) (resp : Response4) : Prop where
  sent : answer = .response4 (some resp) time
  ack : resp.messageType = DHCPMsgType.ack
  yourClientIP : resp.yourClientIP = ip
  clientHWAddr : resp.clientHWAddr = mac
  leaseTime : resp.leaseTime = some d

def GivesUp (mac : HardwareAddr) (ip : Addr) : Event → Prop
  | .message4 _ req _ _ => DHCPServer.GivesUp mac ip req
  | _ => False

structure Exclusive (s : System) : Prop where
  tables : s.server.Tables DHCPServer.IsV4
  disjoint : s.server.Disjoint4

variable {s : System} {event : Event}

theorem exclusive_next (exclusive : s.Exclusive)
    (honest : s.Honest env event) : ((machine env).next s event).Exclusive := by
  cases event with
  | message4 i req chance delay =>
    exact ⟨exclusive.tables.serve4 honest,
      exclusive.disjoint.change (DHCPServer.change_serve4 env s.server i req chance _)⟩
  | message6 i srcMAC req chance delay => exact honest.elim
  | addLease l stored => exact honest.elim
  | updateStaticLease l stored => exact honest.elim
  | removeLease l stored => exact honest.elim
  | reset stored => exact honest.elim

theorem clock_next (env : Env) (s : System) (event : Event) : s.clock ≤ ((machine env).next s event).clock := by
  cases event with
  | message4 i req chance delay =>
    exact Int.le_trans (Int.le_add_of_nonneg_right (Int.natCast_nonneg _))
      (Int.le_add_of_nonneg_right (Int.natCast_nonneg _))
  | message6 i srcMAC req chance delay =>
    exact Int.le_trans (Int.le_add_of_nonneg_right (Int.natCast_nonneg _))
      (Int.le_add_of_nonneg_right (Int.natCast_nonneg _))
  | addLease l stored => exact Int.le_refl _
  | updateStaticLease l stored => exact Int.le_refl _
  | removeLease l stored => exact Int.le_refl _
  | reset stored => exact Int.le_refl _

theorem clock_run (env : Env) (s : System) (events : List Event) :
    s.clock ≤ ((machine env).run s events).clock := by
  induction events generalizing s with
  | nil => exact Int.le_refl _
  | cons event rest ih => exact Int.le_trans (clock_next env s event) (ih _)

/-- Through a run a client keeps a lease until it expires or is given up. -/
theorem held_run {i : Nat} {key : MacKey} {l : Ref} {ip : Addr} {until_ : Time}
    (events : List Event) (exclusive : s.Exclusive)
    (held : s.server.Held i key l ip until_) (honest : (machine env).Allowed (Honest env) s events)
    (live : ((machine env).run s events).clock < until_) :
    (∃ event ∈ events, GivesUp key.val ip event) ∨
      ((machine env).run s events).server.Held i key l ip until_ := by
  induction events generalizing s with
  | nil => exact .inr held
  | cons event rest ih =>
    cases event with
    | message6 _ _ _ _ _ => exact honest.1.elim
    | addLease _ _ => exact honest.1.elim
    | updateStaticLease _ _ => exact honest.1.elim
    | removeLease _ _ => exact honest.1.elim
    | reset _ => exact honest.1.elim
    | message4 j req chance delay =>
      by_cases given : DHCPServer.GivesUp key.val ip req
      · exact .inl ⟨_, .head _, given⟩
      · have early : (s.readings delay).now < until_ := by
          have later := clock_run env
            ((machine env).next s (.message4 j req chance delay)) rest
          have handled : (s.readings delay).now ≤
              ((machine env).next s (.message4 j req chance delay)).clock :=
            Int.le_add_of_nonneg_right (Int.natCast_nonneg _)
          exact Int.lt_of_le_of_lt (Int.le_trans handled later) live
        rcases ih (exclusive_next exclusive honest.1)
          (held.serve4 exclusive.tables early given) honest.2 live with
          ⟨event, member, given⟩ | held
        · exact .inl ⟨event, .tail _ member, given⟩
        · exact .inr held

theorem disjoint4_new (env : Env) {conf : Config} (disjoint : (DHCPServer.empty conf).Disjoint4)
    (stored : List Lease) : (DHCPServer.new env conf stored).Disjoint4 :=
  DHCPServer.new_invariant env conf _ disjoint fun s l _ disjoint =>
    disjoint.change (DHCPServer.change_addLease env s l true)

/-- An acknowledged lease is held. -/
theorem held_of_acknowledged (exclusive : s.Exclusive) (honest : s.Honest env event) {ip : Addr}
    {mac : HardwareAddr} {d : BitVec 32} {time : Time} {resp : Response4}
    (acked : Acknowledges ((machine env).answer s event) ip mac d time resp) :
    time = ((machine env).next s event).clock ∧ ∃ i key l, key.val = mac ∧
      ((machine env).next s event).server.Held i key l ip (time + ofSeconds d) := by
  obtain ⟨sent, ack, rfl, rfl, leaseTime⟩ := acked
  cases event with
  | message4 i req chance delay =>
    obtain ⟨answered, rfl⟩ := Answer.response4.inj sent
    obtain ⟨key, l, owner, held⟩ := DHCPServer.held_of_serve4 exclusive.tables honest answered ack
      leaseTime
    exact ⟨rfl, i, key, l, owner, held⟩
  | message6 i srcMAC req chance delay => cases sent
  | addLease l stored => cases sent
  | updateStaticLease l stored => cases sent
  | removeLease l stored => cases sent
  | reset stored => cases sent

/-- Who gets a `DHCPACK` has sent the message. -/
theorem client_of_givesUp {ip given : Addr} {a b : HardwareAddr} {d : BitVec 32} {time : Time}
    {resp : Response4} (acked : Acknowledges ((machine env).answer s event) ip b d time resp)
    (gave : GivesUp a given event) : a = b := by
  obtain ⟨sent, ack, _, rfl, _⟩ := acked
  cases event with
  | message4 i req chance delay =>
    obtain ⟨answered, _⟩ := Answer.response4.inj sent
    change (s.server.serve4 env i req chance (s.readings delay)).2 = some resp at answered
    unfold DHCPServer.serve4 at answered
    split at answered
    · cases answered
    · obtain ⟨l, hostname, _, _, result⟩ := World.serveV4_ack answered ack
      rw [result]
      exact gave.1.symm
  | message6 i srcMAC req chance delay => exact gave.elim
  | addLease l stored => exact gave.elim
  | updateStaticLease l stored => exact gave.elim
  | removeLease l stored => exact gave.elim
  | reset stored => exact gave.elim

/-- In a run of DHCPv4 messages that are handled honestly, an address that was acknowledged
to a client is not acknowledged to another one before the time is over, unless the client
gave it up. -/
theorem one_client {conf : Config} (disjoint : (DHCPServer.empty conf).Disjoint4)
    (stored : List Lease) (clock : Time) {before between : List Event} {first second : Event}
    (honest : (machine env).Allowed (Honest env) (start env conf stored clock)
      (before ++ first :: (between ++ [second])))
    {ip : Addr} {a b : HardwareAddr} {d d' : BitVec 32} {t t' : Time} {resp resp' : Response4}
    (acked : Acknowledges ((machine env).answer
      ((machine env).run (start env conf stored clock) before) first) ip a d t resp)
    (again : Acknowledges ((machine env).answer
      ((machine env).run (start env conf stored clock) (before ++ first :: between)) second)
        ip b d' t' resp')
    (early : t' < t + ofSeconds d) (other : a ≠ b) :
    ∃ event ∈ between, GivesUp a ip event := by
  have run_exclusive : ∀ {events : List Event} {s : System}, s.Exclusive →
      (machine env).Allowed (Honest env) s events → ((machine env).run s events).Exclusive :=
    fun exclusive honest => (machine env).run_invariant Exclusive
      (fun _ _ exclusive honest => exclusive_next exclusive honest) exclusive honest
  have initial : (start env conf stored clock).Exclusive :=
    ⟨DHCPServer.tables_new env conf stored, disjoint4_new env disjoint stored⟩
  obtain ⟨honestBefore, honestFirst, honestRest⟩ :=
    ((machine env).allowed_append _ before _).mp honest
  rw [(machine env).run_append] at again
  have exclusive := run_exclusive initial honestBefore
  generalize (machine env).run (start env conf stored clock) before = s at *
  obtain ⟨rfl, i, key, l, rfl, held⟩ := held_of_acknowledged exclusive honestFirst acked
  obtain ⟨honestBetween, honestSecond, _⟩ := ((machine env).allowed_append _ between _).mp honestRest
  have acknowledged := exclusive_next exclusive honestFirst
  have exclusiveAfter := run_exclusive acknowledged honestBetween
  rw [(machine env).run_cons] at again
  obtain ⟨rfl, j, k, l', owner', held'⟩ := held_of_acknowledged exclusiveAfter honestSecond again
  -- the second answer comes after all messages in between
  have live : ((machine env).run ((machine env).next s first) between).clock < _ :=
    Int.lt_of_le_of_lt (clock_next env _ second) early
  rcases held_run between acknowledged held honestBetween live with given | kept
  · exact given
  · have honestLast : (machine env).Allowed (Honest env)
        ((machine env).run ((machine env).next s first) between) [second] := ⟨honestSecond, trivial⟩
    rcases held_run [second] exclusiveAfter kept honestLast early with
      ⟨event, member, given⟩ | still
    · obtain rfl := List.mem_singleton.mp member
      exact absurd (client_of_givesUp again given) other
    · have exclusiveLast := exclusive_next exclusiveAfter honestSecond
      exact absurd (congrArg Subtype.val
        (still.unique exclusiveLast.tables exclusiveLast.disjoint held')) (owner' ▸ other)

def sampleEvent (client : BitVec 8) (typ : BitVec 8) (clientIP : BitVec 32)
    (requested : List DHCPOption) (before : Nat) : Event :=
  .message4 0 { sampleMessage typ clientIP requested with clientHWAddr := sampleMAC.set 5 client }
    sampleChance ⟨before, 0⟩

/-- The options of a client that selects the sample server and an address. -/
def sampleSelection (last : BitVec 8) : List DHCPOption :=
  [⟨DHCPOption.serverID, [192, 168, 0, 1]⟩, ⟨DHCPOption.requestIP, [192, 168, 0, last]⟩]

/-- The `DHCPACK` for an address of the sample server. -/
def sampleACK (client : BitVec 8) (value : BitVec 32) : Response4 :=
  ⟨DHCPMsgType.ack, sampleMAC.set 5 client, .v4 value, some 3600, ""⟩

theorem disjoint4_sample : (DHCPServer.empty sampleConfig).Disjoint4 := by
  intro i iface j iface' ip here there valid inside inside'
  exact IfaceID.v4.inj (disjoint_sample (.v4 i) iface (.v4 j) iface' ip here there valid inside
    inside')

def sampleStart : System := start sampleEnv sampleConfig [] 0

/-- A client releases its address, and another one gets it. -/
theorem one_client_released :
    ∃ event ∈ [sampleEvent 1 DHCPMsgType.release 0xC0A80064 [] 0,
        sampleEvent 2 DHCPMsgType.discover 0 [] 0],
      GivesUp (sampleMAC.set 5 1) (.v4 0xC0A80064) event := by
  have honest : (machine sampleEnv).Allowed (Honest sampleEnv) sampleStart
      ([sampleEvent 1 DHCPMsgType.discover 0 [] 0] ++
        sampleEvent 1 DHCPMsgType.request 0 (sampleSelection 100) 0 ::
          ([sampleEvent 1 DHCPMsgType.release 0xC0A80064 [] 0,
            sampleEvent 2 DHCPMsgType.discover 0 [] 0] ++
              [sampleEvent 2 DHCPMsgType.request 0 (sampleSelection 100) 0])) := by
    decide +kernel
  have acked : Acknowledges ((machine sampleEnv).answer
      ((machine sampleEnv).run sampleStart [sampleEvent 1 DHCPMsgType.discover 0 [] 0])
        (sampleEvent 1 DHCPMsgType.request 0 (sampleSelection 100) 0)) (.v4 0xC0A80064)
          (sampleMAC.set 5 1) 3600 0 (sampleACK 1 0xC0A80064) :=
    ⟨by decide +kernel, rfl, rfl, rfl, rfl⟩
  have again : Acknowledges ((machine sampleEnv).answer
      ((machine sampleEnv).run sampleStart
        [sampleEvent 1 DHCPMsgType.discover 0 [] 0,
          sampleEvent 1 DHCPMsgType.request 0 (sampleSelection 100) 0,
          sampleEvent 1 DHCPMsgType.release 0xC0A80064 [] 0,
          sampleEvent 2 DHCPMsgType.discover 0 [] 0])
        (sampleEvent 2 DHCPMsgType.request 0 (sampleSelection 100) 0)) (.v4 0xC0A80064)
          (sampleMAC.set 5 2) 3600 0 (sampleACK 2 0xC0A80064) :=
    ⟨by decide +kernel, rfl, rfl, rfl, rfl⟩
  exact one_client disjoint4_sample [] 0 honest acked again (by decide) (by decide)

def IsMessage4 : Event → Prop
  | .message4 _ _ _ _ => True
  | _ => False

/-- A lease that was offered but never requested expires, and becomes that of another client
while the first one can still request it. -/
theorem two_clients_of_one_lease :
    ¬ ∀ (env : Env) (conf : Config) (stored : List Lease) (clock : Time)
      (before between : List Event) (first second : Event) (ip : Addr) (a b : HardwareAddr)
      (d d' : BitVec 32) (t t' : Time) (resp resp' : Response4),
      (DHCPServer.empty conf).Disjoint4 →
      (∀ event ∈ before ++ first :: (between ++ [second]), IsMessage4 event) →
      Acknowledges ((machine env).answer
        ((machine env).run (start env conf stored clock) before) first) ip a d t resp →
      Acknowledges ((machine env).answer
        ((machine env).run (start env conf stored clock) (before ++ first :: between)) second)
          ip b d' t' resp' →
      t' < t + ofSeconds d → a ≠ b → ∃ event ∈ between, GivesUp a ip event := by
  intro claim
  -- the offers to two clients expire before the third client asks
  have given := claim sampleEnv sampleConfig [] 0
    [sampleEvent 1 DHCPMsgType.discover 0 [] 0, sampleEvent 2 DHCPMsgType.discover 0 [] 0,
      sampleEvent 3 DHCPMsgType.discover 0 [] (3601 * second)] []
    (sampleEvent 3 DHCPMsgType.request 0 (sampleSelection 101) 0)
    (sampleEvent 2 DHCPMsgType.request 0 (sampleSelection 101) 0) (.v4 0xC0A80065)
    (sampleMAC.set 5 3) (sampleMAC.set 5 2) 3600 3600 (3601 * second) (3601 * second)
    (sampleACK 3 0xC0A80065) (sampleACK 2 0xC0A80065) disjoint4_sample (by
      intro event member
      simp only [List.cons_append, List.nil_append, List.mem_cons, List.not_mem_nil,
        or_false] at member
      rcases member with rfl | rfl | rfl | rfl | rfl <;> trivial)
    ⟨by decide +kernel, rfl, rfl, rfl, rfl⟩ ⟨by decide +kernel, rfl, rfl, rfl, rfl⟩
    (by decide) (by decide)
  obtain ⟨event, member, _⟩ := given
  cases member

end System

end AdGuardHome.Dhcpsvc
