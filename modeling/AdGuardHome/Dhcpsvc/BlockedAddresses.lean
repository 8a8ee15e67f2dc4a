import AdGuardHome.Dhcpsvc.ErrorAtomicity
import AdGuardHome.Dhcpsvc.AddressChecks
import AdGuardHome.Dhcpsvc.Binding

namespace AdGuardHome.Dhcpsvc

open Netip Heap

/-- An event, or a call of `allocateLease` on one interface. -/
inductive Occurrence where
  | event (event : Event)
  | allocate (id : IfaceID) (key : MacKey) (isAvailable : Addr → Option Bool) (fuel : Nat)
      (rounds : Nat → Round) (delay : Nat)

/-- What comes of it: nothing where there is no such interface or the rounds are used up. -/
inductive Outcome where
  | nothing
  | answer (answer : Answer)
  | allocated (id : IfaceID) (result : Except Error Addr) (time : Time)

namespace System

variable {env : Env}

def occur (env : Env) (s : System) : Occurrence → System × Outcome
  | .event event => ((machine env).next s event, .answer ((machine env).answer s event))
  | .allocate id key isAvailable fuel rounds delay =>
    match s.server.common id with
    | none => (s, .nothing)
    | some iface =>
      match World.allocateChecked env key (s.clock + delay) isAvailable fuel rounds
          (s.server.world iface) with
      | none => (s, .nothing)
      | some (after, result, _) =>
        (⟨s.server.setWorld id after, s.clock + delay⟩,
          .allocated id (result.map fun l => (after.lease l).ip) (s.clock + delay))

/-- The server with its messages, its calls, and those of `allocateLease`. -/
def checkedMachine (env : Env) : Transition.Machine System Occurrence Outcome := ⟨occur env⟩

structure Sound (conf : Config) (s : System) : Prop where
  owned : s.server.Owned
  filed : s.server.Filed
  configured : s.server.Configured conf

variable {conf : Config} {s : System}

/-- A call of `allocateLease` returns nothing or has run on the interface. -/
theorem allocate_cases (s : System) (id : IfaceID) (key : MacKey)
    (isAvailable : Addr → Option Bool) (fuel : Nat) (rounds : Nat → Round) (delay : Nat) :
    s.occur env (.allocate id key isAvailable fuel rounds delay) = (s, .nothing) ∨
      ∃ iface after result asked, s.server.common id = some iface ∧
        World.Ran env key (s.clock + delay) isAvailable rounds (s.server.world iface) after result
          asked ∧
        s.occur env (.allocate id key isAvailable fuel rounds delay) =
          (⟨s.server.setWorld id after, s.clock + delay⟩,
            .allocated id (result.map fun l => (after.lease l).ip) (s.clock + delay)) := by
  cases here : s.server.common id with
  | none => exact .inl (by rw [occur, here])
  | some iface =>
    cases done : World.allocateChecked env key (s.clock + delay) isAvailable fuel rounds
        (s.server.world iface) with
    | none => exact .inl (by rw [occur, here]; dsimp only; rw [done])
    | some made =>
      obtain ⟨after, result, asked⟩ := made
      refine .inr ⟨iface, after, result, asked, rfl, World.ran_of_checked done, ?_⟩
      rw [occur, here]
      dsimp only
      rw [done]

theorem Sound.allocated (sound : s.Sound conf) {id : IfaceID} {iface : NetInterface} {key : MacKey}
    {now clock : Time} {isAvailable : Addr → Option Bool} {rounds : Nat → Round} {after : World}
    {result : Except Error Ref} {asked : List Addr} (here : s.server.common id = some iface)
    (ran : World.Ran env key now isAvailable rounds (s.server.world iface) after result asked) :
    Sound conf ⟨s.server.setWorld id after, clock⟩ := by
  obtain ⟨unchanged, files⟩ := ran.keeps (.refl _) (sound.filed id iface here)
  exact ⟨sound.owned.setWorld here unchanged, sound.filed.setWorld sound.owned here unchanged files,
    sound.configured.setWorld here unchanged.addrSpace⟩

theorem Sound.next (sound : s.Sound conf) (occurrence : Occurrence) :
    ((checkedMachine env).next s occurrence).Sound conf := by
  cases occurrence with
  | event event =>
    refine ⟨owned_next sound.owned event, filed_next sound.filed sound.owned event, ?_⟩
    rcases @next_cases env s event with ⟨stored, rfl⟩ | change
    · exact sound.configured.reset stored
    · exact sound.configured.change change
  | allocate id key isAvailable fuel rounds delay =>
    change ((s.occur env _).1).Sound conf
    rcases @allocate_cases env s id key isAvailable fuel rounds delay with
      same | ⟨iface, after, result, asked, here, ran, done⟩
    · rwa [same]
    · rw [done]
      exact sound.allocated here ran

theorem sound_reachable {stored : List Lease} {clock : Time}
    (reached : (checkedMachine env).Reachable (start env conf stored clock) s) : s.Sound conf := by
  refine (checkedMachine env).reachable_invariant (Sound conf) ?_ ?_ reached
  · exact fun s occurrence sound => sound.next occurrence
  · obtain ⟨owned, filed⟩ := filed_reachable (.refl (machine env) (start env conf stored clock))
    exact ⟨owned, filed, .new env conf stored⟩

end System

namespace World

variable {env : Env} {w : World} {x : Addr}

/-- An allocation keeps an address vacant that is not the lowest free one. -/
theorem VacantIn.allocation (vacant : w.VacantIn x) (filed : w.Filed) (ranged : w.iface.Ranged)
    {key : MacKey} {now : Time} {order : WalkOrder MacKey} {w' : World} {l : Ref}
    (allocation : Allocation env w key now order w' l) (avoids : ¬ w.iface.FirstFree x) :
    w'.VacantIn x := by
  cases allocation with
  | @fresh ip found valid =>
    have reserves : Reserves env w key now order (w.withReserved key ip now) w.heap.size :=
      .fresh found valid
    have apart : ((w.withReserved key ip now).lease w.heap.size).ip ≠ x := by
      rw [lease_withReserved, if_pos rfl]
      rintro rfl
      exact avoids (ranged.firstFree_of_nextIP found valid)
    exact (vacant.reserves filed reserves).set apart rfl rfl
  | @recycled l full expired =>
    obtain ⟨k, member, _⟩ := findExpiredLease_some expired
    have reserves : Reserves env w key now order (w.withRecycled env key l now) l :=
      .recycled full expired
    exact (vacant.reserves filed reserves).congr (fun _ _ => rfl) fun k _ held => .inl ⟨k, held⟩

theorem VacantIn.setLease (vacant : w.VacantIn x) (l : Ref) {change : Lease → Lease}
    (mild : Mild change) : (w.setLease l change).VacantIn x :=
  vacant.congr (fun other _ => (lease_setLease_mild w l mild other).1)
    fun k _ held => .inl ⟨k, held⟩

theorem VacantIn.update (vacant : w.VacantIn x) (env : Env) {l : Ref} (apart : (w.lease l).ip ≠ x)
    (stored : Bool) : (w.update env l stored).1.VacantIn x := by
  rcases update_cases env w l stored with ⟨same, _⟩ | ⟨set, prev, _, _, _, _, result⟩
  · rwa [same]
  · rw [result]
    exact vacant.set apart rfl rfl

theorem VacantIn.remove (vacant : w.VacantIn x) (env : Env) (lease : Lease) (stored : Bool) :
    (w.remove env lease stored).1.VacantIn x := by
  rcases remove_cases env w lease stored with same | ⟨gone, _, _, _, _, _, result⟩
  · rwa [same]
  · rw [result]
    refine vacant.congr (fun _ _ => rfl) fun k other held => .inl ⟨k, ?_⟩
    change (w.iface.leases.delete gone).get k = some other at held
    exact (FiniteMap.of_get_delete held).2

/-- A DHCPv4 message keeps an address vacant unless it allocates it. -/
theorem VacantIn.perform (vacant : w.VacantIn x) (filed : w.Filed) (ranged : w.iface.Ranged)
    {key : MacKey} {op : Operation} (plans : w.Plans key op) (v4 : op.IsV4)
    (avoids : ∀ k, op = .allocate k → ¬ w.iface.FirstFree x) (chance : Chance) (clock : Readings) :
    (w.perform env chance clock op).VacantIn x := by
  cases op with
  | nothing => exact vacant
  | refresh l => exact vacant.setLease l fun lease => by simp
  | allocate k =>
    rcases allocate_cases env w k clock.now chance.order with ⟨_, failed⟩ | ⟨w', l, done, allocated⟩
    · simpa only [World.perform, failed] using vacant
    · simpa only [World.perform, done] using
        vacant.allocation filed ranged allocated (avoids k rfl)
  | commit4 l hostname =>
    have mild : Mild fun lease => { lease with hostname } := fun lease => ⟨rfl, id⟩
    refine (vacant.setLease l mild).update env ?_ chance.stored
    rw [(lease_setLease_mild w l mild l).1]
    exact vacant key l plans
  | block l => exact vacant.blockLease l clock.now chance.stored
  | release l => exact vacant.remove env (w.lease l) chance.stored
  | allocateCommitted | commit6 => exact absurd v4 id

end World

namespace World

variable {env : Env} {w : World}

def HandsOut (resp : Response4) (x : Addr) : Prop :=
  (resp.messageType = DHCPMsgType.offer ∨ resp.messageType = DHCPMsgType.ack) ∧
    resp.yourClientIP = x

/-- A client that is offered or given an address has it. -/
theorem handsOut_held {conf : DHCPInterfaceV4} {req : DHCPv4} {chance : Chance} {clock : Readings}
    {resp : Response4} {x : Addr} (sent : (w.serveV4 env conf req chance clock).2 = some resp)
    (hands : HandsOut resp x) : ¬ (w.serveV4 env conf req chance clock).1.VacantIn x := by
  intro vacant
  obtain ⟨offer | ack, here⟩ := hands
  · obtain ⟨key, l, member, ip⟩ := serveV4_offer sent offer
    exact vacant key l member (ip.symm.trans here)
  · obtain ⟨l, hostname, planned, ⟨asked, _⟩, answered⟩ := serveV4_ack sent ack
    obtain ⟨key, _, member⟩ := requestedLease_owner asked
    rw [serveV4_world, planned] at vacant
    refine vacant key l ?_ ?_
    · exact member_update env (w := w.setLease l fun lease => { lease with hostname }) member
        chance.stored
    · rw [answered] at here
      exact here

end World

namespace DHCPServer

variable {env : Env} {s : DHCPServer} {x : Addr}

def Vacant (s : DHCPServer) (x : Addr) : Prop :=
  ∀ i iface, s.common (.v4 i) = some iface → (s.world iface).VacantIn x

structure HasAddr (s : DHCPServer) (i : Nat) (iface : NetInterface) (key : MacKey) (x : Addr) :
    Prop where
  here : s.common (.v4 i) = some iface
  has : ∃ l, iface.leases.get key = some l ∧ (s.heap.read l).ip = x

variable {iface : NetInterface}

/-- A method of one interface leaves the clients of the others alone. -/
theorem vacant_setWorld (owned : s.Owned) {id : IfaceID} (here : s.common id = some iface)
    {w : World} (unchanged : World.Local (s.world iface) w) (own : ∀ i, id = .v4 i → w.VacantIn x)
    (others : ∀ i iface' key, s.HasAddr i iface' key x → id = .v4 i) :
    (s.setWorld id w).Vacant x := by
  intro i iface' found k l member
  rw [common_setWorld here] at found
  split at found
  · rename_i same
    obtain rfl := Option.some.inj found
    exact own i same.symm k l member
  · rename_i different
    have kept := owned.lease_setWorld here unchanged found different member
    change ((s.setWorld id w).heap.read l).ip ≠ x
    rw [kept]
    exact fun same => different (others i iface' k ⟨found, l, member, same⟩).symm

/-- A method of one interface keeps an address vacant that it does not give to a client. -/
theorem Vacant.setWorld (vacant : s.Vacant x) (owned : s.Owned) {id : IfaceID}
    (here : s.common id = some iface) {w : World}
    (unchanged : World.Local (s.world iface) w) (own : ∀ i, id = .v4 i → w.VacantIn x) :
    (s.setWorld id w).Vacant x := by
  refine vacant_setWorld owned here unchanged own fun i iface' key has => ?_
  obtain ⟨l, member, same⟩ := has.has
  exact absurd same (vacant i iface' has.here key l member)

theorem Vacant.serve4 (vacant : s.Vacant x) (owned : s.Owned) (filed : s.Filed) {conf : Config}
    (configured : s.Configured conf) {i : Nat} {req : DHCPv4} {chance : Chance} {clock : Readings}
    (avoids : ∀ iface, s.interfaces4[i]? = some iface → ∀ key,
      (s.world iface.common).plan4 iface.conf req = .allocate key → ¬ iface.common.FirstFree x) :
    (s.serve4 env i req chance clock).1.Vacant x ∧
      ∀ resp, (s.serve4 env i req chance clock).2 = some resp → ¬ World.HandsOut resp x := by
  cases found : s.interfaces4[i]? with
  | none =>
    refine ⟨by simpa [DHCPServer.serve4, found] using vacant, fun resp sent => ?_⟩
    simp [DHCPServer.serve4, found] at sent
  | some iface =>
    have here := common_of_interfaces4 found
    have after : ((s.world iface.common).perform env chance clock
        ((s.world iface.common).plan4 iface.conf req)).VacantIn x := by
      rcases World.plan4_plans iface.conf (s.world iface.common) req with idle | ⟨key, _, plans⟩
      · rw [idle]
        exact vacant i iface.common here
      · exact (vacant i iface.common here).perform (filed _ _ here) (configured.ranged4 here).1 plans
          (World.plan4_isV4 _ _ _) (avoids iface found) chance clock
    refine ⟨?_, fun resp sent hands => ?_⟩
    · rw [serve4_server found]
      exact vacant.setWorld owned here (local_plan4 env _ _ _ _ _) fun _ _ => after
    · have answered : (s.serve4 env i req chance clock).2 =
          ((s.world iface.common).serveV4 env iface.conf req chance clock).2 := by
        simp [DHCPServer.serve4, found]
      rw [answered] at sent
      refine World.handsOut_held sent hands ?_
      rwa [World.serveV4_world]

theorem Vacant.serve6 (vacant : s.Vacant x) (owned : s.Owned) (i : Nat) (srcMAC : MacKey)
    (req : DHCPv6) (chance : Chance) (clock : Readings) :
    (s.serve6 env i srcMAC req chance clock).1.Vacant x := by
  cases found : s.interfaces6[i]? with
  | none => simpa [DHCPServer.serve6, found] using vacant
  | some iface =>
    rw [serve6_server found]
    refine vacant.setWorld owned (common_of_interfaces6 found)
      (World.local_perform env (World.plan6_plans _ _ _ _ _) chance clock) fun j other => ?_
    cases other

private theorem vacantIn_worldWith (vacant : s.Vacant x) (filed : s.Filed) {i : Nat}
    (here : s.common (.v4 i) = some iface) (l : Lease) :
    (s.worldWith iface l).VacantIn x := by
  intro k other member
  have known := ((filed _ _ here).held k other member).1
  change ((s.worldWith iface l).heap.read other).ip ≠ x
  rw [read_worldWith s iface l known]
  exact vacant i iface here k other member

theorem Vacant.addLease (vacant : s.Vacant x) (owned : s.Owned) (filed : s.Filed) {l : Lease}
    (avoids : l.ip = x → ¬ ∃ id iface key, s.Adds env l id iface key) (stored : Bool) :
    (s.addLease env l stored).1.Vacant x := by
  rcases addLease_cases env s l stored with
    same | ⟨id, iface, key, here, found, owner, free, freeAddr, freeName, result⟩
  · rwa [same]
  · obtain ⟨unchanged, own⟩ := local_worldWith s iface l
    have apart : l.ip ≠ x := fun same =>
      avoids same ⟨id, iface, key, found, owner, free, freeAddr, freeName⟩
    rw [result]
    refine vacant.setWorld owned here (unchanged.added env key own) ?_
    rintro i rfl
    refine (vacantIn_worldWith vacant filed here l).set (l := s.heap.size) ?_ rfl rfl
    rwa [lease_worldWith]

theorem Vacant.updateStaticLease (vacant : s.Vacant x) (owned : s.Owned) (filed : s.Filed)
    {l : Lease} (avoids : l.ip = x → ¬ ∃ id iface key prev, s.Updates env l id iface key prev)
    (stored : Bool) : (s.updateStaticLease env l stored).1.Vacant x := by
  rcases @updateStaticLease_cases env s filed l stored with
    same | ⟨id, iface, here, rejected⟩ | ⟨id, iface, key, prev, updates⟩
  · rwa [same]
  · rw [rejected]
    refine vacant.setWorld owned here (local_worldWith s iface l).1 ?_
    rintro i rfl
    exact vacantIn_worldWith vacant filed here l
  · have here := common_of_ifaceAt updates.found
    obtain ⟨unchanged, own⟩ := local_worldWith s iface l
    have apart : l.ip ≠ x := fun same => avoids same ⟨id, iface, key, prev, updates⟩
    rw [updates.run filed]
    refine vacant.setWorld owned here ?_ ?_
    · have done := unchanged.update env own stored
      rwa [updates.update filed] at done
    · rintro i rfl
      refine (vacantIn_worldWith vacant filed here l).set (l := s.heap.size) ?_ rfl rfl
      rwa [lease_worldWith]

theorem Vacant.removeLease (vacant : s.Vacant x) (owned : s.Owned) (l : Lease) (stored : Bool) :
    (s.removeLease env l stored).1.Vacant x := by
  unfold DHCPServer.removeLease
  cases found : s.ifaceAt l.ip with
  | none => exact vacant
  | some at_ =>
    have here := common_of_ifaceAt found
    refine vacant.setWorld owned here ((World.Local.refl _).remove env l stored) fun i same => ?_
    rw [same] at here
    exact (vacant i at_.2 here).remove env l stored

theorem Vacant.reset (s : DHCPServer) (x : Addr) (stored : Bool) : (s.reset stored).1.Vacant x := by
  intro i iface found k l member
  rw [common_reset, Option.map_eq_some_iff] at found
  obtain ⟨before, _, rfl⟩ := found
  simp [world, NetInterface.reset] at member

end DHCPServer

namespace System

variable {env : Env} {conf : Config} {s : System} {x : Addr} {deadline : Time}

/-- A client gets the address before the deadline. -/
inductive Offers (x : Addr) (deadline : Time) : Outcome → Prop
  | response {resp : Response4} {time : Time} (hands : World.HandsOut resp x)
      (early : time < deadline) : Offers x deadline (.answer (.response4 (some resp) time))
  | allocation {i : Nat} {time : Time} (early : time < deadline) :
      Offers x deadline (.allocated (.v4 i) (.ok x) time)

/-- Before the deadline no client without a lease is given one while the address is the
lowest of a range whose bit is not set, and no call gives it to a client. -/
def Avoids (env : Env) (x : Addr) (deadline : Time) (s : System) : Occurrence → Prop
  | .event (.message4 i req _ delay) => (s.readings delay).later < deadline →
      ∀ iface, s.server.interfaces4[i]? = some iface → ∀ key,
        (s.server.world iface.common).plan4 iface.conf req = .allocate key →
          ¬ iface.common.FirstFree x
  | .event (.addLease l _) => s.clock < deadline → l.ip = x →
      ¬ ∃ id iface key, s.server.Adds env l id iface key
  | .event (.updateStaticLease l _) => s.clock < deadline → l.ip = x →
      ¬ ∃ id iface key prev, s.server.Updates env l id iface key prev
  | .allocate (.v4 i) _ isAvailable _ _ delay => s.clock + delay < deadline →
      ∀ iface, s.server.common (.v4 i) = some iface → iface.FirstFree x → isAvailable x ≠ some true
  | _ => True

def Kept (x : Addr) (deadline : Time) (s : System) : Prop :=
  s.clock < deadline → s.server.Vacant x

/-- Whatever happens as above until the deadline, no client gets the address. -/
def StaysBlocked (env : Env) (x : Addr) (deadline : Time) (s : System) : Prop :=
  ∀ between last, (checkedMachine env).Allowed (Avoids env x deadline) s (between ++ [last]) →
    ¬ Offers x deadline ((checkedMachine env).answer ((checkedMachine env).run s between) last)

theorem Offers.handsOut {sent : Option Response4} {time : Time}
    (offers : Offers x deadline (.answer (.response4 sent time))) :
    time < deadline ∧ ∃ resp, sent = some resp ∧ World.HandsOut resp x := by
  cases offers with
  | response hands early => exact ⟨early, _, rfl, hands⟩

theorem Offers.given {id : IfaceID} {result : Except Error Addr} {time : Time}
    (offers : Offers x deadline (.allocated id result time)) :
    time < deadline ∧ result = .ok x ∧ ∃ i, id = .v4 i := by
  cases offers with
  | allocation early => exact ⟨early, rfl, _, rfl⟩

theorem Sound.zoned (sound : s.Sound conf) {i : Nat} {iface : NetInterface}
    (here : s.server.common (.v4 i) = some iface) :
    iface.Ranged ∧ (s.server.world iface).Zoned := by
  obtain ⟨ranged, is4⟩ := sound.configured.ranged4 here
  refine ⟨ranged, fun k l member => ?_⟩
  have inside := ((sound.filed _ _ here).held k l member).2
  refine ⟨inside, ?_⟩
  have length := (IPRange.bounds_of_contains ranged.accepted ranged.started inside).1
  change ((s.server.world iface).lease l).ip.zone = iface.addrSpace.start.zone
  cases starts : iface.addrSpace.start <;> cases address : ((s.server.world iface).lease l).ip <;>
    simp_all [Addr.bitLen, Addr.is4, Addr.zone]

theorem clock_later (s : System) (delay : Nat) : s.clock ≤ s.clock + delay :=
  Int.le_add_of_nonneg_right (Int.natCast_nonneg _)

/-- One step keeps the address from clients. -/
theorem Kept.next (kept : s.Kept x deadline) (sound : s.Sound conf) {occurrence : Occurrence}
    (avoids : Avoids env x deadline s occurrence) :
    ((checkedMachine env).next s occurrence).Kept x deadline ∧
      ¬ Offers x deadline ((checkedMachine env).answer s occurrence) := by
  cases occurrence with
  | event event =>
    cases event with
    | message4 i req chance delay =>
      have onward := clock_next env s (.message4 i req chance delay)
      by_cases early : (s.readings delay).later < deadline
      · have vacant := kept (Int.lt_of_le_of_lt onward early)
        refine ⟨fun _ => (vacant.serve4 sound.owned sound.filed sound.configured (avoids early)).1,
          fun offers => ?_⟩
        obtain ⟨_, resp, sent, hands⟩ := offers.handsOut
        exact (vacant.serve4 sound.owned sound.filed sound.configured (avoids early)).2 resp sent
          hands
      · exact ⟨fun before => absurd before early, fun offers => early offers.handsOut.1⟩
    | message6 i srcMAC req chance delay =>
      refine ⟨fun early => ?_, fun offers => by cases offers⟩
      have onward := clock_next env s (.message6 i srcMAC req chance delay)
      exact (kept (Int.lt_of_le_of_lt onward early)).serve6 sound.owned i srcMAC req chance _
    | addLease l stored =>
      exact ⟨fun early => (kept early).addLease sound.owned sound.filed (avoids early) stored,
        fun offers => by cases offers⟩
    | updateStaticLease l stored =>
      exact ⟨fun early => (kept early).updateStaticLease sound.owned sound.filed (avoids early) stored,
        fun offers => by cases offers⟩
    | removeLease l stored =>
      exact ⟨fun early => (kept early).removeLease sound.owned l stored, fun offers => by cases offers⟩
    | reset stored =>
      exact ⟨fun _ => DHCPServer.Vacant.reset s.server x stored, fun offers => by cases offers⟩
  | allocate id key isAvailable fuel rounds delay =>
    change (s.occur env _).1.Kept x deadline ∧ ¬ Offers x deadline (s.occur env _).2
    rcases @allocate_cases env s id key isAvailable fuel rounds delay with
      same | ⟨iface, after, result, asked, here, ran, done⟩
    · rw [same]
      exact ⟨kept, fun offers => by cases offers⟩
    · rw [done]
      refine ⟨fun early => ?_, fun offers => ?_⟩
      · obtain ⟨unchanged, _⟩ := ran.keeps (.refl _) (sound.filed id iface here)
        have vacant := kept (Int.lt_of_le_of_lt (clock_later s delay) early)
        refine vacant.setWorld sound.owned here unchanged ?_
        rintro i rfl
        obtain ⟨ranged, zoned⟩ := sound.zoned here
        exact ran.avoids ranged zoned (sound.filed _ _ here) (vacant i iface here)
          (avoids early iface here)
      · obtain ⟨early, given, i, rfl⟩ := offers.given
        have vacant := kept (Int.lt_of_le_of_lt (clock_later s delay) early)
        obtain ⟨ranged, zoned⟩ := sound.zoned here
        have left := ran.avoids ranged zoned (sound.filed _ _ here) (vacant i iface here)
          (avoids early iface here)
        cases result with
        | error error => cases given
        | ok l => exact left key l ran.member (Except.ok.inj given)

theorem Kept.staysBlocked (kept : s.Kept x deadline) (sound : s.Sound conf) :
    s.StaysBlocked env x deadline := by
  intro between last
  induction between generalizing s with
  | nil => exact fun allowed => (kept.next sound allowed.1).2
  | cons first rest ih => exact fun allowed => ih (kept.next sound allowed.1).1 (sound.next first) allowed.2

/-- What an address has to be kept after, until a deadline: a `DHCPDECLINE` for it, or a
call of `allocateLease` that finds it unavailable. -/
inductive Blocks (env : Env) (s : System) (x : Addr) : Occurrence → Time → Prop
  | declined {i : Nat} {iface : Interface4} {req : DHCPv4} {chance : Chance} {delay : Delay}
      (here : s.server.interfaces4[i]? = some iface) (operation : req.operation = dhcpOpRequest)
      (type : req.msgType = some DHCPMsgType.decline) (address : req.requestedIPv4 = some x) :
      Blocks env s x (.event (.message4 i req chance delay))
        ((s.readings delay).now + iface.common.leaseTTL)
  | unavailable {id : IfaceID} {iface : NetInterface} {key : MacKey}
      {isAvailable : Addr → Option Bool} {fuel : Nat} {rounds : Nat → Round} {delay : Nat}
      {after : World} {result : Except Error Ref} {asked : List Addr}
      (here : s.server.common id = some iface)
      (done : World.allocateChecked env key (s.clock + delay) isAvailable fuel rounds
        (s.server.world iface) = some (after, result, asked))
      (tried : x ∈ asked) (unavailable : isAvailable x = some false) :
      Blocks env s x (.allocate id key isAvailable fuel rounds delay)
        (s.clock + delay + iface.leaseTTL)

/-- Whoever has the address is the client whose lease is blocked: the one that declines it
on this interface, or that of the expired lease which a call takes and removes first. -/
def Vacates (env : Env) (x : Addr) (s : System) : Occurrence → Prop
  | .event (.message4 i req _ _) => ∀ j iface key, s.server.HasAddr j iface key x →
      j = i ∧ ∀ iface, s.server.interfaces4[i]? = some iface →
        ∃ l, (s.server.world iface.common).declinedLease iface.conf req = some l ∧
          key.val = (s.server.heap.read l).hwAddr
  | .allocate id _ _ _ rounds delay => ∀ j iface key, s.server.HasAddr j iface key x →
      id = .v4 j ∧ iface.Exhausted ∧
        ∃ l, (s.server.world iface).findExpiredLease (s.clock + delay) (rounds 0).order = some l ∧
          key.val = (s.server.heap.read l).hwAddr ∧
          World.Registered env (s.server.world iface) l
  | _ => True

theorem plan4_decline {w : World} {conf : DHCPInterfaceV4} {req : DHCPv4}
    (operation : req.operation = dhcpOpRequest)
    (type : req.msgType = some DHCPMsgType.decline) :
    w.plan4 conf req = ((w.declinedLease conf req).map .block).getD .nothing := by
  have notDiscover : DHCPMsgType.decline ≠ DHCPMsgType.discover := by decide
  have notRequest : DHCPMsgType.decline ≠ DHCPMsgType.request := by decide
  have notRelease : DHCPMsgType.decline ≠ DHCPMsgType.release := by decide
  rw [World.plan4, if_neg (not_not.mpr operation), type]
  dsimp only
  rw [if_neg notDiscover, if_neg notRequest, if_neg notRelease, if_pos rfl]
  cases w.declinedLease conf req <;> rfl

theorem Blocks.vacant {occurrence : Occurrence} (blocks : s.Blocks env x occurrence deadline)
    (sound : s.Sound conf) (vacates : s.Vacates env x occurrence) :
    ((checkedMachine env).next s occurrence).server.Vacant x := by
  cases blocks with
  | @declined i iface req chance delay found operation type address =>
    change (s.server.serve4 env i req chance _).1.Vacant x
    have here := DHCPServer.common_of_interfaces4 found
    rw [DHCPServer.serve4_server found]
    refine DHCPServer.vacant_setWorld sound.owned here (DHCPServer.local_plan4 env _ _ _ _ _) ?_ ?_
    · intro j same
      cases same
      have client : ∀ k other, iface.common.leases.get k = some other →
          (s.server.heap.read other).ip = x →
            ∃ l, (s.server.world iface.common).declinedLease iface.conf req = some l ∧
              k.val = (s.server.heap.read l).hwAddr := fun k other held same =>
        (vacates i iface.common k ⟨here, other, held, same⟩).2 iface found
      rw [plan4_decline operation type]
      cases declined : (s.server.world iface.common).declinedLease iface.conf req with
      | none =>
        intro k other held same
        obtain ⟨l, planned, _⟩ := client k other held same
        rw [declined] at planned
        cases planned
      | some l =>
        refine World.blockLease_vacates (fun k other held same => ?_) _ _
        obtain ⟨l', planned, owner⟩ := client k other held same
        obtain rfl := Option.some.inj (declined.symm.trans planned)
        exact owner
    · exact fun j iface' key has => congrArg _ (vacates j iface' key has).1.symm
  | @unavailable id iface key isAvailable fuel rounds delay after result asked here done tried no =>
    have next : ((checkedMachine env).next s (.allocate id key isAvailable fuel rounds delay)).server =
        s.server.setWorld id after := by
      change (s.occur env _).1.server = _
      rw [occur, here]
      dsimp only
      rw [done]
    have ran := World.ran_of_checked done
    obtain ⟨unchanged, _⟩ := ran.keeps (.refl _) (sound.filed id iface here)
    rw [next]
    refine DHCPServer.vacant_setWorld sound.owned here unchanged ?_ ?_
    · rintro i rfl
      refine ran.evicts (sound.zoned here).1 (sound.filed _ _ here) ?_ no tried
      intro k other held same
      exact (vacates i iface k ⟨here, other, held, same⟩).2
    · exact fun j iface' key has => (vacates j iface' key has).1

/-- In a reachable state: a declined or unavailable address stays blocked if the lease of
whoever has it is blocked and nothing makes the server choose the address again; and with
an unused available address in its range, a call returns an available one exactly if the
first that it tries is. -/
theorem blocked_addresses {stored : List Lease} {clock : Time}
    (reached : (checkedMachine env).Reachable (start env conf stored clock) s) :
    (∀ x occurrence deadline, s.Blocks env x occurrence deadline → s.Vacates env x occurrence →
      ((checkedMachine env).next s occurrence).StaysBlocked env x deadline) ∧
    ∀ id iface key now isAvailable rounds, s.server.common id = some iface →
      (∃ x, (s.server.world iface).Unused now x ∧ isAvailable x = some true) →
        (World.Promising (s.server.world iface) now (rounds 0).order isAvailable →
          World.Returns env (s.server.world iface) key now isAvailable rounds) ∧
        (iface.leases.get key = none → DHCPServer.IsV4 id ∨ (s.server.world iface).Zoned →
          World.Returns env (s.server.world iface) key now isAvailable rounds →
            World.Promising (s.server.world iface) now (rounds 0).order isAvailable) := by
  have sound := sound_reachable reached
  refine ⟨fun x occurrence deadline blocks vacates => ?_, ?_⟩
  · have kept : ((checkedMachine env).next s occurrence).Kept x deadline :=
      fun _ => blocks.vacant sound vacates
    exact kept.staysBlocked (sound.next occurrence)
  · rintro id iface key now isAvailable rounds here ⟨x, unused, _⟩
    have ranged := unused.ranged (sound.configured.ranged here)
    have filed := sound.filed id iface here
    refine ⟨fun promising => promising.returns ranged filed, fun free family returns => ?_⟩
    have zoned : (s.server.world iface).Zoned := by
      rcases family with v4 | zoned
      · cases id with
        | v4 i => exact (sound.zoned here).2
        | v6 i => exact v4.elim
      · exact zoned
    exact (World.returns_iff ranged zoned filed free).mp returns

section Examples

private def discover (client : BitVec 8) : Occurrence :=
  .event (sampleEvent client DHCPMsgType.discover 0 [] 0)

private def decline (client last : BitVec 8) : Occurrence :=
  .event (sampleEvent client DHCPMsgType.decline 0 [⟨DHCPOption.requestIP, [192, 168, 0, last]⟩] 0)

private def twoClients : System :=
  (checkedMachine sampleEnv).run sampleStart [discover 1, discover 2]

private theorem blocks_decline {s : System} {client last : BitVec 8} {x : Addr} (clock : s.clock = 0)
    (duration : (s.server.interfaces4[0]?).map (·.common.leaseTTL) =
      some sampleConfig4.leaseDuration)
    (address : DHCPv4.firstAddr (sampleMessage DHCPMsgType.decline 0
      [⟨DHCPOption.requestIP, [192, 168, 0, last]⟩]) DHCPOption.requestIP = some x) :
    s.Blocks sampleEnv x (decline client last) sampleConfig4.leaseDuration := by
  obtain ⟨iface, found, ttl⟩ := Option.map_eq_some_iff.mp duration
  have deadline : (s.readings ⟨0, 0⟩).now + iface.common.leaseTTL = sampleConfig4.leaseDuration := by
    rw [ttl, readings, clock]
    rfl
  rw [← deadline]
  exact .declined found rfl rfl address

private theorem vacates_decline : twoClients.Vacates sampleEnv (.v4 0xC0A80065) (decline 2 101) := by
  have single : twoClients.server.interfaces4.length = 1 := by decide +kernel
  have clients : ∀ iface ∈ twoClients.server.interfaces4, ∀ key ∈ iface.common.leases.keys,
      (iface.common.leases.get key).map (fun l => (twoClients.server.heap.read l).ip) =
        some (.v4 0xC0A80065) → key.val = sampleMAC.set 5 2 := by decide +kernel
  have declined : ∀ iface ∈ twoClients.server.interfaces4,
      ((twoClients.server.world iface.common).declinedLease iface.conf
        { sampleMessage DHCPMsgType.decline 0 [⟨DHCPOption.requestIP, [192, 168, 0, 101]⟩] with
          clientHWAddr := sampleMAC.set 5 2 }).map (fun l => (twoClients.server.heap.read l).hwAddr) =
        some (sampleMAC.set 5 2) := by decide +kernel
  rintro j iface key ⟨here, l, member, same⟩
  obtain ⟨iface4, found, rfl⟩ := Option.map_eq_some_iff.mp here
  obtain ⟨bound, present⟩ := List.getElem?_eq_some_iff.mp found
  have owner := clients iface4 (present ▸ List.getElem_mem bound) key
    ((FiniteMap.mem_keys _ _).mpr ⟨l, member⟩) (by rw [member, Option.map_some, same])
  refine ⟨by omega, fun other there => ?_⟩
  obtain ⟨l', planned, mine⟩ := Option.map_eq_some_iff.mp (declined other (List.mem_of_getElem? there))
  exact ⟨l', planned, owner.trans mine.symm⟩

private def sampleIface : NetInterface := ⟨.new, ∅, sampleConfig4.addrSpace, sampleConfig4.leaseDuration⟩

private theorem sampleMAC_length :
    sampleMAC.length = 6 ∨ sampleMAC.length = 8 ∨ sampleMAC.length = 20 := .inl rfl

private def sampleKey : MacKey := ⟨sampleMAC, sampleMAC_length⟩

private def onlyAvailable (ip other : Addr) : Option Bool := some (other == ip)

private theorem unused_sample {ip : Addr} (valid : ip.isValid = true)
    (inside : sampleConfig4.addrSpace.contains ip = true) :
    (sampleStart.server.world sampleIface).Unused 0 ip := by
  refine ⟨valid, inside, ?_, ?_⟩
  · intro k l held
    cases held
  · intro l found
    cases found

private theorem firstFree_sample : sampleIface.Ranged ∧ sampleIface.FirstFree (.v4 0xC0A80064) := by
  have sound : sampleStart.Sound sampleConfig :=
    @sound_reachable sampleEnv sampleConfig _ [] 0 ⟨[], rfl⟩
  have here : sampleStart.server.common (.v4 0) = some sampleIface := rfl
  have ranged := (sound.zoned here).1
  exact ⟨ranged, ranged.firstFree_of_nextIP (by decide +kernel) (by decide)⟩

/-- A declined address stays blocked, and a call finds the only available address. -/
theorem blocked_addresses_sample :
    ((checkedMachine sampleEnv).next twoClients (decline 2 101)).StaysBlocked sampleEnv
        (.v4 0xC0A80065) sampleConfig4.leaseDuration ∧
      World.Returns sampleEnv (sampleStart.server.world sampleIface) sampleKey 0
        (onlyAvailable (.v4 0xC0A80064)) fun _ => ⟨.inserted, true⟩ := by
  refine ⟨?_, ?_⟩
  · exact (@blocked_addresses sampleEnv sampleConfig twoClients [] 0 ⟨_, rfl⟩).1 _ _ _
      (blocks_decline (by decide +kernel) (by decide +kernel) (by decide +kernel)) vacates_decline
  · have allocation := (@blocked_addresses sampleEnv sampleConfig sampleStart [] 0 ⟨[], rfl⟩).2
    exact (allocation (.v4 0) sampleIface sampleKey 0 _ _ rfl
      ⟨.v4 0xC0A80064, unused_sample (by decide) (by decide), by decide⟩).1
        (.inl ⟨.v4 0xC0A80064, firstFree_sample.2, by decide⟩)

/-- An address that was just declined is offered to the next client, and a call fails for an
unavailable address although the next one is free. -/
theorem declined_address_offered :
    (¬ ∀ events x occurrence deadline,
      ((checkedMachine sampleEnv).run sampleStart events).Blocks sampleEnv x occurrence deadline →
        ∀ between last, ¬ Offers x deadline ((checkedMachine sampleEnv).answer
          ((checkedMachine sampleEnv).run ((checkedMachine sampleEnv).next
            ((checkedMachine sampleEnv).run sampleStart events) occurrence) between) last)) ∧
    ¬ ∀ (isAvailable : Addr → Option Bool) (key : MacKey) (rounds : Nat → Round),
      (∃ x, (sampleStart.server.world sampleIface).Unused 0 x ∧ isAvailable x = some true) →
        World.Returns sampleEnv (sampleStart.server.world sampleIface) key 0 isAvailable rounds := by
  refine ⟨fun claim => ?_, fun claim => ?_⟩
  · refine claim [discover 1] (.v4 0xC0A80064) (decline 1 100) sampleConfig4.leaseDuration
      (blocks_decline (by decide +kernel) (by decide +kernel) (by decide +kernel)) [] (discover 2) ?_
    have offered : (machine sampleEnv).answer ((machine sampleEnv).run sampleStart
        [sampleEvent 1 DHCPMsgType.discover 0 [] 0, sampleEvent 1 DHCPMsgType.decline 0
          [⟨DHCPOption.requestIP, [192, 168, 0, 100]⟩] 0])
          (sampleEvent 2 DHCPMsgType.discover 0 [] 0) =
        .response4 (some ⟨DHCPMsgType.offer, sampleMAC.set 5 2, .v4 0xC0A80064, some 3600, ""⟩) 0 := by
      decide +kernel
    have offers : Offers (.v4 0xC0A80064) sampleConfig4.leaseDuration (.answer (.response4
        (some ⟨DHCPMsgType.offer, sampleMAC.set 5 2, .v4 0xC0A80064, some 3600, ""⟩) 0)) :=
      .response ⟨.inl rfl, rfl⟩ (by decide)
    rw [← offered] at offers
    exact offers
  · obtain ⟨fuel, after, l, asked, done, _⟩ := claim (onlyAvailable (.v4 0xC0A80065))
      sampleKey (fun _ => ⟨.inserted, true⟩)
      ⟨.v4 0xC0A80065, unused_sample (by decide) (by decide), by decide⟩
    obtain ⟨ranged, first⟩ := firstFree_sample
    have sound : sampleStart.Sound sampleConfig :=
    @sound_reachable sampleEnv sampleConfig _ [] 0 ⟨[], rfl⟩
    exact (World.ran_of_checked done).refused ranged (sound.filed (.v4 0) sampleIface rfl) rfl first
      (by decide) rfl

end Examples

end System

end AdGuardHome.Dhcpsvc
