import AdGuardHome.Dhcpsvc.Answers
import AdGuardHome.Dhcpsvc.Consistency
import AdGuardHome.Dhcpsvc.Interfaces

namespace AdGuardHome.Dhcpsvc

open Netip Heap

namespace World

variable {env : Env} {w : World}

/-- The client has a lease of the address, and a dynamic one lasts at least for what it was
told. -/
def Promised (w : World) (key : MacKey) (ip : Addr) (d : BitVec 32) (time : Time) : Prop :=
  ∃ l, w.iface.leases.get key = some l ∧ (w.lease l).ip = ip ∧
    ((w.lease l).isStatic = false → 0 < ofSeconds d ∧ ofSeconds d ≤ w.iface.leaseTTL ∧
      time + ofSeconds d ≤ (w.lease l).expiry)

/-- What an operation needs for an answer that tells the client no more than is stored. A
DHCPv4 answer tells the remaining time, a DHCPv6 answer the lease time of the interface. -/
def Lasting (env : Env) (w : World) (chance : Chance) (clock : Readings) : Operation → Prop
  | .commit4 l hostname =>
    ((w.setLease l fun lease => { lease with hostname }).update env l chance.stored).2 = .ok () →
      (w.lease l).isStatic = true ∨
        Fits ((w.lease l).expiry - clock.later) ∧
          (w.lease l).expiry - clock.later ≤ w.iface.leaseTTL
  | .commit6 l req instant =>
    (w.commit6 env req l chance.stored (clock.reading instant)).2 = .ok () →
      (w.lease l).isStatic = true ∨
        Fits w.iface.leaseTTL ∧
          if (w.lease l).isExpiredAt (clock.reading instant) then
            clock.later - clock.reading instant ≤ w.iface.leaseTTL % second
          else clock.later + (w.iface.leaseTTL - w.iface.leaseTTL % second) ≤ (w.lease l).expiry
  | .allocate _ | .allocateCommitted _ _ =>
    Fits w.iface.leaseTTL ∧ clock.later - clock.now ≤ w.iface.leaseTTL % second
  | _ => True

/-- A lease that a message commits lasts for the remaining time that the answer tells. -/
theorem promised_of_ack {conf : DHCPInterfaceV4} {req : DHCPv4} {chance : Chance}
    {clock : Readings} (known : ∀ k l, w.iface.leases.get k = some l → l < w.heap.size)
    (lasting : w.Lasting env chance clock (w.plan4 conf req)) {resp : Response4}
    (sent : (w.serveV4 env conf req chance clock).2 = some resp)
    (ack : resp.messageType = DHCPMsgType.ack) :
    ∃ (key : MacKey) (d : BitVec 32), key.val = resp.clientHWAddr ∧ resp.leaseTime = some d ∧
      (w.serveV4 env conf req chance clock).1.Promised key resp.yourClientIP d clock.later := by
  obtain ⟨l, hostname, planned, ⟨asked, accepted⟩, answered⟩ := serveV4_ack sent ack
  obtain ⟨key, owner, member⟩ := requestedLease_owner asked
  rw [planned] at lasting
  rw [serveV4_world, planned]
  have written := (lease_setLease w (known key l member)
    (fun lease => { lease with hostname }) l).trans (if_pos rfl)
  have heap := heap_update env (w.setLease l fun lease => { lease with hostname }) l chance.stored
  have ttl := leaseTTL_update env (w.setLease l fun lease => { lease with hostname }) l
    chance.stored
  have stored : (w.perform env chance clock (.commit4 l hostname)).lease l =
      { w.lease l with hostname } := by
    unfold lease at written ⊢
    rw [perform, heap]
    exact written
  have memberNamed : (w.setLease l fun lease =>
      { lease with hostname }).iface.leases.get key = some l := member
  rw [answered]
  dsimp only [respondLease, leaseTimeOption]
  refine ⟨key, _, owner, rfl, l, member_update env memberNamed chance.stored, rfl, ?_⟩
  rw [stored]
  intro dynamic
  obtain ⟨fits, short⟩ := (lasting accepted).resolve_left (by rw [dynamic]; decide)
  rw [if_neg (by rw [dynamic]; decide)]
  dsimp only
  have told := fits.backed.ofSeconds_le env
  refine ⟨fits.ofSeconds_pos env, Int.le_trans told (Int.le_trans short (Int.le_of_eq ttl.symm)),
    ?_⟩
  calc clock.later + ofSeconds (uint32Seconds env ((w.lease l).expiry - clock.later))
      ≤ clock.later + ((w.lease l).expiry - clock.later) := Int.add_le_add_left told _
    _ = (w.lease l).expiry := add_sub_cancel _ _

private theorem room {granted sent ttl rest : Int} (prompt : sent - granted ≤ rest) :
    sent + (ttl - rest) ≤ granted + ttl := by
  omega

private theorem told_of_granted {ttl : Duration} (fits : Fits ttl) (env : Env) {granted sent : Time}
    (prompt : sent - granted ≤ ttl % second) :
    sent + ofSeconds (uint32Seconds env ttl) ≤ granted + ttl := by
  rw [fits.ofSeconds_eq env]
  exact room prompt

/-- A committed lease lasts for the lease time. -/
private theorem committed_lasts {ttl : Duration} (fits : Fits ttl) (env : Env) (req : DHCPv6)
    {lease : Lease} {now sent : Time} (dynamic : lease.isStatic = false)
    (prompt : if lease.isExpiredAt now then sent - now ≤ ttl % second
      else sent + (ttl - ttl % second) ≤ lease.expiry) :
    sent + ofSeconds (uint32Seconds env ttl) ≤ (committed env req lease now ttl).expiry := by
  unfold committed
  dsimp only
  unfold Lease.isExpiredAt at prompt ⊢
  simp only [dynamic, Bool.false_eq_true, if_false, decide_eq_true_eq] at prompt ⊢
  split
  · rename_i past
    rw [if_pos past] at prompt
    simp only [Lease.updateExpiry, Bool.false_eq_true, if_false,
      if_neg (Int.not_lt.mpr (Int.le_of_lt past))]
    exact told_of_granted fits env prompt
  · rename_i lasting
    rw [if_neg lasting] at prompt
    rw [fits.ofSeconds_eq env]
    exact prompt

/-- A lease that was allocated or committed lasts for the lease time. -/
theorem promised_of_grants {req : DHCPv6} {chance : Chance} {clock : Readings} {key : MacKey}
    {op : Operation} {l : Ref} (known : ∀ k l, w.iface.leases.get k = some l → l < w.heap.size)
    (plans : w.Plans key op) (lasting : w.Lasting env chance clock op)
    (grants : w.Grants env req chance clock op l) {iaid : BitVec 32} {ip : Addr} {d : BitVec 32}
    (offers : Offers env (w.perform env chance clock op) l (.addr iaid ip d)) :
    (w.perform env chance clock op).Promised key ip d clock.later := by
  obtain ⟨_, same⟩ := offers
  obtain ⟨_, rfl, rfl⟩ := ResponseIANA.addr.inj same
  cases grants with
  | committed accepted =>
    obtain ⟨stored, ttl, kept⟩ := commit6_stores env req chance.stored _ (known key l plans) plans
    refine ⟨l, kept.resolve_right fun lost => lost.1 accepted, rfl, ?_⟩
    dsimp only [perform]
    rw [stored, ttl, committed_isStatic]
    intro dynamic
    obtain ⟨fits, prompt⟩ := (lasting accepted).resolve_left (by rw [dynamic]; decide)
    exact ⟨fits.ofSeconds_pos env, fits.backed.ofSeconds_le env,
      committed_lasts fits env req dynamic prompt⟩
  | @allocated k w' _ done =>
    obtain ⟨rfl, _⟩ := plans
    obtain ⟨fits, prompt⟩ := lasting
    rcases allocate_cases env w k clock.now chance.order with ⟨_, failed⟩ | ⟨_, _, found, allocated⟩
    · rw [failed] at done
      cases done
    rw [found] at done
    obtain ⟨rfl, same⟩ := Prod.mk.inj done
    obtain rfl := Except.ok.inj same
    obtain ⟨_, _, expiry, ttl⟩ := allocated.lasts known
    dsimp only [perform]
    rw [found]
    refine ⟨_, allocated.member, rfl, ?_⟩
    intro _
    dsimp only
    rw [expiry, ttl]
    exact ⟨fits.ofSeconds_pos env, fits.backed.ofSeconds_le env, told_of_granted fits env prompt⟩
  | @both k w' _ done accepted =>
    obtain ⟨rfl, _⟩ := plans
    obtain ⟨fits, prompt⟩ := lasting
    rcases allocate_cases env w k clock.now chance.order with ⟨_, failed⟩ | ⟨_, _, found, allocated⟩
    · rw [failed] at done
      cases done
    rw [found] at done
    obtain ⟨rfl, same⟩ := Prod.mk.inj done
    obtain rfl := Except.ok.inj same
    obtain ⟨bound, dynamic, expiry, ttl⟩ := allocated.lasts known
    obtain ⟨stored, ttlAfter, kept⟩ := commit6_stores env req chance.stored clock.later bound allocated.member
    dsimp only [perform]
    rw [found]
    refine ⟨_, kept.resolve_right fun lost => lost.1 accepted, rfl, ?_⟩
    intro _
    dsimp only
    rw [stored, ttlAfter, ttl]
    refine ⟨fits.ofSeconds_pos env, fits.backed.ofSeconds_le env,
      committed_lasts fits env req dynamic ?_⟩
    split
    · rw [Int.sub_self]
      exact Int.emod_nonneg _ (by decide)
    · rw [expiry]
      exact room prompt

end World

namespace System

variable {env : Env}

/-- What a message needs for an answer that tells the client no more than is stored. A
`SOLICIT` without rapid commit gets no such answer. -/
def Lasting (env : Env) (s : System) : Event → Prop
  | .message4 i req chance delay => ∀ iface, s.server.interfaces4[i]? = some iface →
    (s.server.world iface.common).Lasting env chance (s.readings delay)
      ((s.server.world iface.common).plan4 iface.conf req)
  | .message6 i srcMAC req chance delay => ∀ iface, s.server.interfaces6[i]? = some iface →
    req.msgType = DHCPv6MsgType.solicit ∧ (req.findOption DHCPv6Option.rapidCommit).isNone = true ∨
    (s.server.world iface.common).Lasting env chance (s.readings delay)
      ((s.server.world iface.common).plan6 env iface.conf srcMAC req)
  | _ => True

/-- The client has what a `DHCPACK` or a `Reply` with an address tells it. -/
def Keeps (env : Env) (s : System) (event : Event) : Prop :=
  match event, (machine env).answer s event with
  | .message4 i _ _ _, .response4 (some resp) time => resp.messageType = DHCPMsgType.ack →
    ∃ (iface : NetInterface) (key : MacKey) (d : BitVec 32),
      ((machine env).next s event).server.common (.v4 i) = some iface ∧
      key.val = resp.clientHWAddr ∧ resp.leaseTime = some d ∧
      (((machine env).next s event).server.world iface).Promised key resp.yourClientIP d time
  | .message6 i srcMAC _ _ _, .response6 (some resp) time => resp.msgType = DHCPv6MsgType.reply →
    ∀ iaid ip d, resp.iana = some (.addr iaid ip d) →
      ∃ iface, ((machine env).next s event).server.common (.v6 i) = some iface ∧
        (((machine env).next s event).server.world iface).Promised srcMAC ip d time
  | _, _ => True

/-- In every reachable state an answer to a message that leaves room for what it tells is
kept. -/
theorem times_kept {conf : Config} {stored : List Lease} {clock : Time} {s : System}
    (reached : (machine env).Reachable (start env conf stored clock) s) {event : Event}
    (lasting : s.Lasting env event) : s.Keeps env event := by
  have owned := owned_reachable reached
  cases event with
  | addLease l stored => trivial
  | updateStaticLease l stored => trivial
  | removeLease l stored => trivial
  | reset stored => trivial
  | message4 i req chance delay =>
    cases found : s.server.interfaces4[i]? with
    | none =>
      have silent : (machine env).answer s (.message4 i req chance delay) =
          .response4 none (s.readings delay).later := by
        simp [Transition.Machine.answer, machine, step, DHCPServer.serve4, found]
      simp only [Keeps, silent]
    | some iface =>
      have here := DHCPServer.common_of_interfaces4 found
      have server : ((machine env).next s (.message4 i req chance delay)).server =
          s.server.setWorld (.v4 i) ((s.server.world iface.common).serveV4 env iface.conf req
            chance (s.readings delay)).1 := by
        simp [Transition.Machine.next, machine, step, DHCPServer.serve4, found]
      have answered : (machine env).answer s (.message4 i req chance delay) =
          .response4 ((s.server.world iface.common).serveV4 env iface.conf req chance
            (s.readings delay)).2 (s.readings delay).later := by
        simp [Transition.Machine.answer, machine, step, DHCPServer.serve4, found]
      unfold Keeps
      rw [answered, server]
      cases sent : ((s.server.world iface.common).serveV4 env iface.conf req chance
          (s.readings delay)).2 with
      | none => trivial
      | some resp =>
        intro ack
        obtain ⟨key, d, client, told, promised⟩ := World.promised_of_ack
          (fun k l member => owned.known (.v4 i) iface.common k l here member)
          (lasting iface found) sent ack
        exact ⟨_, key, d, (DHCPServer.common_setWorld here _ _).trans (if_pos rfl), client, told,
          promised⟩
  | message6 i srcMAC req chance delay =>
    cases found : s.server.interfaces6[i]? with
    | none =>
      have silent : (machine env).answer s (.message6 i srcMAC req chance delay) =
          .response6 none (s.readings delay).later := by
        simp [Transition.Machine.answer, machine, step, DHCPServer.serve6, found]
      simp only [Keeps, silent]
    | some iface =>
      have here := DHCPServer.common_of_interfaces6 found
      have server : ((machine env).next s (.message6 i srcMAC req chance delay)).server =
          s.server.setWorld (.v6 i) ((s.server.world iface.common).handleDHCPv6 env iface.conf
            srcMAC req chance (s.readings delay)).1 := by
        simp [Transition.Machine.next, machine, step, DHCPServer.serve6, found]
      have answered : (machine env).answer s (.message6 i srcMAC req chance delay) =
          .response6 ((s.server.world iface.common).handleDHCPv6 env iface.conf srcMAC req chance
            (s.readings delay)).2 (s.readings delay).later := by
        simp [Transition.Machine.answer, machine, step, DHCPServer.serve6, found]
      unfold Keeps
      rw [answered, server]
      cases sent : ((s.server.world iface.common).handleDHCPv6 env iface.conf srcMAC req chance
          (s.readings delay)).2 with
      | none => trivial
      | some resp =>
        intro reply iaid ip d given
        refine ⟨_, (DHCPServer.common_setWorld here _ _).trans (if_pos rfl), ?_⟩
        obtain ⟨rapid, l, grants, offers⟩ := World.handleDHCPv6_reply sent reply given
        rw [World.handleDHCPv6_world]
        rcases lasting iface found with ⟨solicit, plain⟩ | lasting
        · rw [rapid solicit] at plain
          cases plain
        · exact World.promised_of_grants
            (fun k l member => owned.known (.v6 i) iface.common k l here member)
            (World.plan6_plans env iface.conf _ srcMAC req) lasting grants offers

/-- The sample server after it has offered an address at time zero. -/
def sampleOffered : System :=
  (machine sampleEnv).run (start sampleEnv sampleConfig [] 0)
    [.message4 0 (sampleMessage DHCPMsgType.discover 0 []) sampleChance ⟨0, 0⟩]

def sampleRenewal (before : Nat) : Event :=
  .message4 0 (sampleMessage DHCPMsgType.request 0xC0A80064 []) sampleChance ⟨before, 0⟩

/-- A client requests its lease at once. -/
theorem times_kept_at_once : sampleOffered.Keeps sampleEnv (sampleRenewal 0) :=
  times_kept ⟨_, rfl⟩ (by
    intro iface found
    obtain rfl := Option.some.inj found
    exact fun _ => .inr (by decide +kernel))

/-- A client that renews when less than a second of its lease is left gets no time. -/
theorem renew_tells_nothing :
    ¬ ∀ (env : Env) (conf : Config) (stored : List Lease) (clock : Time) (s : System),
      (machine env).Reachable (start env conf stored clock) s → ∀ event, s.Keeps env event := by
  intro claim
  have kept := claim sampleEnv sampleConfig [] 0 sampleOffered ⟨_, rfl⟩
    (sampleRenewal (3599 * second + 1))
  have answered : (machine sampleEnv).answer sampleOffered (sampleRenewal (3599 * second + 1)) =
      .response4 (some ⟨DHCPMsgType.ack, sampleMAC, .v4 0xC0A80064, some 0, ""⟩)
        (3599 * second + 1) := by
    decide +kernel
  have dynamic : ∀ iface, ((machine sampleEnv).next sampleOffered
      (sampleRenewal (3599 * second + 1))).server.common (.v4 0) = some iface →
        ∀ l, iface.leases.get ⟨sampleMAC, by decide⟩ = some l →
          (((machine sampleEnv).next sampleOffered
            (sampleRenewal (3599 * second + 1))).server.heap.read l).isStatic = false := by
    decide +kernel
  unfold Keeps at kept
  rw [answered] at kept
  obtain ⟨iface, key, d, found, client, told, l, member, _, promised⟩ := kept rfl
  obtain rfl : key = ⟨sampleMAC, by decide⟩ := Subtype.ext client
  obtain ⟨positive, _⟩ := promised (dynamic iface found l member)
  obtain rfl := Option.some.inj told
  exact absurd positive (by decide)

end System

end AdGuardHome.Dhcpsvc
