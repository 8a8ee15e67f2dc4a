import AdGuardHome.Dhcpsvc.Frame

namespace AdGuardHome.Dhcpsvc

open Netip Heap

namespace World

variable {env : Env} {w : World}

structure Commits4 (env : Env) (conf : DHCPInterfaceV4) (w : World) (req : DHCPv4)
    (chance : Chance) (l : Ref) (hostname : String) : Prop where
  asked : w.requestedLease conf req = some (l, hostname)
  accepted : ((w.setLease l fun lease => { lease with hostname }).update env l chance.stored).2 =
    .ok ()

private theorem nak_not_ack (req : DHCPv4) : (respondNAK req).messageType ≠ DHCPMsgType.ack :=
  (by decide : DHCPMsgType.nak ≠ DHCPMsgType.ack)

private theorem offer_not_ack (w : World) (req : DHCPv4) (l : Ref) (now : Time) :
    (w.respondLease env DHCPMsgType.offer req l now).messageType ≠ DHCPMsgType.ack :=
  (by decide : DHCPMsgType.offer ≠ DHCPMsgType.ack)

variable {chance : Chance} {clock : Readings} {req : DHCPv4} {resp : Response4} {ip : Addr}
  {conf : DHCPInterfaceV4} {srcMAC : MacKey}

theorem commit4_ack {l : Ref} {hostname : String}
    (sent : (w.commit4 env req l hostname chance clock).2 = some resp)
    (ack : resp.messageType = DHCPMsgType.ack) :
    ((w.setLease l fun lease => { lease with hostname }).update env l chance.stored).2 = .ok () ∧
      resp = (w.perform env chance clock (.commit4 l hostname)).respondLease env
        DHCPMsgType.ack req l clock.later := by
  unfold commit4 at sent
  split at sent
  · obtain rfl := Option.some.inj sent
    exact absurd ack (nak_not_ack req)
  · rename_i w' done
    refine ⟨by rw [done], ?_⟩
    rw [perform, done]
    exact (Option.some.inj sent).symm

/-- The common end of the handlers of `DHCPREQUEST`. -/
private theorem commitFound_ack (hostname : Ref → String) {absent : Option Response4}
    (refused : ∀ other, absent = some other → other.messageType ≠ DHCPMsgType.ack)
    (sent : (match macToKey req.clientHWAddr with
      | none => (w, none)
      | some key =>
        match w.iface.leases.get key with
        | none => (w, absent)
        | some l =>
          if (w.lease l).ip ≠ ip then (w, some (respondNAK req))
          else w.commit4 env req l (hostname l) chance clock).2 = some resp)
    (ack : resp.messageType = DHCPMsgType.ack) :
    ∃ l, w.leaseByMacWithIP req.clientHWAddr ip = some l ∧
      (w.commit4 env req l (hostname l) chance clock).2 = some resp := by
  unfold leaseByMacWithIP
  cases named : macToKey req.clientHWAddr with
  | none => simp [named] at sent
  | some key =>
    rw [named] at sent
    dsimp only at sent ⊢
    cases member : w.iface.leases.get key with
    | none =>
      rw [member] at sent
      exact absurd ack (refused resp sent)
    | some l =>
      rw [member] at sent
      dsimp only at sent ⊢
      by_cases here : (w.lease l).ip = ip
      · rw [if_neg (not_not_intro here)] at sent
        exact ⟨l, if_pos here, sent⟩
      · rw [if_pos here] at sent
        obtain rfl := Option.some.inj sent
        exact absurd ack (nak_not_ack req)

theorem handleRequest_ack (sent : (w.handleRequest env conf req chance clock).2 = some resp)
    (ack : resp.messageType = DHCPMsgType.ack) :
    ∃ l hostname, w.requestedLease conf req = some (l, hostname) ∧
      (w.commit4 env req l hostname chance clock).2 = some resp := by
  unfold handleRequest handleSelecting handleInitReboot handleRenew at sent
  unfold requestedLease
  dsimp only at sent ⊢
  split at sent
  · rename_i selecting
    rw [if_pos selecting]
    split at sent
    · cases sent
    rename_i known
    split at sent
    · cases sent
    rename_i fresh
    obtain ⟨l, found, sent⟩ := commitFound_ack (fun _ => req.hostname4) (by
      intro other equal
      obtain rfl := Option.some.inj equal
      exact nak_not_ack req) sent ack
    refine ⟨l, req.hostname4, ?_, sent⟩
    rw [if_neg (by simpa using ⟨by simpa using known, by simpa using fresh⟩), found]
    rfl
  rename_i notSelecting
  rw [if_neg notSelecting]
  split at sent
  · rename_i rebooting
    rw [if_pos rebooting]
    split at sent
    · obtain rfl := Option.some.inj sent
      exact absurd ack (nak_not_ack req)
    rename_i inside
    split at sent
    · cases sent
    rename_i fresh
    obtain ⟨l, found, sent⟩ := commitFound_ack
      (fun l => orString req.hostname4 (w.lease l).hostname) (by
        intro other equal
        cases equal) sent ack
    refine ⟨l, _, ?_, sent⟩
    rw [if_neg (by simpa using ⟨by simpa using inside, by simpa using fresh⟩), found]
    rfl
  · rename_i renewing
    rw [if_neg renewing]
    split at sent
    · cases sent
    rename_i inside
    obtain ⟨l, found, sent⟩ := commitFound_ack
      (fun l => orString req.hostname4 (w.lease l).hostname) (by
        intro other equal
        cases equal) sent ack
    refine ⟨l, _, ?_, sent⟩
    rw [if_neg inside, found]
    rfl

/-- A `DHCPACK` answers a `DHCPREQUEST` whose commit the index accepts, with the lease as it
is then. -/
theorem serveV4_ack (sent : (w.serveV4 env conf req chance clock).2 = some resp)
    (ack : resp.messageType = DHCPMsgType.ack) :
    ∃ l hostname, w.plan4 conf req = .commit4 l hostname ∧
      w.Commits4 env conf req chance l hostname ∧
      resp = (w.perform env chance clock (.commit4 l hostname)).respondLease env
        DHCPMsgType.ack req l clock.later := by
  unfold serveV4 at sent
  unfold plan4
  split at sent
  · cases sent
  rename_i asked
  rw [if_neg asked]
  cases given : req.msgType with
  | none =>
    rw [given] at sent
    cases sent
  | some typ =>
    rw [given] at sent
    dsimp only at sent ⊢
    unfold handleDHCPv4 at sent
    split at sent
    · unfold handleDiscover at sent
      split at sent
      · cases sent
      split at sent
      · obtain rfl := Option.some.inj sent
        exact absurd ack (offer_not_ack _ req _ _)
      split at sent
      · cases sent
      · obtain rfl := Option.some.inj sent
        exact absurd ack (offer_not_ack _ req _ _)
    rename_i notDiscover
    rw [if_neg notDiscover]
    split at sent
    · rename_i request
      rw [if_pos request]
      obtain ⟨l, hostname, found, sent⟩ := handleRequest_ack sent ack
      obtain ⟨accepted, answered⟩ := commit4_ack sent ack
      refine ⟨l, hostname, ?_, ⟨found, accepted⟩, answered⟩
      rw [found]
    split at sent
    · cases sent
    split at sent <;> cases sent

theorem commit4_not_offer {l : Ref} {hostname : String}
    (sent : (w.commit4 env req l hostname chance clock).2 = some resp) :
    resp.messageType ≠ DHCPMsgType.offer := by
  unfold commit4 at sent
  split at sent
  · obtain rfl := Option.some.inj sent
    exact (by decide : DHCPMsgType.nak ≠ DHCPMsgType.offer)
  · obtain rfl := Option.some.inj sent
    exact (by decide : DHCPMsgType.ack ≠ DHCPMsgType.offer)

/-- The common end of the handlers of `DHCPREQUEST` does not offer. -/
private theorem commitFound_not_offer (hostname : Ref → String) {absent : Option Response4}
    (refused : ∀ other, absent = some other → other.messageType ≠ DHCPMsgType.offer)
    (sent : (match macToKey req.clientHWAddr with
      | none => (w, none)
      | some key =>
        match w.iface.leases.get key with
        | none => (w, absent)
        | some l =>
          if (w.lease l).ip ≠ ip then (w, some (respondNAK req))
          else w.commit4 env req l (hostname l) chance clock).2 = some resp) :
    resp.messageType ≠ DHCPMsgType.offer := by
  cases named : macToKey req.clientHWAddr with
  | none => simp [named] at sent
  | some key =>
    rw [named] at sent
    dsimp only at sent
    cases member : w.iface.leases.get key with
    | none =>
      rw [member] at sent
      exact refused resp sent
    | some l =>
      rw [member] at sent
      dsimp only at sent
      split at sent
      · obtain rfl := Option.some.inj sent
        exact (by decide : DHCPMsgType.nak ≠ DHCPMsgType.offer)
      · exact commit4_not_offer sent

theorem handleRequest_not_offer (sent : (w.handleRequest env conf req chance clock).2 = some resp) :
    resp.messageType ≠ DHCPMsgType.offer := by
  have nak : ∀ other, some (respondNAK req) = some other →
      other.messageType ≠ DHCPMsgType.offer := by
    intro other equal
    obtain rfl := Option.some.inj equal
    exact (by decide : DHCPMsgType.nak ≠ DHCPMsgType.offer)
  have silent : ∀ other : Response4, none = some other → other.messageType ≠ DHCPMsgType.offer := by
    intro other equal
    cases equal
  unfold handleRequest handleSelecting handleInitReboot handleRenew at sent
  dsimp only at sent
  split at sent
  · split at sent
    · cases sent
    split at sent
    · cases sent
    exact commitFound_not_offer (fun _ => req.hostname4) nak sent
  split at sent
  · split at sent
    · exact nak resp sent
    split at sent
    · cases sent
    exact commitFound_not_offer (fun l => orString req.hostname4 (w.lease l).hostname) silent sent
  · split at sent
    · cases sent
    exact commitFound_not_offer (fun l => orString req.hostname4 (w.lease l).hostname) silent sent

/-- A `DHCPOFFER` is of the lease that the client has afterwards. -/
theorem serveV4_offer (sent : (w.serveV4 env conf req chance clock).2 = some resp)
    (offer : resp.messageType = DHCPMsgType.offer) :
    ∃ key l, (w.serveV4 env conf req chance clock).1.iface.leases.get key = some l ∧
      resp.yourClientIP = ((w.serveV4 env conf req chance clock).1.lease l).ip := by
  unfold serveV4 at sent ⊢
  split at sent
  · cases sent
  rename_i asked
  rw [if_neg asked]
  cases given : req.msgType with
  | none =>
    rw [given] at sent
    cases sent
  | some typ =>
    rw [given] at sent
    dsimp only at sent ⊢
    unfold handleDHCPv4 at sent ⊢
    split at sent
    · rename_i discover
      rw [if_pos discover]
      unfold handleDiscover at sent ⊢
      cases named : macToKey req.clientHWAddr with
      | none =>
        rw [named] at sent
        cases sent
      | some key =>
        rw [named] at sent
        dsimp only at sent ⊢
        cases member : w.iface.leases.get key with
        | some l =>
          rw [member] at sent
          obtain rfl := Option.some.inj sent
          exact ⟨key, l, member, rfl⟩
        | none =>
          rw [member] at sent
          dsimp only at sent ⊢
          rcases allocate_cases env w key clock.now chance.order with
            ⟨_, failed⟩ | ⟨w', l, done, allocated⟩
          · rw [failed] at sent
            cases sent
          · rw [done] at sent ⊢
            obtain rfl := Option.some.inj sent
            exact ⟨key, l, allocated.member, rfl⟩
    split at sent
    · exact absurd offer (handleRequest_not_offer sent)
    split at sent
    · cases sent
    split at sent <;> cases sent

/-- How a `Reply` comes to offer an address: with a commit, without one, or with both. -/
inductive Grants (env : Env) (w : World) (req : DHCPv6) (chance : Chance) (clock : Readings) :
    Operation → Ref → Prop
  | committed {l : Ref} {instant : Instant}
    (accepted : (w.commit6 env req l chance.stored (clock.reading instant)).2 = .ok ()) :
    Grants env w req chance clock (.commit6 l req instant) l
  | allocated {key : MacKey} {w' : World} {l : Ref}
    (done : w.allocate env key clock.now (noopAddressChecker chance.order) = (w', .ok l)) :
    Grants env w req chance clock (.allocate key) l
  | both {key : MacKey} {w' : World} {l : Ref}
    (done : w.allocate env key clock.now (noopAddressChecker chance.order) = (w', .ok l))
    (accepted : (w'.commit6 env req l chance.stored clock.later).2 = .ok ()) :
    Grants env w req chance clock (.allocateCommitted key req) l

/-- A response offers the address of a lease for the lease time of the interface. -/
def Offers (env : Env) (w : World) (l : Ref) (iana : ResponseIANA) : Prop :=
  ∃ iaid, iana = w.iaNAFromLease env l iaid

theorem handleSolicit_reply {req : DHCPv6} {resp : Response6} {iana : ResponseIANA}
    (sent : (w.handleSolicit env srcMAC req chance clock).2 = some resp)
    (reply : resp.msgType = DHCPv6MsgType.reply) (given : resp.iana = some iana) :
    (req.findOption DHCPv6Option.rapidCommit).isNone = false ∧
      ∃ l, w.Grants env req chance clock (w.planSolicit env srcMAC req) l ∧
        Offers env (w.perform env chance clock (w.planSolicit env srcMAC req)) l iana := by
  unfold handleSolicit at sent
  unfold planSolicit
  split at sent
  · cases sent
  rename_i proper
  have advertise : ∀ {iana status} , (⟨DHCPv6MsgType.advertise, iana, status, false⟩ :
      Response6).msgType ≠ DHCPv6MsgType.reply := fun {_ _} => by
    show DHCPv6MsgType.advertise ≠ DHCPv6MsgType.reply
    decide
  cases options : req.ianas with
  | nil =>
    rw [options] at sent
    obtain rfl := Option.some.inj sent
    exact absurd reply advertise
  | cons first rest =>
    rw [options, allocateForSolicit_cons] at sent
    rw [if_neg (by simpa using proper)]
    cases member : w.iface.leases.get srcMAC with
    | some l =>
      rw [member] at sent
      dsimp only at sent ⊢
      split at sent
      · obtain rfl := Option.some.inj sent
        exact absurd reply advertise
      rename_i rapid
      rw [if_neg rapid]
      split at sent
      · obtain rfl := Option.some.inj sent
        exact absurd reply advertise
      · rename_i w' done
        obtain rfl := Option.some.inj sent
        obtain rfl := Option.some.inj given
        refine ⟨Bool.eq_false_iff.mpr rapid, l, .committed (by rw [Readings.reading, done]), first.id, ?_⟩
        rw [perform, Readings.reading, done]
    | none =>
      rw [member] at sent
      dsimp only at sent ⊢
      rcases allocate_cases env w srcMAC clock.now chance.order with
        ⟨error, failed⟩ | ⟨w', l, done, _⟩
      · rw [failed] at sent
        obtain rfl := Option.some.inj sent
        exact absurd reply advertise
      · rw [done] at sent
        dsimp only at sent
        split at sent
        · obtain rfl := Option.some.inj sent
          exact absurd reply advertise
        rename_i rapid
        rw [if_neg rapid]
        split at sent
        · obtain rfl := Option.some.inj sent
          exact absurd reply advertise
        · rename_i w'' accepted
          obtain rfl := Option.some.inj sent
          obtain rfl := Option.some.inj given
          refine ⟨Bool.eq_false_iff.mpr rapid, l, .both done (by rw [accepted]), first.id, ?_⟩
          rw [perform, done]
          dsimp only
          rw [accepted]

theorem handleRequest6_reply {conf : DHCPInterfaceV6} {req : DHCPv6} {resp : Response6}
    {iaid : BitVec 32} {d : BitVec 32}
    (sent : (w.handleRequest6 env conf srcMAC req chance clock).2 = some resp)
    (given : resp.iana = some (.addr iaid ip d)) :
    ∃ l, w.Grants env req chance clock (w.planRequest6 env conf srcMAC req) l ∧
      Offers env (w.perform env chance clock (w.planRequest6 env conf srcMAC req)) l
        (.addr iaid ip d) := by
  unfold handleRequest6 at sent
  unfold planRequest6
  split at sent
  · cases sent
  rename_i proper
  rw [if_neg proper]
  cases option : req.ianas.head? with
  | none =>
    rw [option] at sent
    obtain rfl := Option.some.inj sent
    cases given
  | some iana =>
    rw [option] at sent
    dsimp only at sent ⊢
    split at sent
    · obtain rfl := Option.some.inj sent
      cases given
    rename_i onLink
    rw [if_neg onLink]
    obtain rfl := Option.some.inj sent
    have given := Option.some.inj given
    unfold ianaForRequest at given
    cases member : w.iface.leases.get srcMAC with
    | none =>
      rw [member] at given
      dsimp only at given ⊢
      split at given
      · cases given
      · rename_i w' l done
        refine ⟨l, .allocated done, iana.id, ?_⟩
        rw [perform, done]
        exact given.symm
    | some l =>
      rw [member] at given
      dsimp only at given ⊢
      split at given
      · cases given
      · rename_i w' done
        refine ⟨l, .committed (by rw [Readings.reading, done]), iana.id, ?_⟩
        rw [perform, Readings.reading, done]
        exact given.symm

theorem handleUpdate_reply {req : DHCPv6} {resp : Response6} {iaid : BitVec 32} {d : BitVec 32}
    (sent : (w.handleUpdate env srcMAC req chance clock).2 = some resp)
    (given : resp.iana = some (.addr iaid ip d)) :
    ∃ l, w.Grants env req chance clock (w.planUpdate srcMAC req) l ∧
      Offers env (w.perform env chance clock (w.planUpdate srcMAC req)) l (.addr iaid ip d) := by
  unfold handleUpdate at sent
  unfold planUpdate
  cases option : req.ianas.head? with
  | none =>
    rw [option] at sent
    obtain rfl := Option.some.inj sent
    cases given
  | some iana =>
    rw [option] at sent
    obtain rfl := Option.some.inj sent
    have given : (w.ianaForUpdate env srcMAC req iana chance clock.now).2 =
      some (.addr iaid ip d) := given
    unfold ianaForUpdate at given
    rw [Option.bind_some]
    cases asked : iana.requestedAddr with
    | none =>
      rw [asked] at given
      cases given
    | some reqIP =>
      rw [asked] at given
      dsimp only at given ⊢
      rw [leaseByMacWithIP_val]
      cases member : w.iface.leases.get srcMAC with
      | none =>
        rw [member] at given
        cases Option.some.inj given
      | some l =>
        rw [member] at given
        dsimp only at given
        split at given
        · cases Option.some.inj given
        rename_i here
        rw [ne_eq, not_not] at here
        split at given
        · cases Option.some.inj given
        · rename_i w' done
          rw [Option.filter, if_pos (by simpa using here)]
          refine ⟨l, .committed (by rw [Readings.reading, done]), iana.id, ?_⟩
          rw [perform, Readings.reading, done]
          exact (Option.some.inj given).symm

/-- A `Reply` with an address offers a lease that was allocated or committed; that to a
`SOLICIT` takes a rapid commit. -/
theorem handleDHCPv6_reply {conf : DHCPInterfaceV6} {req : DHCPv6} {resp : Response6}
    {iaid : BitVec 32} {d : BitVec 32}
    (sent : (w.handleDHCPv6 env conf srcMAC req chance clock).2 = some resp)
    (reply : resp.msgType = DHCPv6MsgType.reply) (given : resp.iana = some (.addr iaid ip d)) :
    (req.msgType = DHCPv6MsgType.solicit →
      (req.findOption DHCPv6Option.rapidCommit).isNone = false) ∧
      ∃ l, w.Grants env req chance clock (w.plan6 env conf srcMAC req) l ∧
        Offers env (w.perform env chance clock (w.plan6 env conf srcMAC req)) l
          (.addr iaid ip d) := by
  unfold handleDHCPv6 at sent
  unfold plan6
  split at sent
  · rename_i solicit
    rw [if_pos solicit]
    obtain ⟨rapid, granted⟩ := handleSolicit_reply sent reply given
    exact ⟨fun _ => rapid, granted⟩
  rename_i notSolicit
  rw [if_neg notSolicit]
  refine ⟨fun solicit => absurd solicit notSolicit, ?_⟩
  split at sent
  · rename_i request
    rw [if_pos request]
    exact handleRequest6_reply sent given
  rename_i notRequest
  rw [if_neg notRequest]
  split at sent
  · unfold handleConfirm at sent
    split at sent
    · cases sent
    · obtain ⟨_, _, rfl⟩ := Option.map_eq_some_iff.mp sent
      cases given
  split at sent
  · rename_i renew
    rw [if_pos renew]
    unfold handleRenew6 at sent
    split at sent
    · cases sent
    · rename_i proper
      rw [if_neg proper]
      exact handleUpdate_reply sent given
  rename_i notRenew
  rw [if_neg notRenew]
  split at sent
  · rename_i rebind
    rw [if_pos rebind]
    unfold handleRebind at sent
    split at sent
    · cases sent
    · rename_i proper
      rw [if_neg proper]
      exact handleUpdate_reply sent given
  split at sent
  · unfold handleInfo at sent
    split at sent
    · cases sent
    split at sent
    · cases sent
    split at sent
    · cases sent
    · obtain rfl := Option.some.inj sent
      cases given
  split at sent
  · unfold handleRelease6 at sent
    split at sent
    · cases sent
    split at sent
    · obtain rfl := Option.some.inj sent
      cases given
    split at sent
    · obtain rfl := Option.some.inj sent
      cases given
    split at sent
    · obtain rfl := Option.some.inj sent
      cases given
    split at sent <;>
      · obtain rfl := Option.some.inj sent
        cases given
  · cases sent

end World

end AdGuardHome.Dhcpsvc
