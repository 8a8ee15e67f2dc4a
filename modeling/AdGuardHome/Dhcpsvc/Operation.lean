import AdGuardHome.Dhcpsvc.Server

namespace AdGuardHome.Dhcpsvc

open Netip Heap

/-- When the handler of a message reads the clock for a commit. -/
inductive Instant where
  | received
  | answered

namespace Readings

def reading (clock : Readings) : Instant → Time
  | .received => clock.now
  | .answered => clock.later

end Readings

/-- What a message does to the leases of its interface. -/
inductive Operation where
  | nothing
  /-- A `DHCPDISCOVER` of a client that has a lease. -/
  | refresh (l : Ref)
  | allocate (key : MacKey)
  /-- A `SOLICIT` with rapid commit of a client that has none. -/
  | allocateCommitted (key : MacKey) (req : DHCPv6)
  | commit4 (l : Ref) (hostname : String)
  | commit6 (l : Ref) (req : DHCPv6) (instant : Instant)
  | block (l : Ref)
  | release (l : Ref)

namespace World

def perform (env : Env) (w : World) (chance : Chance) (clock : Readings) : Operation → World
  | .nothing => w
  | .refresh l => w.setLease l fun lease => lease.updateExpiry clock.now w.iface.leaseTTL
  | .allocate key => (w.allocate env key clock.now (noopAddressChecker chance.order)).1
  | .allocateCommitted key req =>
    match w.allocate env key clock.now (noopAddressChecker chance.order) with
    | (w, .error _) => w
    | (w, .ok l) => (w.commit6 env req l chance.stored clock.later).1
  | .commit4 l hostname =>
    ((w.setLease l fun lease => { lease with hostname }).update env l chance.stored).1
  | .commit6 l req instant => (w.commit6 env req l chance.stored (clock.reading instant)).1
  | .block l => (w.blockLease l clock.now chance.stored).1
  | .release l => (w.remove env (w.lease l) chance.stored).1

/-- The lease that a `DHCPREQUEST` commits and the hostname it gets. -/
def requestedLease (conf : DHCPInterfaceV4) (w : World) (req : DHCPv4) : Option (Ref × String) :=
  let srvID := req.serverID4.getD .zero
  let reqIP := req.requestedIPv4.getD .zero
  if req.serverID4.isSome && !srvID.isUnspecified then
    if !conf.addresses.contains srvID || !(Addr.v4 req.clientIP).isUnspecified then none
    else (w.leaseByMacWithIP req.clientHWAddr reqIP).map fun l => (l, req.hostname4)
  else if req.requestedIPv4.isSome && !reqIP.isUnspecified then
    if !conf.subnet.contains reqIP || !(Addr.v4 req.clientIP).isUnspecified then none
    else (w.leaseByMacWithIP req.clientHWAddr reqIP).map fun l =>
      (l, orString req.hostname4 (w.lease l).hostname)
  else if !conf.subnet.contains (.v4 req.clientIP) then none
  else (w.leaseByMacWithIP req.clientHWAddr (.v4 req.clientIP)).map fun l =>
    (l, orString req.hostname4 (w.lease l).hostname)

/-- The lease that a `DHCPDECLINE` blocks. -/
def declinedLease (conf : DHCPInterfaceV4) (w : World) (req : DHCPv4) : Option Ref :=
  req.requestedIPv4.bind fun reqIP =>
    if conf.subnet.contains reqIP then w.leaseByMacWithIP req.clientHWAddr reqIP else none

/-- The lease that a `DHCPRELEASE` removes. -/
def releasedLease (conf : DHCPInterfaceV4) (w : World) (req : DHCPv4) : Option Ref :=
  if conf.subnet.contains (.v4 req.clientIP) then
    w.leaseByMacWithIP req.clientHWAddr (.v4 req.clientIP)
  else none

def plan4 (conf : DHCPInterfaceV4) (w : World) (req : DHCPv4) : Operation :=
  if req.operation ≠ dhcpOpRequest then .nothing
  else match req.msgType with
    | none => .nothing
    | some typ =>
      if typ = DHCPMsgType.discover then
        match macToKey req.clientHWAddr with
        | none => .nothing
        | some key =>
          match w.iface.leases.get key with
          | some l => .refresh l
          | none => .allocate key
      else if typ = DHCPMsgType.request then
        match w.requestedLease conf req with
        | none => .nothing
        | some (l, hostname) => .commit4 l hostname
      else if typ = DHCPMsgType.release then
        match w.releasedLease conf req with
        | none => .nothing
        | some l => .release l
      else if typ = DHCPMsgType.decline then
        match w.declinedLease conf req with
        | none => .nothing
        | some l => .block l
      else .nothing

/-- The operation of a `SOLICIT`. -/
def planSolicit (env : Env) (w : World) (srcMAC : MacKey) (req : DHCPv6) : Operation :=
  if !req.clientIDNoServer env || req.ianas.isEmpty then .nothing
  else if (req.findOption DHCPv6Option.rapidCommit).isNone then
    match w.iface.leases.get srcMAC with
    | some _ => .nothing
    | none => .allocate srcMAC
  else match w.iface.leases.get srcMAC with
    | some l => .commit6 l req .answered
    | none => .allocateCommitted srcMAC req

/-- The operation of a `REQUEST`. -/
def planRequest6 (env : Env) (conf : DHCPInterfaceV6) (w : World) (srcMAC : MacKey)
    (req : DHCPv6) : Operation :=
  if !req.clientIDMatchingServer env conf.serverDUID then .nothing
  else match req.ianas.head? with
    | none => .nothing
    | some iana =>
      if iana.requestedAddr.any fun reqIP => !conf.subnetPrefix.contains reqIP then .nothing
      else match w.iface.leases.get srcMAC with
        | none => .allocate srcMAC
        | some l => .commit6 l req .received

/-- The operation of a `RENEW` or a `REBIND`. -/
def planUpdate (w : World) (srcMAC : MacKey) (req : DHCPv6) : Operation :=
  match req.ianas.head?.bind IANAOption.requestedAddr with
  | none => .nothing
  | some reqIP =>
    match w.leaseByMacWithIP srcMAC.val reqIP with
    | none => .nothing
    | some l => .commit6 l req .received

/-- The operation of a `RELEASE`. -/
def planRelease6 (env : Env) (conf : DHCPInterfaceV6) (w : World) (srcMAC : MacKey)
    (req : DHCPv6) : Operation :=
  if !req.clientIDMatchingServer env conf.serverDUID then .nothing
  else match ipForRelease req with
    | none => .nothing
    | some (_, ip) =>
      match w.leaseByMacWithIP srcMAC.val ip with
      | none => .nothing
      | some l => .release l

def plan6 (env : Env) (conf : DHCPInterfaceV6) (w : World) (srcMAC : MacKey) (req : DHCPv6) :
    Operation :=
  if req.msgType = DHCPv6MsgType.solicit then w.planSolicit env srcMAC req
  else if req.msgType = DHCPv6MsgType.request then w.planRequest6 env conf srcMAC req
  else if req.msgType = DHCPv6MsgType.renew then
    if !req.clientIDMatchingServer env conf.serverDUID then .nothing else w.planUpdate srcMAC req
  else if req.msgType = DHCPv6MsgType.rebind then
    if !req.clientIDNoServer env then .nothing else w.planUpdate srcMAC req
  else if req.msgType = DHCPv6MsgType.release then w.planRelease6 env conf srcMAC req
  else .nothing

variable {env : Env} {w : World}

theorem leaseByMacWithIP_val (w : World) (key : MacKey) (ip : Addr) :
    w.leaseByMacWithIP key.val ip = (w.iface.leases.get key).filter fun l => (w.lease l).ip = ip := by
  unfold leaseByMacWithIP
  rw [macToKey_val]
  dsimp only
  cases w.iface.leases.get key with
  | none => rfl
  | some l => simp [Option.filter]

theorem leaseByMacWithIP_eq_some {mac : HardwareAddr} {ip : Addr} {l : Ref}
    (found : w.leaseByMacWithIP mac ip = some l) :
    ∃ key : MacKey, key.val = mac ∧ w.iface.leases.get key = some l ∧ (w.lease l).ip = ip := by
  unfold leaseByMacWithIP at found
  split at found
  · cases found
  · rename_i key named
    split at found
    · cases found
    · rename_i other member
      split at found
      · rename_i here
        obtain rfl := Option.some.inj found
        exact ⟨key, macToKey_eq_some.mp named, member, here⟩
      · cases found

theorem commit4_world (w : World) (req : DHCPv4) (l : Ref) (hostname : String) (chance : Chance)
    (clock : Readings) :
    (w.commit4 env req l hostname chance clock).1 =
      w.perform env chance clock (.commit4 l hostname) := by
  unfold commit4 perform
  split <;> simp [*]

/-- The common end of the handlers of `DHCPREQUEST`: they differ in the hostname and in
what they answer without a lease. -/
private theorem commitFound_world (w : World) (req : DHCPv4) (ip : Addr) (hostname : Ref → String)
    (absent : Option Response4) (chance : Chance) (clock : Readings) :
    (match macToKey req.clientHWAddr with
      | none => (w, none)
      | some key =>
        match w.iface.leases.get key with
        | none => (w, absent)
        | some l =>
          if (w.lease l).ip ≠ ip then (w, some (respondNAK req))
          else w.commit4 env req l (hostname l) chance clock).1 =
      match (w.leaseByMacWithIP req.clientHWAddr ip).map fun l => (l, hostname l) with
      | none => w
      | some (l, hostname) => w.perform env chance clock (.commit4 l hostname) := by
  unfold leaseByMacWithIP
  cases macToKey req.clientHWAddr with
  | none => rfl
  | some key =>
    dsimp only
    cases w.iface.leases.get key with
    | none => rfl
    | some l =>
      by_cases here : (w.lease l).ip = ip
      · simp [here, commit4_world]
      · simp [here]

/-- A `DHCPREQUEST` commits the lease it asks for or leaves all as it is. -/
theorem handleRequest_world (conf : DHCPInterfaceV4) (w : World) (req : DHCPv4) (chance : Chance)
    (clock : Readings) :
    (w.handleRequest env conf req chance clock).1 =
      match w.requestedLease conf req with
      | none => w
      | some (l, hostname) => w.perform env chance clock (.commit4 l hostname) := by
  unfold handleRequest requestedLease handleSelecting handleInitReboot handleRenew
  dsimp only
  split
  · by_cases known : conf.addresses.contains (req.serverID4.getD .zero) <;>
      by_cases fresh : (Addr.v4 req.clientIP).isUnspecified <;>
      simp only [known, fresh, Bool.not_true, Bool.not_false, Bool.or_true, Bool.or_false,
        Bool.false_eq_true, if_true, if_false]
    exact commitFound_world w req _ (fun _ => req.hostname4) _ chance clock
  split
  · by_cases known : conf.subnet.contains (req.requestedIPv4.getD .zero) <;>
      by_cases fresh : (Addr.v4 req.clientIP).isUnspecified <;>
      simp only [known, fresh, Bool.not_true, Bool.not_false, Bool.or_true, Bool.or_false,
        Bool.false_eq_true, if_true, if_false]
    exact commitFound_world w req _ (fun l => orString req.hostname4 (w.lease l).hostname) _
      chance clock
  · by_cases known : conf.subnet.contains (.v4 req.clientIP) <;>
      simp only [known, Bool.not_true, Bool.not_false, Bool.false_eq_true, if_true, if_false]
    exact commitFound_world w req _ (fun l => orString req.hostname4 (w.lease l).hostname) _
      chance clock

theorem serveV4_world (conf : DHCPInterfaceV4) (w : World) (req : DHCPv4) (chance : Chance)
    (clock : Readings) :
    (w.serveV4 env conf req chance clock).1 = w.perform env chance clock (w.plan4 conf req) := by
  unfold serveV4 plan4
  split
  · rfl
  cases req.msgType with
  | none => rfl
  | some typ =>
    dsimp only
    unfold handleDHCPv4
    split
    · unfold handleDiscover
      cases macToKey req.clientHWAddr with
      | none => rfl
      | some key =>
        dsimp only
        cases w.iface.leases.get key with
        | some l => rfl
        | none =>
          dsimp only [perform]
          split <;> simp [*]
    split
    · rw [handleRequest_world]
      cases w.requestedLease conf req with
      | none => rfl
      | some commit => rfl
    split
    · unfold handleRelease releasedLease
      by_cases inside : conf.subnet.contains (.v4 req.clientIP)
      · simp only [inside, Bool.not_true, Bool.false_eq_true, if_true, if_false]
        cases w.leaseByMacWithIP req.clientHWAddr (.v4 req.clientIP) <;> rfl
      · simp [inside, perform]
    split
    · unfold handleDecline declinedLease
      cases req.requestedIPv4 with
      | none => rfl
      | some reqIP =>
        by_cases inside : conf.subnet.contains reqIP
        · simp only [inside, Bool.not_true, Bool.false_eq_true, if_true, if_false,
            Option.bind_some]
          cases w.leaseByMacWithIP req.clientHWAddr reqIP <;> rfl
        · simp [inside, perform]
    · rfl

def withFresh (w : World) (key : MacKey) (ip : Addr) (now : Time) : World :=
  { w with
    heap := (w.heap.alloc ⟨ip, now + w.iface.leaseTTL, "", key.val, false⟩).1
    iface :=
      ({ w.iface with leases := w.iface.leases.set key w.heap.size }).setOffset ip true }

def reassigned (env : Env) (w : World) (key : MacKey) (l : Ref) (now : Time) : World :=
  let removed := (w.remove env (w.lease l) true).1
  let changed := removed.setLease l fun lease => recycled lease key now w.iface.leaseTTL
  { changed with
    iface := ({ changed.iface with leases := changed.iface.leases.set key l }).setOffset
      (changed.lease l).ip true }

/-- How a client without a lease gets one. -/
inductive Allocation (env : Env) (w : World) (key : MacKey) (now : Time)
    (order : WalkOrder MacKey) : World → Ref → Prop
  | fresh {ip : Addr} (found : w.iface.nextIP = some ip) (valid : ip ≠ .zero) :
    Allocation env w key now order (w.withFresh key ip now) w.heap.size
  | recycled {l : Ref} (full : w.iface.nextIP = some .zero)
    (expired : w.findExpiredLease now order = some l) :
    Allocation env w key now order (w.reassigned env key l now) l

theorem Allocation.member {key : MacKey} {now : Time} {order : WalkOrder MacKey} {w' : World}
    {l : Ref} (allocation : Allocation env w key now order w' l) :
    w'.iface.leases.get key = some l := by
  cases allocation <;> exact FiniteMap.get_set_self _ _ _

/-- An allocation fails without a change or finds a lease. -/
theorem allocate_cases (env : Env) (w : World) (key : MacKey) (now : Time)
    (order : WalkOrder MacKey) :
    (∃ error, w.allocate env key now (noopAddressChecker order) = (w, .error error)) ∨
      ∃ w' l, w.allocate env key now (noopAddressChecker order) = (w', .ok l) ∧
        Allocation env w key now order w' l := by
  unfold allocate noopAddressChecker allocateLease reserveLease
  dsimp only
  cases found : w.iface.nextIP with
  | none => exact .inl ⟨_, rfl⟩
  | some ip =>
    dsimp only
    by_cases full : ip = .zero
    · subst full
      cases expired : w.findExpiredLease now order with
      | none => exact .inl ⟨_, rfl⟩
      | some l =>
        refine .inr ⟨w.reassigned env key l now, l, ?_, .recycled found expired⟩
        simp [reassigned, FiniteMap.set_set, lease, setLease]
    · refine .inr ⟨w.withFresh key ip now, w.heap.size, ?_, .fresh found full⟩
      simp [full, withFresh, lease, read_alloc]

/-- An expired lease is a dynamic one of the interface. -/
theorem findExpiredLease_some {now : Time} {order : WalkOrder MacKey} {l : Ref}
    (found : w.findExpiredLease now order = some l) :
    ∃ key, w.iface.leases.get key = some l ∧ (w.lease l).isStatic = false ∧
      (w.lease l).expiry < now := by
  obtain ⟨key, _, here⟩ := List.exists_of_findSome?_eq_some found
  split at here
  · cases here
  · rename_i other member
    split at here
    · rename_i expired
      obtain rfl := Option.some.inj here
      simp only [Bool.and_eq_true, Bool.not_eq_true', decide_eq_true_eq] at expired
      exact ⟨key, member, expired⟩
    · cases here

/-- Only the first option of a `SOLICIT` matters. -/
theorem allocateForSolicit_cons (env : Env) (w : World) (key : MacKey) (order : WalkOrder MacKey)
    (now : Time) (iana : IANAOption) (rest : List IANAOption) :
    w.allocateForSolicit env key order now (iana :: rest) =
      match w.iface.leases.get key with
      | some l => (w, some (l, iana.id))
      | none =>
        match w.allocate env key now (noopAddressChecker order) with
        | (w, .error _) => (w, none)
        | (w, .ok l) => (w, some (l, iana.id)) := by
  induction rest generalizing iana with
  | nil => rfl
  | cons next rest ih =>
    rw [allocateForSolicit]
    cases member : w.iface.leases.get key with
    | some l => rfl
    | none =>
      rcases allocate_cases env w key now order with ⟨error, failed⟩ | ⟨w', l, done, _⟩
      · have later := ih next
        simp only [member, failed] at later ⊢
        exact later
      · simp only [done]

theorem handleSolicit_world (w : World) (srcMAC : MacKey) (req : DHCPv6) (chance : Chance)
    (clock : Readings) :
    (w.handleSolicit env srcMAC req chance clock).1 =
      w.perform env chance clock (w.planSolicit env srcMAC req) := by
  unfold handleSolicit planSolicit
  by_cases proper : req.clientIDNoServer env
  swap
  · simp [proper, perform]
  simp only [proper, Bool.not_true, Bool.false_or, Bool.false_eq_true, if_false]
  cases req.ianas with
  | nil => simp [allocateForSolicit, perform]
  | cons iana rest =>
    rw [allocateForSolicit_cons]
    simp only [List.isEmpty_cons, Bool.false_eq_true, if_false]
    cases member : w.iface.leases.get srcMAC with
    | some l =>
      by_cases rapid : (req.findOption DHCPv6Option.rapidCommit).isNone = true
      · simp [rapid, perform]
      · simp only [rapid, if_false, perform, Readings.reading, Bool.false_eq_true]
        split <;> simp [*]
    | none =>
      rcases allocate_cases env w srcMAC clock.now chance.order with
        ⟨error, failed⟩ | ⟨w', l, done, _⟩
      · simp only [failed]
        split <;> simp [perform, failed]
      · simp only [done]
        by_cases rapid : (req.findOption DHCPv6Option.rapidCommit).isNone = true
        · simp [rapid, perform, done]
        · simp only [rapid, perform, done, Bool.false_eq_true, if_false]
          split <;> simp [*]

theorem handleRequest6_world (conf : DHCPInterfaceV6) (w : World) (srcMAC : MacKey)
    (req : DHCPv6) (chance : Chance) (clock : Readings) :
    (w.handleRequest6 env conf srcMAC req chance clock).1 =
      w.perform env chance clock (w.planRequest6 env conf srcMAC req) := by
  unfold handleRequest6 planRequest6
  split
  · rfl
  cases req.ianas.head? with
  | none => rfl
  | some iana =>
    dsimp only
    split
    · rfl
    unfold ianaForRequest
    cases w.iface.leases.get srcMAC with
    | none =>
      dsimp only [perform]
      split <;> simp [*]
    | some l =>
      dsimp only [perform, Readings.reading]
      split <;> simp [*]

theorem handleUpdate_world (w : World) (srcMAC : MacKey) (req : DHCPv6) (chance : Chance)
    (clock : Readings) :
    (w.handleUpdate env srcMAC req chance clock).1 =
      w.perform env chance clock (w.planUpdate srcMAC req) := by
  unfold handleUpdate planUpdate
  cases req.ianas.head? with
  | none => rfl
  | some iana =>
    dsimp only [ianaForUpdate, Option.bind_some]
    cases iana.requestedAddr with
    | none => rfl
    | some reqIP =>
      dsimp only
      rw [leaseByMacWithIP_val]
      cases w.iface.leases.get srcMAC with
      | none => rfl
      | some l =>
        by_cases here : (w.lease l).ip = reqIP
        · simp only [here, ne_eq, not_true_eq_false, if_false, Option.filter, decide_true, if_true,
            perform, Readings.reading]
          split <;> simp [*]
        · simp [here, Option.filter, perform]

theorem handleRelease6_world (conf : DHCPInterfaceV6) (w : World) (srcMAC : MacKey)
    (req : DHCPv6) (chance : Chance) (clock : Readings) :
    (w.handleRelease6 env conf srcMAC req chance).1 =
      w.perform env chance clock (w.planRelease6 env conf srcMAC req) := by
  unfold handleRelease6 planRelease6
  split
  · rfl
  cases ipForRelease req with
  | none => rfl
  | some found =>
    obtain ⟨iaid, ip⟩ := found
    dsimp only
    rw [leaseByMacWithIP_val]
    cases w.iface.leases.get srcMAC with
    | none => rfl
    | some l =>
      by_cases here : (w.lease l).ip = ip
      · simp only [here, ne_eq, not_true_eq_false, if_false, Option.filter, decide_true, if_true,
          perform]
        split <;> simp [*]
      · simp [here, Option.filter, perform]

/-- What a DHCPv6 message does is the operation it plans. -/
theorem handleDHCPv6_world (conf : DHCPInterfaceV6) (w : World) (srcMAC : MacKey) (req : DHCPv6)
    (chance : Chance) (clock : Readings) :
    (w.handleDHCPv6 env conf srcMAC req chance clock).1 =
      w.perform env chance clock (w.plan6 env conf srcMAC req) := by
  unfold handleDHCPv6 plan6 handleRenew6 handleRebind
  split
  · exact handleSolicit_world w srcMAC req chance clock
  split
  · exact handleRequest6_world conf w srcMAC req chance clock
  split
  · rename_i confirm
    rw [confirm]
    rfl
  split
  · split
    · rfl
    · exact handleUpdate_world w srcMAC req chance clock
  split
  · split
    · rfl
    · exact handleUpdate_world w srcMAC req chance clock
  split
  · rename_i info
    rw [info]
    rfl
  split
  · exact handleRelease6_world conf w srcMAC req chance clock
  · rfl

def Plans (w : World) (key : MacKey) : Operation → Prop
  | .nothing => True
  | .refresh l | .commit4 l _ | .commit6 l _ _ | .block l | .release l =>
    w.iface.leases.get key = some l
  | .allocate k | .allocateCommitted k _ => k = key ∧ w.iface.leases.get key = none

theorem requestedLease_owner {conf : DHCPInterfaceV4} {req : DHCPv4} {l : Ref} {hostname : String}
    (found : w.requestedLease conf req = some (l, hostname)) :
    ∃ key : MacKey, key.val = req.clientHWAddr ∧ w.iface.leases.get key = some l := by
  have some_owner : ∀ {ip : Addr} {name : Ref → String},
      (w.leaseByMacWithIP req.clientHWAddr ip).map (fun l => (l, name l)) = some (l, hostname) →
        ∃ key : MacKey, key.val = req.clientHWAddr ∧ w.iface.leases.get key = some l := by
    intro ip name mapped
    obtain ⟨other, here, equal⟩ := Option.map_eq_some_iff.mp mapped
    obtain ⟨rfl, _⟩ := Prod.mk.inj equal
    obtain ⟨key, owner, member, _⟩ := leaseByMacWithIP_eq_some here
    exact ⟨key, owner, member⟩
  unfold requestedLease at found
  dsimp only at found
  split at found
  · split at found
    · cases found
    · exact some_owner found
  split at found
  · split at found
    · cases found
    · exact some_owner found
  · split at found
    · cases found
    · exact some_owner found

theorem plan4_plans (conf : DHCPInterfaceV4) (w : World) (req : DHCPv4) :
    w.plan4 conf req = .nothing ∨
      ∃ key : MacKey, key.val = req.clientHWAddr ∧ w.Plans key (w.plan4 conf req) := by
  unfold plan4
  split
  · exact .inl rfl
  cases req.msgType with
  | none => exact .inl rfl
  | some typ =>
    dsimp only
    split
    · cases named : macToKey req.clientHWAddr with
      | none => exact .inl rfl
      | some key =>
        refine .inr ⟨key, macToKey_eq_some.mp named, ?_⟩
        dsimp only
        cases member : w.iface.leases.get key with
        | some l => exact member
        | none => exact ⟨rfl, member⟩
    split
    · cases found : w.requestedLease conf req with
      | none => exact .inl rfl
      | some commit => exact .inr (requestedLease_owner found)
    split
    · cases found : w.releasedLease conf req with
      | none => exact .inl rfl
      | some l =>
        unfold releasedLease at found
        split at found
        · obtain ⟨key, owner, member, _⟩ := leaseByMacWithIP_eq_some found
          exact .inr ⟨key, owner, member⟩
        · cases found
    split
    · cases found : w.declinedLease conf req with
      | none => exact .inl rfl
      | some l =>
        obtain ⟨reqIP, _, found⟩ := Option.bind_eq_some_iff.mp found
        split at found
        · obtain ⟨key, owner, member, _⟩ := leaseByMacWithIP_eq_some found
          exact .inr ⟨key, owner, member⟩
        · cases found
    · exact .inl rfl

theorem plan6_plans (env : Env) (conf : DHCPInterfaceV6) (w : World) (srcMAC : MacKey)
    (req : DHCPv6) : w.Plans srcMAC (w.plan6 env conf srcMAC req) := by
  have update : w.Plans srcMAC (w.planUpdate srcMAC req) := by
    unfold planUpdate
    cases req.ianas.head?.bind IANAOption.requestedAddr with
    | none => trivial
    | some reqIP =>
      dsimp only
      cases found : w.leaseByMacWithIP srcMAC.val reqIP with
      | none => trivial
      | some l =>
        obtain ⟨key, owner, member, _⟩ := leaseByMacWithIP_eq_some found
        obtain rfl := Subtype.ext owner
        exact member
  have solicit : w.Plans srcMAC (w.planSolicit env srcMAC req) := by
    unfold planSolicit
    split
    · trivial
    split <;> cases member : w.iface.leases.get srcMAC with
      | none => exact ⟨rfl, member⟩
      | some l => trivial
  have request : w.Plans srcMAC (w.planRequest6 env conf srcMAC req) := by
    unfold planRequest6
    split
    · trivial
    cases req.ianas.head? with
    | none => trivial
    | some iana =>
      dsimp only
      split
      · trivial
      cases member : w.iface.leases.get srcMAC with
      | none => exact ⟨rfl, member⟩
      | some l => exact member
  have release : w.Plans srcMAC (w.planRelease6 env conf srcMAC req) := by
    unfold planRelease6
    split
    · trivial
    cases ipForRelease req with
    | none => trivial
    | some asked =>
      dsimp only
      cases found : w.leaseByMacWithIP srcMAC.val asked.2 with
      | none => trivial
      | some l =>
        obtain ⟨key, owner, member, _⟩ := leaseByMacWithIP_eq_some found
        obtain rfl := Subtype.ext owner
        exact member
  unfold plan6
  split
  · exact solicit
  split
  · exact request
  split
  · split
    · trivial
    · exact update
  split
  · split
    · trivial
    · exact update
  split
  · exact release
  · trivial

end World

end AdGuardHome.Dhcpsvc
