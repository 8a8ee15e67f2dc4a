import AdGuardHome.Dhcpd.V4Server
import AdGuardHome.Lib.Machine

namespace AdGuardHome.Dhcpd

open Netip Heap
open Dhcpsvc (Lease Time Duration)

inductive MessageType where
  | discover
  | request
  | decline
  | release
deriving DecidableEq

/-- `dhcpv4.DHCPv4`, by what its accessors return. -/
structure Message where
  messageType : MessageType
  clientHWAddr : HardwareAddr
  clientIPAddr : Option (BitVec 32)
  requestedIPAddress : Option (BitVec 32)
  serverIdentifier : Option (BitVec 32)
  hostName : String
  requestsHostName : Bool
deriving DecidableEq

/-- An address that answered the ping after it had been reserved: when the reservation
looked for an expired lease and when the address was blocked. -/
structure Conflict where
  reservedAt : Time
  blockedAt : Time
deriving DecidableEq

/-- The readings of the clock and the pings while one message is handled: the
reservations that end in a conflict, the last reservation, and the new expiry. -/
structure Timing where
  conflicts : List Conflict
  reservedAt : Time
  committedAt : Time
deriving DecidableEq

inductive ReplyType where
  | unset
  | offer
  | ack
  | nak
deriving DecidableEq

structure Reply where
  messageType : ReplyType
  yourIPAddr : Addr
  hostName : Option String
  fqdn : Option String
  leaseTime : Option Duration
deriving DecidableEq

/-- `copy(dst, src)`. -/
def copyBytes (dst src : HardwareAddr) : HardwareAddr :=
  src.take dst.length ++ dst.drop src.length

namespace V4Server

/-- `v4Server.nextIP`. -/
def nextIP (s : V4Server) : Option Addr :=
  s.conf.ipRange.find fun next =>
    match s.conf.ipRange.offset next with
    | none => false
    | some offset => !s.leasedOffsets.isSet offset

/-- `v4Server.findExpiredLease`. -/
def findExpiredLease (s : V4Server) (now : Time) : Option Ref :=
  s.leases.find? fun l => !(s.lease l).isStatic && decide ((s.lease l).expiry < now)

/-- `v4Server.reserveLease`. -/
def reserveLease (s : V4Server) (mac : HardwareAddr) (now : Time) :
    V4Server × Except Error (Option Ref) :=
  match s.nextIP with
  | none =>
    match s.findExpiredLease now with
    | none => (s, .ok none)
    | some l =>
      (s.setLease l fun lease => { lease with hwAddr := copyBytes lease.hwAddr mac }, .ok (some l))
  | some ip =>
    let (heap, l) := s.heap.alloc ⟨ip, 0, "", mac, false⟩
    match ({ s with heap }).addLease l with
    | (s, .error error) => (s, .error error)
    | (s, .ok ()) => (s, .ok (some l))

/-- `v4Server.commitLease`. -/
def commitLease (env : Env) (s : V4Server) (l : Ref) (hostname : String) (now : Time) :
    V4Server :=
  let prev := (s.lease l).hostname
  let hostname := validHostnameForClient env hostname (s.lease l).ip
  let hostname := if (s.hostsIndex.get hostname).isSome then
      if prev = "" then generateHostname (s.lease l).ip else prev
    else hostname
  let s := s.setLease l fun lease => { lease with hostname, expiry := now + s.conf.leaseTime }
  let hostsIndex := if prev ≠ "" ∧ prev ≠ hostname then s.hostsIndex.delete prev else s.hostsIndex
  { s with
    hostsIndex := if hostname ≠ "" then hostsIndex.set hostname l else hostsIndex
    ipIndex := s.ipIndex.set (s.lease l).ip l }

/-- `v4Server.allocateLease`. -/
def allocateLease (s : V4Server) (mac : HardwareAddr) (now : Time) :
    List Conflict → V4Server × Except Error (Option Ref)
  | [] => s.reserveLease mac now
  | conflict :: rest =>
    match s.reserveLease mac conflict.reservedAt with
    | (s, .error error) => (s, .error error)
    | (s, .ok none) => (s, .ok none)
    | (s, .ok (some l)) => (s.blocklistLease l conflict.blockedAt).allocateLease mac now rest

/-- `v4Server.handleDiscover`. -/
def handleDiscover (s : V4Server) (req : Message) (timing : Timing) :
    V4Server × Except Error (Option Ref) :=
  match s.findLease req.clientHWAddr with
  | some l => (s, .ok (some l))
  | none => s.allocateLease req.clientHWAddr timing.reservedAt timing.conflicts

/-- `v4Server.checkLease`: the lease, and whether there is a mismatch. -/
def checkLease (s : V4Server) (mac : HardwareAddr) (ip : BitVec 32) : Option Ref × Bool :=
  match s.leases.find? fun l => (s.lease l).hwAddr == mac with
  | none => (none, false)
  | some l => if (s.lease l).ip = .v4 ip then (some l, false) else (none, true)

def isUnset (ip : Option (BitVec 32)) : Bool := ip.getD 0 == 0

/-- `v4Server.handleSelecting`. -/
def handleSelecting (s : V4Server) (req : Message) (reqIP : Option (BitVec 32))
    (sid : BitVec 32) : Option Ref × Bool :=
  if sid ≠ s.conf.dnsIPAddr then (none, false)
  else if !isUnset req.clientIPAddr then (none, false)
  else match reqIP with
    | none => (none, false)
    | some ip =>
      match s.checkLease req.clientHWAddr ip with
      | (_, true) => (none, true)
      | (l, false) => (l, true)

/-- `v4Server.handleInitReboot`. -/
def handleInitReboot (s : V4Server) (req : Message) (reqIP : BitVec 32) : Option Ref × Bool :=
  if !isUnset req.clientIPAddr then (none, false)
  else if !s.conf.subnet.contains (.v4 reqIP) then (none, true)
  else match s.checkLease req.clientHWAddr reqIP with
    | (_, true) => (none, true)
    | (none, false) => (none, false)
    | (some l, false) => (some l, true)

/-- `v4Server.handleRenew`. -/
def handleRenew (s : V4Server) (req : Message) : Option Ref × Bool :=
  match req.clientIPAddr with
  | none => (none, false)
  | some ciaddr =>
    if ciaddr = 0 then (none, false)
    else match s.checkLease req.clientHWAddr ciaddr with
      | (_, true) => (none, true)
      | (none, false) => (none, false)
      | (some l, false) => (some l, true)

/-- `v4Server.handleByRequestType`. -/
def handleByRequestType (s : V4Server) (req : Message) : Option Ref × Bool :=
  if !isUnset req.serverIdentifier then
    s.handleSelecting req req.requestedIPAddress (req.serverIdentifier.getD 0)
  else if !isUnset req.requestedIPAddress then
    s.handleInitReboot req (req.requestedIPAddress.getD 0)
  else s.handleRenew req

/-- `v4Server.handleRequest`: the lease, whether a reply is needed, and the reply. -/
def handleRequest (env : Env) (s : V4Server) (req : Message) (timing : Timing) (resp : Reply) :
    V4Server × Option Ref × Bool × Reply :=
  match s.handleByRequestType req with
  | (none, needsReply) => (s, none, needsReply, resp)
  | (some l, needsReply) =>
    let resp := { resp with messageType := .ack }
    if (s.lease l).isStatic then
      let fqdn := if (s.lease l).hostname ≠ "" then some (s.lease l).hostname else resp.fqdn
      (s, some l, needsReply, { resp with fqdn })
    else
      let s := s.commitLease env l req.hostName timing.committedAt
      let hostName := if req.hostName ≠ "" ∨ req.requestsHostName then some (s.lease l).hostname
        else resp.hostName
      (s, some l, needsReply, { resp with hostName })

/-- `v4Server.findLeaseForIP`. -/
def findLeaseForIP (s : V4Server) (ip : Option (BitVec 32)) (mac : HardwareAddr) : Option Ref :=
  match ip with
  | none => none
  | some ip => s.leases.find? fun l => (s.lease l).hwAddr == mac && (s.lease l).ip == .v4 ip

/-- `v4Server.handleDecline`. -/
def handleDecline (s : V4Server) (req : Message) (timing : Timing) (resp : Reply) :
    V4Server × Except Error Reply :=
  let reqIP := req.requestedIPAddress <|> req.clientIPAddr
  match s.findLeaseForIP reqIP req.clientHWAddr with
  | none => (s, .ok resp)
  | some oldLease =>
    match s.rmDynamicLease oldLease with
    | (s, _, .error error) => (s, .error error)
    | (s, _, .ok ()) =>
      match s.allocateLease req.clientHWAddr timing.reservedAt timing.conflicts with
      | (s, .error error) => (s, .error error)
      | (s, .ok none) => (s, .ok { resp with yourIPAddr := .v4 0, messageType := .ack })
      | (s, .ok (some newLease)) =>
        let hostname := (s.lease oldLease).hostname
        let s := s.setLease newLease fun lease => { lease with
          hostname, expiry := timing.committedAt + s.conf.leaseTime }
        match s.addLease newLease with
        | (s, .error error) => (s, .error error)
        | (s, .ok ()) =>
          (s, .ok { resp with yourIPAddr := (s.lease newLease).ip, messageType := .ack })

/-- The loop of `v4Server.handleRelease`, over the array behind the slice it started
with. The inner loops shift that array. -/
def releaseLoop (mac : HardwareAddr) (ip : Addr) :
    Nat → Nat → List Ref → V4Server → V4Server × Except Error Unit
  | 0, _, _, s => (s, .ok ())
  | count + 1, i, slots, s =>
    let l := slots.getD i 0
    if (s.lease l).hwAddr ≠ mac ∨ (s.lease l).ip ≠ ip then
      releaseLoop mac ip count (i + 1) slots s
    else match s.rmDynamicLease l with
      | (s, _, .error error) => (s, .error error)
      | (s, shifted, .ok ()) =>
        releaseLoop mac ip count (i + 1) (shifted ++ slots.drop shifted.length) s

/-- `v4Server.handleRelease`. -/
def handleRelease (s : V4Server) (req : Message) (resp : Reply) : V4Server × Except Error Reply :=
  match req.requestedIPAddress <|> req.clientIPAddr with
  | none => (s, .ok resp)
  | some ip =>
    match releaseLoop req.clientHWAddr (.v4 ip) s.leases.length 0 s.leases s with
    | (s, .error error) => (s, .error error)
    | (s, .ok ()) => (s, .ok { resp with messageType := .ack })

/-- The server after a release is the one that the loop leaves. -/
theorem handleRelease_server (s : V4Server) (req : Message) (resp : Reply) :
    (s.handleRelease req resp).1 =
      match req.requestedIPAddress <|> req.clientIPAddr with
      | none => s
      | some ip => (releaseLoop req.clientHWAddr (.v4 ip) s.leases.length 0 s.leases s).1 := by
  unfold handleRelease
  cases req.requestedIPAddress <|> req.clientIPAddr with
  | none => rfl
  | some ip =>
    dsimp only
    generalize releaseLoop req.clientHWAddr (.v4 ip) s.leases.length 0 s.leases s = attempt
    obtain ⟨t, result⟩ := attempt
    cases result with
    | error error => rfl
    | ok done => rfl

/-- `v4Server.handle`: no reply stands for the code `-1`, and a NAK for `0`. -/
def handle (env : Env) (s : V4Server) (req : Message) (timing : Timing) :
    V4Server × Option Reply :=
  let resp : Reply := ⟨.unset, .zero, none, none, none⟩
  let nak := some { resp with messageType := .nak }
  let finish := fun (resp : Reply) => some { resp with leaseTime := some s.conf.leaseTime }
  match req.messageType with
  | .discover =>
    match s.handleDiscover req timing with
    | (s, .ok (some l)) =>
      (s, finish { resp with messageType := .offer, yourIPAddr := (s.lease l).ip })
    | (s, _) => (s, nak)
  | .request =>
    match s.handleRequest env req timing resp with
    | (s, some l, _, resp) => (s, finish { resp with yourIPAddr := (s.lease l).ip })
    | (s, none, needsReply, _) => (s, if needsReply then nak else none)
  | .decline =>
    match s.handleDecline req timing resp with
    | (s, .ok resp) => (s, finish resp)
    | (s, .error _) => (s, nak)
  | .release =>
    match s.handleRelease req resp with
    | (s, .ok resp) => (s, finish resp)
    | (s, .error _) => (s, nak)

/-- `v4Server.packetHandler`, for the four message types it supports. -/
def packetHandler (env : Env) (s : V4Server) (req : Message) (timing : Timing) :
    V4Server × Option Reply :=
  if !env.validateMAC req.clientHWAddr then (s, none) else s.handle env req timing

/-- The server after a packet is the one that its handler leaves. -/
theorem packetHandler_server (env : Env) (s : V4Server) (req : Message) (timing : Timing) :
    (s.packetHandler env req timing).1 =
      if env.validateMAC req.clientHWAddr then
        match req.messageType with
        | .discover => (s.handleDiscover req timing).1
        | .request => (s.handleRequest env req timing ⟨.unset, .zero, none, none, none⟩).1
        | .decline => (s.handleDecline req timing ⟨.unset, .zero, none, none, none⟩).1
        | .release => (s.handleRelease req ⟨.unset, .zero, none, none, none⟩).1
      else s := by
  unfold packetHandler
  cases env.validateMAC req.clientHWAddr with
  | false => rfl
  | true =>
    unfold handle
    dsimp only
    cases req.messageType with
    | discover =>
      cases s.handleDiscover req timing with
      | mk t result =>
        match result with
        | .error error => rfl
        | .ok none => rfl
        | .ok (some l) => rfl
    | request =>
      dsimp only
      generalize s.handleRequest env req timing ⟨.unset, .zero, none, none, none⟩ = attempt
      obtain ⟨t, found, needsReply, resp⟩ := attempt
      cases found with
      | none => rfl
      | some l => rfl
    | decline =>
      dsimp only
      generalize s.handleDecline req timing ⟨.unset, .zero, none, none, none⟩ = attempt
      obtain ⟨t, result⟩ := attempt
      cases result with
      | error error => rfl
      | ok resp => rfl
    | release =>
      dsimp only
      generalize s.handleRelease req ⟨.unset, .zero, none, none, none⟩ = attempt
      obtain ⟨t, result⟩ := attempt
      cases result with
      | error error => rfl
      | ok resp => rfl

end V4Server

/-- A message or a call. -/
inductive Event where
  | packet (req : Message) (timing : Timing)
  | addStaticLease (l : Lease)
  | updateStaticLease (l : Lease)
  | removeStaticLease (l : Lease)
  | resetLeases (leases : List Lease)

/-- What an event is answered with. -/
inductive Answer where
  | reply (resp : Option Reply)
  | done (result : Except Error Unit)

namespace V4Server

def step (env : Env) (s : V4Server) : Event → V4Server × Answer
  | .packet req timing =>
    let (s, resp) := s.packetHandler env req timing
    (s, .reply resp)
  | .addStaticLease l =>
    let (s, result) := s.addStaticLease env l
    (s, .done result)
  | .updateStaticLease l =>
    let (s, result) := s.updateStaticLeaseAPI env l
    (s, .done result)
  | .removeStaticLease l =>
    let (s, result) := s.removeStaticLease env l
    (s, .done result)
  | .resetLeases leases => (s.resetLeases env leases, .done (.ok ()))

def machine (env : Env) : Transition.Machine V4Server Event Answer := ⟨step env⟩

end V4Server

end AdGuardHome.Dhcpd
