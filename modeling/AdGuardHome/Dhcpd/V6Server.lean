import AdGuardHome.Dhcpd.V4Handlers
import AdGuardHome.Lib.SwapSweep

namespace AdGuardHome.Dhcpd

open Netip
open Dhcpsvc (Lease Time Duration)

/-- `netip.Addr.As16`. -/
def as16 : Addr → BitVec 128
  | .zero => 0
  | .v4 value => 0xffff#96 ++ value
  | .v6 value _ => value

def first15 (ip : BitVec 128) : BitVec 120 := ip.extractLsb' 8 120

def byte15 (ip : BitVec 128) : BitVec 8 := ip.extractLsb' 0 8

/-- `V6ServerConf` of an enabled server, with the fields that the handlers read. -/
structure V6ServerConf where
  ipStart : BitVec 128
  leaseTime : Duration
  dnsIPAddrs : List Addr

/-- `v6Server`. The array `ipAddrs` only holds zeros and ones. -/
structure V6Server where
  conf : V6ServerConf
  sid : List (BitVec 8)
  leases : List Lease
  ipAddrs : BitVec 8 → Bool

/-- `ip6InRange`, where `none` is the panic on an address with fewer bytes. -/
def ip6InRange (start : BitVec 128) : Addr → Option Bool
  | .v6 value _ => some (first15 start == first15 value && byte15 start ≤ byte15 value)
  | _ => none

inductive V6MessageType where
  | solicit
  | request
  | confirm
  | renew
  | rebind
  | release
  | decline
  | informationRequest
  | other
deriving DecidableEq

structure IANA where
  iaId : BitVec 32
  address : Option (BitVec 128)

/-- `dhcpv6.Message`, by what its accessors return; `mac` is what `ExtractMAC` finds. -/
structure V6Message where
  messageType : V6MessageType
  hasClientID : Bool
  serverID : Option (List (BitVec 8))
  mac : Option HardwareAddr
  iana : Option IANA
  rapidCommit : Bool
  dnsRequested : Bool
  fqdn : Option String

structure V6Timing where
  reservedAt : Time
  committedAt : Time

/-- The options that `process` adds, without the second timer of the association, which is
computed in floating point. -/
structure V6LeaseOptions where
  iaId : BitVec 32
  t1 : Duration
  address : Addr
  lifetime : Duration
  dns : Option (List Addr)
  fqdn : Option String

structure V6Reply where
  advertise : Bool
  serverID : List (BitVec 8)
  options : Option V6LeaseOptions

/-- The number that `valueIAID` spells. -/
def valueIAID : BitVec 32 := 0x41444748#32

namespace V6Server

/-- `v6Create` of a valid configuration, with the identifier that `Start` makes. -/
def new (conf : V6ServerConf) (sid : List (BitVec 8)) : V6Server := ⟨conf, sid, [], fun _ => false⟩

/-- `v6Server.leaseRemoveSwapByIndex`. -/
def leaseRemoveSwapByIndex (s : V6Server) (i : Nat) : V6Server :=
  match s.leases[i]? with
  | none => s
  | some l =>
    { s with
      ipAddrs := fun b => if b = byte15 (as16 l.ip) then false else s.ipAddrs b
      leases := swapRemove s.leases i }

/-- The end of a round of the loop: the lease that is at the index now must not have the
same IP. -/
def rmSameIP (s : V6Server) (lease l : Lease) (i : Nat) : V6Server × Except Error Unit :=
  if l.ip = lease.ip then
    if l.isStatic then (s, .error .staticLeaseExists)
    else (s.leaseRemoveSwapByIndex i, .ok ())
  else (s, .ok ())

/-- The round for the lease `l` at index `i`. The last component tells if the loop ends. -/
def rmDynamicRound (s : V6Server) (lease l : Lease) (i : Nat) :
    V6Server × Except Error Unit × Bool :=
  if l.hwAddr = lease.hwAddr then
    if l.isStatic then (s, .error .staticLeaseExists, true)
    else
      let s := s.leaseRemoveSwapByIndex i
      match s.leases[i]? with
      | none => (s, .ok (), true)
      | some l =>
        let (s, result) := s.rmSameIP lease l i
        (s, result, false)
  else
    let (s, result) := s.rmSameIP lease l i
    (s, result, false)

/-- The loop of `v6Server.rmDynamicLease` from index `i` on, for at most `count` rounds. -/
def rmDynamicLoop (lease : Lease) : Nat → Nat → V6Server → V6Server × Except Error Unit
  | 0, _, s => (s, .ok ())
  | count + 1, i, s =>
    match s.leases[i]? with
    | none => (s, .ok ())
    | some l =>
      match s.rmDynamicRound lease l i with
      | (s, .error error, _) => (s, .error error)
      | (s, .ok (), true) => (s, .ok ())
      | (s, .ok (), false) => rmDynamicLoop lease count (i + 1) s

/-- `v6Server.rmDynamicLease`. Each round goes to the next index of a table that does not
grow. -/
def rmDynamicLease (s : V6Server) (lease : Lease) : V6Server × Except Error Unit :=
  rmDynamicLoop lease s.leases.length 0 s

/-- `v6Server.addLease`. -/
def addLease (s : V6Server) (l : Lease) : V6Server :=
  { s with
    leases := s.leases ++ [l]
    ipAddrs := fun b => if b = byte15 (as16 l.ip) then true else s.ipAddrs b }

/-- `v6Server.AddStaticLease`. -/
def addStaticLease (env : Env) (s : V6Server) (l : Lease) : V6Server × Except Error Unit :=
  if !l.ip.is6 then (s, .error .invalidIP)
  else if !env.validateMAC l.hwAddr then (s, .error .invalidMAC)
  else
    let l := { l with isStatic := true }
    match s.rmDynamicLease l with
    | (s, .error error) => (s, .error error)
    | (s, .ok ()) => (s.addLease l, .ok ())

/-- `v6Server.rmLease`. -/
def rmLease (s : V6Server) (lease : Lease) : V6Server × Except Error Unit :=
  match s.leases.findIdx? fun l => l.ip == lease.ip with
  | none => (s, .error .leaseNotFound)
  | some i =>
    let l := s.leases.getD i default
    if l.hwAddr ≠ lease.hwAddr ∨ l.hostname ≠ lease.hostname then (s, .error .leaseNotFound)
    else (s.leaseRemoveSwapByIndex i, .ok ())

/-- `v6Server.findLease`, as the index of the lease. -/
def findLease (s : V6Server) (mac : HardwareAddr) : Option Nat :=
  s.leases.findIdx? fun l => l.hwAddr == mac

/-- `v6Server.UpdateStaticLease`. -/
def updateStaticLease (s : V6Server) (l : Lease) : V6Server × Except Error Unit :=
  match s.findLease l.hwAddr with
  | none => (s, .error .cantFindLease)
  | some found =>
    match s.rmLease (s.leases.getD found default) with
    | (s, .error error) => (s, .error error)
    | (s, .ok ()) => (s.addLease l, .ok ())

/-- `v6Server.RemoveStaticLease`. -/
def removeStaticLease (env : Env) (s : V6Server) (l : Lease) : V6Server × Except Error Unit :=
  if !l.ip.is6 then (s, .error .invalidIP)
  else if !env.validateMAC l.hwAddr then (s, .error .invalidMAC)
  else s.rmLease l

/-- One round of the loop in `v6Server.ResetLeases`. -/
def resetLease (s : V6Server) (l : Lease) : Option V6Server :=
  if l.isStatic then some (s.addLease l)
  else match ip6InRange s.conf.ipStart l.ip with
    | none => none
    | some false => some s
    | some true => some (s.addLease l)

/-- `v6Server.ResetLeases`; `ipAddrs` stays as it is. -/
def resetLeases (s : V6Server) (leases : List Lease) : Option V6Server :=
  leases.foldlM resetLease { s with leases := [] }

/-- `v6Server.findExpiredLease`. -/
def findExpiredLease (s : V6Server) (now : Time) : Option Nat :=
  s.leases.findIdx? fun l => !l.isStatic && decide (l.expiry / 1000000000 ≤ now / 1000000000)

/-- `v6Server.findFreeIP`. -/
def findFreeIP (s : V6Server) : Option (BitVec 128) :=
  let free := (List.range 256).find? fun i =>
    (byte15 s.conf.ipStart).toNat ≤ i && !s.ipAddrs (BitVec.ofNat 8 i)
  free.map fun i => first15 s.conf.ipStart ++ BitVec.ofNat 8 i

/-- `v6Server.reserveLease`, with the index of the lease that it returns. -/
def reserveLease (s : V6Server) (mac : HardwareAddr) (now : Time) : V6Server × Option Nat :=
  match s.findFreeIP with
  | none =>
    match s.findExpiredLease now with
    | none => (s, none)
    | some i =>
      ({ s with leases := s.leases.modify i fun l => { l with hwAddr := copyBytes l.hwAddr mac } },
        some i)
  | some ip => (s.addLease ⟨.v6 ip "", 0, "", mac, false⟩, some s.leases.length)

/-- `v6Server.commitDynamicLease`. -/
def commitDynamicLease (s : V6Server) (i : Nat) (now : Time) : V6Server :=
  { s with leases := s.leases.modify i fun l => { l with expiry := now + s.conf.leaseTime } }

/-- `v6Server.checkCID`. -/
def checkCID (msg : V6Message) : Bool := msg.hasClientID

/-- `v6Server.checkSID`. -/
def checkSID (s : V6Server) (msg : V6Message) : Bool :=
  match msg.messageType with
  | .solicit | .confirm | .rebind => msg.serverID.isNone
  | .request | .renew | .release | .decline => msg.serverID == some s.sid
  | .informationRequest | .other => true

/-- `v6Server.checkIA`: the address asked for must be that of the lease. -/
def checkIA (msg : V6Message) (lease : Lease) : Bool :=
  match msg.messageType with
  | .request | .confirm | .renew | .rebind =>
    match msg.iana with
    | none => false
    | some oia => lease.ip.isValid && oia.address == some (as16 lease.ip)
  | _ => true

/-- `v6Server.commitLease`. -/
def commitLease (s : V6Server) (msg : V6Message) (i : Nat) (now : Time) : V6Server × Duration :=
  let lease := s.leases.getD i default
  match msg.messageType with
  | .confirm => (s, lease.expiry - now)
  | .request | .renew | .rebind =>
    (if lease.isStatic then s else s.commitDynamicLease i now, s.conf.leaseTime)
  | _ => (s, s.conf.leaseTime)

/-- The lease of the client in `v6Server.process`, reserved for a solicitation. -/
def leaseFor (s : V6Server) (msg : V6Message) (mac : HardwareAddr) (now : Time) :
    V6Server × Option Nat :=
  match s.findLease mac with
  | some i => (s, some i)
  | none => if msg.messageType = .solicit then s.reserveLease mac now else (s, none)

/-- `v6Server.process` for the messages that it supports. -/
def processMAC (s : V6Server) (msg : V6Message) (mac : HardwareAddr) (timing : V6Timing) :
    V6Server × Option V6LeaseOptions :=
  match s.leaseFor msg mac timing.reservedAt with
  | (s, none) => (s, none)
  | (s, some i) =>
    let lease := s.leases.getD i default
    if !checkIA msg lease then (s, none)
    else
      let (s, lifetime) := s.commitLease msg i timing.committedAt
      (s, some {
        iaId := match msg.iana with
          | some oia => oia.iaId
          | none => valueIAID
        t1 := lifetime.tdiv 2
        address := lease.ip
        lifetime := lifetime
        dns := if msg.dnsRequested then some s.conf.dnsIPAddrs else none
        fqdn := msg.fqdn })

/-- `v6Server.process`. -/
def process (s : V6Server) (msg : V6Message) (timing : V6Timing) :
    V6Server × Option V6LeaseOptions :=
  match msg.messageType with
  | .solicit | .request | .confirm | .renew | .rebind =>
    match msg.mac with
    | none => (s, none)
    | some mac => s.processMAC msg mac timing
  | .release | .decline | .informationRequest | .other => (s, none)

/-- `v6Server.packetHandler`. -/
def packetHandler (s : V6Server) (msg : V6Message) (timing : V6Timing) :
    V6Server × Option V6Reply :=
  if !checkCID msg then (s, none)
  else if !s.checkSID msg then (s, none)
  else match msg.messageType with
    | .decline | .other => (s, none)
    | _ =>
      let (t, options) := s.process msg timing
      (t, some ⟨msg.messageType == .solicit && !msg.rapidCommit, s.sid, options⟩)

end V6Server

/-- A message or a call. -/
inductive V6Event where
  | packet (msg : V6Message) (timing : V6Timing)
  | addStaticLease (l : Lease)
  | updateStaticLease (l : Lease)
  | removeStaticLease (l : Lease)
  | resetLeases (leases : List Lease)

/-- What an event is answered with. -/
inductive V6Answer where
  | reply (resp : Option V6Reply)
  | done (result : Except Error Unit)
  | panic

namespace V6Server

def step (env : Env) (s : V6Server) : V6Event → V6Server × V6Answer
  | .packet msg timing =>
    let (s, resp) := s.packetHandler msg timing
    (s, .reply resp)
  | .addStaticLease l =>
    let (s, result) := s.addStaticLease env l
    (s, .done result)
  | .updateStaticLease l =>
    let (s, result) := s.updateStaticLease l
    (s, .done result)
  | .removeStaticLease l =>
    let (s, result) := s.removeStaticLease env l
    (s, .done result)
  | .resetLeases leases =>
    match s.resetLeases leases with
    | some s => (s, .done (.ok ()))
    | none => (s, .panic)

def machine (env : Env) : Transition.Machine V6Server V6Event V6Answer := ⟨step env⟩

end V6Server

end AdGuardHome.Dhcpd
