import AdGuardHome.Dhcpsvc.V6
import AdGuardHome.Lib.Machine

/-! Package `dhcpsvc`: the server, its calls, and its runs. -/
namespace AdGuardHome.Dhcpsvc

open Netip

/-- `IPv4Config` of an enabled interface, with the fields that decide about leases. -/
structure IPv4Config where
  gatewayIP : Addr
  maskLen : Nat
  rangeStart : Addr
  rangeEnd : Addr
  leaseDuration : Duration

namespace IPv4Config

def subnet (c : IPv4Config) : Prefix := .ofAddr c.gatewayIP c.maskLen

/-- `IPv4Config.Validate`. -/
def validate (c : IPv4Config) : Bool :=
  decide (0 < c.leaseDuration) && c.gatewayIP.is4 && c.rangeStart.is4 && c.rangeEnd.is4 &&
    c.subnet.contains c.rangeStart && c.subnet.contains c.rangeEnd &&
    (IPRange.newIPRange c.rangeStart c.rangeEnd).any fun r => !r.contains c.gatewayIP

def addrSpace (c : IPv4Config) : IPRange :=
  (IPRange.newIPRange c.rangeStart c.rangeEnd).getD .zero

end IPv4Config

/-- `IPv6Config` of an enabled interface, with the fields that decide about leases. -/
structure IPv6Config where
  rangeStart : Addr
  leaseDuration : Duration

namespace IPv6Config

/-- `IPv6Config.Validate`. -/
def validate (c : IPv6Config) : Bool := decide (0 < c.leaseDuration) && c.rangeStart.is6

/-- The first address with its last byte set to `0xff`. -/
def rangeEnd (c : IPv6Config) : Addr :=
  .v6 (BitVec.ofNat 128 (as16 c.rangeStart / 256 * 256 + 255)) ""

/-- The address space of the interface; the error for a range of one address is ignored. -/
def addrSpace (c : IPv6Config) : IPRange :=
  (IPRange.newIPRange c.rangeStart c.rangeEnd).getD .zero

/-- `v6PrefLen`. -/
def prefLen : Nat := 128 - 8

end IPv6Config

/-- A valid `Config`: its enabled interfaces by family in the order of their names, with
what they need to know about their devices. -/
structure Config where
  interfaces4 : List (IPv4Config × List Addr)
  interfaces6 : List (IPv6Config × Bytes)
  valid4 : ∀ c ∈ interfaces4, c.1.validate = true
  valid6 : ∀ c ∈ interfaces6, c.1.validate = true

/-- `dhcpInterfaceV4` with its common part. -/
structure Interface4 where
  conf : DHCPInterfaceV4
  common : NetInterface

/-- `dhcpInterfaceV6` with its common part. -/
structure Interface6 where
  conf : DHCPInterfaceV6
  common : NetInterface

/-- Which interface of a server. -/
inductive IfaceID where
  | v4 (i : Nat)
  | v6 (i : Nat)
deriving DecidableEq

/-- `DHCPServer`, with the leases that its maps point to. -/
structure DHCPServer where
  heap : Heap Lease
  leases : LeaseIndex
  interfaces4 : List Interface4
  interfaces6 : List Interface6

namespace DHCPServer

/-- `DHCPServer.newDHCPInterfaceV4`. -/
def newDHCPInterfaceV4 (c : IPv4Config) (addresses : List Addr) : Interface4 :=
  ⟨⟨c.subnet, addresses⟩, ⟨.new, ∅, c.addrSpace, c.leaseDuration⟩⟩

/-- `DHCPServer.newDHCPInterfaceV6`. -/
def newDHCPInterfaceV6 (c : IPv6Config) (serverDUID : Bytes) : Interface6 :=
  ⟨⟨.ofAddr c.rangeStart IPv6Config.prefLen, serverDUID⟩, ⟨.new, ∅, c.addrSpace, c.leaseDuration⟩⟩

def common (s : DHCPServer) : IfaceID → Option NetInterface
  | .v4 i => (s.interfaces4[i]?).map (·.common)
  | .v6 i => (s.interfaces6[i]?).map (·.common)

def setCommon (s : DHCPServer) (id : IfaceID) (iface : NetInterface) : DHCPServer :=
  match id with
  | .v4 i =>
    { s with interfaces4 := s.interfaces4.modify i fun i4 => { i4 with common := iface } }
  | .v6 i =>
    { s with interfaces6 := s.interfaces6.modify i fun i6 => { i6 with common := iface } }

def world (s : DHCPServer) (iface : NetInterface) : World := ⟨s.heap, s.leases, iface⟩

def setWorld (s : DHCPServer) (id : IfaceID) (w : World) : DHCPServer :=
  { s.setCommon id w.iface with heap := w.heap, leases := w.index }

/-- `ifaceForAddr`. -/
def ifaceForAddr (s : DHCPServer) (addr : Addr) : Option IfaceID :=
  if addr.is4 then
    (s.interfaces4.findIdx? fun iface => iface.common.addrSpace.contains addr).map .v4
  else (s.interfaces6.findIdx? fun iface => iface.common.addrSpace.contains addr).map .v6

def ifaceAt (s : DHCPServer) (addr : Addr) : Option (IfaceID × NetInterface) :=
  (s.ifaceForAddr addr).bind fun id => (s.common id).map fun iface => (id, iface)

def worldWith (s : DHCPServer) (iface : NetInterface) (l : Lease) : World :=
  { s.world iface with heap := (s.heap.alloc l).1 }

/-- `DHCPServer.AddLease`. The argument becomes an object of its own. -/
def addLease (env : Env) (s : DHCPServer) (l : Lease) (stored : Bool) :
    DHCPServer × Except Error Unit :=
  match s.ifaceAt l.ip with
  | none => (s, .error (.noInterface l.ip))
  | some (id, iface) =>
    match (s.worldWith iface l).add env s.heap.size with
    | .error error => (s, .error error)
    | .ok w => (s.setWorld id w, if stored then .ok () else .error .store)

/-- `DHCPServer.UpdateStaticLease`. The argument becomes an object of its own. -/
def updateStaticLease (env : Env) (s : DHCPServer) (l : Lease) (stored : Bool) :
    DHCPServer × Except Error Unit :=
  match s.ifaceAt l.ip with
  | none => (s, .error (.noInterface l.ip))
  | some (id, iface) =>
    let (w, result) := (s.worldWith iface l).update env s.heap.size stored
    (s.setWorld id w, result)

/-- `DHCPServer.RemoveLease`. -/
def removeLease (env : Env) (s : DHCPServer) (l : Lease) (stored : Bool) :
    DHCPServer × Except Error Unit :=
  match s.ifaceAt l.ip with
  | none => (s, .error (.noInterface l.ip))
  | some (id, iface) =>
    let (w, result) := (s.world iface).remove env l stored
    (s.setWorld id w, result)

/-- `DHCPServer.Reset`. -/
def reset (s : DHCPServer) (stored : Bool) : DHCPServer × Except Error Unit :=
  ({ s with
      interfaces4 := s.interfaces4.map fun iface => { iface with common := iface.common.reset }
      interfaces6 := s.interfaces6.map fun iface => { iface with common := iface.common.reset }
      leases := ⟨∅, ∅⟩ },
    if stored then .ok () else .error .store)

/-- One round of `leaseIndex.indexLeases`; a lease that cannot be added is only logged. -/
def indexLease (env : Env) (s : DHCPServer) (l : Lease) : DHCPServer := (s.addLease env l true).1

/-- `New`, with the leases that the database loads. -/
def new (env : Env) (conf : Config) (stored : List Lease) : DHCPServer :=
  stored.foldl (indexLease env) {
    heap := .empty
    leases := ⟨∅, ∅⟩
    interfaces4 := conf.interfaces4.map fun c => newDHCPInterfaceV4 c.1 c.2
    interfaces6 := conf.interfaces6.map fun c => newDHCPInterfaceV6 c.1 c.2 }

/-- `DHCPServer.serveV4` on an interface. -/
def serve4 (env : Env) (s : DHCPServer) (i : Nat) (req : DHCPv4) (chance : Chance)
    (clock : Readings) : DHCPServer × Option Response4 :=
  match s.interfaces4[i]? with
  | none => (s, none)
  | some iface =>
    let (w, resp) := (s.world iface.common).serveV4 env iface.conf req chance clock
    (s.setWorld (.v4 i) w, resp)

/-- `DHCPServer.serveV6` on an interface. -/
def serve6 (env : Env) (s : DHCPServer) (i : Nat) (srcMAC : MacKey) (req : DHCPv6)
    (chance : Chance) (clock : Readings) : DHCPServer × Option Response6 :=
  match s.interfaces6[i]? with
  | none => (s, none)
  | some iface =>
    let (w, resp) := (s.world iface.common).handleDHCPv6 env iface.conf srcMAC req chance clock
    (s.setWorld (.v6 i) w, resp)

end DHCPServer

/-- How long before and during the handling of a message, in nanoseconds: the clock never
goes back. -/
structure Delay where
  before : Nat
  during : Nat

/-- A message on an interface, or a call. -/
inductive Event where
  | message4 (i : Nat) (req : DHCPv4) (chance : Chance) (delay : Delay)
  | message6 (i : Nat) (srcMAC : MacKey) (req : DHCPv6) (chance : Chance) (delay : Delay)
  | addLease (l : Lease) (stored : Bool)
  | updateStaticLease (l : Lease) (stored : Bool)
  | removeLease (l : Lease) (stored : Bool)
  | reset (stored : Bool)

/-- What an event is answered with, and when. -/
inductive Answer where
  | response4 (sent : Option Response4) (time : Time)
  | response6 (sent : Option Response6) (time : Time)
  | done (result : Except Error Unit)
deriving DecidableEq

structure System where
  server : DHCPServer
  clock : Time

namespace System

def readings (s : System) (delay : Delay) : Readings :=
  ⟨s.clock + delay.before, s.clock + delay.before + delay.during⟩

def call (s : System) (result : DHCPServer × Except Error Unit) : System × Answer :=
  ({ s with server := result.1 }, .done result.2)

def step (env : Env) (s : System) : Event → System × Answer
  | .message4 i req chance delay =>
    let clock := s.readings delay
    let (server, sent) := s.server.serve4 env i req chance clock
    (⟨server, clock.later⟩, .response4 sent clock.later)
  | .message6 i srcMAC req chance delay =>
    let clock := s.readings delay
    let (server, sent) := s.server.serve6 env i srcMAC req chance clock
    (⟨server, clock.later⟩, .response6 sent clock.later)
  | .addLease l stored => s.call (s.server.addLease env l stored)
  | .updateStaticLease l stored => s.call (s.server.updateStaticLease env l stored)
  | .removeLease l stored => s.call (s.server.removeLease env l stored)
  | .reset stored => s.call (s.server.reset stored)

def machine (env : Env) : Transition.Machine System Event Answer := ⟨step env⟩

def start (env : Env) (conf : Config) (stored : List Lease) (clock : Time) : System :=
  ⟨.new env conf stored, clock⟩

end System

def sampleEnv : Env := ⟨id, fun name => decide (name ≠ ""), fun _ => true, fun _ => 0⟩

def sampleConfig4 : IPv4Config :=
  ⟨.v4 0xC0A80001, 24, .v4 0xC0A80064, .v4 0xC0A80065, 3600 * second⟩

def sampleConfig : Config where
  interfaces4 := [(sampleConfig4, [.v4 0xC0A80001])]
  interfaces6 := []
  valid4 := by decide
  valid6 := by decide

def sampleMAC : HardwareAddr := [2, 0, 0, 0, 0, 1]

/-- A DHCPv4 message of one client, with more options than its type. -/
def sampleMessage (typ : BitVec 8) (clientIP : BitVec 32) (options : List DHCPOption) : DHCPv4 :=
  ⟨dhcpOpRequest, sampleMAC, clientIP, ⟨DHCPOption.messageType, [typ]⟩ :: options⟩

def sampleChance : Chance := ⟨.inserted, true⟩

end AdGuardHome.Dhcpsvc
