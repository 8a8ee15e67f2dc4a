import AdGuardHome.BitSet
import AdGuardHome.Dhcpsvc.Lease
import AdGuardHome.Lib.Heap

/-! Package `dhcpd`: the lease table of the DHCPv4 server and the operations on it. -/
namespace AdGuardHome.Dhcpd

open Netip Heap
open Dhcpsvc (Lease Time Duration)

/-- What the server uses of other packages: `strings.ToLower` and the checks of
`netutil`. -/
structure Env where
  toLower : String → String
  isValidHostOuterRune : Char → Bool
  validateHostname : String → Bool
  validateMAC : HardwareAddr → Bool

def addr16 : Addr → Nat
  | .zero => 0
  | .v4 value => 0xffff * 2 ^ 32 + value.toNat
  | .v6 value _ => value.toNat

/-- `ipRange` of two IPv4 addresses, the first below the second. -/
structure IPRange where
  start : BitVec 32
  stop : BitVec 32
  ordered : start < stop

namespace IPRange

/-- `ipRange.offset`. -/
def offset (r : IPRange) (ip : Addr) : Option Nat :=
  if addr16 (.v4 r.start) ≤ addr16 ip ∧ addr16 ip ≤ addr16 (.v4 r.stop) then
    some (addr16 ip - addr16 (.v4 r.start))
  else none

def addrs (r : IPRange) : List Addr :=
  (List.range (r.stop.toNat - r.start.toNat + 1)).map fun i => .v4 (r.start + BitVec.ofNat 32 i)

/-- `ipRange.find`. -/
def find (r : IPRange) (p : Addr → Bool) : Option Addr := r.addrs.find? p

end IPRange

/-- `V4ServerConf` after validation, with the fields that the lease table reads. -/
structure V4ServerConf where
  gatewayIP : Addr
  subnet : Prefix
  subnet4 : subnet.addr.is4 = true
  ipRange : IPRange
  leaseTime : Duration
  dnsIPAddr : BitVec 32

/-- `v4Server`. Leases are shared objects: the slice and both indexes hold references. -/
structure V4Server where
  conf : V4ServerConf
  heap : Heap Lease
  leasedOffsets : BitSet
  leases : List Ref
  hostsIndex : FiniteMap String Ref
  ipIndex : FiniteMap Addr Ref

inductive Error where
  | hostnameNoValidParts
  | hostnameInvalid
  | hostnameDuplicated
  | ipDuplicated
  | notInSubnet (ip : Addr)
  | outOfRange (ip : Addr)
  | staticLeaseExists
  | differentLease (ip : Addr)
  | leaseNotFound
  | onlyIPv4 (ip : Addr)
  | gatewayIP (ip : Addr)
  | invalidMAC
  | invalidIP
  | cantFindLease
  | indexPanic
deriving DecidableEq

/-- `normalizeHostname`. -/
def normalizeHostname (env : Env) (hostname : String) : Except Error String :=
  if hostname = "" then .ok ""
  else
    let parts := ((env.toLower hostname).toList.splitOnP fun c =>
      c != '.' && !env.isValidHostOuterRune c).filter (· ≠ [])
    if parts = [] then .error .hostnameNoValidParts
    else
      let norm := ['-'].intercalate parts
      .ok (String.ofList (if norm.getLast? = some '-' then norm.dropLast else norm))

/-- `aghnet.GenerateHostname` for an IPv4 address. -/
def generateHostname (ip : Addr) : String :=
  let value := ip.toNat
  "-".intercalate ([24, 16, 8, 0].map fun shift => toString ((value >>> shift) % 256))

/-- `netutil.defaultHwAddrLen`. -/
def defaultHwAddrLen : Nat := 6

namespace V4Server

/-- `v4Create`. -/
def new (conf : V4ServerConf) : V4Server := ⟨conf, .empty, .new, [], ∅, ∅⟩

def lease (s : V4Server) (l : Ref) : Lease := s.heap.read l

def setLease (s : V4Server) (l : Ref) (change : Lease → Lease) : V4Server :=
  { s with heap := s.heap.modify l change }

/-- `v4Server.validHostnameForClient`. -/
def validHostnameForClient (env : Env) (cliHostname : String) (ip : Addr) : String :=
  let hostname := match normalizeHostname env cliHostname with
    | .ok norm => norm
    | .error _ => ""
  let hostname := if hostname = "" then generateHostname ip else hostname
  if env.validateHostname hostname then hostname else ""

/-- `v4Server.isBlocklisted`. -/
def isBlocklisted (l : Lease) : Bool := l.hwAddr ≠ [] && l.hwAddr.all (· == 0)

/-- `v4Server.blocklistLease`. -/
def blocklistLease (s : V4Server) (l : Ref) (now : Time) : V4Server :=
  s.setLease l fun lease => { lease with
    hwAddr := List.replicate defaultHwAddrLen 0
    hostname := ""
    expiry := now + s.conf.leaseTime }

/-- The slots of a slice of length `n` after `append(leases[:i], leases[i+1:]...)`: the
elements behind `i` move up in place and the last one stays. -/
def shift (slots : List Ref) (n i : Nat) : List Ref :=
  slots.take i ++ (slots.take n).drop (i + 1) ++ slots.drop (n - 1)

/-- `v4Server.rmLeaseByIndex`. -/
def rmLeaseByIndex (s : V4Server) (i : Nat) : V4Server :=
  match s.leases[i]? with
  | none => s
  | some l =>
    let lease := s.lease l
    { s with
      leases := s.leases.eraseIdx i
      leasedOffsets := match s.conf.ipRange.offset lease.ip with
        | some offset => s.leasedOffsets.set offset false
        | none => s.leasedOffsets
      hostsIndex := s.hostsIndex.delete lease.hostname
      ipIndex := s.ipIndex.delete lease.ip }

/-- `v4Server.rmDynamicLease` compares a lease with the given one. -/
def sameAs (l lease : Lease) : Bool := l.hwAddr == lease.hwAddr || l.ip == lease.ip

/-- Empties the hostname of a dynamic lease that has the hostname of the given one. -/
def emptyHostname (s : V4Server) (isStatic : Bool) (l lease : Ref) : V4Server :=
  if !isStatic && (s.lease l).hostname == (s.lease lease).hostname then
    s.setLease l fun lease => { lease with hostname := "" }
  else s

/-- The loop of `v4Server.rmDynamicLease`, from index `i` on and for `count` more
rounds. It runs over `slots`, the array behind the slice it started with: a removal
shifts the array under the loop, so the element after a removed one only gets its
hostname checked, and the last rounds meet the stale end of the array. -/
def rmDynamicLoop (lease : Ref) :
    Nat → Nat → List Ref → V4Server → V4Server × List Ref × Except Error Unit
  | 0, _, slots, s => (s, slots, .ok ())
  | count + 1, i, slots, s =>
    let l := slots.getD i 0
    let isStatic := (s.lease l).isStatic
    if sameAs (s.lease l) (s.lease lease) then
      if isStatic then (s, slots, .error .staticLeaseExists)
      else
        let removed := s.rmLeaseByIndex i
        let slots := if i < s.leases.length then shift slots s.leases.length i else slots
        if i = removed.leases.length then (removed, slots, .ok ())
        else match removed.leases[i]? with
          | none => (removed, slots, .error .indexPanic)
          | some l =>
            rmDynamicLoop lease count (i + 1) slots (removed.emptyHostname isStatic l lease)
    else rmDynamicLoop lease count (i + 1) slots (s.emptyHostname isStatic l lease)

/-- `v4Server.rmDynamicLease`. -/
def rmDynamicLease (s : V4Server) (lease : Ref) : V4Server × List Ref × Except Error Unit :=
  rmDynamicLoop lease s.leases.length 0 s.leases s

/-- `v4Server.addLease`. An address outside of the range has the offset zero. -/
def addLease (s : V4Server) (l : Ref) : V4Server × Except Error Unit :=
  let lease := s.lease l
  let offset := s.conf.ipRange.offset lease.ip
  if lease.isStatic && !s.conf.subnet.contains lease.ip then (s, .error (.notInSubnet lease.ip))
  else if !lease.isStatic && offset.isNone then (s, .error (.outOfRange lease.ip))
  else if lease.hostname ≠ "" ∧ (s.hostsIndex.get lease.hostname).isSome then
    (s, .error .hostnameDuplicated)
  else
    ({ s with
        hostsIndex :=
          if lease.hostname ≠ "" then s.hostsIndex.set lease.hostname l else s.hostsIndex
        ipIndex := s.ipIndex.set lease.ip l
        leases := s.leases ++ [l]
        leasedOffsets := s.leasedOffsets.set (offset.getD 0) true }, .ok ())

/-- `v4Server.rmLease`. -/
def rmLease (s : V4Server) (lease : Ref) : V4Server × Except Error Unit :=
  if s.leases = [] then (s, .ok ())
  else match s.leases.findIdx? fun l => (s.lease l).ip == (s.lease lease).ip with
    | none => (s, .error .leaseNotFound)
    | some i =>
      let l := s.lease (s.leases.getD i 0)
      if l.hwAddr ≠ (s.lease lease).hwAddr ∨ l.hostname ≠ (s.lease lease).hostname then
        (s, .error (.differentLease l.ip))
      else (s.rmLeaseByIndex i, .ok ())

/-- `v4Server.findLease`. -/
def findLease (s : V4Server) (mac : HardwareAddr) : Option Ref :=
  s.leases.find? fun l => (s.lease l).hwAddr == mac

/-- `v4Server.updateStaticLease`. -/
def updateStaticLease (s : V4Server) (l : Ref) : V4Server × Except Error Unit :=
  match s.rmDynamicLease l with
  | (s, _, .error error) => (s, .error error)
  | (s, _, .ok ()) => s.addLease l

/-- The checks of `v4Server.AddStaticLease`: the lease that it goes on with. -/
def checkStaticLease (env : Env) (s : V4Server) (l : Lease) : Except Error Lease :=
  let l := { l with ip := l.ip.unmap }
  if !l.ip.is4 then .error (.onlyIPv4 l.ip)
  else if s.conf.gatewayIP = l.ip then .error (.gatewayIP l.ip)
  else
    let l := { l with isStatic := true }
    if !env.validateMAC l.hwAddr then .error .invalidMAC
    else if l.hostname = "" then .ok l
    else match normalizeHostname env l.hostname with
      | .error error => .error error
      | .ok hostname =>
        if env.validateHostname hostname then .ok { l with hostname } else .error .hostnameInvalid

/-- `v4Server.AddStaticLease`. The argument becomes an object of its own. -/
def addStaticLease (env : Env) (s : V4Server) (l : Lease) : V4Server × Except Error Unit :=
  match s.checkStaticLease env l with
  | .error error => (s, .error error)
  | .ok l =>
    let (heap, ref) := s.heap.alloc l
    ({ s with heap }).updateStaticLease ref

/-- An index maps to the lease of a client with another hardware address. -/
def isDuplicate (s : V4Server) (mac : HardwareAddr) : Option Ref → Bool
  | none => false
  | some dup => (s.lease dup).hwAddr ≠ mac

/-- `v4Server.validateStaticLease`: the normalized hostname or an error. -/
def validateStaticLease (env : Env) (s : V4Server) (l : Lease) : Except Error String :=
  match normalizeHostname env l.hostname with
  | .error error => .error error
  | .ok hostname =>
    if hostname ≠ "" ∧ !env.validateHostname hostname then .error .hostnameInvalid
    else if hostname ≠ "" ∧ s.isDuplicate l.hwAddr (s.hostsIndex.get hostname) then
      .error .hostnameDuplicated
    else if s.isDuplicate l.hwAddr (s.ipIndex.get l.ip) then .error .ipDuplicated
    else if s.conf.gatewayIP = l.ip then .error (.gatewayIP l.ip)
    else if !s.conf.subnet.contains l.ip then .error (.notInSubnet l.ip)
    else .ok hostname

/-- `v4Server.UpdateStaticLease`. -/
def updateStaticLeaseAPI (env : Env) (s : V4Server) (l : Lease) : V4Server × Except Error Unit :=
  match s.findLease l.hwAddr with
  | none => (s, .error .cantFindLease)
  | some found =>
    match s.validateStaticLease env l with
    | .error error => (s, .error error)
    | .ok hostname =>
      match s.rmLease found with
      | (s, .error error) => (s, .error error)
      | (s, .ok ()) =>
        let (heap, ref) := s.heap.alloc { l with hostname }
        ({ s with heap }).addLease ref

/-- `v4Server.RemoveStaticLease`. -/
def removeStaticLease (env : Env) (s : V4Server) (l : Lease) : V4Server × Except Error Unit :=
  if !l.ip.is4 then (s, .error .invalidIP)
  else if !env.validateMAC l.hwAddr then (s, .error .invalidMAC)
  else
    let (heap, ref) := s.heap.alloc l
    ({ s with heap }).rmLease ref

/-- One round of the loop in `v4Server.ResetLeases`; a lease that cannot be added is
only logged. -/
def resetLease (env : Env) (s : V4Server) (l : Lease) : V4Server :=
  let l := if l.isStatic then l
    else { l with hostname := validHostnameForClient env l.hostname l.ip }
  let (heap, ref) := s.heap.alloc l
  (({ s with heap }).addLease ref).1

/-- `v4Server.ResetLeases`. -/
def resetLeases (env : Env) (s : V4Server) (leases : List Lease) : V4Server :=
  leases.foldl (resetLease env) { s with
    leasedOffsets := .new
    hostsIndex := ∅
    ipIndex := ∅
    leases := [] }

end V4Server

end AdGuardHome.Dhcpd
