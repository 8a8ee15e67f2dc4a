import AdGuardHome.BitSet
import AdGuardHome.Dhcpsvc.IPRange
import AdGuardHome.Dhcpsvc.Lease
import AdGuardHome.Lib.Heap

namespace AdGuardHome.Dhcpsvc

open Netip Heap

/-- What the package uses of others: `strings.ToLower`, `netutil.IsValidHostname`, the
decoding of DUIDs, and what the platform makes of a float that no `uint32` holds. -/
structure Env where
  toLower : String → String
  isValidHostname : String → Bool
  isDUID : List (BitVec 8) → Bool
  uint32Overflow : Duration → BitVec 32

inductive Error where
  | duplicateIP (ip : Addr)
  | duplicateHostname (hostname : String)
  | duplicateMAC (mac : HardwareAddr)
  | noLeaseForIP (ip : Addr)
  | noLeaseForHostname (hostname : String)
  | noLeaseForMAC (mac : HardwareAddr)
  | noInterface (ip : Addr)
  | noAddresses
  | unavailable
  | store
  | panic
deriving DecidableEq

/-- `netInterface`. Leases are shared objects: all maps hold references. -/
structure NetInterface where
  leasedOffsets : BitSet
  leases : FiniteMap MacKey Ref
  addrSpace : IPRange
  leaseTTL : Duration

/-- `leaseIndex`. -/
structure LeaseIndex where
  byAddr : FiniteMap Addr Ref
  byName : FiniteMap String Ref

namespace NetInterface

/-- `netInterface.reset`. -/
def reset (iface : NetInterface) : NetInterface := { iface with leases := ∅ }

/-- The bit that stands for an address; the error of `ipRange.offset` is ignored. -/
def setOffset (iface : NetInterface) (ip : Addr) (ok : Bool) : NetInterface :=
  { iface with leasedOffsets := iface.leasedOffsets.set ((iface.addrSpace.offset ip).getD 0) ok }

/-- `netInterface.addLease`. -/
def addLease (iface : NetInterface) (l : Ref) (lease : Lease) : Except Error NetInterface :=
  match macToKey lease.hwAddr with
  | none => .error .panic
  | some key =>
    if (iface.leases.get key).isSome then .error (.duplicateMAC lease.hwAddr)
    else .ok (({ iface with leases := iface.leases.set key l }).setOffset lease.ip true)

/-- `netInterface.updateLease`: the interface and the lease before. -/
def updateLease (iface : NetInterface) (l : Ref) (lease : Lease) :
    Except Error (NetInterface × Ref) :=
  match macToKey lease.hwAddr with
  | none => .error .panic
  | some key =>
    match iface.leases.get key with
    | none => .error (.noLeaseForMAC lease.hwAddr)
    | some prev => .ok ({ iface with leases := iface.leases.set key l }, prev)

/-- `netInterface.removeLease`. -/
def removeLease (iface : NetInterface) (lease : Lease) : Except Error NetInterface :=
  match macToKey lease.hwAddr with
  | none => .error .panic
  | some key =>
    if (iface.leases.get key).isNone then .error (.noLeaseForMAC lease.hwAddr)
    else .ok (({ iface with leases := iface.leases.delete key }).setOffset lease.ip false)

/-- `netInterface.nextIP`, where `none` is a panic. -/
def nextIP (iface : NetInterface) : Option Addr :=
  iface.addrSpace.find fun next =>
    (iface.addrSpace.offset next).map fun offset => !iface.leasedOffsets.isSet offset

end NetInterface

/-- What the methods of an interface work on: the objects, the shared index and the
interface itself. -/
structure World where
  heap : Heap Lease
  index : LeaseIndex
  iface : NetInterface

/-- One round of `netInterface.allocateLease` that ends with an address which is not
available: the order of the walk over the leases, and whether the database stores the
blocked lease. -/
structure Round where
  order : WalkOrder MacKey
  stored : Bool

/-- What `addressChecker.IsAvailable` answers: the rounds in which an address is not
available, and the last round, in which it is or the check fails. -/
structure Probing where
  rounds : List Round
  order : WalkOrder MacKey
  fails : Bool

/-- `noopAddressChecker`, which all interfaces of a server have. -/
def noopAddressChecker (order : WalkOrder MacKey) : Probing := ⟨[], order, false⟩

namespace World

def lease (w : World) (l : Ref) : Lease := w.heap.read l

def setLease (w : World) (l : Ref) (change : Lease → Lease) : World :=
  { w with heap := w.heap.modify l change }

/-- `leaseIndex.add`. -/
def add (env : Env) (w : World) (l : Ref) : Except Error World :=
  let lease := w.lease l
  let loweredName := env.toLower lease.hostname
  if (w.index.byAddr.get lease.ip).isSome then .error (.duplicateIP lease.ip)
  else if (w.index.byName.get loweredName).isSome then .error (.duplicateHostname lease.hostname)
  else match w.iface.addLease l lease with
    | .error error => .error error
    | .ok iface => .ok { w with
        iface
        index.byAddr := w.index.byAddr.set lease.ip l
        index.byName := w.index.byName.set loweredName l }

/-- `leaseIndex.remove`, with the outcome of the last `dbStore`. -/
def remove (env : Env) (w : World) (lease : Lease) (stored : Bool) : World × Except Error Unit :=
  let loweredName := env.toLower lease.hostname
  if (w.index.byAddr.get lease.ip).isNone then (w, .error (.noLeaseForIP lease.ip))
  else if (w.index.byName.get loweredName).isNone then
    (w, .error (.noLeaseForHostname lease.hostname))
  else match w.iface.removeLease lease with
    | .error error => (w, .error error)
    | .ok iface =>
      ({ w with
          iface
          index.byAddr := w.index.byAddr.delete lease.ip
          index.byName := w.index.byName.delete loweredName },
        if stored then .ok () else .error .store)

/-- Another client than the one with the address `mac` has the lease. -/
def isTaken (w : World) (mac : HardwareAddr) : Option Ref → Bool
  | none => false
  | some existing => (w.lease existing).hwAddr ≠ mac

/-- `leaseIndex.update`, with the outcome of the last `dbStore`. -/
def update (env : Env) (w : World) (l : Ref) (stored : Bool) : World × Except Error Unit :=
  let lease := w.lease l
  let loweredName := env.toLower lease.hostname
  if w.isTaken lease.hwAddr (w.index.byAddr.get lease.ip) then (w, .error (.duplicateIP lease.ip))
  else if w.isTaken lease.hwAddr (w.index.byName.get loweredName) then
    (w, .error (.duplicateHostname lease.hostname))
  else match w.iface.updateLease l lease with
    | .error error => (w, .error error)
    | .ok (iface, prev) =>
      let byAddr := w.index.byAddr.delete (w.lease prev).ip
      let byName := w.index.byName.delete (env.toLower (w.lease prev).hostname)
      ({ w with
          iface
          index.byAddr := byAddr.set lease.ip l
          index.byName := byName.set loweredName l },
        if stored then .ok () else .error .store)

/-- `netInterface.blockLease`. -/
def blockLease (w : World) (l : Ref) (now : Time) (stored : Bool) : World × Except Error Unit :=
  match w.iface.removeLease (w.lease l) with
  | .error error => (w, .error error)
  | .ok iface =>
    (({ w with iface }).setLease l fun lease => { lease with
        hwAddr := blockedHardwareAddr
        hostname := ""
        expiry := now + w.iface.leaseTTL
        isStatic := false },
      if stored then .ok () else .error .store)

/-- `netInterface.findExpiredLease`, walking over the leases in some order. -/
def findExpiredLease (w : World) (now : Time) (order : WalkOrder MacKey) : Option Ref :=
  (order.arrange w.iface.leases.keys).findSome? fun key =>
    match w.iface.leases.get key with
    | none => none
    | some l =>
      if !(w.lease l).isStatic && decide ((w.lease l).expiry < now) then some l else none

/-- What `netInterface.reserveLease` makes of an expired lease. -/
def recycled (lease : Lease) (key : MacKey) (now : Time) (ttl : Duration) : Lease :=
  ({ lease with hwAddr := key.val, hostname := "", isStatic := false }).updateExpiry now ttl

/-- `netInterface.reserveLease`. An error of the removal is only logged, so that of the
database behind it does not matter. -/
def reserveLease (env : Env) (w : World) (key : MacKey) (now : Time) (order : WalkOrder MacKey) :
    World × Except Error Ref :=
  match w.iface.nextIP with
  | none => (w, .error .panic)
  | some nextIP =>
    if nextIP ≠ .zero then
      let (heap, l) := w.heap.alloc ⟨nextIP, now + w.iface.leaseTTL, "", key.val, false⟩
      ({ w with heap }, .ok l)
    else match w.findExpiredLease now order with
      | none => (w, .error .noAddresses)
      | some l =>
        let removed := (w.remove env (w.lease l) true).1
        let changed := removed.setLease l fun lease => recycled lease key now w.iface.leaseTTL
        ({ changed with iface.leases := changed.iface.leases.set key l }, .ok l)

/-- `netInterface.allocateLease`, through the rounds that end with an address which is
not available and the last one. -/
def allocateLease (env : Env) (w : World) (key : MacKey) (now : Time) (order : WalkOrder MacKey)
    (fails : Bool) : List Round → World × Except Error Ref
  | [] =>
    match w.reserveLease env key now order with
    | (w, .error error) => (w, .error error)
    | (w, .ok l) =>
      if fails then (w, .error .unavailable)
      else
        ({ w with iface :=
            ({ w.iface with leases := w.iface.leases.set key l }).setOffset (w.lease l).ip true },
          .ok l)
  | round :: rest =>
    match w.reserveLease env key now round.order with
    | (w, .error error) => (w, .error error)
    | (w, .ok l) =>
      match w.blockLease l now round.stored with
      | (w, .error error) => (w, .error error)
      | (w, .ok ()) => w.allocateLease env key now order fails rest

/-- `netInterface.allocateLease` with the checker of the interface. -/
def allocate (env : Env) (w : World) (key : MacKey) (now : Time) (checker : Probing) :
    World × Except Error Ref :=
  w.allocateLease env key now checker.order checker.fails checker.rounds

end World

end AdGuardHome.Dhcpsvc
