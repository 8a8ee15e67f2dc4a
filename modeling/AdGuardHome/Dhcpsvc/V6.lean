import AdGuardHome.Aghnet
import AdGuardHome.Dhcpsvc.Seconds

namespace AdGuardHome.Dhcpsvc

open Netip Heap

abbrev Bytes := List (BitVec 8)

def natOfBytes (data : Bytes) : Nat := data.foldl (fun value byte => value * 256 + byte.toNat) 0

/-- A string of bytes as one of characters below 256. -/
def stringOfBytes (data : Bytes) : String :=
  String.ofList (data.map fun byte => Char.ofNat byte.toNat)

/-- `netip.AddrFromSlice`. -/
def addrFromSlice (data : Bytes) : Option Addr :=
  if data.length = 4 then some (.v4 (BitVec.ofNat 32 (natOfBytes data)))
  else if data.length = 16 then some (.v6 (BitVec.ofNat 128 (natOfBytes data)) "")
  else none

/-- `cmp.Or` of two strings. -/
def orString (first second : String) : String := if first = "" then second else first

/-- `layers.DHCPOption`. -/
structure DHCPOption where
  code : BitVec 8
  data : Bytes
deriving DecidableEq

namespace DHCPOption

def hostname : BitVec 8 := 12
def requestIP : BitVec 8 := 50
def messageType : BitVec 8 := 53
def serverID : BitVec 8 := 54

end DHCPOption

namespace DHCPMsgType

def discover : BitVec 8 := 1
def offer : BitVec 8 := 2
def request : BitVec 8 := 3
def decline : BitVec 8 := 4
def ack : BitVec 8 := 5
def nak : BitVec 8 := 6
def release : BitVec 8 := 7

end DHCPMsgType

/-- `layers.DHCPOpRequest`. -/
def dhcpOpRequest : BitVec 8 := 1

/-- `layers.DHCPv4` as decoded from a packet, with the fields that the handlers read. -/
structure DHCPv4 where
  operation : BitVec 8
  clientHWAddr : HardwareAddr
  clientIP : BitVec 32
  options : List DHCPOption
deriving DecidableEq

namespace DHCPv4

def firstData (msg : DHCPv4) (code : BitVec 8) : Option Bytes :=
  (msg.options.find? fun opt => opt.code == code && !opt.data.isEmpty).map (·.data)

def firstAddr (msg : DHCPv4) (code : BitVec 8) : Option Addr :=
  match msg.options.find? fun opt => opt.code == code with
  | none => none
  | some opt =>
    match addrFromSlice opt.data with
    | none => none
    | some ip => if ip.unmap.is4 then some ip.unmap else none

/-- `msg4Type`. -/
def msgType (msg : DHCPv4) : Option (BitVec 8) :=
  (msg.firstData DHCPOption.messageType).bind (·.head?)

/-- `requestedIPv4`. -/
def requestedIPv4 (msg : DHCPv4) : Option Addr := msg.firstAddr DHCPOption.requestIP

/-- `serverID4`. -/
def serverID4 (msg : DHCPv4) : Option Addr := msg.firstAddr DHCPOption.serverID

/-- `hostname4`. -/
def hostname4 (msg : DHCPv4) : String :=
  stringOfBytes ((msg.firstData DHCPOption.hostname).getD [])

end DHCPv4

/-- A response, with the client it goes to and the options that depend on the lease. -/
structure Response4 where
  messageType : BitVec 8
  clientHWAddr : HardwareAddr
  yourClientIP : Addr
  leaseTime : Option (BitVec 32)
  hostname : String
deriving DecidableEq

/-- What `dhcpInterfaceV4` adds to the common part, and the addresses of its device. -/
structure DHCPInterfaceV4 where
  subnet : Prefix
  addresses : List Addr

/-- The readings of the clock while one message is handled: when the handler starts and
when it builds the response. -/
structure Readings where
  now : Time
  later : Time

/-- What the runtime and the database contribute to the handling of a message. -/
structure Chance where
  order : WalkOrder MacKey
  stored : Bool

namespace World

/-- `dhcpInterfaceV4.appendTimeOptions`. -/
def leaseTimeOption (env : Env) (w : World) (lease : Lease) (now : Time) : BitVec 32 :=
  uint32Seconds env (if lease.isStatic then w.iface.leaseTTL else lease.expiry - now)

/-- `dhcpInterfaceV4.respondOffer` and `dhcpInterfaceV4.respondACK`. -/
def respondLease (env : Env) (w : World) (messageType : BitVec 8) (req : DHCPv4) (l : Ref)
    (now : Time) : Response4 where
  messageType
  clientHWAddr := req.clientHWAddr
  yourClientIP := (w.lease l).ip
  leaseTime := some (w.leaseTimeOption env (w.lease l) now)
  hostname := (w.lease l).hostname

/-- `dhcpInterfaceV4.respondNAK`. -/
def respondNAK (req : DHCPv4) : Response4 :=
  ⟨DHCPMsgType.nak, req.clientHWAddr, .zero, none, ""⟩

/-- `dhcpInterfaceV4.handleDiscover`. -/
def handleDiscover (env : Env) (w : World) (req : DHCPv4) (chance : Chance)
    (clock : Readings) : World × Option Response4 :=
  match macToKey req.clientHWAddr with
  | none => (w, none)
  | some key =>
    match w.iface.leases.get key with
    | some l =>
      let w := w.setLease l fun lease => lease.updateExpiry clock.now w.iface.leaseTTL
      (w, some (w.respondLease env DHCPMsgType.offer req l clock.later))
    | none =>
      match w.allocate env key clock.now (noopAddressChecker chance.order) with
      | (w, .error _) => (w, none)
      | (w, .ok l) => (w, some (w.respondLease env DHCPMsgType.offer req l clock.later))

/-- The end of the handlers of `DHCPREQUEST`: it renames and commits a lease. -/
def commit4 (env : Env) (w : World) (req : DHCPv4) (l : Ref) (hostname : String)
    (chance : Chance) (clock : Readings) : World × Option Response4 :=
  match (w.setLease l fun lease => { lease with hostname }).update env l chance.stored with
  | (w, .error _) => (w, some (respondNAK req))
  | (w, .ok ()) => (w, some (w.respondLease env DHCPMsgType.ack req l clock.later))

/-- `dhcpInterfaceV4.handleSelecting`. -/
def handleSelecting (env : Env) (w : World) (req : DHCPv4) (reqIP : Addr) (chance : Chance)
    (clock : Readings) : World × Option Response4 :=
  if !(Addr.v4 req.clientIP).isUnspecified then (w, none)
  else match macToKey req.clientHWAddr with
    | none => (w, none)
    | some key =>
      match w.iface.leases.get key with
      | none => (w, some (respondNAK req))
      | some l =>
        if (w.lease l).ip ≠ reqIP then (w, some (respondNAK req))
        else w.commit4 env req l req.hostname4 chance clock

/-- `dhcpInterfaceV4.handleInitReboot`. -/
def handleInitReboot (env : Env) (w : World) (req : DHCPv4) (reqIP : Addr) (chance : Chance)
    (clock : Readings) : World × Option Response4 :=
  if !(Addr.v4 req.clientIP).isUnspecified then (w, none)
  else match macToKey req.clientHWAddr with
    | none => (w, none)
    | some key =>
      match w.iface.leases.get key with
      | none => (w, none)
      | some l =>
        if (w.lease l).ip ≠ reqIP then (w, some (respondNAK req))
        else w.commit4 env req l (orString req.hostname4 (w.lease l).hostname) chance clock

/-- `dhcpInterfaceV4.handleRenew`. -/
def handleRenew (env : Env) (w : World) (req : DHCPv4) (ip : Addr) (chance : Chance)
    (clock : Readings) : World × Option Response4 :=
  match macToKey req.clientHWAddr with
  | none => (w, none)
  | some key =>
    match w.iface.leases.get key with
    | none => (w, none)
    | some l =>
      if (w.lease l).ip ≠ ip then (w, some (respondNAK req))
      else w.commit4 env req l (orString req.hostname4 (w.lease l).hostname) chance clock

/-- `dhcpInterfaceV4.handleRequest`. -/
def handleRequest (env : Env) (conf : DHCPInterfaceV4) (w : World) (req : DHCPv4)
    (chance : Chance) (clock : Readings) : World × Option Response4 :=
  let srvID := req.serverID4.getD .zero
  let reqIP := req.requestedIPv4.getD .zero
  if req.serverID4.isSome && !srvID.isUnspecified then
    if !conf.addresses.contains srvID then (w, none)
    else w.handleSelecting env req reqIP chance clock
  else if req.requestedIPv4.isSome && !reqIP.isUnspecified then
    if !conf.subnet.contains reqIP then (w, some (respondNAK req))
    else w.handleInitReboot env req reqIP chance clock
  else if !conf.subnet.contains (.v4 req.clientIP) then (w, none)
  else w.handleRenew env req (.v4 req.clientIP) chance clock

/-- `dhcpInterfaceV4.leaseByMacWithIP`. -/
def leaseByMacWithIP (w : World) (mac : HardwareAddr) (ip : Addr) : Option Ref :=
  match macToKey mac with
  | none => none
  | some key =>
    match w.iface.leases.get key with
    | none => none
    | some l => if (w.lease l).ip = ip then some l else none

/-- `dhcpInterfaceV4.handleDecline`. -/
def handleDecline (conf : DHCPInterfaceV4) (w : World) (req : DHCPv4) (chance : Chance)
    (clock : Readings) : World :=
  match req.requestedIPv4 with
  | none => w
  | some reqIP =>
    if !conf.subnet.contains reqIP then w
    else match w.leaseByMacWithIP req.clientHWAddr reqIP with
      | none => w
      | some l => (w.blockLease l clock.now chance.stored).1

/-- `dhcpInterfaceV4.handleRelease`. -/
def handleRelease (env : Env) (conf : DHCPInterfaceV4) (w : World) (req : DHCPv4)
    (chance : Chance) : World :=
  if !conf.subnet.contains (.v4 req.clientIP) then w
  else match w.leaseByMacWithIP req.clientHWAddr (.v4 req.clientIP) with
    | none => w
    | some l => (w.remove env (w.lease l) chance.stored).1

/-- `dhcpInterfaceV4.handleDHCPv4`. -/
def handleDHCPv4 (env : Env) (conf : DHCPInterfaceV4) (w : World) (typ : BitVec 8)
    (req : DHCPv4) (chance : Chance) (clock : Readings) : World × Option Response4 :=
  if typ = DHCPMsgType.discover then w.handleDiscover env req chance clock
  else if typ = DHCPMsgType.request then w.handleRequest env conf req chance clock
  else if typ = DHCPMsgType.release then (w.handleRelease env conf req chance, none)
  else if typ = DHCPMsgType.decline then (w.handleDecline conf req chance clock, none)
  else (w, none)

/-- `DHCPServer.serveV4`. -/
def serveV4 (env : Env) (conf : DHCPInterfaceV4) (w : World) (req : DHCPv4)
    (chance : Chance) (clock : Readings) : World × Option Response4 :=
  if req.operation ≠ dhcpOpRequest then (w, none)
  else match req.msgType with
    | none => (w, none)
    | some typ => w.handleDHCPv4 env conf typ req chance clock

end World

/-- `layers.DHCPv6Option`. -/
structure DHCPv6Option where
  code : BitVec 16
  data : Bytes
deriving DecidableEq

namespace DHCPv6Option

def clientID : BitVec 16 := 1
def serverID : BitVec 16 := 2
def iana : BitVec 16 := 3
def iata : BitVec 16 := 4
def iaAddr : BitVec 16 := 5
def rapidCommit : BitVec 16 := 14
def clientFQDN : BitVec 16 := 39

end DHCPv6Option

namespace DHCPv6MsgType

def solicit : BitVec 8 := 1
def advertise : BitVec 8 := 2
def request : BitVec 8 := 3
def confirm : BitVec 8 := 4
def renew : BitVec 8 := 5
def rebind : BitVec 8 := 6
def reply : BitVec 8 := 7
def release : BitVec 8 := 8
def decline : BitVec 8 := 9
def informationRequest : BitVec 8 := 11

end DHCPv6MsgType

/-- `iaNAMinLen`. -/
def iaNAMinLen : Nat := 12

/-- `iaAddrDataLen`. -/
def iaAddrDataLen : Nat := 24

/-- `IAAddrOption`. -/
structure IAAddrOption where
  addr : Addr
  preferredLifetime : Duration
  validLifetime : Duration
deriving DecidableEq

/-- `IANAOption`. -/
structure IANAOption where
  nested : List IAAddrOption
  id : BitVec 32
  t1 : Duration
  t2 : Duration
deriving DecidableEq

def durationOfBytes (data : Bytes) : Duration := natOfBytes data * second

/-- `IAAddrOption.UnmarshalBinary`. -/
def IAAddrOption.unmarshalBinary (data : Bytes) : Option IAAddrOption :=
  if data.length < iaAddrDataLen then none
  else (addrFromSlice (data.take 16)).map fun addr =>
    ⟨addr, durationOfBytes ((data.drop 16).take 4), durationOfBytes ((data.drop 20).take 4)⟩

/-- The nested options that `IANAOption.UnmarshalBinary` parses, for as many rounds as
there are bytes. -/
def unmarshalNested : Nat → Bytes → Option (List IAAddrOption)
  | 0, _ => some []
  | rounds + 1, nested =>
    if nested.length < 4 then some []
    else
      let code := BitVec.ofNat 16 (natOfBytes (nested.take 2))
      let l := natOfBytes ((nested.drop 2).take 2)
      if nested.length - 4 < l then none
      else
        let rest := nested.drop (4 + l)
        if code = DHCPv6Option.iaAddr then
          match IAAddrOption.unmarshalBinary ((nested.drop 4).take l) with
          | none => none
          | some addr => (unmarshalNested rounds rest).map (addr :: ·)
        else unmarshalNested rounds rest

/-- `IANAOption.UnmarshalBinary`. -/
def IANAOption.unmarshalBinary (data : Bytes) : Option IANAOption :=
  if data.length < iaNAMinLen then none
  else (unmarshalNested data.length (data.drop iaNAMinLen)).map fun nested =>
    ⟨nested, BitVec.ofNat 32 (natOfBytes (data.take 4)), durationOfBytes ((data.drop 4).take 4),
      durationOfBytes ((data.drop 8).take 4)⟩

/-- `IANAOption.requestedAddr`. -/
def IANAOption.requestedAddr (opt : IANAOption) : Option Addr :=
  match opt.nested with
  | [] => none
  | addr :: _ => if addr.addr.isValid then some addr.addr else none

/-- `layers.DHCPv6` as decoded from a packet, with the fields that the handlers read. -/
structure DHCPv6 where
  msgType : BitVec 8
  options : List DHCPv6Option
deriving DecidableEq

namespace DHCPv6

/-- `findOption6`. -/
def findOption (req : DHCPv6) (code : BitVec 16) : Option Bytes :=
  (req.options.find? fun opt => opt.code == code).map (·.data)

/-- `clientFQDN6`. -/
def clientFQDN (req : DHCPv6) : String :=
  match req.findOption DHCPv6Option.clientFQDN with
  | none => ""
  | some data => stringOfBytes (data.drop 1)

/-- The well-formed `IA_NA` options in order. -/
def ianas (req : DHCPv6) : List IANAOption :=
  req.options.filterMap fun opt =>
    if opt.code = DHCPv6Option.iana then IANAOption.unmarshalBinary opt.data else none

/-- `clientIDNoServer`, as far as it lets a message pass. -/
def clientIDNoServer (env : Env) (req : DHCPv6) : Bool :=
  (req.findOption DHCPv6Option.serverID).isNone &&
    (req.findOption DHCPv6Option.clientID).any env.isDUID

/-- `clientIDMatchingServer`, as far as it lets a message pass. -/
def clientIDMatchingServer (env : Env) (req : DHCPv6) (serverDUID : Bytes) : Bool :=
  req.findOption DHCPv6Option.serverID == some serverDUID &&
    (req.findOption DHCPv6Option.clientID).any env.isDUID

end DHCPv6

inductive StatusCode where
  | success
  | noAddrsAvail
  | noBinding
  | notOnLink
deriving DecidableEq

/-- The `IA_NA` option of a response: one address with its lifetime, or a status code. -/
inductive ResponseIANA where
  | addr (iaid : BitVec 32) (ip : Addr) (validLifetime : BitVec 32)
  | status (iaid : BitVec 32) (code : StatusCode)
deriving DecidableEq

structure Response6 where
  msgType : BitVec 8
  iana : Option ResponseIANA
  status : StatusCode
  rapidCommit : Bool
deriving DecidableEq

/-- What `dhcpInterfaceV6` adds to the common part, and the DUID of its device. -/
structure DHCPInterfaceV6 where
  subnetPrefix : Prefix
  serverDUID : Bytes

namespace World

/-- `dhcpInterfaceV6.iaNAFromLease` for a lease; preferred and valid lifetime are equal. -/
def iaNAFromLease (env : Env) (w : World) (l : Ref) (iaid : BitVec 32) : ResponseIANA :=
  .addr iaid (w.lease l).ip (uint32Seconds env w.iface.leaseTTL)

/-- The loop of `dhcpInterfaceV6.allocateForSolicit` over the well-formed `IA_NA` options. -/
def allocateForSolicit (env : Env) (w : World) (key : MacKey) (order : WalkOrder MacKey)
    (now : Time) : List IANAOption → World × Option (Ref × BitVec 32)
  | [] => (w, none)
  | iana :: rest =>
    match w.iface.leases.get key with
    | some l => (w, some (l, iana.id))
    | none =>
      match w.allocate env key now (noopAddressChecker order) with
      | (w, .error _) => w.allocateForSolicit env key order now rest
      | (w, .ok l) => (w, some (l, iana.id))

/-- The hostname that `dhcpInterfaceV6.commit` gives a lease. -/
def committedHostname (env : Env) (req : DHCPv6) (lease : Lease) : String :=
  if env.isValidHostname lease.hostname then lease.hostname
  else if env.isValidHostname req.clientFQDN then req.clientFQDN
  else Aghnet.generateHostname lease.ip

/-- The lease that `dhcpInterfaceV6.commit` puts into the index. -/
def committed (env : Env) (req : DHCPv6) (lease : Lease) (now : Time) (ttl : Duration) : Lease :=
  let lease := { lease with hostname := committedHostname env req lease }
  if lease.isExpiredAt now then lease.updateExpiry now ttl else lease

/-- `dhcpInterfaceV6.commit`: the lease is removed from the interface if the index does
not take it. -/
def commit6 (env : Env) (w : World) (req : DHCPv6) (l : Ref) (stored : Bool) (now : Time) :
    World × Except Error Unit :=
  let w := w.setLease l fun lease => committed env req lease now w.iface.leaseTTL
  match w.update env l stored with
  | (w, .ok ()) => (w, .ok ())
  | (w, .error error) =>
    match w.iface.removeLease (w.lease l) with
    | .error _ => (w, .error error)
    | .ok iface => ({ w with iface }, .error error)

/-- `dhcpInterfaceV6.handleSolicit`. -/
def handleSolicit (env : Env) (w : World) (srcMAC : MacKey) (req : DHCPv6) (chance : Chance)
    (clock : Readings) : World × Option Response6 :=
  if !req.clientIDNoServer env then (w, none)
  else match w.allocateForSolicit env srcMAC chance.order clock.now req.ianas with
    | (w, none) => (w, some ⟨DHCPv6MsgType.advertise, none, .noAddrsAvail, false⟩)
    | (w, some (l, iaid)) =>
      if (req.findOption DHCPv6Option.rapidCommit).isNone then
        (w, some ⟨DHCPv6MsgType.advertise, some (w.iaNAFromLease env l iaid), .success, false⟩)
      else match w.commit6 env req l chance.stored clock.later with
        | (w, .error _) =>
          (w, some ⟨DHCPv6MsgType.advertise, some (w.iaNAFromLease env l iaid), .success, false⟩)
        | (w, .ok ()) =>
          (w, some ⟨DHCPv6MsgType.reply, some (w.iaNAFromLease env l iaid), .success, true⟩)

/-- A reply with or without an `IA_NA` option. -/
def reply6 (iana : Option ResponseIANA) : Option Response6 :=
  some ⟨DHCPv6MsgType.reply, iana, .success, false⟩

/-- `dhcpInterfaceV6.ianaForRequest`. A newly allocated lease is not committed. -/
def ianaForRequest (env : Env) (w : World) (key : MacKey) (req : DHCPv6) (iaid : BitVec 32)
    (chance : Chance) (now : Time) : World × ResponseIANA :=
  match w.iface.leases.get key with
  | none =>
    match w.allocate env key now (noopAddressChecker chance.order) with
    | (w, .error _) => (w, .status iaid .noAddrsAvail)
    | (w, .ok l) => (w, w.iaNAFromLease env l iaid)
  | some l =>
    match w.commit6 env req l chance.stored now with
    | (w, .error _) => (w, .status iaid .noAddrsAvail)
    | (w, .ok ()) => (w, w.iaNAFromLease env l iaid)

/-- `dhcpInterfaceV6.handleRequest`. -/
def handleRequest6 (env : Env) (conf : DHCPInterfaceV6) (w : World) (srcMAC : MacKey)
    (req : DHCPv6) (chance : Chance) (clock : Readings) : World × Option Response6 :=
  if !req.clientIDMatchingServer env conf.serverDUID then (w, none)
  else match req.ianas.head? with
    | none => (w, reply6 none)
    | some iana =>
      if iana.requestedAddr.any fun reqIP => !conf.subnetPrefix.contains reqIP then
        (w, reply6 (some (.status iana.id .notOnLink)))
      else
        let (w, respIANA) := w.ianaForRequest env srcMAC req iana.id chance clock.now
        (w, reply6 (some respIANA))

/-- `dhcpInterfaceV6.ianaForUpdate`. -/
def ianaForUpdate (env : Env) (w : World) (key : MacKey) (req : DHCPv6) (reqIANA : IANAOption)
    (chance : Chance) (now : Time) : World × Option ResponseIANA :=
  match reqIANA.requestedAddr with
  | none => (w, none)
  | some reqIP =>
    match w.iface.leases.get key with
    | none => (w, some (.status reqIANA.id .noBinding))
    | some l =>
      if (w.lease l).ip ≠ reqIP then (w, some (.status reqIANA.id .noBinding))
      else match w.commit6 env req l chance.stored now with
        | (w, .error _) => (w, some (.status reqIANA.id .noAddrsAvail))
        | (w, .ok ()) => (w, some (w.iaNAFromLease env l reqIANA.id))

/-- The common end of `dhcpInterfaceV6.handleRenew` and `dhcpInterfaceV6.handleRebind`. -/
def handleUpdate (env : Env) (w : World) (srcMAC : MacKey) (req : DHCPv6) (chance : Chance)
    (clock : Readings) : World × Option Response6 :=
  match req.ianas.head? with
  | none => (w, reply6 none)
  | some iana =>
    let (w, respIANA) := w.ianaForUpdate env srcMAC req iana chance clock.now
    (w, reply6 respIANA)

/-- `dhcpInterfaceV6.handleRenew`. -/
def handleRenew6 (env : Env) (conf : DHCPInterfaceV6) (w : World) (srcMAC : MacKey)
    (req : DHCPv6) (chance : Chance) (clock : Readings) : World × Option Response6 :=
  if !req.clientIDMatchingServer env conf.serverDUID then (w, none)
  else w.handleUpdate env srcMAC req chance clock

/-- `dhcpInterfaceV6.handleRebind`. -/
def handleRebind (env : Env) (w : World) (srcMAC : MacKey) (req : DHCPv6) (chance : Chance)
    (clock : Readings) : World × Option Response6 :=
  if !req.clientIDNoServer env then (w, none) else w.handleUpdate env srcMAC req chance clock

/-- `dhcpInterfaceV6.ipForRelease`. -/
def ipForRelease (req : DHCPv6) : Option (BitVec 32 × Addr) :=
  req.ianas.findSome? fun iana => iana.requestedAddr.map fun ip => (iana.id, ip)

/-- `dhcpInterfaceV6.handleRelease`. -/
def handleRelease6 (env : Env) (conf : DHCPInterfaceV6) (w : World) (srcMAC : MacKey)
    (req : DHCPv6) (chance : Chance) : World × Option Response6 :=
  if !req.clientIDMatchingServer env conf.serverDUID then (w, none)
  else match ipForRelease req with
    | none => (w, reply6 none)
    | some (iaid, ip) =>
      match w.iface.leases.get srcMAC with
      | none => (w, reply6 (some (.status iaid .noBinding)))
      | some l =>
        if (w.lease l).ip ≠ ip then (w, reply6 (some (.status iaid .noBinding)))
        else match w.remove env (w.lease l) chance.stored with
          | (w, .error _) => (w, reply6 (some (.status iaid .noBinding)))
          | (w, .ok ()) => (w, reply6 (some (.status iaid .success)))

/-- `dhcpInterfaceV6.confirmAddrsOnLink`: the status, if any address was given. -/
def confirmAddrsOnLink (w : World) (req : DHCPv6) : Option StatusCode :=
  match req.ianas.flatMap (·.nested) with
  | [] => none
  | addrs =>
    if addrs.all fun addr => w.iface.addrSpace.contains addr.addr then some .success
    else some .notOnLink

/-- `dhcpInterfaceV6.handleConfirm`. -/
def handleConfirm (env : Env) (w : World) (req : DHCPv6) : Option Response6 :=
  if !req.clientIDNoServer env then none
  else (w.confirmAddrsOnLink req).map fun status => ⟨DHCPv6MsgType.reply, none, status, false⟩

/-- `dhcpInterfaceV6.handleInfo`. -/
def handleInfo (conf : DHCPInterfaceV6) (req : DHCPv6) : Option Response6 :=
  if (req.findOption DHCPv6Option.serverID).any fun id => id != conf.serverDUID then none
  else if (req.findOption DHCPv6Option.iana).isSome then none
  else if (req.findOption DHCPv6Option.iata).isSome then none
  else reply6 none

/-- `dhcpInterfaceV6.handleDHCPv6`. A `DECLINE` is only logged. -/
def handleDHCPv6 (env : Env) (conf : DHCPInterfaceV6) (w : World) (srcMAC : MacKey)
    (req : DHCPv6) (chance : Chance) (clock : Readings) : World × Option Response6 :=
  if req.msgType = DHCPv6MsgType.solicit then w.handleSolicit env srcMAC req chance clock
  else if req.msgType = DHCPv6MsgType.request then
    w.handleRequest6 env conf srcMAC req chance clock
  else if req.msgType = DHCPv6MsgType.confirm then (w, w.handleConfirm env req)
  else if req.msgType = DHCPv6MsgType.renew then w.handleRenew6 env conf srcMAC req chance clock
  else if req.msgType = DHCPv6MsgType.rebind then w.handleRebind env srcMAC req chance clock
  else if req.msgType = DHCPv6MsgType.informationRequest then (w, handleInfo conf req)
  else if req.msgType = DHCPv6MsgType.release then w.handleRelease6 env conf srcMAC req chance
  else (w, none)

end World

end AdGuardHome.Dhcpsvc
