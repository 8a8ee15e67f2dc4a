import AdGuardHome.Client.StorageInvariant

namespace AdGuardHome.Client

open Netip Std

/-- The parsers of `netip`, `net` and `netutil` for identifiers. -/
structure Parsers where
  parseAddr : String → Option Addr
  parsePrefix : String → Option Prefix
  parseMAC : String → Option HardwareAddr
  isValidClientID : String → Bool

/-- The interface `DHCP`, as far as the searches use it. -/
structure DHCP where
  hostByIP : Addr → String
  macByIP : Addr → Option HardwareAddr

namespace Index

variable (ci : Index)

/-- The client of an identifier that has this UID.  In a consistent index there is one. -/
def clientOf (uid : Option UID) : Option Persistent := uid.bind ci.uidToClient.get

def findByClientID (clientID : ClientID) : Option Persistent :=
  ci.clientOf (ci.clientIDToUID.get clientID)

/-- `index.findByIP`: the address itself, or the first subnet with the address. -/
def findByIP (ip : Addr) : Option Persistent :=
  match ci.ipToUID.get ip with
  | some uid => ci.clientOf (some uid)
  | none =>
    ci.clientOf
      ((ci.subnetToUID.entries.find? fun entry => entry.1.contains (ip.withZone "")).map Prod.snd)

def findByCIDR (subnet : Prefix) : Option Persistent :=
  ci.clientOf ((ci.subnetToUID.entries.find? fun entry => entry.1 = subnet).map Prod.snd)

/-- `index.findByMAC`, without the panic of `macToKey`. -/
def findByMAC (mac : HardwareAddr) : Option Persistent :=
  (macToKey mac).bind fun key => ci.clientOf (ci.macToUID.get key)

/-- `index.find`. -/
def find (parsers : Parsers) (id : String) : Option Persistent :=
  (ci.findByClientID id).or
    (((parsers.parseAddr id).bind ci.findByIP).or ((parsers.parseMAC id).bind ci.findByMAC))

/-- `index.findByIPWithoutZone`, for the order in which the map is walked. -/
def findByIPWithoutZone (order : WalkOrder Addr) (ip : Addr) : Option Persistent :=
  if ip = .zero then none
  else
    match (order.arrange (AList.keys ci.ipToUID)).find? fun addr => addr.withZone "" = ip with
    | none => none
    | some addr => ci.clientOf (ci.ipToUID.get addr)

end Index

/-- `FindParams`, where `none` is an empty field. -/
structure FindParams where
  clientID : Option ClientID
  remoteIP : Option Addr
  subnet : Option Prefix
  mac : Option HardwareAddr

/-- `FindParams.Set`, where `none` is `ErrBadIdentifier`. -/
def FindParams.set (parsers : Parsers) (id : String) : Option FindParams :=
  match parsers.parseAddr id, parsers.parseMAC id with
  | none, none =>
    match parsers.parsePrefix id with
    | some subnet => some ⟨none, none, some subnet, none⟩
    | none => if parsers.isValidClientID id then some ⟨some id, none, none, none⟩ else none
  | remoteIP, mac => some ⟨none, remoteIP, none, mac⟩

namespace Storage

variable (s : Storage) (dhcp : DHCP)

/-- `Storage.findByIP`. -/
def findByIP (addr : Addr) : Option Persistent :=
  (s.index.findByIP addr).or ((dhcp.macByIP addr).bind s.index.findByMAC)

/-- `Storage.Find`: the fields of the parameters one after the other. -/
def find (params : FindParams) : Option Persistent :=
  (params.clientID.bind s.index.findByClientID).or
    ((params.remoteIP.bind (s.findByIP dhcp)).or
      ((params.subnet.bind s.index.findByCIDR).or (params.mac.bind s.index.findByMAC)))

/-- `Storage.FindLoose`. -/
def findLoose (parsers : Parsers) (order : WalkOrder Addr) (ip : Addr) (id : String) :
    Option Persistent :=
  match s.index.find parsers id with
  | some p => some p
  | none =>
    match dhcp.macByIP ip with
    | some foundMAC => s.index.findByMAC foundMAC
    | none => s.index.findByIPWithoutZone order ip

/-- The client whose settings `Storage.ApplyClientFiltering` applies. -/
def clientForFiltering (id : String) (addr : Addr) : Option Persistent :=
  (s.index.findByClientID id).or (s.findByIP dhcp addr)

end Storage

end AdGuardHome.Client
