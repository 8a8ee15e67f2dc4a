import AdGuardHome.Lib.Machine
import AdGuardHome.Lib.SecondaryIndex
import AdGuardHome.Aghalg.SortedMap
import AdGuardHome.Net
import AdGuardHome.Netip

/-! Package `client`: persistent clients and their validation. -/
namespace AdGuardHome.Client

open Netip Std

/-- `UID`, sixteen bytes. The zero value stands for no UID. -/
abbrev UID := BitVec 128

abbrev ClientID := String

/-- `Persistent`, with the fields that storing a client or recording its queries reads. -/
structure Persistent where
  name : String
  tags : List String
  upstreams : List String
  ips : List Addr
  subnets : List Prefix
  macs : List HardwareAddr
  clientIDs : List ClientID
  uid : UID
  upstreamsCacheSize : BitVec 32
  upstreamsCacheEnabled : Bool
  ignoreQueryLog : Bool
  ignoreStatistics : Bool
deriving DecidableEq

/-- Why an operation on the storage fails. The clash errors carry the name of the
stored client and the identifier they print. -/
inductive Error where
  | emptyName
  | idRequired
  | uidRequired
  | invalidUpstreamServers (reason : String)
  | invalidTag (tag : String)
  | sameUID (name : String)
  | sameName (name : String)
  | sameClientID (name : String) (id : ClientID)
  | sameIP (name : String) (ip : Addr)
  | sameSubnet (name : String) (subnet : Prefix)
  | sameMAC (name : String) (mac : HardwareAddr)
  | notFound (name : String)
  | invalidMACPanic (mac : HardwareAddr)
  | noUIDPanic
  | nilPanic
deriving DecidableEq

def allowedTags : List String :=
  ["device_audio", "device_camera", "device_gameconsole", "device_laptop", "device_nas",
    "device_other", "device_pc", "device_phone", "device_printer", "device_securityalarm",
    "device_tablet", "device_tv", "os_android", "os_ios", "os_linux", "os_macos", "os_other",
    "os_windows", "user_admin", "user_child", "user_regular"]

namespace Persistent

def idendifiersLen (c : Persistent) : Nat :=
  c.ips.length + c.subnets.length + c.macs.length + c.clientIDs.length

/-- `Persistent.validate`: the client with its tags sorted, or the first error.
`upstreamsError` is the outcome of `proxy.ParseUpstreamsConfig` on the upstreams. -/
def validate (c : Persistent) (upstreamsError : Option String) (allTags : List String) :
    Except Error Persistent :=
  if c.name = "" then .error .emptyName
  else if c.idendifiersLen = 0 then .error .idRequired
  else if c.uid = 0 then .error .uidRequired
  else match upstreamsError with
    | some reason => .error (.invalidUpstreamServers reason)
    | none =>
      match c.tags.find? fun tag => !(Aghalg.binarySearchFunc compare allTags tag).2 with
      | some tag => .error (.invalidTag tag)
      | none => .ok { c with tags := c.tags.mergeSort (· ≤ ·) }

theorem validate_hasUID {c valid : Persistent} {upstreamsError : Option String}
    {allTags : List String} (accepted : c.validate upstreamsError allTags = .ok valid) :
    valid.uid ≠ 0 := by
  unfold validate at accepted
  split at accepted
  · cases accepted
  split at accepted
  · cases accepted
  split at accepted
  · cases accepted
  rename_i hasUID
  split at accepted
  · cases accepted
  split at accepted
  · cases accepted
  cases accepted
  exact hasUID

end Persistent

/-- `subnetCompare`: longer prefixes first, then by address. -/
def subnetCompare (x y : Prefix) : Ordering :=
  if x = y then .eq
  else if x.bits = y.bits then Addr.compare x.addr y.addr
  else if x.bits > y.bits then .lt
  else .gt

private theorem subnetCompare_eq_lex :
    subnetCompare = compareLex (compareOn fun p : Prefix => -p.bits)
      (fun a b => Addr.compare a.addr b.addr) := by
  funext x y
  simp only [subnetCompare, compareLex, compareOn]
  by_cases same : x = y
  · subst same
    simp [ReflCmp.compare_self]
  · by_cases equalBits : x.bits = y.bits
    · simp [same, equalBits, ReflCmp.compare_self]
    · by_cases longer : x.bits > y.bits
      · have order : compare (-x.bits) (-y.bits) = .lt := compare_lt_iff_lt.mpr (by omega)
        simp [same, equalBits, longer, order]
      · have order : compare (-x.bits) (-y.bits) = .gt := compare_gt_iff_gt.mpr (by omega)
        simp [same, equalBits, longer, order]

private theorem transCmp_addr : TransCmp (fun a b : Prefix => Addr.compare a.addr b.addr) where
  eq_swap := by
    intro a b
    exact OrientedCmp.eq_swap
  isLE_trans := by
    intro a b c first second
    exact TransCmp.isLE_trans first second

instance : TransCmp subnetCompare := by
  have addresses := transCmp_addr
  rw [subnetCompare_eq_lex]
  infer_instance

instance : LawfulEqCmp subnetCompare where
  eq_of_compare := by
    intro x y equal
    rw [subnetCompare_eq_lex] at equal
    simp only [compareLex, compareOn, Ordering.then_eq_eq, LawfulEqCmp.compare_eq_iff_eq] at equal
    obtain ⟨bits, addresses⟩ := equal
    cases x
    cases y
    simp_all

open Netip Aghalg

/-- `index`. -/
structure Index where
  subnetToUID : SortedMap Prefix UID subnetCompare
  nameToUID : FiniteMap String UID
  clientIDToUID : FiniteMap ClientID UID
  ipToUID : FiniteMap Addr UID
  macToUID : FiniteMap MacKey UID
  uidToClient : FiniteMap UID Persistent

section Panics
variable {m : Type → Type} [Monad m] [MonadExceptOf Error m]

/-- `macToKey`, with its panic as an error. -/
def macKey (mac : HardwareAddr) : m MacKey :=
  match macToKey mac with
  | some key => pure key
  | none => throw (.invalidMACPanic mac)

end Panics

def Persistent.macKeys (c : Persistent) : List MacKey := c.macs.filterMap macToKey

theorem Persistent.mem_macKeys {c : Persistent} {key : MacKey} :
    key ∈ c.macKeys ↔ key.val ∈ c.macs := by
  simp [Persistent.macKeys, macToKey_eq_some]

/-- The loop that every clash check runs: the first key that another client holds. -/
def firstClash {Key : Type} (lookup : Key → Except Error (Option UID)) (uid : UID) :
    List Key → Except Error (Option (Key × UID))
  | [] => .ok none
  | key :: rest => do
    match ← lookup key with
    | some existing =>
      if existing ≠ uid then return some (key, existing) else firstClash lookup uid rest
    | none => firstClash lookup uid rest

namespace Index

/-- `newIndex`. -/
def new : Index := ⟨.new, ∅, ∅, ∅, ∅, ∅⟩

/-- The loop over the hardware addresses in `add` and `remove`. -/
def writeMACs (write : FiniteMap MacKey UID → MacKey → FiniteMap MacKey UID) :
    List HardwareAddr → EStateM Error Index Unit
  | [] => return
  | mac :: rest => do
    let key ← macKey mac
    modify fun ci => { ci with macToUID := write ci.macToUID key }
    writeMACs write rest

/-- `index.add`. -/
def add (c : Persistent) : EStateM Error Index Unit := do
  if c.uid = 0 then throw .noUIDPanic
  modify fun ci => { ci with
    nameToUID := ci.nameToUID.set c.name c.uid
    clientIDToUID := ci.clientIDToUID.setAll c.clientIDs c.uid
    ipToUID := ci.ipToUID.setAll c.ips c.uid
    subnetToUID := c.subnets.foldl (fun table subnet => table.set subnet c.uid) ci.subnetToUID }
  writeMACs (fun table key => table.set key c.uid) c.macs
  modify fun ci => { ci with uidToClient := ci.uidToClient.set c.uid c }

/-- `index.remove`. -/
def remove (c : Persistent) : EStateM Error Index Unit := do
  modify fun ci => { ci with
    nameToUID := ci.nameToUID.delete c.name
    clientIDToUID := ci.clientIDToUID.deleteAll c.clientIDs
    ipToUID := ci.ipToUID.deleteAll c.ips
    subnetToUID := c.subnets.foldl SortedMap.del ci.subnetToUID }
  writeMACs FiniteMap.delete c.macs
  modify fun ci => { ci with uidToClient := ci.uidToClient.delete c.uid }

/-- `index.findByName`: the outer option is `found`, the inner one the pointer. -/
def findByName (ci : Index) (name : String) : Option (Option Persistent) :=
  (ci.nameToUID.get name).map ci.uidToClient.get

/-- `index.clashesUID`. -/
def clashesUID (ci : Index) (c : Persistent) : Except Error Unit :=
  match ci.uidToClient.get c.uid with
  | some p => .error (.sameUID p.name)
  | none => .ok ()

/-- `index.clashesName`. -/
def clashesName (ci : Index) (c : Persistent) : Except Error (Option Persistent) :=
  match ci.findByName c.name with
  | none => .ok none
  | some none => .error .nilPanic
  | some (some existing) => .ok (if existing.uid ≠ c.uid then some existing else none)

/-- The loop over the ClientIDs in `index.clashes`. Unlike its siblings it
dereferences the client it finds at once. -/
def clashesClientID (ci : Index) (c : Persistent) :
    Except Error (Option (Persistent × ClientID)) := do
  match ← firstClash (fun id => .ok (ci.clientIDToUID.get id)) c.uid c.clientIDs with
  | none => return none
  | some (id, existing) =>
    match ci.uidToClient.get existing with
    | none => throw .nilPanic
    | some p => return some (p, id)

def clashesBy {Key : Type} (ci : Index) (lookup : Key → Except Error (Option UID)) (uid : UID)
    (keys : List Key) : Except Error (Option (Persistent × Key)) := do
  match ← firstClash lookup uid keys with
  | none => return none
  | some (key, existing) => return (ci.uidToClient.get existing).map (·, key)

/-- `index.clashesIP`. -/
def clashesIP (ci : Index) (c : Persistent) : Except Error (Option (Persistent × Addr)) :=
  ci.clashesBy (fun ip => .ok (ci.ipToUID.get ip)) c.uid c.ips

/-- `index.clashesSubnet`, which walks the sorted map instead of looking the subnet
up in it. -/
def clashesSubnet (ci : Index) (c : Persistent) : Except Error (Option (Persistent × Prefix)) :=
  ci.clashesBy
    (fun s => .ok ((ci.subnetToUID.entries.find? fun entry => entry.1 = s).map Prod.snd))
    c.uid c.subnets

/-- `index.clashesMAC`. -/
def clashesMAC (ci : Index) (c : Persistent) :
    Except Error (Option (Persistent × HardwareAddr)) :=
  ci.clashesBy (fun mac => return ci.macToUID.get (← macKey mac)) c.uid c.macs

def reject {α : Type} (found : Option α) (error : α → Error) : Except Error Unit :=
  match found with
  | some clash => throw (error clash)
  | none => return

/-- `index.clashes`. -/
def clashes (ci : Index) (c : Persistent) : Except Error Unit := do
  reject (← ci.clashesName c) fun p => .sameName p.name
  reject (← ci.clashesClientID c) fun (p, id) => .sameClientID p.name id
  reject (← ci.clashesIP c) fun (p, ip) => .sameIP p.name ip
  reject (← ci.clashesSubnet c) fun (p, s) => .sameSubnet p.name s
  reject (← ci.clashesMAC c) fun (p, mac) => .sameMAC p.name mac

/-- The index that `add` leaves behind when it does not panic. -/
def added (ci : Index) (c : Persistent) : Index where
  nameToUID := ci.nameToUID.set c.name c.uid
  clientIDToUID := ci.clientIDToUID.setAll c.clientIDs c.uid
  ipToUID := ci.ipToUID.setAll c.ips c.uid
  subnetToUID := c.subnets.foldl (fun table subnet => table.set subnet c.uid) ci.subnetToUID
  macToUID := ci.macToUID.setAll c.macKeys c.uid
  uidToClient := ci.uidToClient.set c.uid c

/-- The index that `remove` leaves behind when it does not panic. -/
def removed (ci : Index) (c : Persistent) : Index where
  nameToUID := ci.nameToUID.delete c.name
  clientIDToUID := ci.clientIDToUID.deleteAll c.clientIDs
  ipToUID := ci.ipToUID.deleteAll c.ips
  subnetToUID := c.subnets.foldl SortedMap.del ci.subnetToUID
  macToUID := ci.macToUID.deleteAll c.macKeys
  uidToClient := ci.uidToClient.delete c.uid

private theorem modify_run (f : Index → Index) (ci : Index) :
    (modify f : EStateM Error Index PUnit) ci = .ok () (f ci) := rfl

theorem writeMACs_run (write : FiniteMap MacKey UID → MacKey → FiniteMap MacKey UID)
    (macs : List HardwareAddr) (ci : Index) (valid : ∀ mac ∈ macs, (macToKey mac).isSome) :
    writeMACs write macs ci =
      .ok () { ci with macToUID := (macs.filterMap macToKey).foldl write ci.macToUID } := by
  induction macs generalizing ci with
  | nil => rfl
  | cons mac rest ih =>
    obtain ⟨key, found⟩ := Option.isSome_iff_exists.mp (valid mac (by simp))
    have step := ih { ci with macToUID := write ci.macToUID key }
      fun mac member => valid mac (by simp [member])
    simp only [writeMACs, List.filterMap_cons, found, List.foldl_cons]
    simpa [macKey, found, bind, EStateM.bind, pure, EStateM.pure, modify_run] using step

theorem add_run {ci : Index} {c : Persistent} (hasUID : c.uid ≠ 0)
    (valid : ∀ mac ∈ c.macs, (macToKey mac).isSome) : add c ci = .ok () (ci.added c) := by
  rw [add, if_neg hasUID]
  simp [bind, EStateM.bind, modify_run, writeMACs_run _ _ _ valid, added, FiniteMap.setAll,
    Persistent.macKeys]

theorem remove_run {ci : Index} {c : Persistent} (valid : ∀ mac ∈ c.macs, (macToKey mac).isSome) :
    remove c ci = .ok () (ci.removed c) := by
  simp [remove, bind, EStateM.bind, modify_run, writeMACs_run _ _ _ valid, removed,
    FiniteMap.deleteAll, Persistent.macKeys]

end Index

/-- A constructed `proxy.CustomUpstreamConfig`, known by its identity. -/
abbrev ProxyConf := Nat

/-- `customUpstreamConfig`, except the time of the common configuration. -/
structure CustomUpstreamConfig where
  proxyConf : Option ProxyConf
  upstreams : List String
  upstreamsCacheSize : BitVec 32
  upstreamsCacheEnabled : Bool
  isChanged : Bool
deriving DecidableEq

/-- `upstreamManager`. -/
structure UpstreamManager where
  uidToCustomConf : FiniteMap UID CustomUpstreamConfig

namespace UpstreamManager

/-- `newUpstreamManager`. -/
def new : UpstreamManager := ⟨∅⟩

/-- `upstreamManager.updateCustomUpstreamConfig`: a constructed configuration is kept
until the next lookup. -/
def updateCustomUpstreamConfig (m : UpstreamManager) (c : Persistent) : UpstreamManager where
  uidToCustomConf := m.uidToCustomConf.set c.uid
    { proxyConf := (m.uidToCustomConf.get c.uid).bind CustomUpstreamConfig.proxyConf
      upstreams := c.upstreams
      upstreamsCacheSize := c.upstreamsCacheSize
      upstreamsCacheEnabled := c.upstreamsCacheEnabled
      isChanged := true }

/-- `upstreamManager.remove`. Its error, that of closing the configuration included, is
only logged. -/
def remove (m : UpstreamManager) (uid : UID) : UpstreamManager where
  uidToCustomConf := m.uidToCustomConf.delete uid

end UpstreamManager

/-- `Storage`, as far as persistent clients go. -/
structure Storage where
  index : Index
  upstreamManager : UpstreamManager

/-- A call on the storage. Where it parses upstreams it carries the outcome. -/
inductive Call where
  | add (p : Persistent) (upstreamsError : Option String)
  | update (name : String) (p : Persistent) (upstreamsError : Option String)
  | removeByName (name : String)

/-- What a call returns: nothing, a boolean or an error. -/
inductive Answer where
  | done
  | ok (found : Bool)
  | failed (error : Error)
deriving DecidableEq

def Answer.isFailure : Answer → Bool
  | done => false
  | ok found => !found
  | failed _ => true

namespace Storage

/-- `NewStorage` without initial clients. -/
def new : Storage := ⟨.new, .new⟩

/-- The sorted copy of the allowed tags that `NewStorage` makes. -/
def sortedTags : List String := allowedTags.mergeSort (· ≤ ·)

def onIndex (method : EStateM Error Index Unit) : EStateM Error Storage Unit := fun s =>
  match method s.index with
  | .ok () index => .ok () { s with index }
  | .error error index => .error error { s with index }

/-- `Storage.Add`. -/
def add (p : Persistent) (upstreamsError : Option String) : EStateM Error Storage Unit := do
  let p ← ofExcept (p.validate upstreamsError sortedTags)
  let index := (← get).index
  ofExcept (index.clashesUID p)
  ofExcept (index.clashes p)
  onIndex (Index.add p)
  modify fun s => { s with upstreamManager := s.upstreamManager.updateCustomUpstreamConfig p }

/-- `Storage.Update`. -/
def update (name : String) (p : Persistent) (upstreamsError : Option String) :
    EStateM Error Storage Unit := do
  let p ← ofExcept (p.validate upstreamsError sortedTags)
  let index := (← get).index
  match index.findByName name with
  | none => throw (.notFound name)
  | some none => throw .nilPanic
  | some (some stored) =>
    let p := { p with uid := stored.uid }
    ofExcept (index.clashes p)
    onIndex (Index.remove stored)
    onIndex (Index.add p)
    modify fun s => { s with upstreamManager := s.upstreamManager.updateCustomUpstreamConfig p }

/-- `Storage.RemoveByName`. -/
def removeByName (name : String) : EStateM Error Storage Bool := do
  match (← get).index.findByName name with
  | none => return false
  | some none => throw .nilPanic
  | some (some p) =>
    onIndex (Index.remove p)
    modify fun s => { s with upstreamManager := s.upstreamManager.remove p.uid }
    return true

def step (s : Storage) : Call → Storage × Answer
  | .add p upstreamsError =>
    match add p upstreamsError s with
    | .ok () next => (next, .done)
    | .error error next => (next, .failed error)
  | .update name p upstreamsError =>
    match update name p upstreamsError s with
    | .ok () next => (next, .done)
    | .error error next => (next, .failed error)
  | .removeByName name =>
    match removeByName name s with
    | .ok found next => (next, .ok found)
    | .error error next => (next, .failed error)

def machine : Transition.Machine Storage Call Answer := ⟨step⟩

end Storage

end AdGuardHome.Client
