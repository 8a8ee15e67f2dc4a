import AdGuardHome.Client.Find
import AdGuardHome.Whois.Process

namespace AdGuardHome.Client

open Netip

/-- `Source`, from the lowest priority to the highest; a runtime client has no `SourcePersistent`. -/
inductive Source where
  | whois
  | arp
  | rdns
  | dhcp
  | hostsFile
deriving DecidableEq

def Source.priority : Source → Nat
  | whois => 1
  | arp => 2
  | rdns => 3
  | dhcp => 4
  | hostsFile => 5

/-- `Runtime`: `none` is no information from a source, and an empty list information that is there
but empty. -/
structure Runtime where
  ip : Addr
  whois : Option Whois.Info
  arp : Option (List String)
  rdns : Option (List String)
  dhcp : Option (List String)
  hostsFile : Option (List String)
deriving DecidableEq

/-- What one source has about a client. -/
inductive Information where
  | whois (info : Whois.Info)
  | names (hosts : List String)
deriving DecidableEq

namespace Runtime

/-- `NewRuntime`. -/
def new (ip : Addr) : Runtime := ⟨ip, none, none, none, none, none⟩

/-- `Runtime.Info`; the zero source is `none`. -/
def info (r : Runtime) : Option Source × String :=
  let (cs, info) := match r.hostsFile, r.dhcp, r.rdns, r.arp, r.whois with
    | some hosts, _, _, _, _ => (some .hostsFile, hosts)
    | none, some hosts, _, _, _ => (some .dhcp, hosts)
    | none, none, some hosts, _, _ => (some .rdns, hosts)
    | none, none, none, some hosts, _ => (some .arp, hosts)
    | none, none, none, none, some _ => (some .whois, [])
    | none, none, none, none, none => (none, [])
  match info with
  | [] => (cs, "")
  | host :: _ => (cs, host)

def present (hosts : List String) : List String :=
  match hosts with
  | [""] => []
  | hosts => hosts

/-- `Runtime.setInfo`. -/
def setInfo (r : Runtime) (cs : Source) (hosts : List String) : Runtime :=
  let hosts := present hosts
  match cs with
  | .arp => { r with arp := some hosts }
  | .rdns => { r with rdns := some hosts }
  | .dhcp => { r with dhcp := some hosts }
  | .hostsFile => { r with hostsFile := some hosts }
  | .whois => r

/-- `Runtime.setWHOIS`. -/
def setWHOIS (r : Runtime) (info : Whois.Info) : Runtime := { r with whois := some info }

/-- `Runtime.unset`. -/
def unset (r : Runtime) : Source → Runtime
  | .whois => { r with whois := none }
  | .arp => { r with arp := none }
  | .rdns => { r with rdns := none }
  | .dhcp => { r with dhcp := none }
  | .hostsFile => { r with hostsFile := none }

/-- `Runtime.isEmpty`. -/
def isEmpty (r : Runtime) : Bool :=
  r.whois.isNone && r.arp.isNone && r.rdns.isNone && r.dhcp.isNone && r.hostsFile.isNone

def held (r : Runtime) : Source → Option Information
  | .whois => r.whois.map .whois
  | .arp => r.arp.map .names
  | .rdns => r.rdns.map .names
  | .dhcp => r.dhcp.map .names
  | .hostsFile => r.hostsFile.map .names

@[simp] theorem held_new (ip : Addr) (src : Source) : (new ip).held src = none := by
  cases src <;> rfl

theorem held_setInfo (r : Runtime) {cs : Source} (named : cs ≠ .whois) (hosts : List String)
    (src : Source) : (r.setInfo cs hosts).held src =
      if src = cs then some (.names (present hosts)) else r.held src := by
  cases cs with
  | whois => exact absurd rfl named
  | arp | rdns | dhcp | hostsFile => cases src <;> rfl

theorem held_setWHOIS (r : Runtime) (wi : Whois.Info) (src : Source) :
    (r.setWHOIS wi).held src = if src = .whois then some (.whois wi) else r.held src := by
  cases src <;> rfl

theorem held_unset (r : Runtime) (cs src : Source) :
    (r.unset cs).held src = if src = cs then none else r.held src := by
  cases cs <;> cases src <;> rfl

@[simp] theorem ip_setInfo (r : Runtime) (cs : Source) (hosts : List String) :
    (r.setInfo cs hosts).ip = r.ip := by
  cases cs <;> rfl

@[simp] theorem ip_unset (r : Runtime) (cs : Source) : (r.unset cs).ip = r.ip := by
  cases cs <;> rfl

theorem isEmpty_iff (r : Runtime) : r.isEmpty = true ↔ ∀ src, r.held src = none := by
  constructor
  · intro empty src
    simp only [isEmpty, Bool.and_eq_true, Option.isNone_iff_eq_none] at empty
    obtain ⟨⟨⟨⟨whois, arp⟩, rdns⟩, dhcp⟩, hostsFile⟩ := empty
    cases src <;> simp [held, whois, arp, rdns, dhcp, hostsFile]
  · intro nothing
    have whois := nothing .whois
    have arp := nothing .arp
    have rdns := nothing .rdns
    have dhcp := nothing .dhcp
    have hostsFile := nothing .hostsFile
    simp only [held, Option.map_eq_none_iff] at whois arp rdns dhcp hostsFile
    simp [isEmpty, whois, arp, rdns, dhcp, hostsFile]

theorem not_isEmpty {r : Runtime} (src : Source) (has : r.held src ≠ none) : r.isEmpty = false := by
  cases empty : r.isEmpty with
  | false => rfl
  | true => exact absurd ((isEmpty_iff r).mp empty src) has

theorem ext_held {r other : Runtime} (address : r.ip = other.ip)
    (same : ∀ src, r.held src = other.held src) : r = other := by
  obtain ⟨ip, whois, arp, rdns, dhcp, hostsFile⟩ := r
  obtain ⟨ip', whois', arp', rdns', dhcp', hostsFile'⟩ := other
  have names : Function.Injective Information.names := fun _ _ h => Information.names.inj h
  obtain rfl : ip = ip' := address
  obtain rfl : whois = whois' :=
    Option.map_injective (fun _ _ h => Information.whois.inj h) (same .whois)
  obtain rfl : arp = arp' := Option.map_injective names (same .arp)
  obtain rfl : rdns = rdns' := Option.map_injective names (same .rdns)
  obtain rfl : dhcp = dhcp' := Option.map_injective names (same .dhcp)
  obtain rfl : hostsFile = hostsFile' := Option.map_injective names (same .hostsFile)
  rfl

end Runtime

def Information.name : Information → String
  | .whois _ => ""
  | .names hosts => hosts.headD ""

/-- `Info` reports the source of the highest priority that has information, with its name. -/
structure Runtime.Reported (r : Runtime) : Prop where
  source : ∀ src, r.info.1 = some src ↔
    r.held src ≠ none ∧ ∀ other : Source, src.priority < other.priority → r.held other = none
  name : ∀ src information, r.info.1 = some src → r.held src = some information →
    r.info.2 = information.name

theorem Source.priority_inj {src other : Source} (same : src.priority = other.priority) :
    src = other := by
  cases src <;> cases other <;> first | rfl | cases same

theorem Runtime.Reported.of_top {r : Runtime} (top : Source) {information : Information}
    (has : r.held top = some information)
    (above : ∀ other : Source, top.priority < other.priority → r.held other = none)
    (found : r.info = (some top, information.name)) : r.Reported := by
  constructor
  · intro src
    rw [found]
    constructor
    · intro same
      obtain rfl := Option.some.inj same
      exact ⟨by simp [has], above⟩
    · rintro ⟨some_held, higher⟩
      obtain below | same | beyond := Nat.lt_trichotomy src.priority top.priority
      · exact absurd (higher top below) (by simp [has])
      · rw [Source.priority_inj same]
      · exact absurd (above src beyond) some_held
  · intro src other same there
    rw [found] at same ⊢
    obtain rfl := Option.some.inj same
    rw [Option.some.inj (has.symm.trans there)]

theorem Runtime.reported (r : Runtime) : r.Reported := by
  obtain ⟨ip, whois, arp, rdns, dhcp, hostsFile⟩ := r
  -- The first of the fields that is there, in the order of the switch.
  cases hostsFile with
  | some hosts =>
    refine Reported.of_top .hostsFile rfl ?_ (by cases hosts <;> rfl)
    intro other higher
    cases other <;> simp [Source.priority] at higher
  | none => cases dhcp with
    | some hosts =>
      refine Reported.of_top .dhcp rfl ?_ (by cases hosts <;> rfl)
      intro other higher
      cases other <;> first | rfl | simp [Source.priority] at higher
    | none => cases rdns with
      | some hosts =>
        refine Reported.of_top .rdns rfl ?_ (by cases hosts <;> rfl)
        intro other higher
        cases other <;> first | rfl | simp [Source.priority] at higher
      | none => cases arp with
        | some hosts =>
          refine Reported.of_top .arp rfl ?_ (by cases hosts <;> rfl)
          intro other higher
          cases other <;> first | rfl | simp [Source.priority] at higher
        | none => cases whois with
          | some wi =>
            refine Reported.of_top .whois rfl ?_ rfl
            intro other higher
            cases other <;> first | rfl | simp [Source.priority] at higher
          | none =>
            constructor
            · intro src
              cases src <;> simp [info, held]
            · intro src information reported
              cases reported

/-- `runtimeIndex`. -/
abbrev RuntimeIndex := FiniteMap Addr Runtime

namespace RuntimeIndex

/-- `runtimeIndex.client`. -/
def client (ri : RuntimeIndex) (ip : Addr) : Option Runtime := ri.get ip

/-- `runtimeIndex.add`. -/
def add (ri : RuntimeIndex) (rc : Runtime) : RuntimeIndex := ri.set rc.ip rc

/-- `runtimeIndex.setInfo`, which sets the information in place. -/
def setInfo (ri : RuntimeIndex) (ip : Addr) (cs : Source) (hosts : List String) : RuntimeIndex :=
  match ri.get ip with
  | some rc => ri.set ip (rc.setInfo cs hosts)
  | none => ri.add ((Runtime.new ip).setInfo cs hosts)

/-- `runtimeIndex.clearSource`. -/
def clearSource (ri : RuntimeIndex) (src : Source) : RuntimeIndex :=
  ri.filterMap fun _ rc => some (rc.unset src)

/-- `runtimeIndex.removeEmpty`. -/
def removeEmpty (ri : RuntimeIndex) : RuntimeIndex :=
  ri.filterMap fun _ rc => if rc.isEmpty then none else some rc

def held (ri : RuntimeIndex) (src : Source) (ip : Addr) : Option Information :=
  (ri.client ip).bind (·.held src)

def Addressed (ri : RuntimeIndex) : Prop := ∀ ip rc, ri.client ip = some rc → rc.ip = ip

/-- Every client is under its address and has something from a source. -/
structure Proper (ri : RuntimeIndex) : Prop where
  address : ri.Addressed
  nonempty : ∀ ip rc, ri.client ip = some rc → rc.isEmpty = false

variable {ri : RuntimeIndex}

theorem client_setInfo {ip : Addr} {cs : Source} {hosts : List String}
    (other : Addr) : (ri.setInfo ip cs hosts).client other =
      if other = ip then some (((ri.client ip).getD (Runtime.new ip)).setInfo cs hosts)
      else ri.client other := by
  unfold setInfo client
  cases found : ri.get ip with
  | some rc => simp [FiniteMap.get_set]
  | none => simp [add, FiniteMap.get_set, Runtime.new]

theorem client_clearSource (ri : RuntimeIndex) (src : Source) (ip : Addr) :
    (ri.clearSource src).client ip = (ri.client ip).map (·.unset src) := by
  simp only [clearSource, client, FiniteMap.get_filterMap]
  cases ri.get ip <;> rfl

theorem client_removeEmpty (ri : RuntimeIndex) (ip : Addr) :
    ri.removeEmpty.client ip = (ri.client ip).filter (!·.isEmpty) := by
  simp only [removeEmpty, client, FiniteMap.get_filterMap]
  cases ri.get ip with
  | none => rfl
  | some rc => cases empty : rc.isEmpty <;> simp [empty, Option.filter]

theorem Addressed.setInfo (addressed : ri.Addressed) (ip : Addr) (cs : Source)
    (hosts : List String) : (ri.setInfo ip cs hosts).Addressed := by
  intro other rc found
  rw [client_setInfo] at found
  split at found
  next here =>
    obtain rfl := Option.some.inj found
    cases old : ri.client ip with
    | none => simp [Runtime.new, here]
    | some rc => simp [addressed ip rc old, here]
  next => exact addressed other rc found

theorem Addressed.foldl_setInfo (entries : List (Addr × String)) (addressed : ri.Addressed)
    (cs : Source) :
    (entries.foldl (fun ri entry => ri.setInfo entry.1 cs [entry.2]) ri).Addressed := by
  induction entries generalizing ri with
  | nil => exact addressed
  | cons entry rest ih => exact ih (addressed.setInfo entry.1 cs [entry.2])

theorem Addressed.clearSource (addressed : ri.Addressed) (src : Source) :
    (ri.clearSource src).Addressed := by
  intro ip rc found
  rw [client_clearSource] at found
  obtain ⟨old, there, rfl⟩ := Option.map_eq_some_iff.mp found
  rw [Runtime.ip_unset, addressed ip old there]

theorem Addressed.removeEmpty (addressed : ri.Addressed) :
    ri.removeEmpty.Proper := by
  constructor
  · intro ip rc found
    rw [client_removeEmpty] at found
    exact addressed ip rc (Option.filter_eq_some_iff.mp found).1
  · intro ip rc found
    rw [client_removeEmpty] at found
    simpa using (Option.filter_eq_some_iff.mp found).2

theorem Proper.setInfo (proper : ri.Proper) (ip : Addr) {cs : Source} (named : cs ≠ .whois)
    (hosts : List String) : (ri.setInfo ip cs hosts).Proper := by
  refine ⟨proper.address.setInfo ip cs hosts, ?_⟩
  intro other rc found
  rw [client_setInfo] at found
  split at found
  · obtain rfl := Option.some.inj found
    apply Runtime.not_isEmpty cs
    rw [Runtime.held_setInfo _ named, if_pos rfl]
    simp
  · exact proper.nonempty other rc found

theorem held_setInfo (ri : RuntimeIndex) (ip : Addr) {cs : Source} (named : cs ≠ .whois)
    (hosts : List String) (src : Source) (other : Addr) :
    (ri.setInfo ip cs hosts).held src other =
      if src = cs ∧ other = ip then some (.names (Runtime.present hosts)) else ri.held src other := by
  rw [held, client_setInfo]
  by_cases here : other = ip
  · subst here
    rw [if_pos rfl, Option.bind_some, Runtime.held_setInfo _ named]
    by_cases same : src = cs
    · simp [same]
    · rw [if_neg same, if_neg (fun both => same both.1), held]
      cases ri.client other <;> simp
  · rw [if_neg here, if_neg (fun both => here both.2)]
    rfl

theorem held_clearSource (ri : RuntimeIndex) (cs src : Source) (ip : Addr) :
    (ri.clearSource cs).held src ip = if src = cs then none else ri.held src ip := by
  rw [held, client_clearSource, held]
  cases ri.client ip with
  | none => simp
  | some rc => exact rc.held_unset cs src

theorem held_removeEmpty (ri : RuntimeIndex) (src : Source) (ip : Addr) :
    ri.removeEmpty.held src ip = ri.held src ip := by
  rw [held, client_removeEmpty, held]
  cases ri.client ip with
  | none => rfl
  | some rc =>
    cases empty : rc.isEmpty with
    | false => simp [empty, Option.filter]
    | true => simp [empty, Option.filter, (rc.isEmpty_iff.mp empty) src]

theorem client_ext {ri other : RuntimeIndex} (proper : ri.Proper) (otherProper : other.Proper)
    (same : ∀ src ip, ri.held src ip = other.held src ip) (ip : Addr) :
    ri.client ip = other.client ip := by
  have only : ∀ {ri other : RuntimeIndex}, ri.Proper →
      (∀ src ip, ri.held src ip = other.held src ip) → ∀ {rc}, ri.client ip = some rc →
      other.client ip ≠ none := by
    intro ri other proper same rc found missing
    have empty : rc.isEmpty = true := by
      apply rc.isEmpty_iff.mpr
      intro src
      have agree := same src ip
      rw [held, held, found, missing] at agree
      exact agree
    rw [proper.nonempty ip rc found] at empty
    cases empty
  cases found : ri.client ip with
  | none =>
    cases there : other.client ip with
    | none => rfl
    | some rc => exact absurd found (only otherProper (fun src ip => (same src ip).symm) there)
  | some rc =>
    cases there : other.client ip with
    | none => exact absurd there (only proper same found)
    | some rc' =>
      have fields : ∀ src, rc.held src = rc'.held src := by
        intro src
        have agree := same src ip
        rwa [held, held, found, there] at agree
      rw [Runtime.ext_held ((proper.address ip rc found).trans (otherProper.address ip rc' there).symm) fields]

end RuntimeIndex

/-- `Storage`, as far as runtime clients go. `persistent` is `Storage.index`. -/
structure RuntimeStorage where
  persistent : Index
  runtimeIndex : RuntimeIndex
  runtimeSourceDHCP : Bool

/-- What a source tells the storage. -/
inductive Update where
  /-- The neighbours after the ARP container was refreshed. -/
  | arp (ns : List (Addr × String))
  /-- The records of the hosts files in the order of `RangeNames`, each with a name or more. -/
  | hostsFile (hosts : List (Addr × String × List String))
  | dhcp (leases : List (Addr × String))
  /-- The results of the rDNS and WHOIS lookups of an address. -/
  | address (ip : Addr) (host : String) (info : Option Whois.Info)
  /-- `ClientRuntime`, with the name that the DHCP server has for the address. -/
  | clientRuntime (ip : Addr) (host : String)

/-- An update, or any change of the persistent clients. -/
inductive RuntimeEvent where
  | update (u : Update)
  | persistent (index : Index)

namespace RuntimeStorage

def new (runtimeSourceDHCP : Bool) : RuntimeStorage := ⟨.new, ∅, runtimeSourceDHCP⟩

/-- What the reloads share: a source is cleared, filled again and pruned. -/
def reload (s : RuntimeStorage) (src : Source) (entries : List (Addr × String)) : RuntimeStorage :=
  let cleared := s.runtimeIndex.clearSource src
  let filled := entries.foldl (fun ri entry => ri.setInfo entry.1 src [entry.2]) cleared
  { s with runtimeIndex := filled.removeEmpty }

/-- `Storage.addFromSystemARP`; an empty update is ignored. -/
def addFromSystemARP (s : RuntimeStorage) (ns : List (Addr × String)) : RuntimeStorage :=
  if ns.length = 0 then s else s.reload .arp ns

/-- `Storage.addFromHostsFile`: the first name of a record is the canonical one. -/
def addFromHostsFile (s : RuntimeStorage) (hosts : List (Addr × String × List String)) :
    RuntimeStorage :=
  s.reload .hostsFile (hosts.map fun record => (record.1, record.2.1))

/-- `Storage.UpdateDHCP`. -/
def updateDHCP (s : RuntimeStorage) (leases : List (Addr × String)) : RuntimeStorage :=
  if s.runtimeSourceDHCP then s.reload .dhcp leases else s

/-- `Storage.setWHOISInfo`. -/
def setWHOISInfo (s : RuntimeStorage) (ip : Addr) (wi : Whois.Info) : RuntimeStorage :=
  match s.persistent.findByIP ip with
  | some _ => s
  | none =>
    let rc := (s.runtimeIndex.client ip).getD (.new ip)
    { s with runtimeIndex := s.runtimeIndex.set ip (rc.setWHOIS wi) }

/-- `Storage.UpdateAddress`. -/
def updateAddress (s : RuntimeStorage) (ip : Addr) (host : String) (info : Option Whois.Info) :
    RuntimeStorage :=
  let named := if host ≠ "" then
    { s with runtimeIndex := s.runtimeIndex.setInfo ip .rdns [host] } else s
  match info with
  | some wi => named.setWHOISInfo ip wi
  | none => named

/-- `Storage.ClientRuntime`, with the storage that it leaves. -/
def clientRuntime (s : RuntimeStorage) (ip : Addr) (host : String) :
    RuntimeStorage × Option Runtime :=
  let rc := s.runtimeIndex.client ip
  if !s.runtimeSourceDHCP then (s, rc)
  else if (rc.bind (·.hostsFile)).isSome then (s, rc)
  else if host = "" then (s, rc)
  else
    let runtimeIndex := s.runtimeIndex.setInfo ip .dhcp [host]
    ({ s with runtimeIndex }, runtimeIndex.client ip)

def apply (s : RuntimeStorage) : Update → RuntimeStorage
  | .arp ns => s.addFromSystemARP ns
  | .hostsFile hosts => s.addFromHostsFile hosts
  | .dhcp leases => s.updateDHCP leases
  | .address ip host info => s.updateAddress ip host info
  | .clientRuntime ip host => (s.clientRuntime ip host).1

def machine : Transition.Machine RuntimeStorage RuntimeEvent (Option Runtime) where
  step s
    | .update (.clientRuntime ip host) => s.clientRuntime ip host
    | .update u => (s.apply u, none)
    | .persistent index => ({ s with persistent := index }, none)

variable (s : RuntimeStorage)

theorem next_update (u : Update) :
    machine.next s (.update u) = s.apply u := by
  cases u <;> rfl

def lastOf : List (Addr × String) → Addr → Option String
  | [], _ => none
  | entry :: rest, ip => (lastOf rest ip).or (if entry.1 = ip then some entry.2 else none)

/-- The information in one name, which is empty if the name is. -/
def nameInfo (host : String) : Information := .names (Runtime.present [host])

/-- What an update says of an address as a source: nothing, or the information that there now is
(`some none` takes the old one away). -/
def tells (s : RuntimeStorage) (src : Source) (ip : Addr) : Update → Option (Option Information)
  | .arp ns =>
    if src = .arp ∧ ns ≠ [] then some ((lastOf ns ip).map nameInfo) else none
  | .hostsFile hosts =>
    if src = .hostsFile then
      some ((lastOf (hosts.map fun record => (record.1, record.2.1)) ip).map nameInfo)
    else none
  | .dhcp leases =>
    if src = .dhcp ∧ s.runtimeSourceDHCP then some ((lastOf leases ip).map nameInfo) else none
  | .address addr host info =>
    if src = .rdns ∧ ip = addr ∧ host ≠ "" then some (some (nameInfo host))
    else if src = .whois ∧ ip = addr ∧ s.persistent.findByIP ip = none then
      info.map (some <| .whois ·)
    else none
  | .clientRuntime addr host =>
    if src = .dhcp ∧ ip = addr ∧ s.runtimeSourceDHCP ∧ host ≠ "" ∧
        s.runtimeIndex.held .hostsFile ip = none then some (some (nameInfo host))
    else none

theorem held_foldl_setInfo (entries : List (Addr × String)) (ri : RuntimeIndex) {cs : Source}
    (named : cs ≠ .whois) (src : Source) (ip : Addr) :
    (entries.foldl (fun ri entry => ri.setInfo entry.1 cs [entry.2]) ri).held src ip =
      if src = cs then ((lastOf entries ip).map nameInfo).or (ri.held src ip)
      else ri.held src ip := by
  induction entries generalizing ri with
  | nil => simp [lastOf]
  | cons entry rest ih =>
    rw [List.foldl_cons, ih, RuntimeIndex.held_setInfo _ _ named, lastOf]
    by_cases same : src = cs
    · by_cases here : entry.1 = ip
      · cases lastOf rest ip <;> simp [same, here, nameInfo]
      · cases lastOf rest ip <;> simp [same, here, Ne.symm here]
    · simp [same]

/-- A reload replaces what its source has, and touches no other source. -/
theorem held_reload {cs : Source} (named : cs ≠ .whois)
    (entries : List (Addr × String)) (src : Source) (ip : Addr) :
    (s.reload cs entries).runtimeIndex.held src ip =
      if src = cs then (lastOf entries ip).map nameInfo else s.runtimeIndex.held src ip := by
  rw [reload, RuntimeIndex.held_removeEmpty, held_foldl_setInfo _ _ named,
    RuntimeIndex.held_clearSource]
  by_cases same : src = cs <;> simp [same]

theorem held_setWHOISInfo (ip : Addr) (wi : Whois.Info) (src : Source)
    (other : Addr) : (s.setWHOISInfo ip wi).runtimeIndex.held src other =
      if src = .whois ∧ other = ip ∧ s.persistent.findByIP other = none then some (.whois wi)
      else s.runtimeIndex.held src other := by
  unfold setWHOISInfo
  cases owned : s.persistent.findByIP ip with
  | some client =>
    dsimp only
    rw [if_neg]
    rintro ⟨-, rfl, free⟩
    rw [owned] at free
    cases free
  | none =>
    simp only [RuntimeIndex.held, RuntimeIndex.client, FiniteMap.get_set]
    by_cases here : other = ip
    · subst here
      rw [if_pos rfl, Option.bind_some, Runtime.held_setWHOIS]
      by_cases same : src = .whois
      · simp [same, owned]
      · cases s.runtimeIndex.get other <;> simp [same]
    · simp [here]

theorem held_updateAddress (addr : Addr) (host : String)
    (info : Option Whois.Info) (src : Source) (ip : Addr) :
    (s.updateAddress addr host info).runtimeIndex.held src ip =
      (s.tells src ip (.address addr host info)).getD (s.runtimeIndex.held src ip) := by
  have rdns : (if host ≠ "" then
      { s with runtimeIndex := s.runtimeIndex.setInfo addr .rdns [host] } else s).runtimeIndex.held
        src ip = if src = .rdns ∧ ip = addr ∧ host ≠ "" then some (nameInfo host)
          else s.runtimeIndex.held src ip := by
    by_cases unnamed : host = ""
    · simp [unnamed]
    · rw [if_pos unnamed, RuntimeIndex.held_setInfo _ _ (by decide)]
      simp [unnamed, nameInfo]
  have same_persistent : (if host ≠ "" then
      { s with runtimeIndex := s.runtimeIndex.setInfo addr .rdns [host] } else s).persistent =
        s.persistent := by
    split <;> rfl
  unfold updateAddress tells
  cases info with
  | none =>
    dsimp only
    rw [rdns]
    split <;> simp
  | some wi =>
    dsimp only
    rw [held_setWHOISInfo, rdns, same_persistent]
    by_cases whois : src = .whois
    · subst whois
      simp only [true_and, reduceCtorEq, false_and, if_false]
      split <;> rfl
    · simp only [whois, false_and, if_false]
      split <;> rfl

theorem held_clientRuntime (addr : Addr) (host : String) (src : Source)
    (ip : Addr) : (s.clientRuntime addr host).1.runtimeIndex.held src ip =
      (s.tells src ip (.clientRuntime addr host)).getD (s.runtimeIndex.held src ip) := by
  have hosts : ((s.runtimeIndex.client addr).bind (·.hostsFile)).isSome =
      (s.runtimeIndex.held .hostsFile addr).isSome := by
    rw [RuntimeIndex.held]
    cases s.runtimeIndex.client addr with
    | none => rfl
    | some rc => simp [Runtime.held]
  rw [clientRuntime, tells, hosts]
  cases s.runtimeSourceDHCP with
  | false => simp
  | true =>
    by_cases unnamed : host = ""
    · simp [unnamed]
    · cases there : s.runtimeIndex.held .hostsFile addr with
      | some information =>
        have silent : ¬ (ip = addr ∧ s.runtimeIndex.held .hostsFile ip = none) := by
          rintro ⟨rfl, free⟩
          rw [there] at free
          cases free
        have quiet : ¬ (src = .dhcp ∧ ip = addr ∧ true = true ∧ host ≠ "" ∧
            s.runtimeIndex.held .hostsFile ip = none) :=
          fun told => silent ⟨told.2.1, told.2.2.2.2⟩
        rw [if_neg quiet]
        rfl
      | none =>
        simp only [Bool.not_true, Bool.false_eq_true, if_false, Option.isSome_none, unnamed]
        rw [RuntimeIndex.held_setInfo _ _ (by decide)]
        by_cases here : ip = addr
        · subst here
          by_cases same : src = .dhcp <;> simp [same, there, unnamed, nameInfo]
        · simp [here]

theorem held_apply (u : Update) (src : Source) (ip : Addr) :
    (s.apply u).runtimeIndex.held src ip =
      (s.tells src ip u).getD (s.runtimeIndex.held src ip) := by
  cases u with
  | arp ns =>
    cases ns with
    | nil => simp [apply, addFromSystemARP, tells]
    | cons entry rest =>
      rw [apply, addFromSystemARP, if_neg (by simp), held_reload _ (by decide), tells]
      by_cases same : src = .arp <;> simp [same]
  | hostsFile hosts =>
    rw [apply, addFromHostsFile, held_reload _ (by decide), tells]
    by_cases same : src = .hostsFile <;> simp [same]
  | dhcp leases =>
    rw [apply, updateDHCP, tells]
    cases s.runtimeSourceDHCP with
    | false => simp
    | true =>
      rw [if_pos rfl, held_reload _ (by decide)]
      by_cases same : src = .dhcp <;> simp [same]
  | address addr host info => exact held_updateAddress s addr host info src ip
  | clientRuntime addr host => exact held_clientRuntime s addr host src ip

theorem persistent_apply (u : Update) :
    (s.apply u).persistent = s.persistent ∧
      (s.apply u).runtimeSourceDHCP = s.runtimeSourceDHCP := by
  cases u with
  | arp ns =>
    rw [apply, addFromSystemARP]
    split <;> exact ⟨rfl, rfl⟩
  | hostsFile hosts => exact ⟨rfl, rfl⟩
  | dhcp leases =>
    rw [apply, updateDHCP]
    split <;> exact ⟨rfl, rfl⟩
  | address addr host info =>
    have whois : ∀ (s : RuntimeStorage) (wi : Whois.Info),
        (s.setWHOISInfo addr wi).persistent = s.persistent ∧
          (s.setWHOISInfo addr wi).runtimeSourceDHCP = s.runtimeSourceDHCP := by
      intro s wi
      unfold setWHOISInfo
      split <;> exact ⟨rfl, rfl⟩
    unfold apply updateAddress
    cases info <;> by_cases unnamed : host = "" <;> simp [unnamed, whois]
  | clientRuntime addr host =>
    simp only [apply, clientRuntime]
    split_ifs <;> exact ⟨rfl, rfl⟩

variable {s : RuntimeStorage}

theorem proper_reload (proper : s.runtimeIndex.Proper) (cs : Source)
    (entries : List (Addr × String)) : (s.reload cs entries).runtimeIndex.Proper :=
  ((proper.address.clearSource cs).foldl_setInfo entries cs).removeEmpty

theorem proper_setWHOISInfo (proper : s.runtimeIndex.Proper) (ip : Addr)
    (wi : Whois.Info) : (s.setWHOISInfo ip wi).runtimeIndex.Proper := by
  unfold setWHOISInfo
  cases s.persistent.findByIP ip with
  | some client => exact proper
  | none =>
    constructor
    · intro other rc found
      obtain ⟨rfl, rfl⟩ | ⟨-, old⟩ := FiniteMap.of_get_set found
      · cases old : s.runtimeIndex.client other with
        | none => rfl
        | some rc => exact proper.address other rc old
      · exact proper.address other rc old
    · intro other rc found
      obtain ⟨rfl, rfl⟩ | ⟨-, old⟩ := FiniteMap.of_get_set found
      · rfl
      · exact proper.nonempty other rc old

theorem proper_apply (proper : s.runtimeIndex.Proper) (u : Update) :
    (s.apply u).runtimeIndex.Proper := by
  cases u with
  | arp ns =>
    rw [apply, addFromSystemARP]
    split
    · exact proper
    · exact proper_reload proper .arp ns
  | hostsFile hosts => exact proper_reload proper .hostsFile _
  | dhcp leases =>
    rw [apply, updateDHCP]
    split
    · exact proper_reload proper .dhcp leases
    · exact proper
  | address addr host info =>
    have named : (if host ≠ "" then { s with
        runtimeIndex := s.runtimeIndex.setInfo addr .rdns [host] } else s).runtimeIndex.Proper := by
      split
      · exact proper.setInfo addr (by decide) [host]
      · exact proper
    unfold apply updateAddress
    cases info with
    | none => exact named
    | some wi => exact proper_setWHOISInfo named addr wi
  | clientRuntime addr host =>
    simp only [apply, clientRuntime]
    split_ifs
    · exact proper
    · exact proper
    · exact proper
    · exact proper.setInfo addr (by decide) [host]

/-- What the last of the updates in a run that tells something tells. -/
def lastTold (src : Source) (ip : Addr) : RuntimeStorage → List RuntimeEvent →
    Option (Option Information)
  | _, [] => none
  | s, .update u :: rest => (lastTold src ip (s.apply u) rest).or (s.tells src ip u)
  | s, .persistent index :: rest => lastTold src ip { s with persistent := index } rest

theorem held_run (events : List RuntimeEvent) (s : RuntimeStorage) (src : Source) (ip : Addr) :
    (machine.run s events).runtimeIndex.held src ip =
      (s.lastTold src ip events).getD (s.runtimeIndex.held src ip) := by
  induction events generalizing s with
  | nil => rfl
  | cons event rest ih =>
    rw [Transition.Machine.run_cons, ih]
    cases event with
    | persistent index => rfl
    | update u =>
      rw [next_update, held_apply, lastTold]
      cases lastTold src ip (s.apply u) rest <;> rfl

theorem proper_new (runtimeSourceDHCP : Bool) : (new runtimeSourceDHCP).runtimeIndex.Proper :=
  ⟨fun _ _ found => (nomatch found), fun _ _ found => (nomatch found)⟩

theorem proper_run (events : List RuntimeEvent)
    (proper : s.runtimeIndex.Proper) : (machine.run s events).runtimeIndex.Proper := by
  induction events generalizing s with
  | nil => exact proper
  | cons event rest ih =>
    apply ih
    cases event with
    | persistent index => exact proper
    | update u =>
      rw [next_update]
      exact proper_apply proper u

structure SameView (s t : RuntimeStorage) : Prop where
  persistent : s.persistent = t.persistent
  config : s.runtimeSourceDHCP = t.runtimeSourceDHCP
  held : ∀ src ip, s.runtimeIndex.held src ip = t.runtimeIndex.held src ip

theorem SameView.apply {s t : RuntimeStorage} (same : s.SameView t) (u : Update) :
    (s.apply u).SameView (t.apply u) := by
  have tells : ∀ src ip, s.tells src ip u = t.tells src ip u := by
    intro src ip
    cases u <;> simp only [RuntimeStorage.tells, same.persistent, same.config, same.held]
  constructor
  · rw [(persistent_apply s u).1, (persistent_apply t u).1, same.persistent]
  · rw [(persistent_apply s u).2, (persistent_apply t u).2, same.config]
  · intro src ip
    rw [held_apply, held_apply, tells, same.held]

theorem SameView.run {s t : RuntimeStorage} (same : s.SameView t) (events : List RuntimeEvent) :
    (machine.run s events).SameView (machine.run t events) := by
  induction events generalizing s t with
  | nil => exact same
  | cons event rest ih =>
    apply ih
    cases event with
    | persistent index => exact ⟨rfl, same.config, same.held⟩
    | update u =>
      rw [next_update, next_update]
      exact same.apply u

/-- The sources that an update comes from; a read is one from the DHCP server. -/
def sources : Update → List Source
  | .arp _ => [.arp]
  | .hostsFile _ => [.hostsFile]
  | .dhcp _ => [.dhcp]
  | .address _ host info =>
    (if host ≠ "" then [.rdns] else []) ++ (if info.isSome then [.whois] else [])
  | .clientRuntime _ _ => [.dhcp]

theorem mem_sources {src : Source} {ip : Addr} {u : Update}
    (told : s.tells src ip u ≠ none) : src ∈ sources u := by
  cases u with
  | arp ns =>
    by_contra other
    exact told (if_neg fun both => other (by simp [sources, both.1]))
  | hostsFile hosts =>
    by_contra other
    exact told (if_neg fun same => other (by simp [sources, same]))
  | dhcp leases =>
    by_contra other
    exact told (if_neg fun both => other (by simp [sources, both.1]))
  | clientRuntime addr host =>
    by_contra other
    exact told (if_neg fun all => other (by simp [sources, all.1]))
  | address addr host info =>
    rw [tells] at told
    split at told
    next rdns => simp [sources, rdns.1, rdns.2.2]
    next =>
      split at told
      next whois =>
        cases info with
        | none => exact absurd rfl told
        | some wi => simp [sources, whois.1]
      next => exact absurd rfl told

/-- A read and an update from the hosts files do not get in each other's way: the address read is
in the old records and in the new ones, or in none of them. -/
def HostsKept (s : RuntimeStorage) : Update → Update → Prop
  | .hostsFile hosts, .clientRuntime ip _ => (s.runtimeIndex.held .hostsFile ip).isSome =
      (lastOf (hosts.map fun record => (record.1, record.2.1)) ip).isSome
  | _, _ => True

structure Independent (s : RuntimeStorage) (u v : Update) : Prop where
  sources : ∀ src ∈ sources u, src ∉ sources v
  before : s.HostsKept u v
  after : s.HostsKept v u

theorem tells_apply {u v : Update} (kept : s.HostsKept u v) (src : Source)
    (ip : Addr) : (s.apply u).tells src ip v = s.tells src ip v := by
  obtain ⟨persistent, config⟩ := persistent_apply s u
  cases v with
  | arp ns => rfl
  | hostsFile hosts => rfl
  | dhcp leases => simp only [tells, config]
  | address addr host info => simp only [tells, persistent]
  | clientRuntime addr host =>
    have hosts : ip = addr → ((s.apply u).runtimeIndex.held .hostsFile ip = none ↔
        s.runtimeIndex.held .hostsFile ip = none) := by
      rintro rfl
      rw [held_apply]
      cases u with
      | hostsFile hosts =>
        have there : (s.runtimeIndex.held .hostsFile ip).isSome = _ := kept
        simp only [tells, if_true, Option.getD_some, Option.map_eq_none_iff]
        rw [← Option.not_isSome_iff_eq_none, ← Option.not_isSome_iff_eq_none, there]
      | arp ns => simp [tells]
      | dhcp leases => simp [tells]
      | address addr name info => simp [tells]
      | clientRuntime addr name => simp [tells]
    simp only [tells, config]
    by_cases here : ip = addr
    · simp only [hosts here]
    · simp [here]

theorem swap_sameView {u v : Update} (independent : s.Independent u v) :
    ((s.apply u).apply v).SameView ((s.apply v).apply u) := by
  obtain ⟨sources, before, after⟩ := independent
  constructor
  · simp only [(persistent_apply _ _).1]
  · simp only [(persistent_apply _ _).2]
  · intro src ip
    rw [held_apply, held_apply, held_apply, held_apply, tells_apply before, tells_apply after]
    cases first : s.tells src ip u with
    | none => rfl
    | some told =>
      have told_u : s.tells src ip u ≠ none := by simp [first]
      have from_u := mem_sources told_u
      have silent : s.tells src ip v = none := by
        by_contra loud
        exact sources src from_u (mem_sources loud)
      rw [silent]
      rfl

/-- A WHOIS result for the address of a persistent client is not kept, and whether a read keeps the
name from the DHCP server depends on the hosts files before it. -/
theorem sources_not_independent :
    (machine.run (new true)
      [.persistent { Index.new with
        ipToUID := (∅ : FiniteMap Addr UID).set (.v4 1) 1
        uidToClient := (∅ : FiniteMap UID Persistent).set 1
          ⟨"router", [], [], [.v4 1], [], [], [], 1, 0, false, false, false⟩ },
        .update (.address (.v4 1) "" (some .empty))]).runtimeIndex.held .whois (.v4 1) = none ∧
    (machine.run (new true)
      [.update (.clientRuntime (.v4 1) "router"),
        .update (.hostsFile [(.v4 1, "gateway", [])])]).runtimeIndex.client (.v4 1) ≠
      (machine.run (new true)
        [.update (.hostsFile [(.v4 1, "gateway", [])]),
          .update (.clientRuntime (.v4 1) "router")]).runtimeIndex.client (.v4 1) := by
  decide

/-- What a runtime client has from a source is what the last update from that source told; updates
from different sources may change places; and every client that is stored has information, of
which `Info` reports that of the highest priority. -/
theorem runtime_sources (runtimeSourceDHCP : Bool) (events : List RuntimeEvent) :
    let start := new runtimeSourceDHCP
    let s := machine.run start events
    (∀ src ip, s.runtimeIndex.held src ip = (start.lastTold src ip events).getD none) ∧
    (∀ u v rest, s.Independent u v → ∀ ip,
      (machine.run start (events ++ .update u :: .update v :: rest)).runtimeIndex.client ip =
        (machine.run start (events ++ .update v :: .update u :: rest)).runtimeIndex.client ip) ∧
    ∀ ip rc, s.runtimeIndex.client ip = some rc → rc.isEmpty = false ∧ rc.Reported := by
  intro start s
  refine ⟨fun src ip => held_run events start src ip, ?_, ?_⟩
  · intro u v rest independent ip
    have proper : ∀ events, (machine.run start events).runtimeIndex.Proper :=
      fun events => proper_run events (proper_new runtimeSourceDHCP)
    apply RuntimeIndex.client_ext (proper _) (proper _)
    intro src ip
    rw [Transition.Machine.run_append, Transition.Machine.run_append]
    simp only [Transition.Machine.run_cons, next_update]
    exact ((swap_sameView independent).run rest).held src ip
  · intro ip rc found
    exact ⟨(proper_run events (proper_new runtimeSourceDHCP)).nonempty ip rc found, rc.reported⟩

end RuntimeStorage

end AdGuardHome.Client
