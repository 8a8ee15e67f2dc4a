import Mathlib.Data.List.Find
import AdGuardHome.Home.ClientsHTTP
import AdGuardHome.Strings

/-! `stats.go` of package `dnsforward`: recording a query in the log and the statistics. -/
namespace AdGuardHome.Dnsforward

open Netip Strings Client Home

/-- The query log: whether it is enabled, and its ignored hosts. -/
structure LogConf where
  enabled : Bool
  ignored : Bytes → Bool

structure StatsConf where
  enabled : Bool
  limit : Int
  ignored : Bytes → Bool

/-- The parts of `Server` that recording reads; the log or the statistics may be missing.  The
function `ipString` is the method of `net.IP`, on the bytes of an address without its zone. -/
structure Recorder where
  refuseAny : Bool
  queryLog : Option LogConf
  stats : Option StatsConf
  anonymizes : Bool
  clients : ClientsContainer
  parsers : Parsers
  ipString : Addr → String

/-- The parts of `dnsContext` that recording reads. -/
structure RecordedQuery where
  clientID : String
  addr : Addr
  name : Bytes
  isAny : Bool

/-- `NormalizeDomain`, for the ASCII names of questions. -/
def normalizeDomain (host : Bytes) : Bytes :=
  if host = lit "." then host else toLowerASCII (trimSuffix host (lit "."))

/-- `AnonymizeIP`: the last two bytes of an IPv4 address, mapped or not, and the last ten of any
other are cleared. -/
def anonymizeIP : Addr → Addr
  | .v4 value => .v4 (value >>> 16 <<< 16)
  | .v6 value zone =>
    if (Addr.v6 value zone).is4In6 then .v6 (value >>> 16 <<< 16) zone
    else .v6 (value >>> 80 <<< 80) zone
  | .zero => .zero

namespace Recorder

variable (s : Recorder) (q : RecordedQuery)

/-- The address that is recorded: `AsSlice` drops the zone. -/
def recordedIP : Addr :=
  if s.anonymizes then anonymizeIP (q.addr.withZone "") else q.addr.withZone ""

def ipStr : String := s.ipString (s.recordedIP q)

def ids : List String := if q.clientID ≠ "" then [q.clientID, s.ipStr q] else [s.ipStr q]

/-- `shouldLog`, with `ShouldLog` of the query log. -/
def shouldLog : Bool :=
  if q.isAny && s.refuseAny then false
  else
    match s.queryLog with
    | none => false
    | some l =>
      match s.clients.findMultiple s.parsers (s.ids q) with
      | some ⟨true⟩ => false
      | _ => !l.ignored (normalizeDomain q.name)

/-- Whether `Add` of the query log takes the entry. -/
def takesEntry : Bool :=
  match s.queryLog with
  | none => false
  | some l => l.enabled && decide (q.name ≠ []) && decide (q.addr ≠ .zero)

/-- `shouldCountStat`, with `ShouldCount` of the statistics. -/
def shouldCountStat : Bool :=
  match s.stats with
  | none => false
  | some st =>
    if !s.clients.shouldCountClient s.parsers (s.ids q) then false
    else !st.ignored (normalizeDomain q.name)

/-- Whether `Update` of the statistics counts the entry. -/
def takesCount : Bool :=
  match s.stats with
  | none => false
  | some st => st.enabled && decide (st.limit ≠ 0) && decide (normalizeDomain q.name ≠ []) &&
      (decide (q.clientID ≠ "") || decide (s.ipStr q ≠ ""))

/-- `processQueryLogsAndStats`: whether the query is added to the log, and whether it is counted. -/
def processQueryLogsAndStats : Bool × Bool :=
  (s.shouldLog q && s.takesEntry q, s.shouldCountStat q && s.takesCount q)

end Recorder

/-- The log finds the client that ignores it: by the first identifier that says anything. -/
def Found (clients : ClientsContainer) (parsers : Parsers) : List String → Prop
  | [] => False
  | id :: ids =>
    match clients.findLoose parsers ((parsers.parseAddr id).getD .zero) id with
    | some c => c.ignoreQueryLog = true
    | none =>
      clients.clientRuntime ((parsers.parseAddr id).getD .zero) = false ∧ Found clients parsers ids

def FoundByParams (clients : ClientsContainer) (parsers : Parsers) : List String → Prop
  | [] => False
  | id :: ids =>
    match (FindParams.set parsers id).bind (clients.storage.find clients.dhcp) with
    | some c => c.ignoreStatistics = true
    | none => FoundByParams clients parsers ids

namespace Recorder

variable (s : Recorder) (q : RecordedQuery)

/-- The log has no entries of such queries, whoever sends them. -/
def NeverLogged : Prop :=
  (q.isAny = true ∧ s.refuseAny = true) ∨ s.takesEntry q = false ∨
    ∃ l, s.queryLog = some l ∧ l.ignored (normalizeDomain q.name) = true

/-- The statistics do not count such queries, whoever sends them. -/
def NeverCounted : Prop :=
  s.takesCount q = false ∨ ∃ st, s.stats = some st ∧ st.ignored (normalizeDomain q.name) = true

end Recorder

variable {s : Recorder} {q : RecordedQuery}

theorem findMultipleFrom_eq_iff (clients : ClientsContainer) (parsers : Parsers)
    (ids : List String) (artClient : Option QuerylogClient) (art : artClient ≠ some ⟨true⟩) :
    clients.findMultipleFrom parsers artClient ids = some ⟨true⟩ ↔ Found clients parsers ids := by
  induction ids generalizing artClient with
  | nil => exact iff_of_false art id
  | cons id ids ih =>
    unfold ClientsContainer.findMultipleFrom ClientsContainer.clientOrArtificial Found
    cases clients.findLoose parsers ((parsers.parseAddr id).getD .zero) id with
    | some c => simp
    | none =>
      by_cases runtime : clients.clientRuntime ((parsers.parseAddr id).getD .zero) = true
      · simp [runtime]
      · have other : some (⟨false⟩ : QuerylogClient) ≠ some ⟨true⟩ := by decide
        simp [runtime, ih _ other]

theorem shouldCountClient_eq_false_iff (clients : ClientsContainer) (parsers : Parsers)
    (ids : List String) :
    clients.shouldCountClient parsers ids = false ↔ FoundByParams clients parsers ids := by
  induction ids with
  | nil => simp [ClientsContainer.shouldCountClient, FoundByParams]
  | cons id ids ih =>
    unfold ClientsContainer.shouldCountClient FoundByParams
    cases FindParams.set parsers id with
    | none => exact ih
    | some params =>
      dsimp only [Option.bind_some]
      cases clients.storage.find clients.dhcp params with
      | none => exact ih
      | some c => simp

theorem not_logged_iff :
    (s.processQueryLogsAndStats q).1 = false ↔
      s.NeverLogged q ∨ Found s.clients s.parsers (s.ids q) := by
  have finds := findMultipleFrom_eq_iff s.clients s.parsers (s.ids q) none nofun
  unfold Recorder.processQueryLogsAndStats Recorder.NeverLogged Recorder.shouldLog
  rw [← finds, ← ClientsContainer.findMultiple]
  by_cases refused : (q.isAny && s.refuseAny) = true
  · have both : q.isAny = true ∧ s.refuseAny = true := by simpa using refused
    simp [both]
  · have notBoth : ¬ (q.isAny = true ∧ s.refuseAny = true) := by simpa using refused
    cases log : s.queryLog with
    | none => simp [Recorder.takesEntry, log]
    | some l =>
      simp only [if_neg refused, notBoth, false_or]
      by_cases ignores : s.clients.findMultiple s.parsers (s.ids q) = some ⟨true⟩
      · simp [ignores]
      · split
        next same => exact absurd same ignores
        next =>
          cases s.takesEntry q <;> cases ignored : l.ignored (normalizeDomain q.name) <;>
            simp [ignored, ignores]

theorem not_counted_iff :
    (s.processQueryLogsAndStats q).2 = false ↔
      s.NeverCounted q ∨ FoundByParams s.clients s.parsers (s.ids q) := by
  unfold Recorder.processQueryLogsAndStats Recorder.NeverCounted Recorder.shouldCountStat
  rw [← shouldCountClient_eq_false_iff]
  cases stats : s.stats with
  | none => simp [Recorder.takesCount, stats]
  | some st =>
    by_cases counts : s.clients.shouldCountClient s.parsers (s.ids q) = true
    · cases s.takesCount q <;> cases ignored : st.ignored (normalizeDomain q.name) <;>
        simp [counts, ignored]
    · simp [counts]

section Identifiers

variable (clients : ClientsContainer) (parsers : Parsers)

/-- Nothing that is stored tells the addresses apart, and no lease does. -/
structure Alike (r a : Addr) : Prop where
  address : clients.storage.index.ipToUID.get r = clients.storage.index.ipToUID.get a
  subnets : ∀ entry ∈ clients.storage.index.subnetToUID.entries,
    entry.1.contains (r.withZone "") = entry.1.contains (a.withZone "")
  lease : clients.dhcp.macByIP r = clients.dhcp.macByIP a

/-- The address is stored with its zone, and without one it is stored for nobody else. -/
structure StoredWithZone (r a : Addr) : Prop where
  zoneless : a.withZone "" = r
  valid : r ≠ .zero
  stored :
    (clients.storage.index.clientOf (clients.storage.index.ipToUID.get a)).isSome = true
  address : clients.storage.index.ipToUID.get r = none
  subnets : ∀ entry ∈ clients.storage.index.subnetToUID.entries,
    entry.1.contains (r.withZone "") = false
  lease : clients.dhcp.macByIP r = none
  owner : ∀ other ∈ AList.keys clients.storage.index.ipToUID, other.withZone "" = r →
    clients.storage.index.ipToUID.get other = clients.storage.index.ipToUID.get a

/-- Nobody has the MAC address that the text reads as, if it does. -/
def NoMAC (text : String) : Prop :=
  ∀ mac, parsers.parseMAC text = some mac → clients.storage.index.findByMAC mac = none

/-- A ClientID of no client that reads as no address either. -/
structure Nobodys (id : String) : Prop where
  clientID : clients.storage.index.findByClientID id = none
  notAddr : parsers.parseAddr id = none
  mac : NoMAC clients parsers id
  subnet : ∀ subnet, parsers.parsePrefix id = some subnet →
    clients.storage.index.findByCIDR subnet = none
  zeroLease : clients.dhcp.macByIP .zero = none

end Identifiers

namespace Recorder

variable (s : Recorder) (q : RecordedQuery)

/-- The text of the recorded address reads as an address, and as nobody's ClientID. -/
structure Reads (r : Addr) : Prop where
  addr : s.parsers.parseAddr (s.ipStr q) = some r
  clientID : s.clients.storage.index.findByClientID (s.ipStr q) = none

/-- The query has no ClientID, or one that leads to nobody. -/
def Anonymous : Prop :=
  s.clients.storage.index.findByClientID q.clientID = none ∧
    (q.clientID ≠ "" → Nobodys s.clients s.parsers q.clientID)

/-- How the log finds the client whose settings apply. -/
inductive LogAgrees : Prop where
  | byClientID (sent : q.clientID ≠ "")
      (known : (s.clients.storage.index.findByClientID q.clientID).isSome = true)
  | byAddress (anonymous : s.Anonymous q) (runtime : s.clients.clientRuntime .zero = false)
      (r : Addr) (reads : s.Reads q r) (alike : Alike s.clients r q.addr)
      (mac : (s.clients.storage.index.findByIP q.addr).isSome = true ∨
        NoMAC s.clients s.parsers (s.ipStr q))
  | byZone (anonymous : s.Anonymous q) (runtime : s.clients.clientRuntime .zero = false)
      (r : Addr) (reads : s.Reads q r) (zone : StoredWithZone s.clients r q.addr)
      (mac : NoMAC s.clients s.parsers (s.ipStr q))

/-- How the statistics find the client whose settings apply. -/
inductive StatsAgree : Prop where
  | byClientID (sent : q.clientID ≠ "")
      (known : (s.clients.storage.index.findByClientID q.clientID).isSome = true)
      (notAddr : s.parsers.parseAddr q.clientID = none)
      (notMAC : s.parsers.parseMAC q.clientID = none)
      (notPrefix : s.parsers.parsePrefix q.clientID = none)
      (valid : s.parsers.isValidClientID q.clientID = true)
  | byAddress (anonymous : s.Anonymous q) (r : Addr)
      (addr : s.parsers.parseAddr (s.ipStr q) = some r) (alike : Alike s.clients r q.addr)

def Applied : Option Persistent :=
  s.clients.storage.clientForFiltering s.clients.dhcp q.clientID q.addr

/-- The queries of the client whose settings apply leave no trace where it says so. -/
def Untraced : Prop :=
  ∀ c, s.Applied q = some c →
    (c.ignoreQueryLog = true → (s.processQueryLogsAndStats q).1 = false) ∧
    (c.ignoreStatistics = true → (s.processQueryLogsAndStats q).2 = false)

/-- What is recorded identifies the client whose settings apply, where it says so. -/
def Agrees : Prop :=
  ∀ c, s.Applied q = some c →
    (c.ignoreQueryLog = true → s.NeverLogged q ∨ s.LogAgrees q) ∧
    (c.ignoreStatistics = true → s.NeverCounted q ∨ s.StatsAgree q)

/-- What is recorded identifies nobody. -/
structure Lost (r : Addr) : Prop where
  anonymous : s.Anonymous q
  reads : s.Reads q r
  mac : NoMAC s.clients s.parsers (s.ipStr q)
  address : s.clients.storage.index.findByIP r = none
  lease : s.clients.dhcp.macByIP r = none
  zones : ∀ other ∈ AList.keys s.clients.storage.index.ipToUID, other.withZone "" ≠ r

end Recorder

section Agreement

variable {clients : ClientsContainer} {parsers : Parsers} {r a : Addr} {c : Persistent}

theorem Alike.findByIP (alike : Alike clients r a) :
    clients.storage.index.findByIP r = clients.storage.index.findByIP a := by
  unfold Index.findByIP
  rw [alike.address, List.find?_congr alike.subnets]

theorem Alike.storage (alike : Alike clients r a) :
    clients.storage.findByIP clients.dhcp r = clients.storage.findByIP clients.dhcp a := by
  unfold Storage.findByIP
  rw [alike.findByIP, alike.lease]

theorem StoredWithZone.findByIP (zone : StoredWithZone clients r a) :
    clients.storage.index.findByIP r = none := by
  have noSubnet : (clients.storage.index.subnetToUID.entries.find?
      fun entry => entry.1.contains (r.withZone "")) = none := by
    rw [List.find?_eq_none]
    intro entry member
    simp [zone.subnets entry member]
  unfold Index.findByIP
  rw [zone.address, noSubnet]
  rfl

theorem StoredWithZone.uid (zone : StoredWithZone clients r a) :
    ∃ uid, clients.storage.index.ipToUID.get a = some uid := by
  have stored := zone.stored
  cases known : clients.storage.index.ipToUID.get a with
  | none => simp [known, Index.clientOf] at stored
  | some uid => exact ⟨uid, rfl⟩

theorem StoredWithZone.findByIP_addr (zone : StoredWithZone clients r a) :
    (clients.storage.index.findByIP a).isSome = true := by
  obtain ⟨uid, known⟩ := zone.uid
  have stored := zone.stored
  unfold Index.findByIP
  rw [known] at stored ⊢
  exact stored

/-- The first of the stored addresses that differ in the zone only is of the same client. -/
theorem StoredWithZone.findByIPWithoutZone (zone : StoredWithZone clients r a) :
    clients.storage.index.findByIPWithoutZone clients.order r =
      clients.storage.index.findByIP a := by
  obtain ⟨uid, known⟩ := zone.uid
  have listed := (FiniteMap.mem_keys clients.storage.index.ipToUID a).mpr ⟨uid, known⟩
  unfold Index.findByIPWithoutZone
  rw [if_neg zone.valid]
  cases first : (clients.order.arrange (AList.keys clients.storage.index.ipToUID)).find?
      fun addr => addr.withZone "" = r with
  | none =>
    have absent := List.find?_eq_none.mp first a ((clients.order.mem_arrange _ _).mpr listed)
    simp [zone.zoneless] at absent
  | some other =>
    have listed := (clients.order.mem_arrange _ _).mp (List.mem_of_find?_eq_some first)
    have same := List.find?_some first
    simp only [decide_eq_true_eq] at same
    dsimp only
    rw [zone.owner other listed same]
    unfold Index.findByIP
    rw [known]

theorem NoMAC.bind {text : String} (noMAC : NoMAC clients parsers text) :
    (parsers.parseMAC text).bind clients.storage.index.findByMAC = none := by
  cases read : parsers.parseMAC text with
  | none => rfl
  | some mac => exact noMAC mac read

theorem Nobodys.findLoose {id : String} (nobodys : Nobodys clients parsers id) :
    clients.findLoose parsers ((parsers.parseAddr id).getD .zero) id = none := by
  unfold ClientsContainer.findLoose Storage.findLoose Index.find
  rw [nobodys.clientID, nobodys.notAddr, nobodys.mac.bind]
  simp [nobodys.zeroLease, Index.findByIPWithoutZone]

theorem Nobodys.find {id : String} (nobodys : Nobodys clients parsers id) :
    (FindParams.set parsers id).bind (clients.storage.find clients.dhcp) = none := by
  unfold FindParams.set
  rw [nobodys.notAddr]
  cases read : parsers.parseMAC id with
  | some mac => simp [Storage.find, nobodys.mac mac read]
  | none =>
    dsimp only
    cases subnet : parsers.parsePrefix id with
    | some subnet' => simp [Storage.find, nobodys.subnet subnet' subnet]
    | none =>
      dsimp only
      split
      · simp [Storage.find, nobodys.clientID]
      · rfl

end Agreement

namespace Recorder

variable {c : Persistent}

theorem Anonymous.applied (anonymous : s.Anonymous q) :
    s.Applied q = s.clients.storage.findByIP s.clients.dhcp q.addr := by
  simp [Applied, Storage.clientForFiltering, anonymous.1]

/-- Only the recorded address counts for the log. -/
theorem Anonymous.found_iff (anonymous : s.Anonymous q)
    (runtime : s.clients.clientRuntime .zero = false) :
    Found s.clients s.parsers (s.ids q) ↔ Found s.clients s.parsers [s.ipStr q] := by
  unfold ids
  split
  next sent =>
    have nobodys := anonymous.2 sent
    conv_lhs => unfold Found
    rw [nobodys.findLoose, nobodys.notAddr]
    simp [runtime]
  next => rfl

theorem Anonymous.foundByParams_iff (anonymous : s.Anonymous q) :
    FoundByParams s.clients s.parsers (s.ids q) ↔
      FoundByParams s.clients s.parsers [s.ipStr q] := by
  unfold ids
  split
  next sent =>
    conv_lhs => unfold FoundByParams
    rw [(anonymous.2 sent).find]
  next => rfl

theorem LogAgrees.found (agrees : s.LogAgrees q) (applied : s.Applied q = some c)
    (ignores : c.ignoreQueryLog = true) : Found s.clients s.parsers (s.ids q) := by
  cases agrees with
  | byClientID sent known =>
    obtain ⟨other, found⟩ := Option.isSome_iff_exists.mp known
    have same : other = c := by
      simpa [Applied, Storage.clientForFiltering, found] using applied
    have loose : s.clients.findLoose s.parsers ((s.parsers.parseAddr q.clientID).getD .zero)
        q.clientID = some c := by
      simp [ClientsContainer.findLoose, Storage.findLoose, Index.find, found, same]
    rw [ids, if_pos sent]
    unfold Found
    rw [loose]
    exact ignores
  | byAddress anonymous runtime r reads alike mac =>
    rw [anonymous.applied] at applied
    rw [anonymous.found_iff runtime]
    have loose : s.clients.findLoose s.parsers r (s.ipStr q) = some c := by
      unfold ClientsContainer.findLoose Storage.findLoose Index.find
      rw [reads.clientID, reads.addr, Option.bind_some, alike.findByIP]
      unfold Storage.findByIP at applied
      cases stored : s.clients.storage.index.findByIP q.addr with
      | some other =>
        rw [stored] at applied
        exact applied
      | none =>
        rw [stored] at applied mac
        have noMAC := mac.resolve_left nofun
        rw [noMAC.bind, alike.lease]
        cases leased : s.clients.dhcp.macByIP q.addr with
        | none => simp [leased] at applied
        | some mac => simpa [leased] using applied
    unfold Found
    rw [reads.addr, Option.getD_some, loose]
    exact ignores
  | byZone anonymous runtime r reads zone mac =>
    rw [anonymous.applied] at applied
    rw [anonymous.found_iff runtime]
    have loose : s.clients.findLoose s.parsers r (s.ipStr q) = some c := by
      unfold ClientsContainer.findLoose Storage.findLoose Index.find
      rw [reads.clientID, reads.addr, Option.bind_some, zone.findByIP, mac.bind]
      simp only [Option.or_none, zone.lease]
      rw [zone.findByIPWithoutZone]
      obtain ⟨other, stored⟩ := Option.isSome_iff_exists.mp zone.findByIP_addr
      unfold Storage.findByIP at applied
      rw [stored] at applied ⊢
      exact applied
    unfold Found
    rw [reads.addr, Option.getD_some, loose]
    exact ignores

theorem StatsAgree.found (agrees : s.StatsAgree q) (applied : s.Applied q = some c)
    (ignores : c.ignoreStatistics = true) : FoundByParams s.clients s.parsers (s.ids q) := by
  cases agrees with
  | byClientID sent known notAddr notMAC notPrefix valid =>
    obtain ⟨other, found⟩ := Option.isSome_iff_exists.mp known
    have same : other = c := by
      simpa [Applied, Storage.clientForFiltering, found] using applied
    have params : (FindParams.set s.parsers q.clientID).bind
        (s.clients.storage.find s.clients.dhcp) = some c := by
      simp [FindParams.set, notAddr, notMAC, notPrefix, valid, Storage.find, found, same]
    rw [ids, if_pos sent]
    unfold FoundByParams
    rw [params]
    exact ignores
  | byAddress anonymous r addr alike =>
    rw [anonymous.applied, ← alike.storage] at applied
    rw [anonymous.foundByParams_iff]
    have params : (FindParams.set s.parsers (s.ipStr q)).bind
        (s.clients.storage.find s.clients.dhcp) = some c := by
      simp [FindParams.set, addr, Storage.find, applied]
    unfold FoundByParams
    rw [params]
    exact ignores

theorem Lost.not_found {r : Addr} (lost : s.Lost q r) : ¬ Found s.clients s.parsers (s.ids q) := by
  have unseen : s.clients.findLoose s.parsers r (s.ipStr q) = none := by
    unfold ClientsContainer.findLoose Storage.findLoose Index.find
    rw [lost.reads.clientID, lost.reads.addr, Option.bind_some, lost.address, lost.mac.bind]
    have nobody : (s.clients.order.arrange (AList.keys s.clients.storage.index.ipToUID)).find?
        (fun addr => addr.withZone "" = r) = none := by
      rw [List.find?_eq_none]
      intro other member
      simpa using lost.zones other ((s.clients.order.mem_arrange _ _).mp member)
    simp [lost.lease, Index.findByIPWithoutZone, nobody]
  have last : ¬ Found s.clients s.parsers [s.ipStr q] := by
    unfold Found
    rw [lost.reads.addr, Option.getD_some, unseen]
    exact fun found => found.2
  unfold ids
  split
  next sent =>
    have nobodys := lost.anonymous.2 sent
    unfold Found
    rw [nobodys.findLoose]
    exact fun found => last found.2
  next => exact last

theorem Lost.not_foundByParams {r : Addr} (lost : s.Lost q r) :
    ¬ FoundByParams s.clients s.parsers (s.ids q) := by
  rw [lost.anonymous.foundByParams_iff]
  have params : (FindParams.set s.parsers (s.ipStr q)).bind
      (s.clients.storage.find s.clients.dhcp) = none := by
    simp [FindParams.set, lost.reads.addr, Storage.find, Storage.findByIP, lost.address, lost.lease,
      lost.mac.bind]
  unfold FoundByParams
  rw [params]
  exact id

end Recorder

/-- A query leaves no trace if what is recorded of it identifies the client whose settings apply;
and where that identifies nobody, only if such queries never leave one. -/
theorem untraced_of_agrees (s : Recorder) (q : RecordedQuery) :
    (s.Agrees q → s.Untraced q) ∧
      ((∃ r, s.Lost q r) → s.Untraced q → ∀ c, s.Applied q = some c →
        (c.ignoreQueryLog = true → s.NeverLogged q) ∧
        (c.ignoreStatistics = true → s.NeverCounted q)) := by
  constructor
  · intro agrees c applied
    obtain ⟨log, stats⟩ := agrees c applied
    constructor
    · intro ignores
      rw [not_logged_iff]
      exact (log ignores).imp_right fun agrees => agrees.found applied ignores
    · intro ignores
      rw [not_counted_iff]
      exact (stats ignores).imp_right fun agrees => agrees.found applied ignores
  · rintro ⟨r, lost⟩ untraced c applied
    obtain ⟨log, stats⟩ := untraced c applied
    constructor
    · intro ignores
      exact (not_logged_iff.mp (log ignores)).resolve_right lost.not_found
    · intro ignores
      exact (not_counted_iff.mp (stats ignores)).resolve_right lost.not_foundByParams

/-- A client that ignores both, and a query of it whose address is anonymised. -/
private def television : Persistent where
  name := "tv"
  tags := []
  upstreams := []
  ips := [.v4 0xC0A80105]
  subnets := []
  macs := []
  clientIDs := []
  uid := 1
  upstreamsCacheSize := 0
  upstreamsCacheEnabled := false
  ignoreQueryLog := true
  ignoreStatistics := true

private def anonymizing : Recorder where
  refuseAny := false
  queryLog := some ⟨true, fun _ => false⟩
  stats := some ⟨true, 1, fun _ => false⟩
  anonymizes := true
  clients := ⟨⟨Index.new.added television, .new⟩, ⟨fun _ => "", fun _ => none⟩, [], true, .inserted⟩
  parsers :=
    ⟨fun s => if s = "192.168.0.0" then some (.v4 0xC0A80000) else none, fun _ => none,
      fun _ => none, fun _ => true⟩
  ipString ip := if ip = .v4 0xC0A80000 then "192.168.0.0" else "192.168.1.5"

private def televisionQuery : RecordedQuery := ⟨"", .v4 0xC0A80105, lit "example.org.", false⟩

/-- The query is logged and counted, since nobody has the address with its last bytes cleared. -/
theorem untraced_anonymized : ¬ anonymizing.Untraced televisionQuery := by
  intro untraced
  have applied : anonymizing.Applied televisionQuery = some television := by decide +kernel
  exact absurd ((untraced television applied).1 rfl) (by decide +kernel)

/-- The same client by its network, which anonymising does not hide. -/
private def televisions : Persistent :=
  { television with ips := [], subnets := [⟨.v4 0xC0A80000, 16, rfl⟩] }

private def network : Recorder :=
  { anonymizing with
    clients := { anonymizing.clients with storage := ⟨Index.new.added televisions, .new⟩ } }

private def phoneQuery : RecordedQuery := { televisionQuery with clientID := "phone" }

private theorem alike_network : Alike network.clients (.v4 0xC0A80000) (.v4 0xC0A80105) where
  address := by decide +kernel
  subnets := by decide +kernel
  lease := rfl

private theorem anonymous_phone : network.Anonymous phoneQuery :=
  ⟨by decide +kernel, fun _ => ⟨by decide +kernel, by decide +kernel, nofun, nofun, rfl⟩⟩

theorem untraced_network :
    network.Applied phoneQuery = some televisions ∧ network.Untraced phoneQuery := by
  refine ⟨by decide +kernel, (untraced_of_agrees network phoneQuery).1 ?_⟩
  intro c applied
  constructor
  · intro _
    exact Or.inr (.byAddress anonymous_phone (by decide +kernel) (.v4 0xC0A80000)
      ⟨by decide +kernel, by decide +kernel⟩ alike_network (Or.inr nofun))
  · intro _
    exact Or.inr (.byAddress anonymous_phone (.v4 0xC0A80000) (by decide +kernel) alike_network)

end AdGuardHome.Dnsforward
