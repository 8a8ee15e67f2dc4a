import AdGuardHome.Client.Identifiers
import AdGuardHome.Schedule.Weekly

namespace AdGuardHome.Home

open Netip Client

/-- `clientsContainer`: the storage with its DHCP server, and what it knows of runtime clients. -/
structure ClientsContainer where
  storage : Storage
  dhcp : DHCP
  runtimeIndex : List Addr
  runtimeSourceDHCP : Bool
  /-- The walk over the addresses in `findByIPWithoutZone`. -/
  order : WalkOrder Addr

/-- `querylog.Client`, without what the log shows of it. -/
structure QuerylogClient where
  ignoreQueryLog : Bool
deriving DecidableEq

namespace ClientsContainer

variable (clients : ClientsContainer) (parsers : Parsers)

/-- Whether `Storage.ClientRuntime` returns a client. -/
def clientRuntime (ip : Addr) : Bool :=
  decide (ip ∈ clients.runtimeIndex) ||
    (clients.runtimeSourceDHCP && decide (clients.dhcp.hostByIP ip ≠ ""))

/-- `FindLoose` of the storage. -/
def findLoose (ip : Addr) (id : String) : Option Persistent :=
  clients.storage.findLoose clients.dhcp parsers clients.order ip id

/-- `clientOrArtificial`. -/
def clientOrArtificial (ip : Addr) (id : String) : QuerylogClient × Bool :=
  match clients.findLoose parsers ip id with
  | some cli => (⟨cli.ignoreQueryLog⟩, false)
  | none => if clients.clientRuntime ip then (⟨false⟩, false) else (⟨false⟩, true)

/-- The loop of `findMultiple`, with the artificial client so far. -/
def findMultipleFrom (artClient : Option QuerylogClient) : List String → Option QuerylogClient
  | [] => artClient
  | id :: ids =>
    let (c, art) := clients.clientOrArtificial parsers ((parsers.parseAddr id).getD .zero) id
    if art then findMultipleFrom (some c) ids else some c

def findMultiple (ids : List String) : Option QuerylogClient :=
  clients.findMultipleFrom parsers none ids

/-- `shouldCountClient`; an identifier that cannot be parsed is skipped. -/
def shouldCountClient : List String → Bool
  | [] => true
  | id :: ids =>
    match FindParams.set parsers id with
    | none => shouldCountClient ids
    | some params =>
      match clients.storage.find clients.dhcp params with
      | some client => !client.ignoreStatistics
      | none => shouldCountClient ids

end ClientsContainer

open Client Schedule

/-- `aghalg.NullBool`. -/
inductive NullBool where
  | nbNull
  | nbTrue
  | nbFalse
deriving DecidableEq

/-- `aghalg.BoolToNullBool`. -/
def boolToNullBool (cond : Bool) : NullBool := if cond then .nbTrue else .nbFalse

/-- `filtering.SafeSearchConfig`. -/
structure SafeSearchConfig where
  enabled : Bool
  bing : Bool
  duckDuckGo : Bool
  ecosia : Bool
  google : Bool
  pixabay : Bool
  yandex : Bool
  youTube : Bool
deriving DecidableEq

/-- `filtering.BlockedServices`, whose schedule may be nil. -/
structure BlockedServices where
  schedule : Option ZonedWeekly
  ids : List String

/-- The fields of `client.Persistent` that the storage does not read, without the safe search that
is made from its configuration. -/
structure ClientSettings where
  blockedServices : BlockedServices
  useOwnSettings : Bool
  filteringEnabled : Bool
  safeBrowsingEnabled : Bool
  parentalEnabled : Bool
  useOwnBlockedServices : Bool
  safeSearchConf : SafeSearchConfig

/-- `client.Persistent` with all its fields. -/
structure ClientRecord extends Persistent where
  settings : ClientSettings

/-- `clientJSON`, without the fields that no request sets, over the form of the schedule. -/
structure ClientJSON (Weekly : Type) where
  safeSearchConf : Option SafeSearchConfig
  schedule : Option Weekly
  name : String
  blockedServices : List String
  ids : List String
  tags : List String
  upstreams : List String
  filteringEnabled : Bool
  parentalEnabled : Bool
  safeBrowsingEnabled : Bool
  safeSearchEnabled : Bool
  useGlobalBlockedServices : Bool
  useGlobalSettings : Bool
  ignoreQueryLog : NullBool
  ignoreStatistics : NullBool
  upstreamsCacheSize : BitVec 32
  upstreamsCacheEnabled : NullBool

def ClientJSON.withSchedule {Weekly Other : Type} (cj : ClientJSON Weekly)
    (schedule : Option Other) : ClientJSON Other :=
  { cj with schedule }

structure ClientsEnv where
  texts : IDTexts
  zones : ZoneDatabase
  /-- Whether `serviceRules` has the service. -/
  knownService : String → Bool
  /-- The error of `proxy.ParseUpstreamsConfig` in `Persistent.validate`, if any. -/
  parseUpstreams : List String → Option String

/-- What `client.NewUID` and `safesearch.NewDefault` return. -/
structure Fresh where
  newUID : Except String UID
  safeSearchError : Option String

/-- Why a client cannot be made or stored. -/
inductive ClientError where
  | badSchedule (error : ScheduleError)
  | unknownServices (ids : List String)
  | generatingUID (reason : String)
  | badIDs (error : IDError)
  | creatingSafeSearch (name reason : String)
  | invalidRequest
  | emptyName
  | notFound
  | storage (error : Client.Error)

/-- `BlockedServices.Validate`, whose error joins those of all unknown services. -/
def BlockedServices.validate (env : ClientsEnv) (svcs : BlockedServices) : Except ClientError Unit :=
  let unknown := svcs.ids.filter (!env.knownService ·)
  if unknown = [] then .ok () else .error (.unknownServices unknown)

/-- `copySafeSearch`. -/
def copySafeSearch (jsonConf : Option SafeSearchConfig) (enabled : Bool) : SafeSearchConfig :=
  match jsonConf with
  | some conf => conf
  | none => ⟨enabled, enabled, enabled, enabled, enabled, enabled, enabled, enabled⟩

/-- `copyBlockedServices`. -/
def copyBlockedServices (env : ClientsEnv) (sch : Option ZonedWeekly) (svcStrs : List String)
    (prev : Option ClientRecord) : Except ClientError BlockedServices := do
  let weekly :=
    match sch with
    | some weekly => some weekly
    | none =>
      match prev with
      | some prev => prev.settings.blockedServices.schedule
      | none => some (.emptyWeekly env.zones)
  let svcs : BlockedServices := ⟨weekly, svcStrs⟩
  svcs.validate env
  return svcs

def ClientSettings.zero : ClientSettings :=
  ⟨⟨none, []⟩, false, false, false, false, false,
    ⟨false, false, false, false, false, false, false, false⟩⟩

def NullBool.getD (flag : NullBool) (otherwise : Bool) : Bool :=
  match flag with
  | .nbNull => otherwise
  | .nbTrue => true
  | .nbFalse => false

def Fresh.uidOr (fresh : Fresh) (uid : UID) : Except ClientError UID :=
  if uid = 0 then fresh.newUID.mapError .generatingUID else .ok uid

/-- `initPrev`. -/
def initPrev (env : ClientsEnv) (cj : ClientJSON ZonedWeekly) (prev : Option ClientRecord)
    (fresh : Fresh) : Except ClientError ClientRecord := do
  let uid := (prev.map fun prev => prev.uid).getD 0
  let ignoreQueryLog := (prev.map fun prev => prev.ignoreQueryLog).getD false
  let ignoreStatistics := (prev.map fun prev => prev.ignoreStatistics).getD false
  let upsCacheEnabled := (prev.map fun prev => prev.upstreamsCacheEnabled).getD false
  let upsCacheSize := (prev.map fun prev => prev.upstreamsCacheSize).getD 0
  let svcs ← copyBlockedServices env cj.schedule cj.blockedServices prev
  let uid ← fresh.uidOr uid
  return {
    Persistent.blank with
    uid
    ignoreQueryLog := cj.ignoreQueryLog.getD ignoreQueryLog
    ignoreStatistics := cj.ignoreStatistics.getD ignoreStatistics
    upstreamsCacheEnabled := cj.upstreamsCacheEnabled.getD upsCacheEnabled
    upstreamsCacheSize :=
      if cj.upstreamsCacheEnabled = .nbNull then upsCacheSize else cj.upstreamsCacheSize
    settings := { ClientSettings.zero with blockedServices := svcs } }

/-- The safe search of a client is created only for an enabled configuration. -/
def createSafeSearch (conf : SafeSearchConfig) (name : String) (fresh : Fresh) :
    Except ClientError Unit :=
  if conf.enabled then
    match fresh.safeSearchError with
    | some reason => .error (.creatingSafeSearch name reason)
    | none => .ok ()
  else .ok ()

/-- `jsonToClient`. -/
def jsonToClient (env : ClientsEnv) (cj : ClientJSON ZonedWeekly) (prev : Option ClientRecord)
    (fresh : Fresh) : Except ClientError ClientRecord := do
  let c ← initPrev env cj prev fresh
  let ids ← (c.toPersistent.setIDs env.texts cj.ids).mapError .badIDs
  createSafeSearch (copySafeSearch cj.safeSearchConf cj.safeSearchEnabled) cj.name fresh
  return {
    ids with
    name := cj.name
    tags := cj.tags
    upstreams := cj.upstreams
    settings :=
      { c.settings with
        useOwnSettings := !cj.useGlobalSettings
        filteringEnabled := cj.filteringEnabled
        parentalEnabled := cj.parentalEnabled
        safeBrowsingEnabled := cj.safeBrowsingEnabled
        useOwnBlockedServices := !cj.useGlobalBlockedServices
        safeSearchConf := copySafeSearch cj.safeSearchConf cj.safeSearchEnabled } }

/-- `clientToJSON`. -/
def clientToJSON (env : ClientsEnv) (c : ClientRecord) : ClientJSON ZonedWeekly where
  safeSearchConf := some c.settings.safeSearchConf
  schedule := c.settings.blockedServices.schedule
  name := c.name
  blockedServices := c.settings.blockedServices.ids
  ids := c.identifiers env.texts
  tags := c.tags
  upstreams := c.upstreams
  filteringEnabled := c.settings.filteringEnabled
  parentalEnabled := c.settings.parentalEnabled
  safeBrowsingEnabled := c.settings.safeBrowsingEnabled
  safeSearchEnabled := c.settings.safeSearchConf.enabled
  useGlobalBlockedServices := !c.settings.useOwnBlockedServices
  useGlobalSettings := !c.settings.useOwnSettings
  ignoreQueryLog := boolToNullBool c.ignoreQueryLog
  ignoreStatistics := boolToNullBool c.ignoreStatistics
  upstreamsCacheSize := c.upstreamsCacheSize
  upstreamsCacheEnabled := boolToNullBool c.upstreamsCacheEnabled

/-- The body of a response, in which schedules have been marshalled. -/
def ClientJSON.encode (cj : ClientJSON ZonedWeekly) : ClientJSON WeeklyConfigJSON :=
  cj.withSchedule (cj.schedule.map ZonedWeekly.marshalJSON)

/-- The body of a request, in which schedules have been unmarshalled. -/
def ClientJSON.decode (env : ClientsEnv) (cj : ClientJSON WeeklyConfigJSON) :
    Except ClientError (ClientJSON ZonedWeekly) :=
  match cj.schedule with
  | none => .ok (cj.withSchedule none)
  | some conf =>
    match ZonedWeekly.unmarshalJSON env.zones conf with
    | .error error => .error (.badSchedule error)
    | .ok weekly => .ok (cj.withSchedule (some weekly))

structure Records where
  storage : Storage
  settings : FiniteMap UID ClientSettings

namespace Records

def record (s : Records) (uid : UID) : Option ClientRecord :=
  match s.storage.index.uidToClient.get uid, s.settings.get uid with
  | some c, some settings => some { c with settings }
  | _, _ => none

variable (env : ClientsEnv)

/-- `Storage.Add`. -/
def add (s : Records) (c : ClientRecord) : Records × Except ClientError Unit :=
  match Storage.add c.toPersistent (env.parseUpstreams c.upstreams) s.storage with
  | .ok _ storage => (⟨storage, s.settings.set c.uid c.settings⟩, .ok ())
  | .error error storage => ({ s with storage }, .error (.storage error))

/-- `Storage.Update`, which keeps the UID of the stored client. -/
def update (s : Records) (name : String) (c : ClientRecord) : Records × Except ClientError Unit :=
  match Storage.update name c.toPersistent (env.parseUpstreams c.upstreams) s.storage with
  | .ok _ storage =>
    match s.storage.index.nameToUID.get name with
    | some uid => (⟨storage, s.settings.set uid c.settings⟩, .ok ())
    | none => ({ s with storage }, .ok ())
  | .error error storage => ({ s with storage }, .error (.storage error))

/-- `Storage.RemoveByName`. -/
def removeByName (s : Records) (name : String) : Records × Except ClientError Unit :=
  match Storage.removeByName name s.storage with
  | .ok true storage =>
    match s.storage.index.nameToUID.get name with
    | some uid => (⟨storage, s.settings.delete uid⟩, .ok ())
    | none => ({ s with storage }, .ok ())
  | .ok false storage => ({ s with storage }, .error .notFound)
  | .error error storage => ({ s with storage }, .error (.storage error))

end Records

/-- The schedule of the blocked services of a `clientObject`, as it is read from YAML. -/
structure WeeklyConfigYAML where
  timeZone : String
  days : Weekday → DayRange

/-- `clientObject`. The blocked services may be left out, and so may their schedule. -/
structure ClientObject where
  safeSearchConf : SafeSearchConfig
  blockedServices : Option (Option WeeklyConfigYAML × List String)
  name : String
  ids : List String
  tags : List String
  upstreams : List String
  uid : UID
  upstreamsCacheSize : BitVec 32
  upstreamsCacheEnabled : Bool
  useGlobalSettings : Bool
  filteringEnabled : Bool
  parentalEnabled : Bool
  safeBrowsingEnabled : Bool
  useGlobalBlockedServices : Bool
  ignoreQueryLog : Bool
  ignoreStatistics : Bool

namespace ClientObject

/-- The blocked services of the object, after `Weekly.UnmarshalYAML`. -/
def services (env : ClientsEnv) (o : ClientObject) : Except ClientError BlockedServices :=
  match o.blockedServices with
  | none => .ok ⟨some (.emptyWeekly env.zones), []⟩
  | some (none, ids) => .ok ⟨none, ids⟩
  | some (some conf, ids) =>
    match ZonedWeekly.read env.zones conf.timeZone conf.days with
    | .error error => .error (.badSchedule error)
    | .ok weekly => .ok ⟨some weekly, ids⟩

/-- `clientObject.toPersistent`. Unknown services are left out before the check. -/
def toPersistent (env : ClientsEnv) (o : ClientObject) (fresh : Fresh) :
    Except ClientError ClientRecord := do
  let svcs ← o.services env
  let cli : Persistent := {
    Persistent.blank with
    name := o.name
    upstreams := o.upstreams
    uid := o.uid
    upstreamsCacheSize := o.upstreamsCacheSize
    upstreamsCacheEnabled := o.upstreamsCacheEnabled
    ignoreQueryLog := o.ignoreQueryLog
    ignoreStatistics := o.ignoreStatistics }
  let cli ← (cli.setIDs env.texts o.ids).mapError .badIDs
  let uid ← fresh.uidOr cli.uid
  createSafeSearch o.safeSearchConf o.name fresh
  let svcs := { svcs with ids := svcs.ids.filter env.knownService }
  svcs.validate env
  return {
    cli with
    uid
    tags := o.tags
    settings := {
      blockedServices := svcs
      useOwnSettings := !o.useGlobalSettings
      filteringEnabled := o.filteringEnabled
      safeBrowsingEnabled := o.safeBrowsingEnabled
      parentalEnabled := o.parentalEnabled
      useOwnBlockedServices := !o.useGlobalBlockedServices
      safeSearchConf := o.safeSearchConf } }

end ClientObject

namespace Records

variable (env : ClientsEnv)

/-- A client of the configuration file, which `NewStorage` adds. -/
def load (s : Records) (o : ClientObject) (fresh : Fresh) : Records × Except ClientError Unit :=
  match o.toPersistent env fresh with
  | .error error => (s, .error error)
  | .ok c => s.add env c

/-- The client of a request, which handlers make without a previous one. -/
def requested (cj : ClientJSON WeeklyConfigJSON) (fresh : Fresh) :
    Except ClientError ClientRecord := do
  let cj ← cj.decode env
  jsonToClient env cj none fresh

/-- `handleAddClient`. -/
def handleAddClient (s : Records) (cj : ClientJSON WeeklyConfigJSON) (fresh : Fresh) :
    Records × Except ClientError Unit :=
  match requested env cj fresh with
  | .error error => (s, .error error)
  | .ok c => s.add env c

/-- `handleDelClient`. -/
def handleDelClient (s : Records) (name : String) : Records × Except ClientError Unit :=
  if name = "" then (s, .error .emptyName) else s.removeByName name

/-- `handleUpdateClient`. -/
def handleUpdateClient (s : Records) (name : String) (cj : ClientJSON WeeklyConfigJSON)
    (fresh : Fresh) : Records × Except ClientError Unit :=
  match cj.decode env with
  | .error error => (s, .error error)
  | .ok cj =>
    if name = "" then (s, .error .invalidRequest)
    else
      match jsonToClient env cj none fresh with
      | .error error => (s, .error error)
      | .ok c => s.update env name c

/-- Everything that changes persistent clients. -/
inductive Event where
  | load (o : ClientObject) (fresh : Fresh)
  | add (cj : ClientJSON WeeklyConfigJSON) (fresh : Fresh)
  | update (name : String) (cj : ClientJSON WeeklyConfigJSON) (fresh : Fresh)
  | delete (name : String)

def step (s : Records) : Event → Records × Except ClientError Unit
  | .load o fresh => s.load env o fresh
  | .add cj fresh => s.handleAddClient env cj fresh
  | .update name cj fresh => s.handleUpdateClient env name cj fresh
  | .delete name => s.handleDelClient name

def machine : Transition.Machine Records Event (Except ClientError Unit) := ⟨step env⟩

def new : Records := ⟨.new, ∅⟩

/-- The body that `handleGetClients` sends for a client. -/
def body (c : ClientRecord) : ClientJSON WeeklyConfigJSON := (clientToJSON env c).encode

end Records

end AdGuardHome.Home
