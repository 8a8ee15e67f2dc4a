import AdGuardHome.Lib.Slots
import AdGuardHome.Client.Lookups

/-! Package `client`: the custom upstream configurations with the times of the common
configuration, what is constructed for them and what is closed. -/
namespace AdGuardHome.Client

open Netip

/-- An `upstream.Resolver`, known by its identity. -/
abbrev Resolver := Nat

/-- `upstream.HTTPVersion`. -/
inductive HTTPVersion where
  | http11
  | http2
  | http3
deriving DecidableEq

/-- `CommonUpstreamConfig`. -/
structure CommonUpstreamConfig where
  bootstrap : Option Resolver
  upstreamTimeout : Int
  bootstrapPreferIPv6 : Bool
  ednsClientSubnetEnabled : Bool
  useHTTP3Upstreams : Bool
deriving DecidableEq

/-- `upstream.Options`, without the logger. -/
structure UpstreamOptions where
  bootstrap : Option Resolver
  timeout : Int
  httpVersions : List HTTPVersion
  preferIPv6 : Bool
deriving DecidableEq

/-- The options that `Persistent.validate` parses the upstreams with. -/
def UpstreamOptions.zero : UpstreamOptions := ⟨none, 0, [], false⟩

structure UpstreamLibrary where
  /-- The error of `proxy.ParseUpstreamsConfig`, if any. -/
  parseUpstreamsConfig : List String → UpstreamOptions → Option String
  defaultHTTPVersions : List HTTPVersion

/-- `aghnet.IsCommentOrEmpty`. -/
def isCommentOrEmpty (s : String) : Bool := s.toList.isEmpty || s.toList.head? == some '#'

/-- The upstreams that `newCustomUpstreamConfig` parses. -/
def upstreamLines (upstreams : List String) : List String :=
  upstreams.filter (!isCommentOrEmpty ·)

/-- Upstreams that are valid can be parsed with every options, without their comments too. -/
def UpstreamLibrary.Validates (library : UpstreamLibrary) : Prop :=
  ∀ upstreams options, library.parseUpstreamsConfig upstreams .zero = none →
    library.parseUpstreamsConfig (upstreamLines upstreams) options = none

/-- What a `proxy.CustomUpstreamConfig` is constructed from. -/
structure Construction where
  upstreams : List String
  options : UpstreamOptions
  cacheEnabled : Bool
  cacheSize : BitVec 32
  ednsEnabled : Bool
deriving DecidableEq

/-- The configurations constructed so far, which are known by their places, and the ones closed,
both in the order of the calls. -/
structure Proxies where
  built : List Construction
  closed : List ProxyConf
deriving DecidableEq

/-- `CustomUpstreamConfig.Close`, unless there is no configuration. -/
def Proxies.close (proxies : Proxies) (proxyConf : Option ProxyConf) : Proxies :=
  { proxies with closed := proxies.closed ++ proxyConf.toList }

/-- `customUpstreamConfig`, where an integer is an instant and zero the zero time. -/
structure TimedConf extends CustomUpstreamConfig where
  commonConfUpdate : Int
deriving DecidableEq

/-- `upstreamManager`. -/
structure TimedManager where
  uidToCustomConf : FiniteMap UID TimedConf
  commonConf : Option CommonUpstreamConfig
  confUpdate : Int

/-- The panics of `newCustomUpstreamConfig`. -/
inductive ConfPanic where
  | nilPointer
  | creating (reason : String)
deriving DecidableEq

/-- `aghnet.UpstreamHTTPVersions`. -/
def UpstreamLibrary.upstreamHTTPVersions (library : UpstreamLibrary) (http3 : Bool) :
    List HTTPVersion :=
  if http3 then [.http3, .http2, .http11] else library.defaultHTTPVersions

/-- The options that a custom configuration takes from the common one. -/
def CommonUpstreamConfig.options (conf : CommonUpstreamConfig) (library : UpstreamLibrary) :
    UpstreamOptions where
  bootstrap := conf.bootstrap
  timeout := conf.upstreamTimeout
  httpVersions := library.upstreamHTTPVersions conf.useHTTP3Upstreams
  preferIPv6 := conf.bootstrapPreferIPv6

/-- `newCustomUpstreamConfig`: the constructed configuration, if any. -/
def newCustomUpstreamConfig (library : UpstreamLibrary) (cliConf : TimedConf)
    (conf : Option CommonUpstreamConfig) (proxies : Proxies) :
    Except ConfPanic (Option ProxyConf × Proxies) :=
  let upstreams := upstreamLines cliConf.upstreams
  if upstreams = [] then .ok (none, proxies)
  else
    match conf with
    | none => .error .nilPointer
    | some conf =>
      match library.parseUpstreamsConfig upstreams (conf.options library) with
      | some reason => .error (.creating reason)
      | none =>
        let construction : Construction :=
          { upstreams
            options := conf.options library
            cacheEnabled := cliConf.upstreamsCacheEnabled
            cacheSize := cliConf.upstreamsCacheSize
            ednsEnabled := conf.ednsClientSubnetEnabled }
        .ok (some proxies.built.length, { proxies with built := proxies.built ++ [construction] })

namespace TimedManager

/-- `newUpstreamManager`. -/
def new : TimedManager := ⟨∅, none, 0⟩

/-- `upstreamManager.updateCommonUpstreamConfig`, when the clock reads `now`. -/
def updateCommonUpstreamConfig (m : TimedManager) (conf : CommonUpstreamConfig) (now : Int) :
    TimedManager :=
  { m with commonConf := some conf, confUpdate := now }

/-- `upstreamManager.updateCustomUpstreamConfig`. -/
def updateCustomUpstreamConfig (m : TimedManager) (c : Persistent) : TimedManager :=
  let cliConf := (m.uidToCustomConf.get c.uid).getD
    { proxyConf := none
      upstreams := []
      upstreamsCacheSize := 0
      upstreamsCacheEnabled := false
      isChanged := false
      commonConfUpdate := m.confUpdate }
  let cliConf :=
    { cliConf with
      upstreams := c.upstreams
      upstreamsCacheSize := c.upstreamsCacheSize
      upstreamsCacheEnabled := c.upstreamsCacheEnabled
      isChanged := true }
  { m with uidToCustomConf := m.uidToCustomConf.set c.uid cliConf }

/-- `upstreamManager.isConfigChanged`. -/
def isConfigChanged (m : TimedManager) (cliConf : TimedConf) : Bool :=
  m.confUpdate != cliConf.commonConfUpdate || cliConf.isChanged

/-- `upstreamManager.customUpstreamConfig`. A panic leaves the old configuration, which is closed
by then, in its place. -/
def customUpstreamConfig (library : UpstreamLibrary) (m : TimedManager) (proxies : Proxies)
    (uid : UID) : TimedManager × Proxies × Except ConfPanic (Option ProxyConf) :=
  match m.uidToCustomConf.get uid with
  | none => (m, proxies, .ok none)
  | some cliConf =>
    if !m.isConfigChanged cliConf then (m, proxies, .ok cliConf.proxyConf)
    else
      let proxies := proxies.close cliConf.proxyConf
      match newCustomUpstreamConfig library cliConf m.commonConf proxies with
      | .error panicked => (m, proxies, .error panicked)
      | .ok (proxyConf, proxies) =>
        let cliConf :=
          { cliConf with proxyConf, commonConfUpdate := m.confUpdate, isChanged := false }
        ({ m with uidToCustomConf := m.uidToCustomConf.set uid cliConf }, proxies, .ok proxyConf)

/-- `upstreamManager.remove`. Its errors are only logged. -/
def remove (m : TimedManager) (proxies : Proxies) (uid : UID) : TimedManager × Proxies :=
  match m.uidToCustomConf.get uid with
  | none => (m, proxies)
  | some cliConf =>
    ({ m with uidToCustomConf := m.uidToCustomConf.delete uid }, proxies.close cliConf.proxyConf)

end TimedManager

/-- `Storage`, with the times of the upstream manager, beside the proxies it constructs. -/
structure TimedStorage where
  index : Index
  upstreamManager : TimedManager
  proxies : Proxies

/-- A call on the storage, with what the clock or the leases answer it. -/
inductive TimedCall where
  | add (p : Persistent)
  | update (name : String) (p : Persistent)
  | removeByName (name : String)
  | updateCommonUpstreamConfig (conf : CommonUpstreamConfig) (now : Int)
  | customUpstreamConfig (id : ClientID) (addr : Addr) (dhcp : DHCP)

/-- What a call returns. -/
inductive TimedAnswer where
  | edited (answer : Answer)
  | updated
  | config (proxyConf : Option ProxyConf)
  | panicked (panicked : ConfPanic)
deriving DecidableEq

namespace TimedStorage

/-- `NewStorage` without initial clients. -/
def new : TimedStorage := ⟨.new, .new, ⟨[], []⟩⟩

def plain (s : TimedStorage) : Storage where
  index := s.index
  upstreamManager :=
    ⟨s.upstreamManager.uidToCustomConf.filterMap fun _ conf => some conf.toCustomUpstreamConfig⟩

def onIndex (method : EStateM Error Index Unit) : EStateM Error TimedStorage Unit := fun s =>
  match method s.index with
  | .ok () index => .ok () { s with index }
  | .error error index => .error error { s with index }

variable (library : UpstreamLibrary)

/-- `Storage.Add`. -/
def add (p : Persistent) : EStateM Error TimedStorage Unit := do
  let p ← ofExcept
    (p.validate (library.parseUpstreamsConfig p.upstreams .zero) Storage.sortedTags)
  let index := (← get).index
  ofExcept (index.clashesUID p)
  ofExcept (index.clashes p)
  onIndex (Index.add p)
  modify fun s => { s with upstreamManager := s.upstreamManager.updateCustomUpstreamConfig p }

/-- `Storage.Update`. -/
def update (name : String) (p : Persistent) : EStateM Error TimedStorage Unit := do
  let p ← ofExcept
    (p.validate (library.parseUpstreamsConfig p.upstreams .zero) Storage.sortedTags)
  let index := (← get).index
  match index.findByName name with
  | none => throw (.notFound name)
  | some none => throw .nilPanic
  | some (some stored) =>
    let p := { p with uid := stored.uid }
    ofExcept (index.clashes p)
    onIndex (Index.remove stored)
    onIndex (Index.add p)
    modify fun s => { s with upstreamManager := s.upstreamManager.updateCustomUpstreamConfig p }

/-- `Storage.RemoveByName`. -/
def removeByName (name : String) : EStateM Error TimedStorage Bool := do
  match (← get).index.findByName name with
  | none => return false
  | some none => throw .nilPanic
  | some (some p) =>
    onIndex (Index.remove p)
    modify fun s =>
      let (upstreamManager, proxies) := s.upstreamManager.remove s.proxies p.uid
      { s with upstreamManager, proxies }
    return true

/-- `Storage.CustomUpstreamConfig`. -/
def customUpstreamConfig (s : TimedStorage) (id : ClientID) (addr : Addr) (dhcp : DHCP) :
    TimedStorage × Except ConfPanic (Option ProxyConf) :=
  match s.plain.upstreamClient dhcp id addr with
  | none => (s, .ok none)
  | some c =>
    let (upstreamManager, proxies, returned) :=
      s.upstreamManager.customUpstreamConfig library s.proxies c.uid
    ({ s with upstreamManager, proxies }, returned)

def step (s : TimedStorage) : TimedCall → TimedStorage × TimedAnswer
  | .add p =>
    match add library p s with
    | .ok () next => (next, .edited .done)
    | .error error next => (next, .edited (.failed error))
  | .update name p =>
    match update library name p s with
    | .ok () next => (next, .edited .done)
    | .error error next => (next, .edited (.failed error))
  | .removeByName name =>
    match removeByName name s with
    | .ok found next => (next, .edited (.ok found))
    | .error error next => (next, .edited (.failed error))
  | .updateCommonUpstreamConfig conf now =>
    let upstreamManager := s.upstreamManager.updateCommonUpstreamConfig conf now
    ({ s with upstreamManager }, .updated)
  | .customUpstreamConfig id addr dhcp =>
    match s.customUpstreamConfig library id addr dhcp with
    | (next, .ok proxyConf) => (next, .config proxyConf)
    | (next, .error panicked) => (next, .panicked panicked)

def machine : Transition.Machine TimedStorage TimedCall TimedAnswer := ⟨step library⟩


variable {library : UpstreamLibrary} {s : TimedStorage}

def added (s : TimedStorage) (c : Persistent) : TimedStorage :=
  ⟨s.index.added c, s.upstreamManager.updateCustomUpstreamConfig c, s.proxies⟩

/-- The storage after a stored client was replaced by a valid one with its UID. -/
def replaced (s : TimedStorage) (stored c : Persistent) : TimedStorage :=
  ⟨(s.index.removed stored).added c, s.upstreamManager.updateCustomUpstreamConfig c, s.proxies⟩

def removed (s : TimedStorage) (stored : Persistent) : TimedStorage :=
  ⟨s.index.removed stored, (s.upstreamManager.remove s.proxies stored.uid).1,
    (s.upstreamManager.remove s.proxies stored.uid).2⟩

/-- What a call may do: succeed with such a value and storage, or fail and leave the storage as
it was. -/
def Edits {α : Type} (s : TimedStorage) (succeeds : α → TimedStorage → Prop) :
    EStateM.Result Error TimedStorage α → Prop
  | .ok value next => succeeds value next
  | .error _ next => next = s

private theorem Edits.check {α β : Type} {succeeds : β → TimedStorage → Prop}
    {check : Except Error α} {rest : α → EStateM Error TimedStorage β}
    (passed : ∀ value, check = .ok value → s.Edits succeeds (rest value s)) :
    s.Edits succeeds ((ofExcept check >>= rest) s) :=
  Fallible.check_bind (s.Edits succeeds) (fun _ => rfl) passed

private theorem Edits.read {β : Type} {succeeds : β → TimedStorage → Prop}
    {rest : TimedStorage → EStateM Error TimedStorage β} (edits : s.Edits succeeds (rest s s)) :
    s.Edits succeeds ((get >>= rest) s) := edits

private theorem method_runs {method : EStateM Error Index Unit} {index : Index}
    (runs : method s.index = .ok () index) : onIndex method s = .ok () { s with index } := by
  simp [onIndex, runs]

theorem add_edits (consistent : s.index.Consistent) (library : UpstreamLibrary) (p : Persistent) :
    s.Edits (fun _ next => ∃ c,
      p.validate (library.parseUpstreamsConfig p.upstreams .zero) Storage.sortedTags = .ok c ∧
        s.index.uidToClient.get c.uid = none ∧ (s.index.added c).Consistent ∧ next = s.added c)
      (add library p s) := by
  refine Edits.check fun c validated => Edits.read ?_
  refine Edits.check fun _ uidFree => ?_
  refine Edits.check fun _ passed => ?_
  have hasUID := Persistent.validate_hasUID validated
  have fresh : s.index.uidToClient.get c.uid = none := by
    unfold Index.clashesUID at uidFree
    split at uidFree
    · cases uidFree
    · assumption
  have free := consistent.unclaimed passed
  simp only [bind, EStateM.bind, method_runs (Index.add_run hasUID free.validMACs)]
  exact ⟨c, validated, fresh, consistent.add fresh hasUID free, rfl⟩

theorem update_edits (consistent : s.index.Consistent) (library : UpstreamLibrary) (name : String)
    (p : Persistent) :
    s.Edits (fun _ next => ∃ c stored,
      p.validate (library.parseUpstreamsConfig p.upstreams .zero) Storage.sortedTags = .ok c ∧
        s.index.findByName name = some (some stored) ∧
        s.index.uidToClient.get stored.uid = some stored ∧
        ((s.index.removed stored).added { c with uid := stored.uid }).Consistent ∧
        next = s.replaced stored { c with uid := stored.uid })
      (update library name p s) := by
  refine Edits.check fun c validated => Edits.read ?_
  cases lookup : s.index.findByName name with
  | none => rfl
  | some found =>
    obtain ⟨stored, rfl, present⟩ := consistent.findByName lookup
    refine Edits.check fun _ passed => ?_
    have hasUID : ({ c with uid := stored.uid } : Persistent).uid ≠ 0 :=
      consistent.hasUID stored.uid stored present
    have free := (consistent.unclaimed passed).remove stored
    have gone : (s.index.removed stored).uidToClient.get
        ({ c with uid := stored.uid } : Persistent).uid = none := by
      simp [Index.removed]
    have validMACs := consistent.validMACs stored.uid stored present
    have adds : onIndex (Index.add { c with uid := stored.uid })
        ⟨s.index.removed stored, s.upstreamManager, s.proxies⟩ = .ok () _ :=
      method_runs (Index.add_run hasUID free.validMACs)
    simp only [bind, EStateM.bind, method_runs (Index.remove_run validMACs), adds]
    exact ⟨c, stored, validated, rfl, present, (consistent.remove present).add gone hasUID free,
      rfl⟩

/-- A removal finds no client, or takes out the one that it finds. -/
theorem removeByName_run (consistent : s.index.Consistent) (name : String) :
    s.index.findByName name = none ∧ removeByName name s = .ok false s ∨
      ∃ stored, s.index.findByName name = some (some stored) ∧
        s.index.uidToClient.get stored.uid = some stored ∧
        (s.index.removed stored).Consistent ∧ removeByName name s = .ok true (s.removed stored) := by
  have reads (rest : TimedStorage → EStateM Error TimedStorage Bool) :
      (get >>= rest) s = rest s s := rfl
  rw [removeByName, reads]
  cases lookup : s.index.findByName name with
  | none => exact .inl ⟨rfl, rfl⟩
  | some found =>
    obtain ⟨stored, rfl, present⟩ := consistent.findByName lookup
    have validMACs := consistent.validMACs stored.uid stored present
    simp only [bind, EStateM.bind, method_runs (Index.remove_run validMACs)]
    exact .inr ⟨stored, rfl, present, consistent.remove present, rfl⟩

/-- The storage without the times has the same clients. -/
def Shows (s : TimedStorage) (t : Storage) : Prop := t.index = s.index

/-- Both calls succeed with one value, or both fail with one error. -/
def Agrees {α : Type} : EStateM.Result Error TimedStorage α → EStateM.Result Error Storage α → Prop
  | .ok value next, .ok other plain => value = other ∧ next.Shows plain
  | .error error next, .error other plain => error = other ∧ next.Shows plain
  | _, _ => False

variable {t : Storage}

private theorem Agrees.check {α β : Type} (shows : s.Shows t) (check : Except Error α)
    {rest : α → EStateM Error TimedStorage β} {plain : α → EStateM Error Storage β}
    (agree : ∀ value, Agrees (rest value s) (plain value t)) :
    Agrees ((ofExcept check >>= rest) s) ((ofExcept check >>= plain) t) := by
  cases check with
  | error error => exact ⟨rfl, shows⟩
  | ok value => exact agree value

private theorem Agrees.read {β : Type} {rest : TimedStorage → EStateM Error TimedStorage β}
    {plain : Storage → EStateM Error Storage β} (agree : Agrees (rest s s) (plain t t)) :
    Agrees ((get >>= rest) s) ((get >>= plain) t) := agree

private theorem Agrees.method {β : Type} (shows : s.Shows t) (method : EStateM Error Index Unit)
    {rest : Unit → EStateM Error TimedStorage β} {plain : Unit → EStateM Error Storage β}
    (agree : ∀ index, Agrees (rest () { s with index }) (plain () { t with index })) :
    Agrees ((onIndex method >>= rest) s) ((Storage.onIndex method >>= plain) t) := by
  obtain ⟨index, manager⟩ := t
  obtain rfl : index = s.index := shows
  simp only [bind, EStateM.bind, onIndex, Storage.onIndex]
  cases method s.index with
  | error error index => exact ⟨rfl, rfl⟩
  | ok _ index => exact agree index

theorem add_agrees (shows : s.Shows t) (library : UpstreamLibrary) (p : Persistent) :
    Agrees (add library p s)
      (Storage.add p (library.parseUpstreamsConfig p.upstreams .zero) t) := by
  refine Agrees.check shows _ fun c => Agrees.read ?_
  rw [show t.index = s.index from shows]
  refine Agrees.check shows _ fun _ => Agrees.check shows _ fun _ => ?_
  exact Agrees.method shows _ fun index => ⟨rfl, rfl⟩

theorem update_agrees (shows : s.Shows t) (library : UpstreamLibrary) (name : String)
    (p : Persistent) :
    Agrees (update library name p s)
      (Storage.update name p (library.parseUpstreamsConfig p.upstreams .zero) t) := by
  refine Agrees.check shows _ fun c => Agrees.read ?_
  rw [show t.index = s.index from shows]
  cases s.index.findByName name with
  | none => exact ⟨rfl, shows⟩
  | some found =>
    cases found with
    | none => exact ⟨rfl, shows⟩
    | some stored =>
      refine Agrees.check shows _ fun _ => Agrees.method shows _ fun index => ?_
      have between : Shows { s with index } { t with index } := rfl
      exact Agrees.method between _ fun index => ⟨rfl, rfl⟩

theorem removeByName_agrees (shows : s.Shows t) (name : String) :
    Agrees (removeByName name s) (Storage.removeByName name t) := by
  refine Agrees.read ?_
  rw [show t.index = s.index from shows]
  cases s.index.findByName name with
  | none => exact ⟨rfl, shows⟩
  | some found =>
    cases found with
    | none => exact ⟨rfl, shows⟩
    | some stored => exact Agrees.method shows _ fun index => ⟨rfl, rfl⟩

end TimedStorage

/-- The fields of a client that its configuration is constructed from. -/
structure UpstreamSettings where
  upstreams : List String
  cacheSize : BitVec 32
  cacheEnabled : Bool
deriving DecidableEq

def Persistent.upstreamSettings (c : Persistent) : UpstreamSettings :=
  ⟨c.upstreams, c.upstreamsCacheSize, c.upstreamsCacheEnabled⟩

def TimedConf.settings (conf : TimedConf) : UpstreamSettings :=
  ⟨conf.upstreams, conf.upstreamsCacheSize, conf.upstreamsCacheEnabled⟩

/-- What the configuration for these settings is constructed from; without upstreams there is
none. -/
def UpstreamSettings.construction (settings : UpstreamSettings) (library : UpstreamLibrary)
    (common : CommonUpstreamConfig) : Option Construction :=
  if upstreamLines settings.upstreams = [] then none
  else some
    { upstreams := upstreamLines settings.upstreams
      options := common.options library
      cacheEnabled := settings.cacheEnabled
      cacheSize := settings.cacheSize
      ednsEnabled := common.ednsClientSubnetEnabled }

/-- The common configuration that a call brings, and the reading of the clock. -/
def TimedCall.update? : TimedCall → Option (CommonUpstreamConfig × Int)
  | .updateCommonUpstreamConfig conf now => some (conf, now)
  | .add _ => none
  | .update _ _ => none
  | .removeByName _ => none
  | .customUpstreamConfig _ _ _ => none

/-- The common configurations of the calls, the latest of them last. -/
def commonUpdates (calls : List TimedCall) : List (CommonUpstreamConfig × Int) :=
  calls.filterMap TimedCall.update?

def commonFirst : List TimedCall → Bool
  | [] => true
  | .updateCommonUpstreamConfig _ _ :: _ => true
  | .customUpstreamConfig _ _ _ :: _ => false
  | .add _ :: rest => commonFirst rest
  | .update _ _ :: rest => commonFirst rest
  | .removeByName _ :: rest => commonFirst rest

/-- The calls before a good run's last one are a good run, and that one, if a lookup, comes after
a common configuration. -/
theorem commonFirst_append {calls : List TimedCall} {call : TimedCall}
    (first : commonFirst (calls ++ [call]) = true) :
    commonFirst calls = true ∧
      ∀ id addr dhcp, call = .customUpstreamConfig id addr dhcp → commonUpdates calls ≠ [] := by
  induction calls with
  | nil =>
    refine ⟨rfl, ?_⟩
    rintro id addr dhcp rfl
    cases first
  | cons earlier rest ih =>
    cases earlier with
    | updateCommonUpstreamConfig conf now =>
      exact ⟨rfl, fun _ _ _ _ => by simp [commonUpdates, TimedCall.update?]⟩
    | customUpstreamConfig id addr dhcp => cases first
    | add p => exact ih first
    | update name p => exact ih first
    | removeByName name => exact ih first

namespace TimedStorage

/-- The configuration constructed for the client of this UID, if any. -/
def held (s : TimedStorage) (uid : UID) : Option ProxyConf :=
  (s.upstreamManager.uidToCustomConf.get uid).bind fun conf => conf.proxyConf

/-- The state of the storage after these common configurations. -/
structure Current (library : UpstreamLibrary) (updates : List (CommonUpstreamConfig × Int))
    (s : TimedStorage) : Prop where
  index : s.index.Consistent
  settings : ∀ uid, (s.upstreamManager.uidToCustomConf.get uid).map TimedConf.settings =
    (s.index.uidToClient.get uid).map Persistent.upstreamSettings
  parsed : ∀ uid c, s.index.uidToClient.get uid = some c →
    library.parseUpstreamsConfig c.upstreams .zero = none
  latest : ∀ conf now, updates.getLast? = some (conf, now) →
    s.upstreamManager.commonConf = some conf ∧ s.upstreamManager.confUpdate = now
  built : ∀ uid conf, s.upstreamManager.uidToCustomConf.get uid = some conf →
    conf.isChanged = false →
      conf.commonConfUpdate ∈ updates.map Prod.snd ∧
        (conf.commonConfUpdate = s.upstreamManager.confUpdate →
          ∃ common, s.upstreamManager.commonConf = some common ∧
            conf.proxyConf.bind (s.proxies.built[·]?) = conf.settings.construction library common)
  balanced : Slots.Balanced s.held s.proxies.built.length s.proxies.closed

theorem Current.empty (library : UpstreamLibrary) : Current library [] new where
  index := Index.Consistent.empty
  settings := fun _ => rfl
  parsed := by simp [new, Index.new]
  latest := by simp
  built := by simp [new, TimedManager.new]
  balanced := Slots.Balanced.empty

variable {library : UpstreamLibrary} {updates : List (CommonUpstreamConfig × Int)}
  {s : TimedStorage}

theorem parsed_of_validate {p c : Persistent} {allTags : List String}
    (valid : p.validate (library.parseUpstreamsConfig p.upstreams .zero) allTags = .ok c) :
    library.parseUpstreamsConfig c.upstreams .zero = none := by
  obtain rfl := Persistent.validate_ok valid
  cases failed : library.parseUpstreamsConfig p.upstreams .zero with
  | none => rfl
  | some reason =>
    rw [failed] at valid
    unfold Persistent.validate at valid
    split at valid
    · cases valid
    split at valid
    · cases valid
    split at valid
    · cases valid
    · cases valid

/-- The storage takes a client in, in the place of the one with its UID, if any. -/
theorem Current.store (current : Current library updates s) {index : Index} {c : Persistent}
    (consistent : index.Consistent)
    (rows : ∀ uid, index.uidToClient.get uid =
      if uid = c.uid then some c else s.index.uidToClient.get uid)
    (valid : library.parseUpstreamsConfig c.upstreams .zero = none) :
    Current library updates
      ⟨index, s.upstreamManager.updateCustomUpstreamConfig c, s.proxies⟩ where
  index := consistent
  settings := by
    intro uid
    rw [rows, TimedManager.updateCustomUpstreamConfig, FiniteMap.get_set]
    split
    · rfl
    · exact current.settings uid
  parsed := by
    intro uid d stored
    rw [rows] at stored
    split at stored
    · cases stored
      exact valid
    · exact current.parsed uid d stored
  latest := current.latest
  built := by
    intro uid conf found unchanged
    rcases FiniteMap.of_get_set found with ⟨_, rfl⟩ | ⟨_, before⟩
    · cases unchanged
    · exact current.built uid conf before unchanged
  balanced := by
    have same : held ⟨index, s.upstreamManager.updateCustomUpstreamConfig c, s.proxies⟩ =
        s.held := by
      funext uid
      simp only [held, TimedManager.updateCustomUpstreamConfig, FiniteMap.get_set]
      split
      · rename_i here
        rw [here]
        cases s.upstreamManager.uidToCustomConf.get c.uid <;> rfl
      · rfl
    rw [same]
    exact current.balanced

theorem get_remove (m : TimedManager) (proxies : Proxies) (uid other : UID) :
    (m.remove proxies uid).1.uidToCustomConf.get other =
      if other = uid then none else m.uidToCustomConf.get other := by
  cases found : m.uidToCustomConf.get uid with
  | none =>
    simp only [TimedManager.remove, found]
    split
    · rename_i same
      rw [same, found]
    · rfl
  | some conf =>
    simp only [TimedManager.remove, found]
    exact FiniteMap.get_delete _ _ _

theorem common_remove (m : TimedManager) (proxies : Proxies) (uid : UID) :
    (m.remove proxies uid).1.commonConf = m.commonConf ∧
      (m.remove proxies uid).1.confUpdate = m.confUpdate := by
  unfold TimedManager.remove
  split <;> exact ⟨rfl, rfl⟩

theorem proxies_remove (s : TimedStorage) (uid : UID) :
    (s.upstreamManager.remove s.proxies uid).2 = s.proxies.close (s.held uid) := by
  unfold TimedManager.remove held
  cases s.upstreamManager.uidToCustomConf.get uid with
  | none => simp [Proxies.close]
  | some conf => rfl

theorem Current.remove (current : Current library updates s) {stored : Persistent}
    (consistent : (s.index.removed stored).Consistent) :
    Current library updates (s.removed stored) where
  index := consistent
  settings := by
    intro uid
    rw [removed, get_remove, Index.removed, FiniteMap.get_delete]
    split
    · rfl
    · exact current.settings uid
  parsed := fun uid c found => current.parsed uid c (FiniteMap.of_get_delete found).2
  latest := by
    intro conf now last
    rw [removed, (common_remove _ _ _).1, (common_remove _ _ _).2]
    exact current.latest conf now last
  built := by
    intro uid conf found unchanged
    rw [removed, get_remove] at found
    split at found
    · cases found
    · rw [removed, (common_remove _ _ _).1, (common_remove _ _ _).2, proxies_remove]
      exact current.built uid conf found unchanged
  balanced := by
    have freed : (s.removed stored).held = Function.update s.held stored.uid none := by
      funext uid
      simp only [held, removed, get_remove, Function.update_apply]
      split <;> rfl
    rw [freed, removed, proxies_remove]
    exact current.balanced.release stored.uid

/-- A later reading of the clock makes every configuration one to be constructed again. -/
theorem Current.updateCommon (current : Current library updates s) (conf : CommonUpstreamConfig)
    {now : Int} (distinct : now ∉ updates.map Prod.snd) :
    Current library (updates ++ [(conf, now)])
      { s with upstreamManager := s.upstreamManager.updateCommonUpstreamConfig conf now } where
  index := current.index
  settings := current.settings
  parsed := current.parsed
  latest := by
    intro last time isLast
    rw [List.getLast?_concat] at isLast
    cases isLast
    exact ⟨rfl, rfl⟩
  built := by
    intro uid cliConf found unchanged
    have earlier := (current.built uid cliConf found unchanged).1
    refine ⟨by simp [earlier], fun same => ?_⟩
    have reads : cliConf.commonConfUpdate = now := same
    exact absurd (reads ▸ earlier) distinct
  balanced := current.balanced

end TimedStorage

def Proxies.build (proxies : Proxies) : Option Construction → Option ProxyConf × Proxies
  | none => (none, proxies)
  | some construction =>
    (some proxies.built.length, { proxies with built := proxies.built ++ [construction] })

theorem Proxies.get_build (proxies : Proxies) (construction : Option Construction) :
    (proxies.build construction).1.bind ((proxies.build construction).2.built[·]?) =
      construction := by
  cases construction with
  | none => rfl
  | some construction => simp [build]

theorem Proxies.get_build_of_lt (proxies : Proxies) (construction : Option Construction)
    {place : Nat} (below : place < proxies.built.length) :
    (proxies.build construction).2.built[place]? = proxies.built[place]? := by
  cases construction with
  | none => rfl
  | some construction => exact List.getElem?_append_left below

/-- With a common configuration the construction for valid upstreams does not panic. -/
theorem newCustomUpstreamConfig_ok {library : UpstreamLibrary} (validates : library.Validates)
    (cliConf : TimedConf) (common : CommonUpstreamConfig) (proxies : Proxies)
    (valid : library.parseUpstreamsConfig cliConf.upstreams .zero = none) :
    newCustomUpstreamConfig library cliConf (some common) proxies =
      .ok (proxies.build (cliConf.settings.construction library common)) := by
  unfold newCustomUpstreamConfig UpstreamSettings.construction TimedConf.settings
  by_cases empty : upstreamLines cliConf.upstreams = []
  · simp [empty, Proxies.build]
  · simp [empty, validates _ (common.options library) valid, Proxies.build]

namespace TimedStorage

variable {library : UpstreamLibrary} {updates : List (CommonUpstreamConfig × Int)}
  {s : TimedStorage}

/-- The storage after a configuration was constructed for the client of this UID. -/
def rebuilt (s : TimedStorage) (library : UpstreamLibrary) (uid : UID) (cliConf : TimedConf)
    (common : CommonUpstreamConfig) : TimedStorage :=
  let made := (s.proxies.close cliConf.proxyConf).build (cliConf.settings.construction library common)
  { s with
    upstreamManager :=
      { s.upstreamManager with
        uidToCustomConf := s.upstreamManager.uidToCustomConf.set uid
          { cliConf with
            proxyConf := made.1
            commonConfUpdate := s.upstreamManager.confUpdate
            isChanged := false } }
    proxies := made.2 }

theorem held_rebuilt (s : TimedStorage) (library : UpstreamLibrary) (uid : UID)
    (cliConf : TimedConf) (common : CommonUpstreamConfig) :
    (s.rebuilt library uid cliConf common).held =
      Function.update s.held uid ((s.proxies.close cliConf.proxyConf).build
        (cliConf.settings.construction library common)).1 := by
  funext other
  simp only [held, rebuilt, FiniteMap.get_set, Function.update_apply]
  split <;> rfl

theorem Current.rebuilt (current : Current library updates s) {uid : UID} {cliConf : TimedConf}
    (found : s.upstreamManager.uidToCustomConf.get uid = some cliConf)
    {common : CommonUpstreamConfig} (known : s.upstreamManager.commonConf = some common)
    (read : s.upstreamManager.confUpdate ∈ updates.map Prod.snd) :
    Current library updates (s.rebuilt library uid cliConf common) where
  index := current.index
  settings := by
    intro other
    rw [TimedStorage.rebuilt, FiniteMap.get_set]
    split
    · rename_i same
      rw [← current.settings other, same, found]
      rfl
    · exact current.settings other
  parsed := current.parsed
  latest := current.latest
  built := by
    intro other conf after unchanged
    rcases FiniteMap.of_get_set after with ⟨_, rfl⟩ | ⟨_, before⟩
    · exact ⟨read, fun _ => ⟨common, known, Proxies.get_build _ _⟩⟩
    · obtain ⟨reading, upToDate⟩ := current.built other conf before unchanged
      refine ⟨reading, fun same => ?_⟩
      obtain ⟨latest, isLatest, made⟩ := upToDate same
      refine ⟨latest, isLatest, ?_⟩
      rw [← made]
      cases here : conf.proxyConf with
      | none => rfl
      | some place =>
        have holds : s.held other = some place := by simp [held, before, here]
        exact Proxies.get_build_of_lt _ _ (current.balanced.below other place holds)
  balanced := by
    have holds : s.held uid = cliConf.proxyConf := by simp [held, found]
    have released := current.balanced.release uid
    rw [holds] at released
    rw [held_rebuilt, TimedStorage.rebuilt]
    cases made : cliConf.settings.construction library common with
    | none => exact released
    | some construction =>
      have acquired := released.acquire (Function.update_self uid none s.held)
      rw [Function.update_idem] at acquired
      simpa [Proxies.build, Proxies.close] using acquired

/-- A lookup returns what is constructed from the latest settings of the client and from the
latest common configuration. -/
theorem Current.lookup (current : Current library updates s) (validates : library.Validates)
    {last : CommonUpstreamConfig × Int} (isLast : updates.getLast? = some last) {uid : UID}
    {c : Persistent} (stored : s.index.uidToClient.get uid = some c) :
    ∃ next : TimedStorage,
      s.upstreamManager.customUpstreamConfig library s.proxies uid =
        (next.upstreamManager, next.proxies, .ok (next.held uid)) ∧
      next.index = s.index ∧ Current library updates next ∧
      (next.held uid).bind (next.proxies.built[·]?) =
        c.upstreamSettings.construction library last.1 := by
  obtain ⟨known, reads⟩ := current.latest last.1 last.2 isLast
  have settings := current.settings uid
  rw [stored] at settings
  obtain ⟨cliConf, found, same⟩ := Option.map_eq_some_iff.mp settings
  by_cases changed : s.upstreamManager.isConfigChanged cliConf = true
  · have valid : library.parseUpstreamsConfig cliConf.upstreams .zero = none := by
      have sameUpstreams : cliConf.upstreams = c.upstreams :=
        congrArg UpstreamSettings.upstreams same
      rw [sameUpstreams]
      exact current.parsed uid c stored
    have read : s.upstreamManager.confUpdate ∈ updates.map Prod.snd := by
      rw [reads]
      exact List.mem_map_of_mem (List.mem_of_getLast? isLast)
    refine ⟨s.rebuilt library uid cliConf last.1, ?_, rfl,
      current.rebuilt found known read, ?_⟩
    · rw [held_rebuilt, Function.update_self]
      simp [TimedManager.customUpstreamConfig, found, changed, known, TimedStorage.rebuilt,
        newCustomUpstreamConfig_ok validates cliConf last.1 _ valid]
    · rw [held_rebuilt, Function.update_self, ← same]
      exact Proxies.get_build _ _
  · have holds : s.held uid = cliConf.proxyConf := by simp [held, found]
    have fresh := changed
    simp only [TimedManager.isConfigChanged, Bool.or_eq_true, bne_iff_ne, ne_eq, not_or,
      Decidable.not_not, Bool.not_eq_true] at fresh
    obtain ⟨_, upToDate⟩ := current.built uid cliConf found fresh.2
    obtain ⟨common, isCommon, made⟩ := upToDate fresh.1.symm
    obtain rfl := Option.some.inj (known.symm.trans isCommon)
    refine ⟨s, ?_, rfl, current, ?_⟩
    · simp [TimedManager.customUpstreamConfig, found, changed, holds]
    · rw [holds, made, same]

end TimedStorage

end AdGuardHome.Client
