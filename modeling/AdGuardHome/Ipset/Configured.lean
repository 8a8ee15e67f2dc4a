import AdGuardHome.Lib.Machine
import AdGuardHome.Lib.FiniteMap
import AdGuardHome.Net
import AdGuardHome.Strings

namespace AdGuardHome.Ipset

open Strings

def slash : BitVec 8 := 0x2f

def comma : BitVec 8 := 0x2c

def dot : BitVec 8 := 0x2e

/-- `netfilter.ProtoFamily`. -/
abbrev ProtoFamily := BitVec 8

def protoIPv4 : ProtoFamily := 2

def protoIPv6 : ProtoFamily := 10

/-- An attribute inside of `AttrData`. -/
inductive DataAttribute where
  | timeout (value : BitVec 32)
  | other
deriving DecidableEq

/-- `netfilter.Attribute`, decoded by its type. -/
inductive Attribute where
  | data (children : List DataAttribute)
  | setName (data : Bytes)
  | typeName (data : Bytes)
  | family (value : ProtoFamily)
  | other
deriving DecidableEq

abbrev Message := List Attribute

/-- `props`. -/
structure Props where
  name : Bytes
  typeName : Bytes
  family : ProtoFamily
  isPersistent : Bool
deriving DecidableEq

/-- `bytes.Trim` with the null character. -/
def trimNull (data : Bytes) : Bytes :=
  ((data.dropWhile (· = 0)).reverse.dropWhile (· = 0)).reverse

namespace Props

def zero : Props := ⟨[], [], 0, false⟩

/-- `props.parseAttrData`. -/
def parseAttrData (p : Props) (children : List DataAttribute) : Props :=
  children.foldl (fun p a =>
    match a with
    | .timeout timeout => { p with isPersistent := decide (timeout = 0) }
    | .other => p) p

/-- `props.parseAttribute`. -/
def parseAttribute (p : Props) : Attribute → Props
  | .data children => p.parseAttrData children
  | .setName data => { p with name := trimNull data }
  | .typeName data => { p with typeName := trimNull data }
  | .family value => { p with family := value }
  | .other => p

/-- `props.unmarshalMessage` on the zero value. -/
def unmarshalMessage (attrs : Message) : Props :=
  attrs.foldl parseAttribute { zero with isPersistent := true }

def hasFamily (p : Props) : Bool := p.family = protoIPv4 || p.family = protoIPv6

end Props

/-- What makes a configuration unusable. -/
inductive ConfigError where
  | oneSlash (confStr : Bytes)
  | emptyName (confStr : Bytes)
  | unknown (name : Bytes)
  /-- A header query that failed, or has no family or an unexpected one. -/
  | headerQuery (name typeName : Bytes)
deriving DecidableEq

/-- `ipset.HeaderPolicy`. -/
structure HeaderPolicy where
  family : Option ProtoFamily
  typeName : Bytes

/-- The tables of the manager that the configuration fills, with the number of header queries
made for them. -/
structure Config where
  nameToIpset : FiniteMap Bytes Props
  domainToIpsets : FiniteMap Bytes (List Props)
  headerQueries : Nat

def Config.new : Config := ⟨∅, ∅, 0⟩

def currentlyKnown (all : List Message) : FiniteMap Bytes Props :=
  all.foldl (fun known message =>
    let p := Props.unmarshalMessage message
    known.set p.name p) ∅

section Parsing
variable (toLower : Bytes → Bytes) (header : Nat → Option HeaderPolicy)

/-- `parseIpsetConfigLine`: the hosts and the names of the sets. There is always a name. -/
def parseIpsetConfigLine (confStr : Bytes) : Except ConfigError (List Bytes × List Bytes) :=
  let confStr := trimSpace confStr
  match split slash confStr with
  | [hosts, ipsetNames] =>
    let hosts := split comma hosts
    let ipsetNames := (split comma ipsetNames).map trimSpace
    if ipsetNames.any (·.length = 0) then .error (.emptyName confStr)
    else .ok (hosts.map fun host => toLower (trimSpace host), ipsetNames)
  | _ => .error (.oneSlash confStr)

/-- `manager.ipsetProps`; `header` has the reply to each query. -/
def ipsetProps (m : Config) (name : Bytes) : Option Props :=
  match header m.headerQueries with
  | some ⟨some family, typeName⟩ =>
    if family ≠ protoIPv4 ∧ family ≠ protoIPv6 then none
    else some ⟨name, typeName, family, false⟩
  | _ => none

/-- The properties of one of the names, as `manager.ipsets` finds them. -/
def findProps (known : FiniteMap Bytes Props) (m : Config) (n : Bytes) :
    Except ConfigError (Config × Props) :=
  match known.get n with
  | none => .error (.unknown n)
  | some p =>
    if p.family ≠ protoIPv4 ∧ p.family ≠ protoIPv6 then
      match ipsetProps header m n with
      | none => .error (.headerQuery n p.typeName)
      | some p => .ok ({ m with headerQueries := m.headerQueries + 1 }, p)
    else .ok (m, p)

/-- `manager.ipsets`. -/
def ipsets (known : FiniteMap Bytes Props) : Config → List Bytes →
    Except ConfigError (Config × List Props)
  | m, [] => .ok (m, [])
  | m, n :: names => do
    let (m, p) ← findProps header known m n
    let (m, sets) ← ipsets known { m with nameToIpset := m.nameToIpset.set n p } names
    return (m, p :: sets)

def Config.setsOf (m : Config) (host : Bytes) : List Props := (m.domainToIpsets.get host).getD []

def Config.addHosts (m : Config) (hosts : List Bytes) (sets : List Props) : Config :=
  hosts.foldl (fun m host =>
    { m with domainToIpsets := m.domainToIpsets.set host (m.setsOf host ++ sets) }) m

/-- The loop over the lines in `manager.parseIpsetConfig`. -/
def parseLines (known : FiniteMap Bytes Props) : Config → List Bytes → Except ConfigError Config
  | m, [] => .ok m
  | m, confStr :: lines => do
    let (hosts, ipsetNames) ← parseIpsetConfigLine toLower confStr
    let (m, sets) ← ipsets header known m ipsetNames
    parseLines known (m.addHosts hosts sets) lines

/-- `manager.parseIpsetConfig`, after the kernel has listed its sets. -/
def parseIpsetConfig (all : List Message) (lines : List Bytes) : Except ConfigError Config :=
  parseLines toLower header (currentlyKnown all) .new lines

end Parsing

/-- The rest of the loop in `manager.lookupHost` after a lookup without success: it goes on behind
the next dot, and ends at the catch-all. -/
def Config.lookupRest (m : Config) : Bytes → List Props
  | [] => m.setsOf []
  | c :: host =>
    if c = dot then
      let sets := m.setsOf host
      if sets ≠ [] then sets else m.lookupRest host
    else m.lookupRest host

/-- `manager.lookupHost`. -/
def Config.lookupHost (m : Config) (host : Bytes) : List Props :=
  let sets := m.setsOf host
  if sets ≠ [] then sets else m.lookupRest host

/-- A `net.IP` with an address. -/
abbrev Address := { ip : Net.IP // ip.length = 4 ∨ ip.length = 16 }

/-- `IP.To16`, by which the manager knows an address. -/
def Address.to16 (ip : Address) : Net.IP :=
  if ip.val.length = 4 then List.replicate 10 0 ++ [0xff, 0xff] ++ ip.val else ip.val

/-- What the manager does with addresses: a call of the kernel with its outcome, or an address
that is passed over because the cache has it. -/
inductive Record where
  | kernelAdd (conn : ProtoFamily) (name : Bytes) (entries : List Address) (ok : Bool)
  | skipped (name : Bytes) (ip : Address)
deriving DecidableEq

/-- `manager`, with the record of what it has done. -/
structure Manager where
  config : Config
  addedIPs : List (Bytes × Net.IP)
  journal : List Record

def Manager.new (config : Config) : Manager := ⟨config, [], []⟩

inductive AddError where
  | unexpectedFamily (family : ProtoFamily) (name : Bytes)
  | adding (host : Bytes) (ips : List Address) (name typeName : Bytes)
deriving DecidableEq

namespace Manager

section Adding
-- Whether the kernel accepts the entries of a call, by the number of records before it.
variable (kernel : Nat → Bool)

/-- The addresses that are in the kernel for good go into the cache. -/
def remember (m : Manager) (name : Bytes) (entries : List Address) : Manager :=
  entries.foldl (fun m e =>
    if ((m.config.nameToIpset.get name).getD .zero).isPersistent then
      { m with addedIPs := m.addedIPs ++ [(name, e.to16)] }
    else m) m

/-- `manager.addIPs`. -/
def addIPs (m : Manager) (host : Bytes) (set : Props) (ips : List Address) :
    Manager × Nat × Option AddError :=
  if ips.length = 0 then (m, 0, none)
  else
    let has := fun ip : Address => decide ((set.name, ip.to16) ∈ m.addedIPs)
    let m := { m with journal := m.journal ++ (ips.filter has).map (.skipped set.name) }
    let entries := ips.filter fun ip => !has ip
    let n := entries.length
    if n = 0 then (m, 0, none)
    else if set.family ≠ protoIPv4 ∧ set.family ≠ protoIPv6 then
      (m, 0, some (.unexpectedFamily set.family set.name))
    else
      let ok := kernel m.journal.length
      let m := { m with journal := m.journal ++ [.kernelAdd set.family set.name entries ok] }
      if !ok then (m, 0, some (.adding host ips set.name set.typeName))
      else (m.remember set.name entries, n, none)

/-- `manager.addToSets`, which ends at the first error. -/
def addToSets (host : Bytes) (ip4s ip6s : List Address) : Manager → List Props →
    Manager × Nat × Option AddError
  | m, [] => (m, 0, none)
  | m, set :: sets =>
    let (m, nn, err) :=
      if set.family = protoIPv4 then m.addIPs kernel host set ip4s
      else if set.family = protoIPv6 then m.addIPs kernel host set ip6s
      else (m, 0, some (.unexpectedFamily set.family set.name))
    match err with
    | some err => (m, 0, some err)
    | none =>
      let (m, n, err) := addToSets host ip4s ip6s m sets
      (m, nn + n, err)

/-- `manager.Add`. -/
def add (m : Manager) (host : Bytes) (ip4s ip6s : List Address) :
    Manager × Nat × Option AddError :=
  let sets := m.config.lookupHost host
  if sets.length = 0 then (m, 0, none) else addToSets kernel host ip4s ip6s m sets

end Adding

end Manager

def DataAttribute.timeout? : DataAttribute → Option (BitVec 32)
  | .timeout value => some value
  | .other => none

def Attribute.timeouts : Attribute → List (BitVec 32)
  | .data children => children.filterMap DataAttribute.timeout?
  | _ => []

/-- The set keeps its entries: there is no timeout, or the last one is zero. -/
def Message.Permanent (message : Message) : Prop :=
  ∀ timeout, (message.flatMap Attribute.timeouts).getLast? = some timeout → timeout = 0

/-- The kernel lists a set of this name that keeps its entries. -/
def KeepsEntries (all : List Message) (name : Bytes) : Prop :=
  ∃ message ∈ all, (Props.unmarshalMessage message).name = name ∧ message.Permanent

/-- The last of some timeouts decides, and else what was there before. -/
def lastKeeps (before : Bool) (timeouts : List (BitVec 32)) : Bool :=
  timeouts.foldl (fun _ timeout => decide (timeout = 0)) before

theorem lastKeeps_iff (timeouts : List (BitVec 32)) :
    lastKeeps true timeouts = true ↔ ∀ timeout, timeouts.getLast? = some timeout → timeout = 0 := by
  cases timeouts using List.reverseRecOn with
  | nil => simp [lastKeeps]
  | append_singleton front last =>
    simp [lastKeeps, List.foldl_append]

theorem isPersistent_parseAttrData (children : List DataAttribute) (p : Props) :
    (p.parseAttrData children).isPersistent =
      lastKeeps p.isPersistent (children.filterMap DataAttribute.timeout?) := by
  induction children generalizing p with
  | nil => rfl
  | cons child rest ih =>
    cases child with
    | other => exact ih p
    | timeout value => exact ih { p with isPersistent := decide (value = 0) }

theorem isPersistent_parseAttribute (p : Props) (a : Attribute) :
    (p.parseAttribute a).isPersistent = lastKeeps p.isPersistent a.timeouts := by
  cases a with
  | data children => exact isPersistent_parseAttrData children p
  | setName | typeName | family | other => rfl

theorem isPersistent_foldl (attrs : Message) (p : Props) :
    (attrs.foldl Props.parseAttribute p).isPersistent =
      lastKeeps p.isPersistent (attrs.flatMap Attribute.timeouts) := by
  induction attrs generalizing p with
  | nil => rfl
  | cons a rest ih =>
    rw [List.foldl_cons, ih, isPersistent_parseAttribute, List.flatMap_cons, lastKeeps, lastKeeps,
      lastKeeps, List.foldl_append]

theorem isPersistent_iff (message : Message) :
    (Props.unmarshalMessage message).isPersistent = true ↔ message.Permanent := by
  rw [Props.unmarshalMessage, isPersistent_foldl, lastKeeps_iff]
  rfl

variable {all : List Message} {header : Nat → Option HeaderPolicy}

theorem currentlyKnown_get {n : Bytes} {p : Props} (found : (currentlyKnown all).get n = some p) :
    ∃ message ∈ all, Props.unmarshalMessage message = p ∧ p.name = n := by
  have walk : ∀ (messages : List Message) (known : FiniteMap Bytes Props),
      (messages.foldl (fun known message =>
        known.set (Props.unmarshalMessage message).name (Props.unmarshalMessage message)) known).get
          n = some p →
      known.get n = some p ∨ ∃ message ∈ messages, Props.unmarshalMessage message = p ∧
        p.name = n := by
    intro messages
    induction messages with
    | nil => intro known found; exact .inl found
    | cons message rest ih =>
      intro known found
      obtain old | ⟨other, member, same⟩ := ih _ found
      · obtain ⟨rfl, rfl⟩ | ⟨-, older⟩ := FiniteMap.of_get_set old
        · exact .inr ⟨message, by simp, rfl, rfl⟩
        · exact .inl older
      · exact .inr ⟨other, by simp [member], same⟩
  obtain old | found := walk all ∅ found
  · cases old
  · exact found

def lasting (known : FiniteMap Bytes Props) (n : Bytes) : Bool :=
  match known.get n with
  | some p => p.hasFamily && p.isPersistent
  | none => false

theorem lasting_keepsEntries {n : Bytes}
    (lasts : lasting (currentlyKnown all) n = true) : KeepsEntries all n := by
  unfold lasting at lasts
  split at lasts
  next p found =>
    obtain ⟨message, member, rfl, name⟩ := currentlyKnown_get found
    rw [Bool.and_eq_true] at lasts
    exact ⟨message, member, name, (isPersistent_iff message).mp lasts.2⟩
  next => cases lasts

/-- What the manager relies on after a part of the configuration. -/
structure Config.Sound (known : FiniteMap Bytes Props) (m : Config) : Prop where
  named : ∀ n p, m.nameToIpset.get n = some p → p.isPersistent = lasting known n
  sets : ∀ host, ∀ set ∈ m.setsOf host, set.hasFamily = true

theorem not_hasFamily {p : Props} :
    p.family ≠ protoIPv4 ∧ p.family ≠ protoIPv6 ↔ p.hasFamily = false := by
  simp [Props.hasFamily]

/-- The properties found for a name: those that the kernel lists, or else, with a family from a
header query, those of a set whose entries are not cached. -/
structure Found (known : FiniteMap Bytes Props) (n : Bytes) (p : Props) : Prop where
  name : p.name = n
  family : p.hasFamily = true
  persistent : p.isPersistent = lasting known n

theorem findProps_found {m m' : Config} {n : Bytes} {p : Props}
    (result : findProps header (currentlyKnown all) m n = .ok (m', p)) :
    Found (currentlyKnown all) n p ∧ m'.nameToIpset = m.nameToIpset ∧
      m'.domainToIpsets = m.domainToIpsets := by
  unfold findProps at result
  cases listed : (currentlyKnown all).get n with
  | none =>
    rw [listed] at result
    cases result
  | some old =>
    simp only [listed] at result
    obtain ⟨message, -, -, name⟩ := currentlyKnown_get listed
    have lasts : lasting (currentlyKnown all) n = (old.hasFamily && old.isPersistent) := by
      simp [lasting, listed]
    split at result
    next odd =>
      rw [not_hasFamily.mp odd, Bool.false_and] at lasts
      unfold ipsetProps at result
      split at result
      next => cases result
      next queried asked =>
        cases result
        split at asked
        next family typeName reply =>
          split at asked
          next => cases asked
          next proper =>
            obtain rfl := Option.some.inj asked
            refine ⟨⟨rfl, ?_, lasts.symm⟩, rfl, rfl⟩
            cases known : Props.hasFamily ⟨n, typeName, family, false⟩ with
            | true => rfl
            | false => exact absurd (not_hasFamily.mpr known) proper
        next => cases asked
    next proper =>
      cases result
      have family : p.hasFamily = true := by
        cases known : p.hasFamily with
        | true => rfl
        | false => exact absurd (not_hasFamily.mpr known) proper
      rw [family, Bool.true_and] at lasts
      exact ⟨⟨name, family, lasts.symm⟩, rfl, rfl⟩

theorem ipsets_ok (names : List Bytes) {m m' : Config} {sets : List Props}
    (result : ipsets header (currentlyKnown all) m names = .ok (m', sets))
    (sound : m.Sound (currentlyKnown all)) :
    m'.Sound (currentlyKnown all) ∧ m'.domainToIpsets = m.domainToIpsets ∧
      sets.map (·.name) = names ∧ ∀ set ∈ sets, set.hasFamily = true := by
  induction names generalizing m sets with
  | nil =>
    cases result
    exact ⟨sound, rfl, rfl, fun _ member => by cases member⟩
  | cons n names ih =>
    unfold ipsets at result
    cases found : findProps header (currentlyKnown all) m n with
    | error error =>
      rw [found] at result
      cases result
    | ok pair =>
      obtain ⟨middle, p⟩ := pair
      rw [found] at result
      obtain ⟨proper, names_kept, domains_kept⟩ := findProps_found found
      cases rest : ipsets header (currentlyKnown all)
          { middle with nameToIpset := middle.nameToIpset.set n p } names with
      | error error =>
        simp only [bind, Except.bind, rest] at result
        cases result
      | ok last =>
        obtain ⟨final, others⟩ := last
        simp only [bind, Except.bind, rest] at result
        cases result
        have middle_sound : Config.Sound (currentlyKnown all)
            { middle with nameToIpset := middle.nameToIpset.set n p } := by
          constructor
          · intro other q stored
            obtain ⟨rfl, rfl⟩ | ⟨-, old⟩ := FiniteMap.of_get_set stored
            · exact proper.persistent
            · rw [names_kept] at old
              exact sound.named other q old
          · intro host set member
            apply sound.sets host set
            simpa [Config.setsOf, domains_kept] using member
        obtain ⟨final_sound, domains, named, families⟩ := ih rest middle_sound
        refine ⟨final_sound, domains.trans domains_kept, ?_, ?_⟩
        · rw [List.map_cons, named, proper.name]
        · intro set member
          obtain rfl | later := List.mem_cons.mp member
          · exact proper.family
          · exact families set later

theorem setsOf_addHosts (hosts : List Bytes) (m : Config) (sets : List Props) (host : Bytes) :
    (m.addHosts hosts sets).setsOf host =
      m.setsOf host ++ hosts.flatMap fun other => if other = host then sets else [] := by
  induction hosts generalizing m with
  | nil => simp [Config.addHosts]
  | cons first rest ih =>
    rw [Config.addHosts, List.foldl_cons, ← Config.addHosts, ih, Config.setsOf, FiniteMap.get_set,
      List.flatMap_cons]
    by_cases here : first = host
    · subst here
      simp [Config.setsOf]
    · simp [Config.setsOf, here, Ne.symm here]

theorem nameToIpset_addHosts (hosts : List Bytes) (m : Config) (sets : List Props) :
    (m.addHosts hosts sets).nameToIpset = m.nameToIpset := by
  induction hosts generalizing m with
  | nil => rfl
  | cons first rest ih =>
    rw [Config.addHosts, List.foldl_cons, ← Config.addHosts, ih]

/-- The names that the lines of a configuration have for a host, in their order. -/
def configuredNames (toLower : Bytes → Bytes) (lines : List Bytes) (host : Bytes) : List Bytes :=
  lines.flatMap fun line =>
    match parseIpsetConfigLine toLower line with
    | .ok (hosts, names) => hosts.flatMap fun other => if other = host then names else []
    | .error _ => []

theorem parseLines_ok {toLower : Bytes → Bytes} (lines : List Bytes) {m m' : Config}
    (result : parseLines toLower header (currentlyKnown all) m lines = .ok m')
    (sound : m.Sound (currentlyKnown all)) :
    m'.Sound (currentlyKnown all) ∧ ∀ host, (m'.setsOf host).map (·.name) =
      (m.setsOf host).map (·.name) ++ configuredNames toLower lines host := by
  induction lines generalizing m with
  | nil =>
    cases result
    exact ⟨sound, fun host => by simp [configuredNames]⟩
  | cons line lines ih =>
    unfold parseLines at result
    cases parsed : parseIpsetConfigLine toLower line with
    | error error =>
      rw [parsed] at result
      cases result
    | ok pair =>
      obtain ⟨hosts, names⟩ := pair
      rw [parsed] at result
      cases found : ipsets header (currentlyKnown all) m names with
      | error error =>
        simp only [bind, Except.bind, found] at result
        cases result
      | ok pair =>
        obtain ⟨middle, sets⟩ := pair
        simp only [bind, Except.bind, found] at result
        obtain ⟨middle_sound, domains, named, families⟩ := ipsets_ok names found sound
        have same : ∀ host, middle.setsOf host = m.setsOf host := by
          intro host
          rw [Config.setsOf, domains]
          rfl
        have added : (middle.addHosts hosts sets).Sound (currentlyKnown all) := by
          constructor
          · rw [nameToIpset_addHosts]
            exact middle_sound.named
          · intro host set member
            rw [setsOf_addHosts] at member
            obtain old | new := List.mem_append.mp member
            · exact middle_sound.sets host set old
            · obtain ⟨other, -, here⟩ := List.mem_flatMap.mp new
              split at here
              · exact families set here
              · cases here
        obtain ⟨final_sound, final⟩ := ih result added
        refine ⟨final_sound, ?_⟩
        intro host
        have spread : (hosts.flatMap fun other => if other = host then sets else []).map
            (·.name) = hosts.flatMap fun other => if other = host then names else [] := by
          rw [List.map_flatMap]
          apply List.flatMap_congr
          intro other _
          split
          · exact named
          · rfl
        rw [final, setsOf_addHosts, same, List.map_append, spread, List.append_assoc]
        congr 1
        simp [configuredNames, parsed]

/-- What an accepted configuration gives the manager. -/
theorem parseIpsetConfig_ok {toLower : Bytes → Bytes} {lines : List Bytes} {m : Config}
    (accepted : parseIpsetConfig toLower header all lines = .ok m) :
    m.Sound (currentlyKnown all) ∧
      ∀ host, (m.setsOf host).map (·.name) = configuredNames toLower lines host := by
  have start : Config.new.Sound (currentlyKnown all) :=
    ⟨fun _ _ found => (nomatch found), fun _ _ member => (nomatch member)⟩
  obtain ⟨sound, names⟩ := parseLines_ok lines accepted start
  refine ⟨sound, fun host => ?_⟩
  rw [names host]
  rfl

def BehindDot (host suffix : Bytes) : Prop := ∃ front, host = front ++ dot :: suffix

def AtLabel (host suffix : Bytes) : Prop := suffix = host ∨ BehindDot host suffix

/-- The names are those of the longest of some suffixes that there are names for, or those of the
empty host. -/
inductive Longest (among : Bytes → Prop) (configured : Bytes → List Bytes) : List Bytes → Prop
  | suffix (suffix : Bytes) : among suffix → configured suffix ≠ [] →
    (∀ other, among other → configured other ≠ [] → other.length ≤ suffix.length) →
    Longest among configured (configured suffix)
  | root : (∀ other, among other → configured other = []) →
    Longest among configured (configured [])

theorem behindDot_cons {c : BitVec 8} {host suffix : Bytes} :
    BehindDot (c :: host) suffix ↔ if c = dot then AtLabel host suffix else BehindDot host suffix := by
  constructor
  · rintro ⟨front, split⟩
    cases front with
    | nil =>
      obtain ⟨rfl, rfl⟩ := List.cons.inj split
      rw [if_pos rfl]
      exact .inl rfl
    | cons first front =>
      obtain ⟨rfl, rest⟩ := List.cons.inj split
      split
      · exact .inr ⟨front, rest⟩
      · exact ⟨front, rest⟩
  · intro below
    split at below
    next isDot =>
      subst isDot
      obtain rfl | ⟨front, rfl⟩ := below
      · exact ⟨[], rfl⟩
      · exact ⟨dot :: front, rfl⟩
    next =>
      obtain ⟨front, rfl⟩ := below
      exact ⟨c :: front, rfl⟩

theorem AtLabel.length_le {host suffix : Bytes} (at_label : AtLabel host suffix) :
    suffix.length ≤ host.length := by
  obtain rfl | ⟨front, rfl⟩ := at_label
  · exact Nat.le_refl _
  · rw [List.length_append, List.length_cons]
    omega

theorem Longest.congr {among other : Bytes → Prop} {configured : Bytes → List Bytes}
    {names : List Bytes} (longest : Longest among configured names)
    (same : ∀ suffix, configured suffix ≠ [] → (among suffix ↔ other suffix)) :
    Longest other configured names := by
  cases longest with
  | suffix suffix found some_names longer =>
    exact .suffix suffix ((same suffix some_names).mp found) some_names fun rival there names =>
      longer rival ((same rival names).mpr there) names
  | root none =>
    apply Longest.root
    intro rival there
    by_contra names
    exact names (none rival ((same rival names).mpr there))

section Lookup
variable {m : Config} {configured : Bytes → List Bytes}

theorem setsOf_eq_nil_iff (names : ∀ host, (m.setsOf host).map (·.name) = configured host)
    (host : Bytes) : m.setsOf host = [] ↔ configured host = [] := by
  rw [← names host, List.map_eq_nil_iff]

/-- The lookup of a host, from what the loop finds behind its first dot. -/
theorem lookupHost_of_rest (names : ∀ host, (m.setsOf host).map (·.name) = configured host)
    {host : Bytes}
    (rest : Longest (BehindDot host) configured ((m.lookupRest host).map (·.name))) :
    Longest (AtLabel host) configured ((m.lookupHost host).map (·.name)) := by
  unfold Config.lookupHost
  by_cases empty : m.setsOf host = []
  · have nothing := (setsOf_eq_nil_iff names host).mp empty
    simp only [empty, ne_eq, not_true_eq_false, if_false]
    apply rest.congr
    intro suffix some_names
    constructor
    · exact .inr
    · rintro (rfl | behind)
      · exact absurd nothing some_names
      · exact behind
  · simp only [ne_eq, empty, not_false_eq_true, if_true, names]
    apply Longest.suffix host (.inl rfl)
    · exact fun none => empty ((setsOf_eq_nil_iff names host).mpr none)
    · exact fun other at_label _ => at_label.length_le

theorem lookupRest_longest (names : ∀ host, (m.setsOf host).map (·.name) = configured host)
    (host : Bytes) :
    Longest (BehindDot host) configured ((m.lookupRest host).map (·.name)) := by
  induction host with
  | nil =>
    rw [Config.lookupRest, names]
    apply Longest.root
    rintro other ⟨front, split⟩
    cases front <;> cases split
  | cons c host ih =>
    by_cases isDot : c = dot
    · have here : m.lookupRest (c :: host) = m.lookupHost host := by
        rw [Config.lookupRest, if_pos isDot]
        rfl
      rw [here]
      apply (lookupHost_of_rest names ih).congr
      intro suffix _
      rw [behindDot_cons, if_pos isDot]
    · rw [Config.lookupRest, if_neg isDot]
      apply ih.congr
      intro suffix _
      rw [behindDot_cons, if_neg isDot]

theorem lookupHost_longest (names : ∀ host, (m.setsOf host).map (·.name) = configured host)
    (host : Bytes) : Longest (AtLabel host) configured ((m.lookupHost host).map (·.name)) :=
  lookupHost_of_rest names (lookupRest_longest names host)

theorem mem_lookupHost {host : Bytes} {set : Props} (member : set ∈ m.lookupHost host) :
    ∃ other, set ∈ m.setsOf other := by
  have rest : ∀ host, set ∈ m.lookupRest host → ∃ other, set ∈ m.setsOf other := by
    intro host
    induction host with
    | nil => exact fun found => ⟨[], found⟩
    | cons c host ih =>
      intro found
      unfold Config.lookupRest at found
      split at found
      · dsimp only at found
        split at found
        · exact ⟨host, found⟩
        · exact ih found
      · exact ih found
  unfold Config.lookupHost at member
  dsimp only at member
  split at member
  · exact ⟨host, member⟩
  · exact rest host member

end Lookup

/-- What the manager has done for a set, among the given addresses. -/
def Record.For (set : Props) (ips : List Address) : Record → Prop
  | .kernelAdd conn name entries _ => conn = set.family ∧ name = set.name ∧ entries ⊆ ips
  | .skipped name ip => name = set.name ∧ ip ∈ ips

def Passed (journal : List Record) (name : Bytes) (address : Net.IP) : Prop :=
  ∃ conn entries, .kernelAdd conn name entries true ∈ journal ∧ ∃ e ∈ entries, e.to16 = address

theorem Passed.mono {journal later : List Record} {name : Bytes} {address : Net.IP}
    (passed : Passed journal name address) (kept : journal ⊆ later) :
    Passed later name address := by
  obtain ⟨conn, entries, member, found⟩ := passed
  exact ⟨conn, entries, kept member, found⟩

namespace Manager

/-- What is in the cache the kernel has, in a set that keeps it; and the manager has never passed
over an address for another reason. -/
structure Inv (known : FiniteMap Bytes Props) (m : Manager) : Prop where
  config : m.config.Sound known
  cached : ∀ name address, (name, address) ∈ m.addedIPs →
    lasting known name = true ∧ Passed m.journal name address
  justified : ∀ i name ip, m.journal[i]? = some (.skipped name ip) →
    lasting known name = true ∧ Passed (m.journal.take i) name ip.to16

variable {known : FiniteMap Bytes Props} {m : Manager}

theorem Inv.record (inv : m.Inv known) {records : List Record}
    (cached : ∀ name ip, .skipped name ip ∈ records → (name, ip.to16) ∈ m.addedIPs) :
    Inv known { m with journal := m.journal ++ records } := by
  refine ⟨inv.config, ?_, ?_⟩
  · intro name address member
    obtain ⟨lasts, passed⟩ := inv.cached name address member
    exact ⟨lasts, passed.mono (List.subset_append_left _ _)⟩
  · intro i name ip here
    by_cases old : i < m.journal.length
    · rw [List.getElem?_append_left old] at here
      obtain ⟨lasts, passed⟩ := inv.justified i name ip here
      rw [List.take_append_of_le_length (Nat.le_of_lt old)]
      exact ⟨lasts, passed⟩
    · rw [List.getElem?_append_right (Nat.not_lt.mp old)] at here
      obtain ⟨lasts, passed⟩ := inv.cached name ip.to16 (cached name ip (List.mem_of_getElem? here))
      refine ⟨lasts, passed.mono ?_⟩
      rw [List.take_append, List.take_of_length_le (Nat.not_lt.mp old)]
      exact List.subset_append_left _ _

theorem remember_spec (entries : List Address) (m : Manager) (name : Bytes) :
    (m.remember name entries).config = m.config ∧
    (m.remember name entries).journal = m.journal ∧
    ∀ n address, (n, address) ∈ (m.remember name entries).addedIPs →
      (n, address) ∈ m.addedIPs ∨
        ((m.config.nameToIpset.get name).getD .zero).isPersistent = true ∧ n = name ∧
          ∃ e ∈ entries, e.to16 = address := by
  induction entries generalizing m with
  | nil => exact ⟨rfl, rfl, fun _ _ member => .inl member⟩
  | cons e rest ih =>
    rw [remember, List.foldl_cons, ← remember]
    split
    next persistent =>
      obtain ⟨config, journal, members⟩ := ih { m with addedIPs := m.addedIPs ++ [(name, e.to16)] }
      refine ⟨config, journal, ?_⟩
      intro n address member
      obtain old | ⟨_, here, other, found, same⟩ := members n address member
      · obtain older | new := List.mem_append.mp old
        · exact .inl older
        · obtain ⟨rfl, rfl⟩ := Prod.mk.inj (List.mem_singleton.mp new)
          exact .inr ⟨persistent, rfl, e, by simp, rfl⟩
      · exact .inr ⟨persistent, here, other, by simp [found], same⟩
    next =>
      obtain ⟨config, journal, members⟩ := ih m
      refine ⟨config, journal, ?_⟩
      intro n address member
      obtain old | ⟨persistent, here, other, found, same⟩ := members n address member
      · exact .inl old
      · exact .inr ⟨persistent, here, other, by simp [found], same⟩

theorem Inv.remember (inv : m.Inv known) {name : Bytes} {entries : List Address}
    {conn : ProtoFamily} (accepted : .kernelAdd conn name entries true ∈ m.journal) :
    (m.remember name entries).Inv known := by
  obtain ⟨config, journal, members⟩ := remember_spec entries m name
  refine ⟨config ▸ inv.config, ?_, ?_⟩
  · rw [journal]
    intro n address member
    obtain old | ⟨persistent, rfl, e, found, same⟩ := members n address member
    · exact inv.cached n address old
    · refine ⟨?_, conn, entries, accepted, e, found, same⟩
      cases stored : m.config.nameToIpset.get n with
      | none => simp [stored, Props.zero] at persistent
      | some p =>
        rw [stored] at persistent
        exact (inv.config.named n p stored).symm.trans persistent
  · rw [journal]
    exact inv.justified

structure Grows (P : Record → Prop) (m m' : Manager) : Prop where
  config : m'.config = m.config
  journal : ∃ records, m'.journal = m.journal ++ records ∧ ∀ r ∈ records, P r

theorem Grows.refl (P : Record → Prop) (m : Manager) : Grows P m m :=
  ⟨rfl, [], (List.append_nil _).symm, fun _ member => nomatch member⟩

theorem Grows.append {P : Record → Prop} (m : Manager) {records : List Record}
    (all : ∀ r ∈ records, P r) : Grows P m { m with journal := m.journal ++ records } :=
  ⟨rfl, records, rfl, all⟩

theorem Grows.subset {P : Record → Prop} {m m' : Manager} (grows : Grows P m m') :
    m.journal ⊆ m'.journal := by
  obtain ⟨_, records, same, _⟩ := grows
  rw [same]
  exact List.subset_append_left _ _

theorem Grows.trans {P : Record → Prop} {m m' m'' : Manager} (first : Grows P m m')
    (second : Grows P m' m'') : Grows P m m'' := by
  obtain ⟨config, before, same, all⟩ := first
  obtain ⟨config', after, same', all'⟩ := second
  refine ⟨config'.trans config, before ++ after, by rw [same', same, List.append_assoc], ?_⟩
  exact fun r member => (List.mem_append.mp member).elim (all r) (all' r)

theorem Grows.imp {P Q : Record → Prop} {m m' : Manager} (grows : Grows P m m')
    (implies : ∀ r, P r → Q r) : Grows Q m m' := by
  obtain ⟨config, records, same, all⟩ := grows
  exact ⟨config, records, same, fun r member => implies r (all r member)⟩

/-- What one call of the manager does: the invariant stays, and without an error all of the
addresses have been passed to the set. -/
structure Served (known : FiniteMap Bytes Props) (m : Manager) (set : Props) (ips : List Address)
    (result : Manager × Nat × Option AddError) : Prop where
  inv : result.1.Inv known
  grows : Grows (Record.For set ips) m result.1
  passed : result.2.2 = none → ∀ ip ∈ ips, Passed result.1.journal set.name ip.to16

theorem addIPs_served (kernel : Nat → Bool) (inv : m.Inv known) (host : Bytes) (set : Props)
    (ips : List Address) : Served known m set ips (m.addIPs kernel host set ips) := by
  unfold addIPs
  split
  next empty =>
    refine ⟨inv, .refl _ m, fun _ ip member => ?_⟩
    rw [List.length_eq_zero_iff.mp empty] at member
    cases member
  next =>
    extract_lets has skipping entries n ok asking
    have skips : ∀ name ip, .skipped name ip ∈ (ips.filter has).map (Record.skipped set.name) →
        (name, ip.to16) ∈ m.addedIPs := by
      intro name ip member
      obtain ⟨other, found, same⟩ := List.mem_map.mp member
      obtain ⟨rfl, rfl⟩ := Record.skipped.inj same
      exact of_decide_eq_true (List.mem_filter.mp found).2
    have skipping_inv : skipping.Inv known := inv.record skips
    have skipping_grows : Grows (Record.For set ips) m skipping := by
      refine .append m fun r member => ?_
      obtain ⟨ip, found, rfl⟩ := List.mem_map.mp member
      exact ⟨rfl, List.mem_of_mem_filter found⟩
    have cached : ∀ {ip}, has ip = true → Passed m.journal set.name ip.to16 :=
      fun there => (inv.cached _ _ (of_decide_eq_true there)).2
    split
    next all_cached =>
      refine ⟨skipping_inv, skipping_grows, fun _ ip member => ?_⟩
      have none_left : entries = [] := List.length_eq_zero_iff.mp all_cached
      have there : has ip = true := by
        simpa using List.filter_eq_nil_iff.mp none_left ip member
      exact (cached there).mono skipping_grows.subset
    next =>
      split
      next => exact ⟨skipping_inv, skipping_grows, fun fine => nomatch fine⟩
      next =>
        have asking_inv : asking.Inv known := by
          apply skipping_inv.record
          intro name ip member
          cases List.mem_singleton.mp member
        have asking_grows : Grows (Record.For set ips) m asking := by
          refine skipping_grows.trans (.append skipping fun r member => ?_)
          obtain rfl := List.mem_singleton.mp member
          exact ⟨rfl, rfl, List.filter_subset_self _⟩
        split
        next => exact ⟨asking_inv, asking_grows, fun fine => nomatch fine⟩
        next succeeded =>
          have accepted : .kernelAdd set.family set.name entries true ∈ asking.journal := by
            have fine : ok = true := by simpa using succeeded
            apply List.mem_append_right
            rw [fine]
            exact List.mem_singleton_self _
          obtain ⟨config, journal, -⟩ := remember_spec entries asking set.name
          refine ⟨asking_inv.remember accepted,
            ⟨config.trans asking_grows.config, journal ▸ asking_grows.journal⟩, ?_⟩
          intro _ ip member
          rw [journal]
          cases there : has ip with
          | true => exact (cached there).mono asking_grows.subset
          | false =>
            refine ⟨set.family, entries, accepted, ip, ?_, rfl⟩
            exact List.mem_filter.mpr ⟨member, by simp [there]⟩

end Manager

/-- A call of `Add`. -/
structure Call where
  host : Bytes
  ip4s : List Address
  ip6s : List Address

def Call.addresses (call : Call) (family : ProtoFamily) : List Address :=
  if family = protoIPv4 then call.ip4s else if family = protoIPv6 then call.ip6s else []

/-- The record is for one of the sets, and its addresses are those of the call. -/
def Call.Asks (call : Call) (sets : List Props) (r : Record) : Prop :=
  ∃ set ∈ sets, r.For set (call.addresses set.family)

namespace Manager

variable {known : FiniteMap Bytes Props} {m : Manager}

theorem addToSets_served (kernel : Nat → Bool) (call : Call) (sets : List Props)
    (inv : m.Inv known) :
    let result := addToSets kernel call.host call.ip4s call.ip6s m sets
    result.1.Inv known ∧ Grows (call.Asks sets) m result.1 ∧ (result.2.2 = none → ∀ set ∈ sets,
      ∀ ip ∈ call.addresses set.family, Passed result.1.journal set.name ip.to16) := by
  induction sets generalizing m with
  | nil => exact ⟨inv, .refl _ m, fun _ _ member => by cases member⟩
  | cons set sets ih =>
    have first : Served known m set (call.addresses set.family)
        (if set.family = protoIPv4 then m.addIPs kernel call.host set call.ip4s
          else if set.family = protoIPv6 then m.addIPs kernel call.host set call.ip6s
          else (m, 0, some (.unexpectedFamily set.family set.name))) := by
      unfold Call.addresses
      split
      · exact addIPs_served kernel inv call.host set call.ip4s
      · split
        · exact addIPs_served kernel inv call.host set call.ip6s
        · exact ⟨inv, .refl _ m, fun fine => nomatch fine⟩
    unfold addToSets
    generalize (if set.family = protoIPv4 then m.addIPs kernel call.host set call.ip4s
      else if set.family = protoIPv6 then m.addIPs kernel call.host set call.ip6s
      else (m, 0, some (.unexpectedFamily set.family set.name))) = result at first
    obtain ⟨middle, nn, err⟩ := result
    have asked : Grows (call.Asks (set :: sets)) m middle :=
      first.grows.imp fun r given => ⟨set, List.mem_cons_self, given⟩
    cases err with
    | some err => exact ⟨first.inv, asked, fun fine => nomatch fine⟩
    | none =>
      obtain ⟨final_inv, grows, passed⟩ := ih first.inv
      refine ⟨final_inv, asked.trans (grows.imp fun r ⟨other, member, given⟩ =>
        ⟨other, List.mem_cons_of_mem _ member, given⟩), ?_⟩
      intro fine other member ip given
      obtain rfl | later := List.mem_cons.mp member
      · exact (first.passed rfl ip given).mono grows.subset
      · exact passed fine other later ip given

theorem add_served (kernel : Nat → Bool) (call : Call) (inv : m.Inv known) :
    let result := m.add kernel call.host call.ip4s call.ip6s
    result.1.Inv known ∧ Grows (call.Asks (m.config.lookupHost call.host)) m result.1 ∧
      (result.2.2 = none → ∀ set ∈ m.config.lookupHost call.host, ∀ ip ∈ call.addresses set.family,
        Passed result.1.journal set.name ip.to16) := by
  unfold add
  dsimp only
  split
  next empty =>
    refine ⟨inv, .refl _ m, fun _ set member => ?_⟩
    rw [List.length_eq_zero_iff.mp empty] at member
    cases member
  next => exact addToSets_served kernel call _ inv

def machine (kernel : Nat → Bool) :
    Transition.Machine Manager Call (Nat × Option AddError) where
  step m call := m.add kernel call.host call.ip4s call.ip6s

theorem run_inv (kernel : Nat → Bool) (calls : List Call) (inv : m.Inv known) :
    ((machine kernel).run m calls).Inv known ∧
      ((machine kernel).run m calls).config = m.config := by
  induction calls generalizing m with
  | nil => exact ⟨inv, rfl⟩
  | cons call rest ih =>
    obtain ⟨next_inv, grows, -⟩ := add_served kernel call inv
    obtain ⟨final_inv, config⟩ := ih next_inv
    exact ⟨final_inv, config.trans grows.config⟩

theorem inv_new {config : Config} (sound : config.Sound known) : (new config).Inv known :=
  ⟨sound, fun _ _ member => (nomatch member), fun _ _ _ here => (nomatch here)⟩

end Manager

end AdGuardHome.Ipset
