import AdGuardHome.Lib.Machine
import AdGuardHome.Strings
import AdGuardHome.Lib.FiniteMap

/-! Package `whois`: what is read from a response of a server. -/
namespace AdGuardHome.Whois

open AdGuardHome.Strings

/-- Cuts the value so that it fits, with three dots in place of what is cut. -/
def trimValue (s : Bytes) (max : Nat) : Bytes :=
  if s.length ≤ max then s else s.take (max - 3) ++ lit "..."

def isWHOISComment (data : Bytes) : Bool :=
  data.isEmpty || data.head? == some 0x23 || data.head? == some 0x25

/-- `bytes.Cut` at a colon. -/
def cut (l : Bytes) : Option (Bytes × Bytes) :=
  let before := l.takeWhile (· != 0x3A)
  if before.length = l.length then none else some (before, l.drop (before.length + 1))

/-- The key and the value of a line that the loop does not skip. -/
def keyed (toLower : Bytes → Bytes) (l : Bytes) : Option (Bytes × Bytes) :=
  if isWHOISComment l then none
  else
    match cut l with
    | none => none
    | some (before, after) =>
      if trimSpace after = [] then none else some (toLower before, trimSpace after)

/-- The variables of the loop of `whoisParse`. -/
structure Parsed where
  info : FiniteMap Bytes Bytes
  orgname : Bytes

/-- The `switch` of `whoisParse`. -/
def Parsed.assign (maxLen : Nat) (parsed : Parsed) (line : Bytes × Bytes) : Parsed :=
  let (key, val) := line
  if key = lit "orgname" ∨ key = lit "org-name" then
    let val := trimValue val maxLen
    ⟨parsed.info.set (lit "orgname") val, val⟩
  else if key = lit "city" ∨ key = lit "country" then
    { parsed with info := parsed.info.set key (trimValue val maxLen) }
  else if key = lit "descr" ∨ key = lit "netname" then
    let val := if parsed.orgname = [] then val else parsed.orgname
    ⟨parsed.info.set (lit "orgname") val, val⟩
  else if key = lit "whois" then
    { parsed with info := parsed.info.set (lit "whois") val }
  else if key = lit "referralserver" then
    { parsed with info := parsed.info.set (lit "whois") (trimPrefix val (lit "whois://")) }
  else parsed

def keyedLines (toLower : Bytes → Bytes) (data : Bytes) : List (Bytes × Bytes) :=
  (split 0x0A data).filterMap (keyed toLower)

def whoisParse (toLower : Bytes → Bytes) (data : Bytes) (maxLen : Nat) : FiniteMap Bytes Bytes :=
  ((keyedLines toLower data).foldl (Parsed.assign maxLen) ⟨∅, []⟩).info

structure Info where
  city : Bytes
  country : Bytes
  orgname : Bytes
deriving DecidableEq

/-- `Info{}`. -/
def Info.empty : Info := ⟨[], [], []⟩

def Info.ofParsed (kv : FiniteMap Bytes Bytes) : Info where
  city := (kv.get (lit "city")).getD []
  country := (kv.get (lit "country")).getD []
  orgname := (kv.get (lit "orgname")).getD []

section Parsing

def valuesOf (first second : Bytes) (lines : List (Bytes × Bytes)) : List Bytes :=
  (lines.filter fun line => line.1 = first ∨ line.1 = second).map Prod.snd

def lastOrgname (lines : List (Bytes × Bytes)) : Option Bytes :=
  (valuesOf (lit "orgname") (lit "org-name") lines).getLast?

/-- The first of the descriptions, that is taken where there is no name. -/
def firstDescr (lines : List (Bytes × Bytes)) : Option Bytes :=
  (valuesOf (lit "descr") (lit "netname") lines).head?

def Bounded (maxLen : Nat) (info : Info) : Prop :=
  info.city.length ≤ maxLen ∧ info.country.length ≤ maxLen ∧ info.orgname.length ≤ maxLen

instance (maxLen : Nat) (info : Info) : Decidable (Bounded maxLen info) :=
  inferInstanceAs (Decidable (_ ∧ _))

/-- The name is the last one, or else the first description, cut or not. -/
def NamedAfter (maxLen : Nat) (lines : List (Bytes × Bytes)) (orgname : Bytes) : Prop :=
  match (lastOrgname lines).or (firstDescr lines) with
  | some val => orgname = val ∨ orgname = trimValue val maxLen
  | none => orgname = []

variable {maxLen : Nat}

theorem length_trimValue (long : 3 < maxLen) (s : Bytes) :
    (trimValue s maxLen).length ≤ maxLen := by
  unfold trimValue
  split
  · assumption
  · have dots : (lit "...").length = 3 := rfl
    rw [List.length_append, List.length_take, dots]
    omega

theorem trimValue_eq_nil {s : Bytes} : trimValue s maxLen = [] ↔ s = [] := by
  unfold trimValue
  split
  · rfl
  · rename_i longer
    constructor
    · intro cut_away
      exact absurd (List.append_eq_nil_iff.mp cut_away).2 (by decide)
    · rintro rfl
      exact absurd (Nat.zero_le _) longer

theorem keyed_value {toLower : Bytes → Bytes} {l : Bytes} {line : Bytes × Bytes}
    (found : keyed toLower l = some line) : line.2 ≠ [] := by
  unfold keyed at found
  split at found
  · cases found
  · split at found
    · cases found
    · split at found
      · cases found
      · rename_i filled
        obtain rfl := Option.some.inj found
        exact filled

theorem keyedLines_value {toLower : Bytes → Bytes} {data : Bytes} :
    ∀ line ∈ keyedLines toLower data, line.2 ≠ [] := by
  intro line member
  obtain ⟨l, _, found⟩ := List.mem_filterMap.mp member
  exact keyed_value found

/-- The name after some lines: the last one cut, or else the first description uncut. -/
def orgnameAfter (maxLen : Nat) (lines : List (Bytes × Bytes)) : Option Bytes :=
  ((lastOrgname lines).map fun val => trimValue val maxLen).or (firstDescr lines)

structure Parsed.After (maxLen : Nat) (lines : List (Bytes × Bytes)) (parsed : Parsed) : Prop where
  orgname : parsed.orgname = (orgnameAfter maxLen lines).getD []
  found : parsed.info.get (lit "orgname") = orgnameAfter maxLen lines
  city : ∀ val, parsed.info.get (lit "city") = some val → val.length ≤ maxLen
  country : ∀ val, parsed.info.get (lit "country") = some val → val.length ≤ maxLen

theorem valuesOf_append (first second : Bytes) (lines : List (Bytes × Bytes))
    (line : Bytes × Bytes) :
    valuesOf first second (lines ++ [line]) =
      valuesOf first second lines ++
        if line.1 = first ∨ line.1 = second then [line.2] else [] := by
  unfold valuesOf
  rw [List.filter_append, List.map_append]
  congr 1
  by_cases named : line.1 = first ∨ line.1 = second
  · simp [List.filter, named]
  · simp [List.filter, named]

theorem lastOrgname_append (lines : List (Bytes × Bytes)) (line : Bytes × Bytes) :
    lastOrgname (lines ++ [line]) =
      if line.1 = lit "orgname" ∨ line.1 = lit "org-name" then some line.2
      else lastOrgname lines := by
  unfold lastOrgname
  rw [valuesOf_append]
  split
  · exact List.getLast?_concat
  · rw [List.append_nil]

theorem firstDescr_append (lines : List (Bytes × Bytes)) (line : Bytes × Bytes) :
    firstDescr (lines ++ [line]) =
      (firstDescr lines).or
        (if line.1 = lit "descr" ∨ line.1 = lit "netname" then some line.2 else none) := by
  unfold firstDescr
  rw [valuesOf_append, List.head?_append]
  split <;> rfl

theorem orgnameAfter_ne_nil {lines : List (Bytes × Bytes)} (filled : ∀ line ∈ lines, line.2 ≠ [])
    {val : Bytes} (found : orgnameAfter maxLen lines = some val) : val ≠ [] := by
  have among : ∀ first second, ∀ val ∈ valuesOf first second lines, val ≠ [] := by
    intro first second val member
    obtain ⟨line, kept, rfl⟩ := List.mem_map.mp member
    exact filled line (List.mem_filter.mp kept).1
  rcases Option.or_eq_some_iff.mp found with named | ⟨_, described⟩
  · obtain ⟨name, last, rfl⟩ := Option.map_eq_some_iff.mp named
    have full : name ≠ [] := among _ _ name (List.mem_of_getLast? last)
    exact fun cut_away => full (trimValue_eq_nil.mp cut_away)
  · exact among _ _ val (List.mem_of_head? described)

namespace Parsed.After

variable {lines : List (Bytes × Bytes)} {parsed : Parsed} {line : Bytes × Bytes}

/-- A line that names no organisation changes nothing in the name. -/
theorem orgnameAfter_append_of_ne
    (unnamed : ¬ (line.1 = lit "orgname" ∨ line.1 = lit "org-name"))
    (plain : ¬ (line.1 = lit "descr" ∨ line.1 = lit "netname")) :
    orgnameAfter maxLen (lines ++ [line]) = orgnameAfter maxLen lines := by
  unfold orgnameAfter
  rw [lastOrgname_append, firstDescr_append, if_neg unnamed, if_neg plain, Option.or_none]

theorem start : After maxLen [] ⟨∅, []⟩ where
  orgname := rfl
  found := FiniteMap.get_empty _
  city _ found := by simp at found
  country _ found := by simp at found

theorem renamed (after : After maxLen lines parsed) {val : Bytes}
    (named : orgnameAfter maxLen (lines ++ [line]) = some val) :
    After maxLen (lines ++ [line]) ⟨parsed.info.set (lit "orgname") val, val⟩ where
  orgname := by rw [named]; rfl
  found := by rw [named]; exact FiniteMap.get_set_self _ _ _
  city other found := by
    rw [FiniteMap.get_set, if_neg (by decide)] at found
    exact after.city other found
  country other found := by
    rw [FiniteMap.get_set, if_neg (by decide)] at found
    exact after.country other found

/-- Another field is set, with the name as it was. -/
theorem updated (after : After maxLen lines parsed) {key val : Bytes}
    (other : key ≠ lit "orgname")
    (short : key = lit "city" ∨ key = lit "country" → val.length ≤ maxLen)
    (same : orgnameAfter maxLen (lines ++ [line]) = orgnameAfter maxLen lines) :
    After maxLen (lines ++ [line]) { parsed with info := parsed.info.set key val } where
  orgname := by rw [same]; exact after.orgname
  found := by
    rw [same, FiniteMap.get_set, if_neg other.symm]
    exact after.found
  city found_val found := by
    rw [FiniteMap.get_set] at found
    split at found
    · rename_i city
      obtain rfl := Option.some.inj found
      exact short (.inl city.symm)
    · exact after.city found_val found
  country found_val found := by
    rw [FiniteMap.get_set] at found
    split at found
    · rename_i country
      obtain rfl := Option.some.inj found
      exact short (.inr country.symm)
    · exact after.country found_val found

theorem assign (long : 3 < maxLen) (filled : ∀ line ∈ lines, line.2 ≠ [])
    (after : After maxLen lines parsed) :
    After maxLen (lines ++ [line]) (parsed.assign maxLen line) := by
  obtain ⟨key, val⟩ := line
  unfold Parsed.assign
  dsimp only
  split
  · rename_i named
    apply after.renamed
    unfold orgnameAfter
    rw [lastOrgname_append, if_pos named]
    rfl
  rename_i unnamed
  split
  · rename_i place
    have plain : ¬ (key = lit "descr" ∨ key = lit "netname") := by
      rcases place with rfl | rfl <;> decide
    exact after.updated (fun named => unnamed (.inl named)) (fun _ => length_trimValue long val)
      (orgnameAfter_append_of_ne unnamed plain)
  rename_i elsewhere
  split
  · rename_i described
    apply after.renamed
    have appended : orgnameAfter maxLen (lines ++ [(key, val)]) =
        (orgnameAfter maxLen lines).or (some val) := by
      unfold orgnameAfter
      rw [lastOrgname_append, firstDescr_append, if_neg unnamed, if_pos described, Option.or_assoc]
    rw [appended, after.orgname]
    cases before : orgnameAfter maxLen lines with
    | none => rfl
    | some name =>
      have full : name ≠ [] := orgnameAfter_ne_nil filled before
      rw [Option.getD_some, if_neg full]
      rfl
  rename_i plain
  have same : orgnameAfter maxLen (lines ++ [(key, val)]) = orgnameAfter maxLen lines :=
    orgnameAfter_append_of_ne unnamed plain
  have redirect : ¬ (lit "whois" = lit "city" ∨ lit "whois" = lit "country") := by decide
  split
  · exact after.updated (by decide) (fun place => absurd place redirect) same
  split
  · exact after.updated (by decide) (fun place => absurd place redirect) same
  · exact ⟨same ▸ after.orgname, same ▸ after.found, after.city, after.country⟩

theorem fold (long : 3 < maxLen) (rest : List (Bytes × Bytes))
    (filled : ∀ line ∈ lines ++ rest, line.2 ≠ []) (after : After maxLen lines parsed) :
    After maxLen (lines ++ rest) (rest.foldl (Parsed.assign maxLen) parsed) := by
  induction rest generalizing lines parsed with
  | nil => simpa using after
  | cons line rest ih =>
    have whole : lines ++ line :: rest = (lines ++ [line]) ++ rest := by simp
    rw [whole] at filled ⊢
    have earlier : ∀ line ∈ lines, line.2 ≠ [] := fun old member =>
      filled old (List.mem_append_left _ (List.mem_append_left _ member))
    exact ih filled (after.assign long earlier)

end Parsed.After

theorem whoisParse_after (toLower : Bytes → Bytes) (data : Bytes) (long : 3 < maxLen) :
    Parsed.After maxLen (keyedLines toLower data)
      ((keyedLines toLower data).foldl (Parsed.assign maxLen) ⟨∅, []⟩) := by
  have filled : ∀ line ∈ [] ++ keyedLines toLower data, line.2 ≠ [] := keyedLines_value
  exact Parsed.After.start.fold long (keyedLines toLower data) filled

theorem orgname_ofParsed (toLower : Bytes → Bytes) (data : Bytes) (long : 3 < maxLen) :
    (Info.ofParsed (whoisParse toLower data maxLen)).orgname =
      (orgnameAfter maxLen (keyedLines toLower data)).getD [] := by
  have after := whoisParse_after toLower data long
  exact congrArg (Option.getD · []) after.found

theorem places_ofParsed (toLower : Bytes → Bytes) (data : Bytes) (long : 3 < maxLen) :
    (Info.ofParsed (whoisParse toLower data maxLen)).city.length ≤ maxLen ∧
      (Info.ofParsed (whoisParse toLower data maxLen)).country.length ≤ maxLen := by
  have after := whoisParse_after toLower data long
  have short : ∀ found : Option Bytes, (∀ val, found = some val → val.length ≤ maxLen) →
      (found.getD []).length ≤ maxLen := by
    intro found all
    cases found with
    | none => exact Nat.zero_le _
    | some val => exact all val rfl
  exact ⟨short _ after.city, short _ after.country⟩

/-- There is a name, or the first description is short enough as it is. -/
def NamedOrShort (maxLen : Nat) (lines : List (Bytes × Bytes)) : Prop :=
  (lastOrgname lines).isSome = true ∨ ∀ val ∈ firstDescr lines, val.length ≤ maxLen

theorem namedAfter_ofParsed (toLower : Bytes → Bytes) (data : Bytes) (long : 3 < maxLen) :
    NamedAfter maxLen (keyedLines toLower data)
      (Info.ofParsed (whoisParse toLower data maxLen)).orgname := by
  rw [orgname_ofParsed toLower data long]
  unfold NamedAfter orgnameAfter
  cases lastOrgname (keyedLines toLower data) with
  | some name => exact .inr rfl
  | none =>
    cases firstDescr (keyedLines toLower data) with
    | some descr => exact .inl rfl
    | none => rfl

theorem bounded_ofParsed_iff (toLower : Bytes → Bytes) (data : Bytes) (long : 3 < maxLen) :
    Bounded maxLen (Info.ofParsed (whoisParse toLower data maxLen)) ↔
      NamedOrShort maxLen (keyedLines toLower data) := by
  obtain ⟨city, country⟩ := places_ofParsed toLower data long
  have all : Bounded maxLen (Info.ofParsed (whoisParse toLower data maxLen)) ↔
      ((orgnameAfter maxLen (keyedLines toLower data)).getD []).length ≤ maxLen := by
    rw [← orgname_ofParsed toLower data long]
    exact ⟨fun bounded => bounded.2.2, fun short => ⟨city, country, short⟩⟩
  rw [all]
  unfold NamedOrShort orgnameAfter
  cases lastOrgname (keyedLines toLower data) with
  | some name => simpa using length_trimValue long name
  | none =>
    cases firstDescr (keyedLines toLower data) with
    | some descr => simp
    | none => simp

end Parsing

/-- Functions of other packages: `strings.ToLower`, the host that `net.SplitHostPort` finds,
`net.JoinHostPort`, `netutil.IsSpecialPurpose` and the text of an address. -/
structure Funcs (Addr : Type) where
  toLower : Bytes → Bytes
  splitHostPort : Bytes → Option Bytes
  joinHostPort : Bytes → Bytes → Bytes
  isSpecialPurpose : Addr → Bool
  format : Addr → Bytes

/-- The fields of `Default` that the answers depend on. -/
structure Config where
  serverAddr : Bytes
  portStr : Bytes
  cacheTTL : Int
  maxRedirects : Nat
  maxInfoLen : Nat

/-- What a server sends back for a message; the connection may fail or send too much. -/
abbrev Network := Bytes → Bytes → Option Bytes

structure CacheItem where
  expiry : Int
  info : Info
deriving DecidableEq

abbrev Cache (Addr : Type) := FiniteMap Addr CacheItem

/-- What `Process` returns. -/
structure Reply where
  wi : Option Info
  changed : Bool

/-- A call of `Process`, with the times before and after the queries, or a dropped item. -/
inductive Event (Addr : Type) where
  | process (ip : Addr) (now later : Int) (network : Network)
  | drop (ip : Addr)

section Processing

variable {Addr : Type} [DecidableEq Addr] (funcs : Funcs Addr) (conf : Config)

def defaultServer : Bytes := lit "whois.arin.net"

def query (network : Network) (target serverAddr : Bytes) : Option Bytes :=
  let flagged :=
    if funcs.splitHostPort serverAddr = some defaultServer then lit "n + " ++ target else target
  network serverAddr (flagged ++ [0x0D, 0x0A])

/-- The loop of `queryAll`, with the number of redirects that are left. -/
def followRedirects (network : Network) (target : Bytes) :
    Nat → Bytes → Option (FiniteMap Bytes Bytes)
  | 0, _ => none
  | left + 1, server => do
    let data ← query funcs network target server
    let info := whoisParse funcs.toLower data conf.maxInfoLen
    match info.get (lit "whois") with
    | none => some info
    | some redir =>
      let redir := funcs.toLower redir
      followRedirects network target left
        (if (funcs.splitHostPort redir).isNone then funcs.joinHostPort redir conf.portStr
        else redir)

def queryAll (network : Network) (target : Bytes) : Option (FiniteMap Bytes Bytes) :=
  followRedirects funcs conf network target conf.maxRedirects
    (funcs.joinHostPort conf.serverAddr conf.portStr)

def Info.nonempty (info : Info) : Option Info := if info = .empty then none else some info

def requestInfo (cache : Cache Addr) (ip : Addr) (cached : Option Info) (later : Int)
    (network : Network) : Cache Addr × Reply :=
  let store (info : Info) := cache.set ip ⟨later + conf.cacheTTL, info⟩
  match queryAll funcs conf network (funcs.format ip) with
  | none => (store .empty, ⟨none, true⟩)
  | some kv =>
    let info := Info.ofParsed kv
    (store info, ⟨info.nonempty, decide (cached = none ∨ cached ≠ some info)⟩)

def findInCache (cache : Cache Addr) (ip : Addr) (now : Int) : Option Info × Bool :=
  match cache.get ip with
  | none => (none, false)
  | some item => (some item.info, decide (item.expiry < now))

def process (cache : Cache Addr) (ip : Addr) (now later : Int) (network : Network) :
    Cache Addr × Reply :=
  if funcs.isSpecialPurpose ip then (cache, ⟨none, false⟩)
  else
    match findInCache cache ip now with
    | (some wi, false) => (cache, ⟨wi.nonempty, false⟩)
    | (wi, _) => requestInfo funcs conf cache ip wi later network

def machine : Transition.Machine (Cache Addr) (Event Addr) (Option Reply) where
  step cache
    | .process ip now later network =>
      let (cache, reply) := process funcs conf cache ip now later network
      (cache, some reply)
    | .drop ip => (cache.delete ip, none)

abbrev History (Addr : Type) := List (Event Addr × Option Reply)

def lastReturned (ip : Addr) : History Addr → Option (Option Info)
  | [] => none
  | (.process other _ _ _, some reply) :: earlier =>
    if other = ip then some reply.wi else lastReturned ip earlier
  | _ :: earlier => lastReturned ip earlier

/-- Where the address is cached, the answer tells whether what is returned has changed. -/
def Told (recorded : Cache Addr × History Addr) : Event Addr → Prop
  | .process ip now later network =>
    let reply := (process funcs conf recorded.1 ip now later network).2
    (recorded.1.get ip).isSome = true →
      (reply.changed = true ↔ lastReturned ip recorded.2 ≠ some reply.wi)
  | .drop _ => True

/-- The address is not cached with nothing known, long enough for the item to expire, when the
next query fails. -/
def NotFailingAgain (cache : Cache Addr) : Event Addr → Prop
  | .process ip now _ network =>
    ¬ ∃ expiry, cache.get ip = some ⟨expiry, .empty⟩ ∧ expiry < now ∧
      queryAll funcs conf network (funcs.format ip) = none
  | .drop _ => True

variable {funcs conf}

/-- Every cached item is what was last returned for its address. -/
def Remembers (funcs : Funcs Addr) (recorded : Cache Addr × History Addr) : Prop :=
  ∀ ip item, recorded.1.get ip = some item →
    funcs.isSpecialPurpose ip = false ∧ lastReturned ip recorded.2 = some item.info.nonempty

/-- The ways a call of `Process` ends. -/
theorem process_cases (cache : Cache Addr) (ip : Addr) (now later : Int) (network : Network) :
    (funcs.isSpecialPurpose ip = true ∧
      process funcs conf cache ip now later network = (cache, ⟨none, false⟩)) ∨
    (∃ item, cache.get ip = some item ∧ ¬ item.expiry < now ∧
      funcs.isSpecialPurpose ip = false ∧
      process funcs conf cache ip now later network = (cache, ⟨item.info.nonempty, false⟩)) ∨
    ((∀ item, cache.get ip = some item → item.expiry < now) ∧
      funcs.isSpecialPurpose ip = false ∧
      process funcs conf cache ip now later network =
        requestInfo funcs conf cache ip ((cache.get ip).map (·.info)) later network) := by
  unfold process
  cases special : funcs.isSpecialPurpose ip with
  | true => exact .inl ⟨rfl, rfl⟩
  | false =>
    right
    rw [if_neg Bool.false_ne_true]
    cases found : cache.get ip with
    | none =>
      right
      exact ⟨fun _ cached => (nomatch cached), rfl, by simp [findInCache, found]⟩
    | some item =>
      by_cases expired : item.expiry < now
      · right
        refine ⟨fun cached same => Option.some.inj same ▸ expired, rfl, ?_⟩
        simp [findInCache, found, expired]
      · left
        exact ⟨item, rfl, expired, rfl, by simp [findInCache, found, expired]⟩

/-- The ways a request ends: the queries fail, or they find some information. -/
theorem requestInfo_cases (cache : Cache Addr) (ip : Addr) (cached : Option Info) (later : Int)
    (network : Network) :
    (queryAll funcs conf network (funcs.format ip) = none ∧
      requestInfo funcs conf cache ip cached later network =
        (cache.set ip ⟨later + conf.cacheTTL, .empty⟩, ⟨none, true⟩)) ∨
    (∃ kv, queryAll funcs conf network (funcs.format ip) = some kv ∧
      requestInfo funcs conf cache ip cached later network =
        (cache.set ip ⟨later + conf.cacheTTL, .ofParsed kv⟩,
          ⟨(Info.ofParsed kv).nonempty,
            decide (cached = none ∨ cached ≠ some (.ofParsed kv))⟩)) := by
  unfold requestInfo
  cases queryAll funcs conf network (funcs.format ip) with
  | none => exact .inl ⟨rfl, rfl⟩
  | some kv => exact .inr ⟨kv, rfl, rfl⟩

theorem Info.nonempty_empty : Info.empty.nonempty = none := rfl

theorem Info.nonempty_inj {first second : Info} : first.nonempty = second.nonempty ↔
    first = second := by
  unfold Info.nonempty
  constructor
  · intro same
    split at same <;> split at same <;> simp_all
  · rintro rfl
    rfl

theorem lastReturned_cons (ip : Addr) (reply : Option Reply) (event : Event Addr)
    (history : History Addr) {other : Addr} {wi : Option Info} {changed : Bool}
    {now later : Int} {network : Network}
    (called : event = .process other now later network) (answered : reply = some ⟨wi, changed⟩) :
    lastReturned ip ((event, reply) :: history) =
      if other = ip then some wi else lastReturned ip history := by
  subst called answered
  rfl

/-- A call that leaves the cache alone, or stores for its address what it returns. -/
theorem Remembers.returned {recorded : Cache Addr × History Addr}
    (remembers : Remembers funcs recorded) {ip : Addr} {now later : Int} {network : Network}
    {cache : Cache Addr} {reply : Reply}
    (kept : ∀ other, other ≠ ip → cache.get other = recorded.1.get other)
    (stored : ∀ item, cache.get ip = some item →
      funcs.isSpecialPurpose ip = false ∧ reply.wi = item.info.nonempty) :
    Remembers funcs (cache, (.process ip now later network, some reply) :: recorded.2) := by
  intro other item found
  rw [lastReturned_cons other _ _ _ rfl rfl]
  by_cases same : ip = other
  · subst same
    rw [if_pos rfl]
    exact ⟨(stored item found).1, congrArg some (stored item found).2⟩
  · rw [if_neg same]
    have before : recorded.1.get other = some item := by
      rw [← kept other (Ne.symm same)]
      exact found
    exact remembers other item before

theorem Remembers.next {recorded : Cache Addr × History Addr}
    (remembers : Remembers funcs recorded) (event : Event Addr) :
    Remembers funcs ((machine funcs conf).recording.next recorded event) := by
  cases event with
  | drop ip =>
    intro other item found
    obtain ⟨_, cached⟩ := FiniteMap.of_get_delete found
    exact remembers other item cached
  | process ip now later network =>
    show Remembers funcs ((process funcs conf recorded.1 ip now later network).1,
      (.process ip now later network,
        some (process funcs conf recorded.1 ip now later network).2) :: recorded.2)
    apply remembers.returned
    · intro other different
      rcases process_cases recorded.1 ip now later network with
        ⟨_, done⟩ | ⟨_, _, _, _, done⟩ | ⟨_, _, done⟩
      · rw [done]
      · rw [done]
      · rcases requestInfo_cases recorded.1 ip _ later network with ⟨_, request⟩ | ⟨_, _, request⟩
        · rw [done, request, FiniteMap.get_set, if_neg different]
        · rw [done, request, FiniteMap.get_set, if_neg different]
    · intro item found
      rcases process_cases recorded.1 ip now later network with
        ⟨special, done⟩ | ⟨cached, hit, _, usual, done⟩ | ⟨_, usual, done⟩
      · rw [done] at found
        have := (remembers ip item found).1
        simp [special] at this
      · rw [done] at found ⊢
        obtain rfl := Option.some.inj (hit.symm.trans found)
        exact ⟨usual, rfl⟩
      · rcases requestInfo_cases recorded.1 ip _ later network with ⟨_, request⟩ | ⟨kv, _, request⟩
        · rw [done, request, FiniteMap.get_set_self] at found
          rw [done, request]
          obtain rfl := Option.some.inj found
          exact ⟨usual, Info.nonempty_empty.symm⟩
        · rw [done, request, FiniteMap.get_set_self] at found
          rw [done, request]
          obtain rfl := Option.some.inj found
          exact ⟨usual, rfl⟩

theorem Remembers.told_iff {recorded : Cache Addr × History Addr}
    (remembers : Remembers funcs recorded) (event : Event Addr) :
    Told funcs conf recorded event ↔ NotFailingAgain funcs conf recorded.1 event := by
  cases event with
  | drop ip => exact Iff.rfl
  | process ip now later network =>
    simp only [Told, NotFailingAgain]
    cases cached : recorded.1.get ip with
    | none =>
      simp only [reduceCtorEq, false_and, exists_false, not_false_eq_true, iff_true]
      exact fun stored => absurd stored Bool.false_ne_true
    | some item =>
      obtain ⟨usual, last⟩ := remembers ip item cached
      rw [last]
      rcases @process_cases Addr _ funcs conf recorded.1 ip now later network with
        ⟨special, _⟩ | ⟨other, hit, fresh, _, done⟩ | ⟨stale, _, done⟩
      · simp [special] at usual
      · -- the item that is still good is returned as before
        obtain rfl := Option.some.inj (cached.symm.trans hit)
        rw [done]
        have good : ¬ ∃ expiry, some item = some ⟨expiry, Info.empty⟩ ∧ expiry < now ∧
            queryAll funcs conf network (funcs.format ip) = none := by
          rintro ⟨expiry, same, expired, _⟩
          obtain rfl := Option.some.inj same
          exact fresh expired
        rw [iff_true_right good]
        simp
      · rw [done, cached]
        have expired := stale item cached
        rcases @requestInfo_cases Addr _ funcs conf recorded.1 ip (some item.info) later network
          with ⟨failed, request⟩ | ⟨kv, found, request⟩
        · -- the queries fail: that is told as a change, and is one if something was known
          rw [Option.map_some, request]
          obtain ⟨expiry, info⟩ := item
          by_cases unknown : info = .empty
          · subst unknown
            simp [failed, expired, Info.nonempty_empty]
          · have known : info.nonempty ≠ none := by
              rw [← Info.nonempty_empty]
              exact fun same => unknown (Info.nonempty_inj.mp same)
            simp [unknown, known]
        · -- the stored information is compared with what is found
          rw [Option.map_some, request]
          have changes : Info.nonempty item.info ≠ (Info.ofParsed kv).nonempty ↔
              item.info ≠ .ofParsed kv := not_congr Info.nonempty_inj
          simp [found, changes]

theorem told_run_iff (events : List (Event Addr)) :
    (machine funcs conf).recording.Allowed (Told funcs conf) (∅, []) events ↔
      (machine funcs conf).Allowed (NotFailingAgain funcs conf) ∅ events := by
  have initially : Remembers funcs (∅, []) := fun ip item found => by simp at found
  exact (machine funcs conf).recording_allowed_iff (Remembers funcs)
    (fun _ event remembers => remembers.next event)
    (fun _ event remembers => remembers.told_iff event) initially events

/-- The fields are short just where a name is given or the first description is short, and the
answers for a cached address tell about changes just where no query fails again. -/
theorem process_whois (funcs : Funcs Addr) (conf : Config) (long : 3 < conf.maxInfoLen) :
    (∀ data,
      Bounded conf.maxInfoLen (.ofParsed (whoisParse funcs.toLower data conf.maxInfoLen)) ∧
          NamedAfter conf.maxInfoLen (keyedLines funcs.toLower data)
            (Info.ofParsed (whoisParse funcs.toLower data conf.maxInfoLen)).orgname ↔
        NamedOrShort conf.maxInfoLen (keyedLines funcs.toLower data)) ∧
    ∀ events,
      (machine funcs conf).recording.Allowed (Told funcs conf) (∅, []) events ↔
        (machine funcs conf).Allowed (NotFailingAgain funcs conf) ∅ events := by
  constructor
  · intro data
    rw [bounded_ofParsed_iff funcs.toLower data long]
    exact and_iff_left (namedAfter_ofParsed funcs.toLower data long)
  · exact told_run_iff

end Processing

/-- A server for two addresses, and a network that never answers. -/
private def asciiFuncs : Funcs Bool where
  toLower := toLowerASCII
  splitHostPort _ := none
  joinHostPort host port := host ++ lit ":" ++ port
  isSpecialPurpose := not
  format _ := lit "192.0.2.1"

private def shortFields : Config := ⟨lit "whois.example", lit "43", 10, 5, 4⟩

private def failingTwice : List (Event Bool) :=
  [.process true 0 1 fun _ _ => none, .process true 20 21 fun _ _ => none]

theorem process_whois_shortFields :
    Bounded 4 (.ofParsed (whoisParse toLowerASCII (lit "descr: Example\nOrgName: Ex") 4)) ∧
    ¬ (machine asciiFuncs shortFields).recording.Allowed (Told asciiFuncs shortFields) (∅, [])
      failingTwice := by
  obtain ⟨parsed, told⟩ := process_whois asciiFuncs shortFields (by decide)
  constructor
  · exact ((parsed (lit "descr: Example\nOrgName: Ex")).mpr (.inl (by decide +kernel))).1
  · rw [told failingTwice]
    rintro ⟨_, ⟨never, _⟩⟩
    exact never ⟨11, by decide +kernel⟩

/-- A description stands as it is, whatever its length. -/
theorem bounded_descr :
    ¬ Bounded 4 (.ofParsed (whoisParse toLowerASCII (lit "descr: Example") 4)) := by
  decide +kernel

end AdGuardHome.Whois
