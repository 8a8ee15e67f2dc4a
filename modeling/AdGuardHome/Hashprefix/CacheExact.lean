import AdGuardHome.Lib.BigEndian
import AdGuardHome.Lib.FiniteMap
import AdGuardHome.Lib.Machine
import AdGuardHome.Strings

namespace AdGuardHome.Hashprefix

open Strings

def dot : BitVec 8 := 46

/-- `hostnameHash`. -/
structure Hash where
  bytes : Bytes
  size : bytes.length = 32
deriving DecidableEq

/-- The labels of a name that follow its dots, each with all labels behind it. -/
def afterDots : Bytes → List Bytes
  | [] => []
  | byte :: rest => if byte = dot then rest :: afterDots rest else afterDots rest

/-- A name and all names that are left when labels are taken off its front. -/
def labelSuffixes (name : Bytes) : List Bytes := name :: afterDots name

def labelCount (name : Bytes) : Nat := name.count dot + 1

/-- The name is the host, or the host ends in a dot and the name. -/
def LabelSuffix (name host : Bytes) : Prop := name = host ∨ ∃ front, host = front ++ dot :: name

/-- Packages `sha256`, `publicsuffix` and `netutil` as far as they are used. A suffix that is under
ICANN is one of the host, and the list of such suffixes has none with more than four labels. -/
structure Names where
  sum256 : Bytes → Hash
  publicSuffix : Bytes → Bytes × Bool
  subdomains : Bytes → List Bytes
  subdomains_nil : subdomains [] = []
  subdomains_eq : ∀ domain, domain ≠ [] → subdomains domain = labelSuffixes domain
  publicSuffix_suffix : ∀ host, (publicSuffix host).2 = true →
    LabelSuffix (publicSuffix host).1 host
  publicSuffix_labels : ∀ host, (publicSuffix host).2 = true →
    labelCount (publicSuffix host).1 ≤ 4

/-- `subDomainNum`. -/
def subDomainNum : Nat := 4

/-- The walk of `LastIndexFunc` from the end of the host to its fourth dot: what it has passed. -/
def passed : Nat → Bytes → Bytes
  | _, [] => []
  | nDots, byte :: rest =>
    if byte = dot then
      if nDots + 1 = subDomainNum then [] else byte :: passed (nDots + 1) rest
    else byte :: passed nDots rest

def lastLabels (host : Bytes) : Bytes := (passed 0 host.reverse).reverse

namespace Names

variable (names : Names)

/-- The public suffix of a host under ICANN; the others do not count. -/
def icannSuffix (host : Bytes) : Bytes :=
  let (pubSuf, icann) := names.publicSuffix host
  if icann then pubSuf else []

/-- `hostnameToHashes`. -/
def hostnameToHashes (host : Bytes) : List Hash :=
  let pubSuf := names.icannSuffix host
  ((names.subdomains (lastLabels host)).takeWhile (· ≠ pubSuf)).map names.sum256

end Names

section Suffixes

variable {name other host : Bytes}

theorem LabelSuffix.trans (first : LabelSuffix name other) (second : LabelSuffix other host) :
    LabelSuffix name host := by
  rcases first with rfl | ⟨front, rfl⟩
  · exact second
  · rcases second with rfl | ⟨before, rfl⟩
    · exact .inr ⟨front, rfl⟩
    · exact .inr ⟨before ++ dot :: front, by simp⟩

theorem LabelSuffix.suffix (ends : LabelSuffix name host) : name <:+ host := by
  rcases ends with rfl | ⟨front, rfl⟩
  · exact List.suffix_refl _
  · exact ⟨front ++ [dot], by simp⟩

theorem LabelSuffix.count_le (ends : LabelSuffix name host) : name.count dot ≤ host.count dot :=
  ends.suffix.sublist.count_le dot

theorem LabelSuffix.total (first : LabelSuffix name host) (second : LabelSuffix other host) :
    LabelSuffix name other ∨ LabelSuffix other name := by
  rcases first with rfl | ⟨front, split⟩
  · exact .inr second
  rcases second with rfl | ⟨before, rest⟩
  · exact .inl (.inr ⟨front, split⟩)
  rw [split] at rest
  rcases List.append_eq_append_iff.mp rest with ⟨middle, _, tail⟩ | ⟨middle, _, tail⟩
  · cases middle with
    | nil => exact .inl (.inl (List.cons.inj tail).2)
    | cons byte middle => exact .inr (.inr ⟨middle, (List.cons.inj tail).2⟩)
  · cases middle with
    | nil => exact .inl (.inl (List.cons.inj tail).2.symm)
    | cons byte middle => exact .inl (.inr ⟨middle, (List.cons.inj tail).2⟩)

theorem mem_afterDots : name ∈ afterDots host ↔ ∃ front, host = front ++ dot :: name := by
  induction host with
  | nil => simp [afterDots]
  | cons byte rest ih =>
    rw [afterDots]
    constructor
    · intro member
      by_cases separates : byte = dot
      · rw [if_pos separates, List.mem_cons] at member
        rcases member with rfl | later
        · exact ⟨[], by rw [separates, List.nil_append]⟩
        · obtain ⟨front, rfl⟩ := ih.mp later
          exact ⟨byte :: front, rfl⟩
      · rw [if_neg separates] at member
        obtain ⟨front, rfl⟩ := ih.mp member
        exact ⟨byte :: front, rfl⟩
    · rintro ⟨front, split⟩
      cases front with
      | nil =>
        obtain ⟨rfl, rfl⟩ := List.cons.inj split
        rw [if_pos rfl]
        exact List.mem_cons_self
      | cons first front =>
        obtain ⟨rfl, rfl⟩ := List.cons.inj split
        have later := ih.mpr ⟨front, rfl⟩
        split
        next => exact List.mem_cons_of_mem _ later
        next => exact later

theorem mem_labelSuffixes : name ∈ labelSuffixes host ↔ LabelSuffix name host := by
  rw [labelSuffixes, List.mem_cons, mem_afterDots, LabelSuffix]

theorem labelSuffixes_shrink (host : Bytes) :
    (labelSuffixes host).Pairwise fun longer shorter => shorter.length < longer.length := by
  have below : ∀ name ∈ afterDots host, name.length < host.length := by
    intro name member
    obtain ⟨front, rfl⟩ := mem_afterDots.mp member
    simp only [List.length_append, List.length_cons]
    omega
  rw [labelSuffixes, List.pairwise_cons]
  refine ⟨below, ?_⟩
  clear below
  induction host with
  | nil => exact List.Pairwise.nil
  | cons byte rest ih =>
    rw [afterDots]
    split
    next =>
      refine List.Pairwise.cons ?_ ih
      intro name member
      obtain ⟨front, rfl⟩ := mem_afterDots.mp member
      simp only [List.length_append, List.length_cons]
      omega
    next => exact ih

end Suffixes

section LastLabels

/-- The walk ends with the bytes or in front of the fourth dot. -/
private theorem passed_spec (nDots : Nat) (bytes : Bytes) (few : nDots < subDomainNum) :
    (passed nDots bytes = bytes ∧ nDots + bytes.count dot < subDomainNum) ∨
      ∃ rest, bytes = passed nDots bytes ++ dot :: rest ∧
        nDots + (passed nDots bytes).count dot + 1 = subDomainNum := by
  induction bytes generalizing nDots with
  | nil => exact .inl ⟨rfl, few⟩
  | cons byte rest ih =>
    by_cases separates : byte = dot
    · subst separates
      by_cases last : nDots + 1 = subDomainNum
      · refine .inr ⟨rest, ?_, ?_⟩ <;> simp [passed, last]
      · have next : nDots + 1 < subDomainNum := by omega
        simp only [passed, if_true, if_neg last, List.count_cons_self, List.cons_append,
          List.cons.injEq, true_and]
        rcases ih (nDots + 1) next with ⟨all, count⟩ | ⟨behind, split, count⟩
        · exact .inl ⟨all, by omega⟩
        · exact .inr ⟨behind, split, by omega⟩
    · simp only [passed, if_neg separates, List.count_cons_of_ne separates, List.cons_append,
        List.cons.injEq, true_and]
      exact ih nDots few

theorem lastLabels_spec (host : Bytes) :
    (lastLabels host = host ∧ host.count dot < subDomainNum) ∨
      ∃ front, host = front ++ dot :: lastLabels host ∧
        (lastLabels host).count dot + 1 = subDomainNum := by
  have few : 0 < subDomainNum := by decide
  rcases passed_spec 0 host.reverse few with ⟨all, count⟩ | ⟨rest, split, count⟩
  · refine .inl ⟨?_, ?_⟩
    · rw [lastLabels, all, List.reverse_reverse]
    · rwa [List.count_reverse, Nat.zero_add] at count
  · refine .inr ⟨rest.reverse, ?_, ?_⟩
    · have back := congrArg List.reverse split
      rw [List.reverse_reverse, List.reverse_append, List.reverse_cons, List.append_assoc] at back
      exact back
    · rw [lastLabels, List.count_reverse]
      omega

theorem labelSuffix_lastLabels {name host : Bytes} :
    LabelSuffix name (lastLabels host) ↔ LabelSuffix name host ∧ labelCount name ≤ 4 := by
  have cut := lastLabels_spec host
  constructor
  · intro ends
    have few := ends.count_le
    rcases cut with ⟨whole, count⟩ | ⟨front, split, count⟩
    · rw [whole] at ends few
      exact ⟨ends, by rw [labelCount]; exact Nat.succ_le_of_lt (Nat.lt_of_le_of_lt few count)⟩
    · refine ⟨ends.trans (.inr ⟨front, split⟩), ?_⟩
      rw [labelCount]
      exact Nat.le_trans (Nat.succ_le_succ few) (Nat.le_of_eq count)
  · rintro ⟨ends, few⟩
    rcases cut with ⟨whole, _⟩ | ⟨front, split, count⟩
    · rwa [whole]
    · have lasts : LabelSuffix (lastLabels host) host := .inr ⟨front, split⟩
      rcases ends.total lasts with shorter | longer
      · exact shorter
      · rcases longer with same | ⟨before, more⟩
        · exact .inl same.symm
        · -- A name with the last labels behind a dot has a fifth label.
          have many : name.count dot = before.count dot + ((lastLabels host).count dot + 1) := by
            rw [more, List.count_append, List.count_cons_self]
          rw [count] at many
          rw [labelCount, many, subDomainNum] at few
          omega

end LastLabels

/-- What comes before a name in a list that shrinks are the longer ones. -/
private theorem mem_takeWhile_ne {list : List Bytes} {last name : Bytes}
    (shrinks : list.Pairwise fun longer shorter => shorter.length < longer.length)
    (present : last ∈ list ∨ last = []) :
    name ∈ list.takeWhile (· ≠ last) ↔ name ∈ list ∧ last.length < name.length := by
  induction list with
  | nil => simp
  | cons head rest ih =>
    obtain ⟨below, shrinks⟩ := List.pairwise_cons.mp shrinks
    by_cases stops : head = last
    · subst stops
      rw [List.takeWhile_cons_of_neg (by simp)]
      constructor
      · intro member
        cases member
      · rintro ⟨member, longer⟩
        rcases List.mem_cons.mp member with rfl | later
        · exact absurd longer (Nat.lt_irrefl _)
        · exact absurd (below name later) (Nat.lt_asymm longer)
    · have presentToo : last ∈ rest ∨ last = [] :=
        present.imp_left fun member => List.mem_of_ne_of_mem (Ne.symm stops) member
      have longest : last.length < head.length := by
        rcases presentToo with member | rfl
        · exact below last member
        · exact List.length_pos_of_ne_nil stops
      rw [List.takeWhile_cons_of_pos (by simpa using stops), List.mem_cons, List.mem_cons,
        ih shrinks presentToo]
      constructor
      · rintro (rfl | ⟨member, longer⟩)
        · exact ⟨.inl rfl, longest⟩
        · exact ⟨.inr member, longer⟩
      · rintro ⟨rfl | member, longer⟩
        · exact .inl rfl
        · exact .inr ⟨member, longer⟩

namespace Names

variable (names : Names)

/-- The name is one of the host, has at most four labels, and is longer than the public suffix. -/
structure Checked (host name : Bytes) : Prop where
  suffix : LabelSuffix name host
  labels : labelCount name ≤ 4
  longer : (names.icannSuffix host).length < name.length

private theorem icannSuffix_cases (host : Bytes) :
    LabelSuffix (names.icannSuffix host) (lastLabels host) ∨ names.icannSuffix host = [] := by
  rw [icannSuffix]
  by_cases icann : (names.publicSuffix host).2 = true
  · simp only [icann, if_true]
    exact .inl (labelSuffix_lastLabels.mpr
      ⟨names.publicSuffix_suffix host icann, names.publicSuffix_labels host icann⟩)
  · simp only [icann]
    exact .inr rfl

theorem mem_hostnameToHashes {host : Bytes} {hash : Hash} :
    hash ∈ names.hostnameToHashes host ↔
      ∃ name, names.Checked host name ∧ names.sum256 name = hash := by
  have members : ∀ name, name ∈ (names.subdomains (lastLabels host)).takeWhile
      (· ≠ names.icannSuffix host) ↔ names.Checked host name := by
    intro name
    by_cases empty : lastLabels host = []
    · rw [empty, names.subdomains_nil]
      constructor
      · intro member
        cases member
      · intro checked
        have ends := labelSuffix_lastLabels.mpr ⟨checked.suffix, checked.labels⟩
        have short := ends.suffix.length_le
        rw [empty] at short
        exact absurd (Nat.lt_of_lt_of_le checked.longer short) (Nat.not_lt_zero _)
    · rw [names.subdomains_eq _ empty,
        mem_takeWhile_ne (labelSuffixes_shrink _)
          ((names.icannSuffix_cases host).imp_left mem_labelSuffixes.mpr),
        mem_labelSuffixes, labelSuffix_lastLabels]
      exact ⟨fun ⟨⟨suffix, labels⟩, longer⟩ => ⟨suffix, labels, longer⟩,
        fun checked => ⟨⟨checked.suffix, checked.labels⟩, checked.longer⟩⟩
  simp only [hostnameToHashes, List.mem_map, members]

end Names

open Transition

/-- `prefix`, and what the cache is read with. -/
abbrev Prefix := Bytes

/-- `prefixLen`. -/
def prefixLen : Nat := 2

/-- `hashSize`. -/
def hashSize : Nat := 32

/-- `hexSize`. -/
def hexSize : Nat := hashSize * 2

/-- `expirySize`. -/
def expirySize : Nat := 8

namespace Hash

/-- `copy` into a new hash. -/
def copy (data : Bytes) : Hash where
  bytes := (data ++ List.replicate 32 0).take 32
  size := by simp

def pref (hash : Hash) : Prefix := hash.bytes.take prefixLen

end Hash

def second : Int := 1000000000

/-- `Time.Unix`, for nanoseconds since the epoch. -/
def unix (t : Int) : BitVec 64 := BitVec.ofInt 64 (t / second)

/-- `cacheItem`. -/
structure CacheItem where
  expiry : Int
  hashes : List Hash

/-- `toCacheItem`. -/
def toCacheItem (data : Bytes) : CacheItem :=
  let t := (BitVec.ofNat 64 (BigEndian.get (data.take expirySize))).toInt * second
  let data := data.drop expirySize
  let rounds := (data.length + (hashSize - 1)) / hashSize
  ⟨t, (List.range rounds).map fun round =>
    Hash.copy ((data.drop (hashSize * round)).take hashSize)⟩

/-- `fromCacheItem`. -/
def fromCacheItem (item : CacheItem) : Bytes :=
  BigEndian.put expirySize (unix item.expiry).toNat ++ item.hashes.flatMap (·.bytes)

/-- `findMatch`. -/
def findMatch (a b : List Hash) : Bool := a.any fun hash => hash ∈ b

abbrev Cache := FiniteMap Prefix Bytes

/-- What `findInCache` returns: an answer from the cache, or the hashes to request. -/
inductive Found where
  | cached (blocked : Bool)
  | missing (hashesToRequest : List Hash)

namespace Cache

/-- The loop of `findInCache`. The slice of hashes is `front ++ rest`: the hashes to request, `i` of
them, are written over the start of what the loop has passed. -/
def scan (cache : Cache) (now : Int) (i : Nat) (front : List Hash) : List Hash → Found
  | [] => if i = 0 then .cached false else .missing (front.take i)
  | hash :: rest =>
    match cache.get hash.pref with
    | none => scan cache now (i + 1) ((front ++ [hash]).set i hash) rest
    | some data =>
      let item := toCacheItem data
      if item.expiry < now then scan cache now (i + 1) ((front ++ [hash]).set i hash) rest
      else if findMatch (front ++ hash :: rest) item.hashes then .cached true
      else scan cache now i (front ++ [hash]) rest

/-- `findInCache`. -/
def findInCache (cache : Cache) (now : Int) (hashes : List Hash) : Found :=
  cache.scan now 0 [] hashes

end Cache

/-- A record of an answer. -/
inductive RR where
  | txt (strs : List Bytes)
  | other

/-- `appendHashesFromTXT`. -/
def appendHashesFromTXT (hashes : List Hash) (txt : List Bytes) : List Hash :=
  txt.foldl (fun hashes t =>
    if t.length ≠ hexSize then hashes
    else
      match Hex.decode t with
      | none => hashes
      | some buf => hashes ++ [Hash.copy buf]) hashes

/-- `processAnswer`. -/
def processAnswer (hashesToRequest : List Hash) (answer : List RR) : Bool × List Hash :=
  let receivedHashes := answer.foldl (fun receivedHashes a =>
    match a with
    | .txt txt => appendHashesFromTXT receivedHashes txt
    | .other => receivedHashes) []
  (findMatch hashesToRequest receivedHashes, receivedHashes)

/-- What an upstream may say instead of an answer, and what `Check` makes of it. -/
inductive CheckError where
  | gettingHashes (err : Bytes)
deriving DecidableEq

/-- One call of `setCache`: the time, and what the cache drops at it. -/
structure Moment where
  now : Int
  dropped : List Prefix

/-- What one `Check` meets: the time at which it reads the cache, the upstream, the order in which
it walks over `hashToStore`, and what happens at each call of `setCache`. -/
structure Surroundings where
  now : Int
  exchange : Bytes → Except Bytes (List RR)
  order : WalkOrder Prefix
  moments : Nat → Moment

/-- The cache while `storeInCache` runs, with the number of calls of `setCache`. -/
structure Storing where
  cache : Cache
  stores : Nat

/-- The map `hashToStore`. -/
def hashToStore (respHashes : List Hash) : FiniteMap Prefix (List Hash) :=
  respHashes.foldl (fun hashToStore hash =>
    hashToStore.set hash.pref ((hashToStore.get hash.pref).getD [] ++ [hash])) ∅

/-- What `Check` returns, and the question if it has asked the upstream. -/
structure Checked where
  outcome : Except CheckError Bool
  question : Option Bytes

/-- `Checker`, but for the cache and the upstream. -/
structure Checker where
  names : Names
  txtSuffix : Bytes
  cacheTime : Int

namespace Checker

variable (c : Checker)

/-- `getQuestion`. -/
def getQuestion (hashes : List Hash) : Bytes :=
  hashes.flatMap (fun hash => Hex.encode hash.pref ++ [dot]) ++ c.txtSuffix

/-- `setCache`. -/
def setCache (moments : Nat → Moment) (st : Storing) (pref : Prefix) (hashes : List Hash) :
    Storing :=
  let moment := moments st.stores
  let item : CacheItem := ⟨moment.now + c.cacheTime, hashes⟩
  ⟨(st.cache.set pref (fromCacheItem item)).deleteAll moment.dropped, st.stores + 1⟩

/-- The first loop of `storeInCache`. -/
def storeFound (moments : Nat → Moment) (table : FiniteMap Prefix (List Hash)) :
    List Prefix → Storing → Storing
  | [], st => st
  | pref :: rest, st =>
    storeFound moments table rest (c.setCache moments st pref ((table.get pref).getD []))

/-- The second loop of `storeInCache`. -/
def storeMissing (moments : Nat → Moment) : List Hash → Storing → Storing
  | [], st => st
  | hash :: rest, st =>
    match st.cache.get hash.pref with
    | none => storeMissing moments rest (c.setCache moments st hash.pref [])
    | some _ => storeMissing moments rest st

/-- `storeInCache`. -/
def storeInCache (sur : Surroundings) (cache : Cache) (hashesToRequest respHashes : List Hash) :
    Cache :=
  let table := hashToStore respHashes
  let prefs := sur.order.arrange table.keys
  let st := c.storeFound sur.moments table prefs ⟨cache, 0⟩
  (c.storeMissing sur.moments hashesToRequest st).cache

/-- `Check`. -/
def check (cache : Cache) (host : Bytes) (sur : Surroundings) : Cache × Checked :=
  let hashes := c.names.hostnameToHashes host
  match cache.findInCache sur.now hashes with
  | .cached blocked => (cache, ⟨.ok blocked, none⟩)
  | .missing hashesToRequest =>
    let question := c.getQuestion hashesToRequest
    match sur.exchange question with
    | .error err => (cache, ⟨.error (.gettingHashes err), some question⟩)
    | .ok resp =>
      let (matched, receivedHashes) := processAnswer hashesToRequest resp
      (c.storeInCache sur cache hashesToRequest receivedHashes, ⟨.ok matched, some question⟩)

end Checker

inductive Event where
  | check (host : Bytes) (sur : Surroundings)
  /-- The cache drops an item by itself. -/
  | evict (pref : Prefix)

def Checker.machine (c : Checker) : Machine Cache Event (Option Checked) where
  step cache
  | .check host sur =>
    let (cache, checked) := c.check cache host sur
    (cache, some checked)
  | .evict pref => (cache.delete pref, none)

@[simp] theorem Hash.copy_bytes (hash : Hash) : Hash.copy hash.bytes = hash := by
  obtain ⟨bytes, size⟩ := hash
  rw [copy, Hash.mk.injEq]
  exact List.take_left' size

private theorem copies_flatMap (hashes : List Hash) :
    ((List.range hashes.length).map fun round =>
      Hash.copy (((hashes.flatMap (·.bytes)).drop (hashSize * round)).take hashSize)) = hashes := by
  induction hashes with
  | nil => rfl
  | cons hash rest ih =>
    have first : (hash.bytes ++ rest.flatMap (·.bytes)).take hashSize = hash.bytes :=
      List.take_left' hash.size
    have later : ∀ round, (hash.bytes ++ rest.flatMap (·.bytes)).drop (hashSize * (round + 1)) =
        (rest.flatMap (·.bytes)).drop (hashSize * round) := by
      intro round
      have behind : (hash.bytes ++ rest.flatMap (·.bytes)).drop hashSize =
          rest.flatMap (·.bytes) := List.drop_left' hash.size
      rw [Nat.mul_succ, Nat.add_comm, ← List.drop_drop, behind]
    rw [List.length_cons, List.range_succ_eq_map, List.map_cons, List.map_map, List.flatMap_cons]
    refine congrArg₂ List.cons ?_ ?_
    · rw [Nat.mul_zero, List.drop_zero, first, Hash.copy_bytes]
    · simpa only [Function.comp_def, Nat.succ_eq_add_one, later] using ih

private theorem length_flatMap (hashes : List Hash) :
    (hashes.flatMap (·.bytes)).length = hashSize * hashes.length := by
  induction hashes with
  | nil => rfl
  | cons hash rest ih =>
    rw [List.flatMap_cons, List.length_append, hash.size, ih, List.length_cons, Nat.mul_succ,
      Nat.add_comm, hashSize]

theorem toCacheItem_fromCacheItem (item : CacheItem) :
    toCacheItem (fromCacheItem item) = ⟨(unix item.expiry).toInt * second, item.hashes⟩ := by
  have expiry := BigEndian.length_put expirySize (unix item.expiry).toNat
  have rounds : (hashSize * item.hashes.length + (hashSize - 1)) / hashSize =
      item.hashes.length := by
    rw [hashSize]
    omega
  have whole : (unix item.expiry).toNat % 256 ^ expirySize = (unix item.expiry).toNat :=
    Nat.mod_eq_of_lt (unix item.expiry).isLt
  simp only [toCacheItem, fromCacheItem, List.take_left' expiry, List.drop_left' expiry,
    BigEndian.get_put, whole, BitVec.ofNat_toNat, BitVec.setWidth_eq, length_flatMap, rounds,
    copies_flatMap]

/-- All texts of the `TXT` records of an answer. -/
def texts (answer : List RR) : List Bytes :=
  answer.flatMap fun
    | .txt txt => txt
    | .other => []

def decodeText (t : Bytes) : Option Hash :=
  if t.length ≠ hexSize then none else (Hex.decode t).map Hash.copy

theorem decodeText_encode (hash : Hash) : decodeText (Hex.encode hash.bytes) = some hash := by
  have size : (Hex.encode hash.bytes).length = hexSize := by
    rw [Hex.length_encode, hash.size]
    rfl
  rw [decodeText, if_neg (not_not.mpr size), Hex.decode_encode, Option.map_some, Hash.copy_bytes]

theorem appendHashesFromTXT_eq (hashes : List Hash) (txt : List Bytes) :
    appendHashesFromTXT hashes txt = hashes ++ txt.filterMap decodeText := by
  rw [appendHashesFromTXT]
  induction txt generalizing hashes with
  | nil => exact (List.append_nil hashes).symm
  | cons t rest ih =>
    rw [List.foldl_cons, ih]
    by_cases size : t.length = hexSize
    · cases decoded : Hex.decode t with
      | none => simp [decodeText, size, decoded]
      | some buf => simp [decodeText, size, decoded]
    · simp [decodeText, size]

theorem processAnswer_hashes (asked : List Hash) (answer : List RR) :
    (processAnswer asked answer).2 = (texts answer).filterMap decodeText := by
  have walk : ∀ (received : List Hash), answer.foldl (fun received a =>
      match a with
      | .txt txt => appendHashesFromTXT received txt
      | .other => received) received = received ++ (texts answer).filterMap decodeText := by
    induction answer with
    | nil => intro received; exact (List.append_nil received).symm
    | cons a rest ih =>
      intro received
      rw [List.foldl_cons, ih]
      cases a with
      | txt txt => simp [appendHashesFromTXT_eq, texts]
      | other => simp [texts]
  exact walk []

section HashToStore

private theorem gather (respHashes : List Hash) (table : FiniteMap Prefix (List Hash))
    (pref : Prefix) :
    ((respHashes.foldl (fun table hash =>
      table.set hash.pref ((table.get hash.pref).getD [] ++ [hash])) table).get pref).getD [] =
      (table.get pref).getD [] ++ respHashes.filter (·.pref = pref) := by
  induction respHashes generalizing table with
  | nil => simp
  | cons hash rest ih =>
    rw [List.foldl_cons, ih, FiniteMap.get_set]
    by_cases same : pref = hash.pref
    · simp [same]
    · simp [same, Ne.symm same]

theorem getD_hashToStore (respHashes : List Hash) (pref : Prefix) :
    ((hashToStore respHashes).get pref).getD [] = respHashes.filter (·.pref = pref) := by
  rw [hashToStore, gather, FiniteMap.get_empty]
  rfl

theorem mem_keys_hashToStore {respHashes : List Hash} {pref : Prefix} :
    pref ∈ (hashToStore respHashes).keys ↔ ∃ hash ∈ respHashes, hash.pref = pref := by
  have walk : ∀ (table : FiniteMap Prefix (List Hash)),
      pref ∈ (respHashes.foldl (fun table hash =>
        table.set hash.pref ((table.get hash.pref).getD [] ++ [hash])) table).keys ↔
        pref ∈ table.keys ∨ ∃ hash ∈ respHashes, hash.pref = pref := by
    induction respHashes with
    | nil => simp
    | cons hash rest ih =>
      intro table
      rw [List.foldl_cons, ih, FiniteMap.mem_keys, FiniteMap.mem_keys, FiniteMap.get_set]
      by_cases same : pref = hash.pref
      · simp [same]
      · simp [same, Ne.symm same]
  have none : pref ∉ (∅ : FiniteMap Prefix (List Hash)).keys := AList.notMem_empty pref
  exact (walk ∅).trans (or_iff_right none)

end HashToStore

/-- The cache has an item for the prefix that has not expired by then. -/
def Cache.lasts (cache : Cache) (time : Int) (pref : Prefix) : Bool :=
  match cache.get pref with
  | none => false
  | some data => time ≤ (toCacheItem data).expiry

/-- The items have exactly the hashes of the database with their prefixes. -/
def Exact (db : List Hash) (cache : Cache) : Prop :=
  ∀ pref data, cache.get pref = some data →
    ∀ hash, hash ∈ (toCacheItem data).hashes ↔ hash ∈ db ∧ hash.pref = pref

section Find

variable {db : List Hash} {cache : Cache} {now : Int}

theorem findMatch_iff {a b : List Hash} : findMatch a b = true ↔ ∃ hash ∈ a, hash ∈ b := by
  simp [findMatch]

theorem lasts_iff {pref : Prefix} : cache.lasts now pref = true ↔
    ∃ data, cache.get pref = some data ∧ now ≤ (toCacheItem data).expiry := by
  rw [Cache.lasts]
  cases cache.get pref <;> simp

/-- What a look into the cache may give for some hashes. -/
inductive Right (db : List Hash) (cache : Cache) (now : Int) (hashes : List Hash) : Found → Prop
  | blocked {hash : Hash} (member : hash ∈ hashes) (lasts : cache.lasts now hash.pref = true)
      (bad : hash ∈ db) : Right db cache now hashes (.cached true)
  | clean (lasts : ∀ hash ∈ hashes, cache.lasts now hash.pref = true)
      (good : ∀ hash ∈ hashes, hash ∉ db) : Right db cache now hashes (.cached false)
  | missing {asked : List Hash} (some : asked ≠ [])
      (requested : asked = hashes.filter fun hash => !cache.lasts now hash.pref)
      (good : ∀ hash ∈ hashes, cache.lasts now hash.pref = true → hash ∉ db) :
      Right db cache now hashes (.missing asked)

/-- What holds within the loop: the start of the slice are the hashes to request, nothing in it is
new, and what is not requested is not in the database. -/
structure Scanned (db : List Hash) (cache : Cache) (now : Int) (passed front : List Hash)
    (i : Nat) : Prop where
  requested : front.take i = passed.filter fun hash => !cache.lasts now hash.pref
  within : i ≤ front.length
  known : ∀ hash ∈ front, hash ∈ passed
  good : ∀ hash ∈ passed, cache.lasts now hash.pref = true → hash ∉ db

variable {passed front : List Hash} {i : Nat} {hash : Hash}

theorem Scanned.ask (scanned : Scanned db cache now passed front i)
    (expired : cache.lasts now hash.pref = false) :
    Scanned db cache now (passed ++ [hash]) ((front ++ [hash]).set i hash) (i + 1) := by
  have room : i < (front ++ [hash]).length := by
    rw [List.length_append, List.length_singleton]
    exact Nat.lt_succ_of_le scanned.within
  refine ⟨?_, ?_, ?_, ?_⟩
  · rw [List.filter_append, ← scanned.requested, List.set_eq_take_append_cons_drop, if_pos room,
      List.take_append_of_le_length scanned.within]
    have start : (front.take i).length = i := List.length_take_of_le scanned.within
    rw [List.take_append, start, List.take_of_length_le (by rw [start]; omega)]
    simp [expired]
  · rw [List.length_set]
    exact room
  · intro other member
    rcases List.mem_or_eq_of_mem_set member with old | rfl
    · rcases List.mem_append.mp old with inFront | last
      · exact List.mem_append_left _ (scanned.known other inFront)
      · exact List.mem_append_right _ last
    · exact List.mem_append_right _ List.mem_cons_self
  · intro other member lasts
    rcases List.mem_append.mp member with old | last
    · exact scanned.good other old lasts
    · rw [List.mem_singleton.mp last, expired] at lasts
      exact absurd lasts Bool.false_ne_true

theorem Scanned.pass (scanned : Scanned db cache now passed front i)
    (lasts : cache.lasts now hash.pref = true) (absent : hash ∉ db) :
    Scanned db cache now (passed ++ [hash]) (front ++ [hash]) i := by
  refine ⟨?_, ?_, ?_, ?_⟩
  · rw [List.take_append_of_le_length scanned.within, scanned.requested, List.filter_append]
    simp [lasts]
  · rw [List.length_append]
    exact Nat.le_add_right_of_le scanned.within
  · intro other member
    rcases List.mem_append.mp member with old | last
    · exact List.mem_append_left _ (scanned.known other old)
    · exact List.mem_append_right _ last
  · intro other member lasts
    rcases List.mem_append.mp member with old | last
    · exact scanned.good other old lasts
    · rwa [List.mem_singleton.mp last]

/-- A match of what is left of the slice is one of the hashes, under the prefix just read. -/
theorem Scanned.match (scanned : Scanned db cache now passed front i) (exact : Exact db cache)
    {rest : List Hash} {data : Bytes} (present : cache.get hash.pref = some data)
    (lasts : cache.lasts now hash.pref = true)
    (found : findMatch (front ++ hash :: rest) (toCacheItem data).hashes = true) :
    Right db cache now (passed ++ hash :: rest) (.cached true) := by
  obtain ⟨other, member, inItem⟩ := findMatch_iff.mp found
  obtain ⟨bad, same⟩ := (exact hash.pref data present other).mp inItem
  refine .blocked ?_ (same ▸ lasts) bad
  rcases List.mem_append.mp member with inFront | later
  · exact List.mem_append_left _ (scanned.known other inFront)
  · exact List.mem_append_right _ later

theorem scan_right (exact : Exact db cache) (rest : List Hash)
    (scanned : Scanned db cache now passed front i) :
    Right db cache now (passed ++ rest) (cache.scan now i front rest) := by
  induction rest generalizing passed front i with
  | nil =>
    rw [List.append_nil, Cache.scan]
    by_cases none : i = 0
    · rw [if_pos none]
      have all : ∀ hash ∈ passed, cache.lasts now hash.pref = true := by
        have requested := scanned.requested
        rw [none, List.take_zero] at requested
        intro hash member
        simpa using List.filter_eq_nil_iff.mp requested.symm hash member
      exact .clean all fun hash member => scanned.good hash member (all hash member)
    · rw [if_neg none]
      refine .missing ?_ scanned.requested scanned.good
      have length := List.length_take_of_le scanned.within
      intro empty
      rw [empty] at length
      exact none length.symm
  | cons hash rest ih =>
    have shift : passed ++ hash :: rest = (passed ++ [hash]) ++ rest := by simp
    rw [Cache.scan]
    cases present : cache.get hash.pref with
    | none =>
      have expired : cache.lasts now hash.pref = false := by rw [Cache.lasts, present]
      rw [shift]
      exact ih (scanned.ask expired)
    | some data =>
      by_cases late : (toCacheItem data).expiry < now
      · have expired : cache.lasts now hash.pref = false := by
          rw [Cache.lasts, present]
          exact decide_eq_false (Int.not_le.mpr late)
        simp only [if_pos late]
        rw [shift]
        exact ih (scanned.ask expired)
      · have lasts : cache.lasts now hash.pref = true := by
          rw [Cache.lasts, present]
          exact decide_eq_true (Int.not_lt.mp late)
        simp only [if_neg late]
        by_cases found : findMatch (front ++ hash :: rest) (toCacheItem data).hashes = true
        · rw [if_pos found]
          exact scanned.match exact present lasts found
        · rw [if_neg found, shift]
          have absent : hash ∉ db := by
            intro bad
            have inItem := (exact hash.pref data present hash).mpr ⟨bad, rfl⟩
            exact found (findMatch_iff.mpr ⟨hash, by simp, inItem⟩)
          exact ih (scanned.pass lasts absent)

theorem findInCache_right (exact : Exact db cache) (now : Int) (hashes : List Hash) :
    Right db cache now hashes (cache.findInCache now hashes) := by
  have start : Scanned db cache now [] [] 0 :=
    ⟨rfl, Nat.le_refl 0, fun _ member => member, fun _ member => absurd member List.not_mem_nil⟩
  exact scan_right exact hashes start

end Find

section Store

variable {c : Checker} {db : List Hash} {moments : Nat → Moment} {st : Storing} {pref : Prefix}

def Safe (moments : Nat → Moment) (pref : Prefix) : Prop := ∀ n, pref ∉ (moments n).dropped

/-- The item that one of the calls of `setCache` makes. -/
def Checker.itemAt (c : Checker) (moments : Nat → Moment) (n : Nat) (hashes : List Hash) :
    CacheItem := ⟨(moments n).now + c.cacheTime, hashes⟩

theorem get_setCache (hashes : List Hash) (other : Prefix) :
    (c.setCache moments st pref hashes).cache.get other =
      if other ∈ (moments st.stores).dropped then none
      else if other = pref then some (fromCacheItem (c.itemAt moments st.stores hashes))
      else st.cache.get other := by
  rw [Checker.setCache, FiniteMap.get_deleteAll, FiniteMap.get_set]
  by_cases gone : other ∈ (moments st.stores).dropped
  · rw [if_pos gone, if_pos gone]
  · rw [if_neg gone, if_neg gone]
    rfl

theorem get_setCache_self (safe : Safe moments pref) (hashes : List Hash) :
    (c.setCache moments st pref hashes).cache.get pref =
      some (fromCacheItem (c.itemAt moments st.stores hashes)) := by
  rw [get_setCache, if_neg (safe st.stores), if_pos rfl]

theorem get_setCache_of_ne {other : Prefix} (safe : Safe moments other) (differs : other ≠ pref)
    (hashes : List Hash) :
    (c.setCache moments st pref hashes).cache.get other = st.cache.get other := by
  rw [get_setCache, if_neg (safe st.stores), if_neg differs]

theorem Exact.setCache (exact : Exact db st.cache) {hashes : List Hash}
    (all : ∀ hash, hash ∈ hashes ↔ hash ∈ db ∧ hash.pref = pref) :
    Exact db (c.setCache moments st pref hashes).cache := by
  intro other data present
  rw [get_setCache] at present
  split at present
  next => cases present
  next =>
    split at present
    next same =>
      cases present
      rw [toCacheItem_fromCacheItem, same]
      exact all
    next => exact exact other data present

section Found

variable {table : FiniteMap Prefix (List Hash)} {prefs : List Prefix}

theorem storeFound_exact (exact : Exact db st.cache) (all : ∀ pref ∈ prefs, ∀ hash,
    hash ∈ (table.get pref).getD [] ↔ hash ∈ db ∧ hash.pref = pref) :
    Exact db (c.storeFound moments table prefs st).cache := by
  induction prefs generalizing st with
  | nil => exact exact
  | cons first rest ih =>
    apply ih
    · exact exact.setCache (all first List.mem_cons_self)
    · intro pref member
      exact all pref (List.mem_cons_of_mem _ member)

theorem storeFound_other (safe : Safe moments pref) (other : pref ∉ prefs) :
    (c.storeFound moments table prefs st).cache.get pref = st.cache.get pref := by
  induction prefs generalizing st with
  | nil => rfl
  | cons first rest ih =>
    obtain ⟨differs, later⟩ := not_or.mp (List.mem_cons.not.mp other)
    rw [Checker.storeFound, ih later, get_setCache_of_ne safe differs]

theorem storeFound_stores (safe : Safe moments pref) (member : pref ∈ prefs) :
    ∃ n hashes, (c.storeFound moments table prefs st).cache.get pref =
      some (fromCacheItem (c.itemAt moments n hashes)) := by
  induction prefs generalizing st with
  | nil => cases member
  | cons first rest ih =>
    by_cases later : pref ∈ rest
    · exact ih later
    · have here : pref = first := (List.mem_cons.mp member).resolve_right later
      subst here
      refine ⟨st.stores, (table.get pref).getD [], ?_⟩
      rw [Checker.storeFound, storeFound_other safe later, get_setCache_self safe]

end Found

section Missing

variable {asked : List Hash}

theorem storeMissing_keeps (safe : Safe moments pref) {data : Bytes}
    (present : st.cache.get pref = some data) :
    (c.storeMissing moments asked st).cache.get pref = some data := by
  induction asked generalizing st with
  | nil => exact present
  | cons hash rest ih =>
    rw [Checker.storeMissing]
    cases found : st.cache.get hash.pref with
    | some _ => exact ih present
    | none =>
      have differs : pref ≠ hash.pref := by
        rintro rfl
        rw [found] at present
        cases present
      apply ih
      rw [get_setCache_of_ne safe differs]
      exact present

theorem storeMissing_other (safe : Safe moments pref) (other : ∀ hash ∈ asked, hash.pref ≠ pref) :
    (c.storeMissing moments asked st).cache.get pref = st.cache.get pref := by
  induction asked generalizing st with
  | nil => rfl
  | cons hash rest ih =>
    have later : ∀ hash ∈ rest, hash.pref ≠ pref := fun hash member =>
      other hash (List.mem_cons_of_mem _ member)
    have differs : pref ≠ hash.pref := (other hash List.mem_cons_self).symm
    rw [Checker.storeMissing]
    cases st.cache.get hash.pref with
    | some _ => exact ih later
    | none => exact (ih later).trans (get_setCache_of_ne safe differs [])

theorem storeMissing_stores (safe : Safe moments pref) (absent : st.cache.get pref = none)
    (member : ∃ hash ∈ asked, hash.pref = pref) :
    ∃ n, (c.storeMissing moments asked st).cache.get pref =
      some (fromCacheItem (c.itemAt moments n [])) := by
  induction asked generalizing st with
  | nil =>
    obtain ⟨hash, member, _⟩ := member
    cases member
  | cons hash rest ih =>
    rw [Checker.storeMissing]
    by_cases here : hash.pref = pref
    · rw [here, absent]
      exact ⟨st.stores, storeMissing_keeps safe (get_setCache_self safe [])⟩
    · have later : ∃ hash ∈ rest, hash.pref = pref := by
        obtain ⟨other, member, same⟩ := member
        rcases List.mem_cons.mp member with rfl | member
        · exact absurd same here
        · exact ⟨other, member, same⟩
      cases st.cache.get hash.pref with
      | some _ => exact ih absent later
      | none =>
        apply ih _ later
        rw [get_setCache_of_ne safe (Ne.symm here)]
        exact absent

/-- No hashes are stored only for prefixes that have none: the others are in the cache, and stay
there. -/
theorem storeMissing_exact (exact : Exact db st.cache)
    (held : ∀ hash ∈ asked, ∀ bad ∈ db, bad.pref = hash.pref →
      Safe moments hash.pref ∧ ∃ data, st.cache.get hash.pref = some data) :
    Exact db (c.storeMissing moments asked st).cache := by
  induction asked generalizing st with
  | nil => exact exact
  | cons hash rest ih =>
    rw [Checker.storeMissing]
    cases found : st.cache.get hash.pref with
    | some _ => exact ih exact fun other member => held other (List.mem_cons_of_mem _ member)
    | none =>
      apply ih
      · apply exact.setCache
        intro bad
        constructor
        · intro member
          cases member
        · rintro ⟨member, same⟩
          obtain ⟨_, data, present⟩ := held hash List.mem_cons_self bad member same
          rw [found] at present
          cases present
      · intro other member bad inDB same
        obtain ⟨safe, data, present⟩ := held other (List.mem_cons_of_mem _ member) bad inDB same
        have differs : other.pref ≠ hash.pref := by
          intro equal
          rw [equal, found] at present
          cases present
        refine ⟨safe, data, ?_⟩
        rw [get_setCache_of_ne safe differs]
        exact present

end Missing

section Both

variable {sur : Surroundings} {cache : Cache} {asked received : List Hash}

private theorem mem_arranged : pref ∈ sur.order.arrange (hashToStore received).keys ↔
    ∃ hash ∈ received, hash.pref = pref := by
  rw [sur.order.mem_arrange, mem_keys_hashToStore]

private theorem storeFound_received (c : Checker) (cache : Cache) (safe : Safe sur.moments pref)
    (member : ∃ hash ∈ received, hash.pref = pref) :
    ∃ n hashes, (c.storeFound sur.moments (hashToStore received)
      (sur.order.arrange (hashToStore received).keys) ⟨cache, 0⟩).cache.get pref =
      some (fromCacheItem (c.itemAt sur.moments n hashes)) :=
  storeFound_stores safe (mem_arranged.mpr member)

/-- The response has the hashes of the database with the prefixes that were asked for. -/
def Received (db asked received : List Hash) : Prop :=
  ∀ hash, hash ∈ received ↔ hash ∈ db ∧ ∃ other ∈ asked, other.pref = hash.pref

theorem storeInCache_exact (exact : Exact db cache) (answered : Received db asked received)
    (undisturbed : ∀ hash ∈ asked, ∀ bad ∈ db, bad.pref = hash.pref → Safe sur.moments hash.pref) :
    Exact db (c.storeInCache sur cache asked received) := by
  rw [Checker.storeInCache]
  apply storeMissing_exact
  · apply storeFound_exact exact
    intro pref member hash
    obtain ⟨other, inAnswer, rfl⟩ := mem_arranged.mp member
    obtain ⟨_, wanted, inAsked, same⟩ := (answered other).mp inAnswer
    rw [getD_hashToStore, List.mem_filter, answered]
    constructor
    · rintro ⟨⟨bad, _⟩, equal⟩
      exact ⟨bad, of_decide_eq_true equal⟩
    · rintro ⟨bad, equal⟩
      exact ⟨⟨bad, wanted, inAsked, same.trans equal.symm⟩, decide_eq_true equal⟩
  · intro hash member bad inDB same
    have safe := undisturbed hash member bad inDB same
    have inAnswer := (answered bad).mpr ⟨inDB, hash, member, same.symm⟩
    obtain ⟨n, hashes, stored⟩ := storeFound_received c cache safe ⟨bad, inAnswer, same⟩
    exact ⟨safe, _, stored⟩

variable (c) (cache)

theorem storeInCache_other (answered : Received db asked received) (safe : Safe sur.moments pref)
    (other : ∀ hash ∈ asked, hash.pref ≠ pref) :
    (c.storeInCache sur cache asked received).get pref = cache.get pref := by
  have absent : pref ∉ sur.order.arrange (hashToStore received).keys := by
    intro member
    obtain ⟨hash, inAnswer, rfl⟩ := mem_arranged.mp member
    obtain ⟨_, wanted, inAsked, same⟩ := (answered hash).mp inAnswer
    exact other wanted inAsked same
  rw [Checker.storeInCache, storeMissing_other safe other, storeFound_other safe absent]

/-- A prefix that was asked for has a new item, unless it has no hashes and had an item before. -/
theorem storeInCache_stores (answered : Received db asked received) (safe : Safe sur.moments pref)
    (member : ∃ hash ∈ asked, hash.pref = pref)
    (renewed : cache.get pref = none ∨ ∃ bad ∈ db, bad.pref = pref) :
    ∃ n hashes, (c.storeInCache sur cache asked received).get pref =
      some (fromCacheItem (c.itemAt sur.moments n hashes)) := by
  rw [Checker.storeInCache]
  by_cases bad : ∃ bad ∈ db, bad.pref = pref
  · obtain ⟨bad, inDB, rfl⟩ := bad
    have inAnswer := (answered bad).mpr ⟨inDB, member⟩
    obtain ⟨n, hashes, stored⟩ := storeFound_received c cache safe ⟨bad, inAnswer, rfl⟩
    exact ⟨n, hashes, storeMissing_keeps safe stored⟩
  · have absent : pref ∉ sur.order.arrange (hashToStore received).keys := by
      intro member
      obtain ⟨hash, inAnswer, same⟩ := mem_arranged.mp member
      exact bad ⟨hash, ((answered hash).mp inAnswer).1, same⟩
    have missing : (c.storeFound sur.moments (hashToStore received)
        (sur.order.arrange (hashToStore received).keys) ⟨cache, 0⟩).cache.get pref =
        cache.get pref := storeFound_other safe absent
    obtain ⟨n, stored⟩ := storeMissing_stores safe
      (missing.trans (renewed.resolve_right bad)) member
    exact ⟨n, [], stored⟩

end Both

end Store

end AdGuardHome.Hashprefix
