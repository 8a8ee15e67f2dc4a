import AdGuardHome.Lib.Float64
import AdGuardHome.Lib.FiniteMap
import AdGuardHome.Lib.Machine
import Mathlib.Data.BitVec

namespace AdGuardHome.Stats

/-- The identifier of a unit, by default the number of the hour since 1970. -/
abbrev UnitID := BitVec 32

/-- A counter of type `uint64`. -/
abbrev Counter := BitVec 64

abbrev Result := Int

def rNotFiltered : Result := 1
def rFiltered : Result := 2
def rSafeBrowsing : Result := 3
def rSafeSearch : Result := 4
def rParental : Result := 5
def resultLast : Result := rParental + 1

def maxDomains : Nat := 100
def maxClients : Nat := 100
def maxUpstreams : Nat := 100

/-- `proxy.UpstreamStatistics`, with the duration in nanoseconds. -/
structure UpstreamStatistics where
  address : String
  queryDuration : Int
  isCached : Bool
  failed : Bool
deriving DecidableEq

/-- `Entry`, with the processing time in nanoseconds. -/
structure Entry where
  client : String
  domain : String
  upstreamStats : List UpstreamStatistics
  result : Result
  processingTime : Int
deriving DecidableEq

inductive EntryError where
  | resultNotSet
  | unknownResult (code : Result)
  | emptyDomain
  | emptyClient
deriving DecidableEq

/-- `Entry.validate`. -/
def Entry.validate (e : Entry) : Option EntryError :=
  if e.result = 0 then some .resultNotSet
  else if e.result ≥ resultLast then some (.unknownResult e.result)
  else if e.domain = "" then some .emptyDomain
  else if e.client = "" then some .emptyClient
  else none

/-- `unit`. -/
structure Unit where
  domains : FiniteMap String Counter
  blockedDomains : FiniteMap String Counter
  clients : FiniteMap String Counter
  upstreamsResponses : FiniteMap String Counter
  upstreamsTimeSum : FiniteMap String Counter
  nResult : List Counter
  id : UnitID
  nTotal : Counter
  timeSum : Counter

structure CountPair where
  name : String
  count : Counter
deriving DecidableEq

/-- `unitDB`. -/
structure UnitDB where
  nResult : List Counter
  domains : List CountPair
  blockedDomains : List CountPair
  clients : List CountPair
  upstreamsResponses : List CountPair
  upstreamsTimeSum : List CountPair
  nTotal : Counter
  timeAvg : BitVec 32
deriving DecidableEq

/-- The orders in which one serialization walks the maps of a unit. -/
structure MapOrders where
  domains : WalkOrder String
  blockedDomains : WalkOrder String
  clients : WalkOrder String
  upstreamsResponses : WalkOrder String
  upstreamsTimeSum : WalkOrder String

def MapOrders.inserted : MapOrders := ⟨.inserted, .inserted, .inserted, .inserted, .inserted⟩

/-- `newUnit`. -/
def newUnit (id : UnitID) : Unit where
  domains := ∅
  blockedDomains := ∅
  clients := ∅
  upstreamsResponses := ∅
  upstreamsTimeSum := ∅
  nResult := List.replicate resultLast.toNat 0
  id := id
  nTotal := 0
  timeSum := 0

/-- `table[key] += n`. -/
def increase (table : FiniteMap String Counter) (key : String) (n : Counter) :
    FiniteMap String Counter :=
  table.set key ((table.get key).getD 0 + n)

/-- `time.Duration.Microseconds`, as an unsigned number. -/
def microseconds (duration : Int) : Counter := BitVec.ofInt 64 (duration.tdiv 1000)

/-- `countPair.compareCount`: descending counts. The sort is unstable and its input is
a walk over a map, so any walk order followed by a stable sort is a possible run. -/
def convertMapToSlice (order : WalkOrder String) (m : FiniteMap String Counter) (maxVal : Nat) :
    List CountPair :=
  let pairs := (order.arrange m.keys).map fun name => CountPair.mk name ((m.get name).getD 0)
  (pairs.mergeSort fun a b => b.count ≤ a.count).take maxVal

/-- `convertSliceToMap`. -/
def convertSliceToMap (pairs : List CountPair) : FiniteMap String Counter :=
  pairs.foldl (fun m pair => m.set pair.name pair.count) ∅

section Pairs

variable (order : WalkOrder String) (m : FiniteMap String Counter)

def sortedPairs : List CountPair :=
  ((order.arrange m.keys).map fun name => CountPair.mk name ((m.get name).getD 0)).mergeSort
    fun a b => b.count ≤ a.count

theorem convertMapToSlice_eq (maxVal : Nat) :
    convertMapToSlice order m maxVal = (sortedPairs order m).take maxVal := rfl

theorem length_sortedPairs : (sortedPairs order m).length = m.keys.length := by
  rw [sortedPairs, List.length_mergeSort, List.length_map, (order.perm m.keys).length_eq]

theorem names_sortedPairs : ((sortedPairs order m).map (·.name)).Nodup := by
  have walked : ((order.arrange m.keys).map fun name =>
      CountPair.mk name ((m.get name).getD 0)).map (·.name) = order.arrange m.keys := by
    rw [List.map_map]
    exact List.map_id _
  have sorted := (List.mergeSort_perm ((order.arrange m.keys).map fun name =>
    CountPair.mk name ((m.get name).getD 0)) fun a b => b.count ≤ a.count).map (·.name)
  rw [walked] at sorted
  exact (sorted.trans (order.perm m.keys)).nodup_iff.mpr (AList.nodupKeys m)

variable {m}

theorem mem_sortedPairs {cp : CountPair} :
    cp ∈ sortedPairs order m ↔ m.get cp.name = some cp.count := by
  rw [sortedPairs, List.mem_mergeSort, List.mem_map]
  constructor
  · intro ⟨name, inside, same⟩
    subst same
    obtain ⟨n, found⟩ := (FiniteMap.mem_keys m name).mp ((order.mem_arrange _ _).mp inside)
    rw [found, Option.getD_some]
  · intro found
    refine ⟨cp.name, (order.mem_arrange _ _).mpr ((FiniteMap.mem_keys m _).mpr ⟨_, found⟩), ?_⟩
    rw [found, Option.getD_some]

theorem sorted_sortedPairs :
    (sortedPairs order m).Pairwise fun a b => b.count ≤ a.count := by
  refine (List.pairwise_mergeSort ?_ ?_ _).imp fun below => of_decide_eq_true below
  · intro a b c first second
    simp only [decide_eq_true_eq] at first second ⊢
    exact BitVec.le_trans second first
  · intro a b
    simpa using BitVec.le_total b.count a.count

end Pairs

/-- The names of the pairs are different keys, each with its count. -/
theorem convertMapToSlice_spec (order : WalkOrder String) (m : FiniteMap String Counter)
    (maxVal : Nat) : ((convertMapToSlice order m maxVal).map (·.name)).Nodup ∧
      ∀ cp ∈ convertMapToSlice order m maxVal, m.get cp.name = some cp.count := by
  rw [convertMapToSlice_eq]
  constructor
  · exact (names_sortedPairs order m).sublist ((List.take_sublist _ _).map _)
  · exact fun cp member => (mem_sortedPairs order).mp (List.mem_of_mem_take member)

namespace Unit

/-- The part of `unit.add` that looks at one upstream. -/
def addUpstream (u : Unit) (s : UpstreamStatistics) : Unit :=
  if s.isCached || s.failed then u
  else { u with
    upstreamsResponses := increase u.upstreamsResponses s.address 1
    upstreamsTimeSum := increase u.upstreamsTimeSum s.address (microseconds s.queryDuration) }

/-- `unit.add`, where `none` is the panic on a result code outside `nResult`. -/
def add (u : Unit) (e : Entry) : Option Unit :=
  if 0 ≤ e.result ∧ e.result.toNat < u.nResult.length then
    let counted : Unit := { u with
      nResult := u.nResult.modify e.result.toNat (· + 1)
      domains := if e.result = rNotFiltered then increase u.domains e.domain 1 else u.domains
      blockedDomains :=
        if e.result = rNotFiltered then u.blockedDomains else increase u.blockedDomains e.domain 1
      clients := increase u.clients e.client 1
      timeSum := u.timeSum + microseconds e.processingTime
      nTotal := u.nTotal + 1 }
    some (e.upstreamStats.foldl addUpstream counted)
  else none

/-- `unit.serialize`. -/
def serialize (u : Unit) (orders : MapOrders) : UnitDB where
  nTotal := u.nTotal
  nResult := u.nResult
  domains := convertMapToSlice orders.domains u.domains maxDomains
  blockedDomains := convertMapToSlice orders.blockedDomains u.blockedDomains maxDomains
  clients := convertMapToSlice orders.clients u.clients maxClients
  upstreamsResponses :=
    convertMapToSlice orders.upstreamsResponses u.upstreamsResponses maxUpstreams
  upstreamsTimeSum := convertMapToSlice orders.upstreamsTimeSum u.upstreamsTimeSum maxUpstreams
  timeAvg := if u.nTotal ≠ 0 then (u.timeSum / u.nTotal).setWidth 32 else 0

/-- `unit.deserialize`; a missing record changes nothing. -/
def deserialize (u : Unit) : Option UnitDB → Unit
  | none => u
  | some udb => { u with
      nTotal := udb.nTotal
      nResult := (udb.nResult ++ List.replicate resultLast.toNat 0).take resultLast.toNat
      domains := convertSliceToMap udb.domains
      blockedDomains := convertSliceToMap udb.blockedDomains
      clients := convertSliceToMap udb.clients
      upstreamsResponses := convertSliceToMap udb.upstreamsResponses
      upstreamsTimeSum := convertSliceToMap udb.upstreamsTimeSum
      timeSum := udb.timeAvg.setWidth 64 * udb.nTotal }

def Counts (u : Unit) : Prop := u.nResult.length = resultLast.toNat

theorem counts_newUnit (id : UnitID) : (newUnit id).Counts := by
  simp [Counts, newUnit]

private theorem foldl_addUpstream (stats : List UpstreamStatistics) (u : Unit) :
    (stats.foldl addUpstream u).id = u.id ∧ (stats.foldl addUpstream u).nTotal = u.nTotal ∧
      (stats.foldl addUpstream u).nResult = u.nResult := by
  induction stats generalizing u with
  | nil => simp
  | cons first rest ih =>
    have step : (u.addUpstream first).id = u.id ∧ (u.addUpstream first).nTotal = u.nTotal ∧
        (u.addUpstream first).nResult = u.nResult := by
      unfold addUpstream
      split <;> simp
    simpa [step] using ih (u.addUpstream first)

theorem add_spec {u next : Unit} {e : Entry} (added : u.add e = some next) :
    next.id = u.id ∧ next.nTotal = u.nTotal + 1 ∧ (u.Counts → next.Counts) := by
  unfold add at added
  split at added
  · cases added
    obtain ⟨sameID, total, results⟩ := foldl_addUpstream e.upstreamStats _
    refine ⟨sameID, total, ?_⟩
    intro counts
    rw [Counts, results, List.length_modify]
    exact counts
  · cases added

theorem add_isSome {u : Unit} {e : Entry} (counts : u.Counts) (valid : e.validate = none)
    (nonneg : 0 ≤ e.result) : (u.add e).isSome := by
  have small : e.result < resultLast := by
    by_contra large
    by_cases zero : e.result = 0
    · simp [Entry.validate, zero] at valid
    · simp [Entry.validate, zero, Int.not_lt.mp large] at valid
  have bound : e.result.toNat < u.nResult.length := by
    rw [counts]
    exact (Int.toNat_lt_toNat (by decide)).mpr small
  simp [add, nonneg, bound]

@[simp] theorem serialize_nTotal (u : Unit) (orders : MapOrders) :
    (u.serialize orders).nTotal = u.nTotal := rfl

theorem deserialize_spec (u : Unit) (udb : Option UnitDB) :
    (u.deserialize udb).id = u.id ∧
      (u.deserialize udb).nTotal = (udb.map UnitDB.nTotal).getD u.nTotal ∧
      (u.Counts → (u.deserialize udb).Counts) := by
  cases udb with
  | none => simp [deserialize]
  | some udb => simp [deserialize, Counts]

end Unit

inductive TimeUnits where
  | hours
  | days
deriving DecidableEq

/-- The counters of `StatsResp` for each unit of time. -/
structure Collected where
  timeUnits : TimeUnits
  dnsQueries : List Counter
  blockedFiltering : List Counter
  replacedSafebrowsing : List Counter
  replacedParental : List Counter

/-- `table[i] += n`, where `none` is the panic on an index out of range. -/
def increaseAt (table : List Counter) (i : Nat) (n : Counter) : Option (List Counter) :=
  if i < table.length then some (table.modify i (· + n)) else none

namespace UnitDB

/-- `u.NResult[r]`. -/
def result (u : UnitDB) (r : Result) : Option Counter := u.nResult[r.toNat]?

end UnitDB

namespace Collected

def empty (timeUnits : TimeUnits) (size : Nat) : Collected where
  timeUnits := timeUnits
  dnsQueries := List.replicate size 0
  blockedFiltering := List.replicate size 0
  replacedSafebrowsing := List.replicate size 0
  replacedParental := List.replicate size 0

def addUnit (data : Collected) (i : Nat) (u : UnitDB) : Option Collected := do
  let dnsQueries ← increaseAt data.dnsQueries i u.nTotal
  let blockedFiltering ← increaseAt data.blockedFiltering i (← u.result rFiltered)
  let replacedSafebrowsing ← increaseAt data.replacedSafebrowsing i (← u.result rSafeBrowsing)
  let replacedParental ← increaseAt data.replacedParental i (← u.result rParental)
  some { data with dnsQueries, blockedFiltering, replacedSafebrowsing, replacedParental }

/-- The units from the one with index `i` on, each added at its place. -/
def addUnits (place : Nat → Nat) (data : Collected) : Nat → List UnitDB → Option Collected
  | _, [] => some data
  | i, u :: units => (data.addUnit (place i) u).bind fun data => data.addUnits place (i + 1) units

end Collected

def countHours (curHour : UnitID) (days : Nat) : Nat :=
  let hoursInCurDay := if curHour.toNat % 24 = 0 then 24 else curHour.toNat % 24
  (days - 1) * 24 + hoursInCurDay

/-- `StatsCtx.fillCollectedStatsDaily`. -/
def fillCollectedStatsDaily (data : Collected) (units : List UnitDB) (curHour : UnitID)
    (days : Nat) : Option Collected :=
  let hours := countHours curHour days
  if hours ≤ units.length then
    data.addUnits (· / 24) 0 (units.drop (units.length - hours))
  else none

/-- `StatsCtx.fillCollectedStats`. -/
def fillCollectedStats (units : List UnitDB) (curID : UnitID) : Option Collected :=
  let daysCount := units.length / 24
  if daysCount > 7 then
    fillCollectedStatsDaily (.empty .days daysCount) units curID daysCount
  else (Collected.empty .hours units.length).addUnits id 0 units

/-- `microsecondsToSeconds`; the factor is the number nearest to a millionth. -/
def microsecondsToSeconds (n : Float64) : Float64 := n.scale (Float64.round (1 / 10 ^ 6))

/-- `upstreamsTimeSum[name] += float64(count)`. -/
def increaseFloat (table : FiniteMap String Float64) (cp : CountPair) :
    FiniteMap String Float64 :=
  table.set cp.name (((table.get cp.name).getD 0).add (Float64.ofNat cp.count.toNat))

/-- `upstreamsResponses` of `topUpstreamsPairs`. -/
def responsesOf (units : List UnitDB) : FiniteMap String Counter :=
  (units.flatMap UnitDB.upstreamsResponses).foldl (fun m cp => increase m cp.name cp.count) ∅

/-- `upstreamsTimeSum` of `topUpstreamsPairs`. -/
def timeSumOf (units : List UnitDB) : FiniteMap String Float64 :=
  (units.flatMap UnitDB.upstreamsTimeSum).foldl increaseFloat ∅

def averageOf (timeSum : FiniteMap String Float64) (name : String) (n : Counter) :
    Option Float64 :=
  let total := (timeSum.get name).getD 0
  if total ≠ 0 then some (microsecondsToSeconds (total.div (Float64.ofNat n.toNat))) else none

/-- `prepareTopUpstreamsAvgTime`. The sort is stable, and its input a walk over a map. -/
def prepareTopUpstreamsAvgTime (order : WalkOrder String)
    (upstreamsAvgTime : FiniteMap String Float64) : List (String × Float64) :=
  let pairs := (order.arrange upstreamsAvgTime.keys).map fun name =>
    (name, (upstreamsAvgTime.get name).getD 0)
  pairs.mergeSort fun a b => b.2 ≤ a.2

structure TopOrders where
  queried : WalkOrder String
  blocked : WalkOrder String
  clients : WalkOrder String
  responses : WalkOrder String
  averages : WalkOrder String

def TopOrders.inserted : TopOrders := ⟨.inserted, .inserted, .inserted, .inserted, .inserted⟩

/-- `topUpstreamsPairs`. -/
def topUpstreamsPairs (units : List UnitDB) (orders : TopOrders) :
    List CountPair × List (String × Float64) :=
  let upstreamsResponses := responsesOf units
  let upstreamsTimeSum := timeSumOf units
  let upstreamsAvgTime := upstreamsResponses.filterMap (averageOf upstreamsTimeSum)
  (convertMapToSlice orders.responses upstreamsResponses maxUpstreams,
    prepareTopUpstreamsAvgTime orders.averages upstreamsAvgTime)

/-- `sum.TimeAvg`, of type `uint32`. -/
def sumTimeAvg (units : List UnitDB) : BitVec 32 := (units.map UnitDB.timeAvg).sum

/-- `timeN`, of type `uint32`. -/
def timeN (units : List UnitDB) : BitVec 32 :=
  BitVec.ofNat 32 (units.countP fun u => u.timeAvg ≠ 0)

def avgProcessingTime (units : List UnitDB) : Float64 :=
  if timeN units ≠ 0 then
    microsecondsToSeconds (Float64.ofNat (sumTimeAvg units / timeN units).toNat)
  else 0

abbrev Duration := Int

def hour : Duration := 3600000000000
def day : Duration := 24 * hour

inductive ConfigError where
  | lessThanHour
  | moreThanYear
deriving DecidableEq

/-- `validateIvl`. -/
def validateIvl (ivl : Duration) : Option ConfigError :=
  if ivl < hour then some .lessThanHour
  else if ivl > day * 365 then some .moreThanYear
  else none

/-- `Config`. Besides the limit it has `uint32(limit.Hours())`, which goes through a
floating-point number and is positive from one hour on. -/
structure Config where
  limit : Duration
  limitHours : BitVec 32
  enabled : Bool
  positive : hour ≤ limit → limitHours ≠ 0

abbrev Database := FiniteMap UnitID UnitDB

/-- How the steps of one write transaction turn out: opening it, putting the unit,
deleting a bucket that exists, and committing. -/
structure TxOutcome where
  begins : Bool
  puts : Bool
  deletes : Bool
  commits : Bool
deriving DecidableEq

def TxOutcome.success : TxOutcome := ⟨true, true, true, true⟩

/-- `StatsCtx` together with the file it works on. -/
structure StatsCtx where
  conf : Config
  curr : Unit
  isOpen : Bool
  file : Database

/-- `finishTxn` for a transaction that turned `file` into `changed`. -/
def finishTxn (file changed : Database) (commit : Bool) (outcome : TxOutcome) : Database :=
  if commit && outcome.commits then changed else file

/-- `StatsCtx.deleteOldUnits`. The walk stops at the first bucket that is not older;
`missed` are the buckets it fails to delete. -/
def deleteOldUnits (file : Database) (firstID : UnitID) (missed : UnitID → Bool) : Database :=
  file.deleteAll (file.keys.filter fun id => id < firstID && !missed id)

/-- `New`, on the file of an earlier run or on an empty one. -/
def new (conf : Config) (file : Database) (id : UnitID) (missed : UnitID → Bool) :
    Except ConfigError StatsCtx :=
  match validateIvl conf.limit with
  | some error => .error error
  | none =>
    let file := deleteOldUnits file (id - conf.limitHours - 1) missed
    .ok { conf, file, isOpen := true, curr := (newUnit id).deserialize (file.get id) }

namespace StatsCtx

/-- `StatsCtx.flushUnitToDB`, inside a transaction that works on `file`. -/
def flushUnitToDB (file : Database) (udb : UnitDB) (id : UnitID) (outcome : TxOutcome) :
    Option Database :=
  if outcome.puts then some (file.set id udb) else none

/-- `StatsCtx.Close`. -/
def close (s : StatsCtx) (orders : MapOrders) (outcome : TxOutcome) : StatsCtx :=
  if !s.isOpen then s
  else
    let s := { s with isOpen := false }
    if !outcome.begins then s
    else match flushUnitToDB s.file (s.curr.serialize orders) s.curr.id outcome with
      | none => s
      | some changed => { s with file := finishTxn s.file changed true outcome }

/-- `StatsCtx.Update`; a panic leaves the collector as it was. -/
def update (s : StatsCtx) (e : Entry) : StatsCtx :=
  if !s.conf.enabled || s.conf.limit = 0 then s
  else if e.validate.isSome then s
  else match s.curr.add e with
    | some curr => { s with curr }
    | none => s

/-- `StatsCtx.flushDB`. The new unit is in place before the old one is written. -/
def flushDB (s : StatsCtx) (id limit : BitVec 32) (ptr : Unit) (orders : MapOrders)
    (outcome : TxOutcome) : StatsCtx :=
  if !s.isOpen then s
  else if !outcome.begins then s
  else
    let s := { s with curr := newUnit id }
    let (changed, flushed) :=
      match flushUnitToDB s.file (ptr.serialize orders) ptr.id outcome with
      | some changed => (changed, true)
      | none => (s.file, false)
    let (changed, deleted) :=
      match changed.get (id - limit) with
      -- A missing bucket is reported, but does not stop the commit.
      | none => (changed, true)
      | some _ => if outcome.deletes then (changed.delete (id - limit), true) else (changed, false)
    { s with file := finishTxn s.file changed (flushed && deleted) outcome }

/-- `StatsCtx.flush`. -/
def flush (s : StatsCtx) (id : UnitID) (orders : MapOrders) (outcome : TxOutcome) : StatsCtx :=
  if s.conf.limitHours = 0 ∨ s.curr.id = id then s
  else s.flushDB id s.conf.limitHours s.curr orders outcome

/-- The identifiers from `firstID` up to, and without, `curID`. -/
def unitIDs (firstID curID : UnitID) : List UnitID :=
  (List.range (curID - firstID).toNat).map fun i => firstID + BitVec.ofNat 32 i

/-- `StatsCtx.loadUnits`. -/
def loadUnits (s : StatsCtx) (limit : BitVec 32) (orders : MapOrders) : List UnitDB :=
  let stored := (unitIDs (s.curr.id - limit + 1) s.curr.id).map fun i =>
    (s.file.get i).getD ⟨List.replicate resultLast.toNat 0, [], [], [], [], [], 0, 0⟩
  stored ++ [s.curr.serialize orders]

/-- `NumDNSQueries` of `StatsCtx.dataFromUnits`. -/
def numDNSQueries (units : List UnitDB) : Counter := (units.map UnitDB.nTotal).sum

end StatsCtx

/-- What happens to a collector: an entry, a check of the hour, or a restart. -/
inductive Event where
  | update (e : Entry)
  | flush (id : UnitID) (orders : MapOrders) (outcome : TxOutcome)
  | restart (id : UnitID) (orders : MapOrders) (missed : UnitID → Bool)

namespace StatsCtx

def step (s : StatsCtx) : Event → StatsCtx
  | .update e => s.update e
  | .flush id orders outcome => s.flush id orders outcome
  | .restart id orders missed =>
    let closed := s.close orders .success
    match new closed.conf closed.file id missed with
    | .ok next => next
    | .error _ => closed

end StatsCtx

end AdGuardHome.Stats
