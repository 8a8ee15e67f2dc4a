import AdGuardHome.Filtering.DNSRewrite
import AdGuardHome.Lib.BigEndian
import AdGuardHome.Lib.Machine

/-! `safesearch.go`: the safe search filter with its cache, used by several callers at once. -/
namespace AdGuardHome.Safesearch

open Filtering Strings Transition

/-- The `$dnsrewrite` rules that `DNSEngine.MatchRequest` finds for a host name and a type. -/
abbrev Engine := Bytes → RRType → List NetworkRule

/-- `rulelist.APIIDSafeSearch`. -/
def apiIDSafeSearch : BitVec 64 := -5

/-- What the errors of a lookup say. -/
inductive LookupError where
  | expectedIP (value : RRValue)
deriving DecidableEq

/-- What `CheckHost` returns. -/
abbrev Outcome := Except LookupError Result

/-- The zero `Result`. -/
def zeroResult : Result := .ofReason .notFilteredNotFound

/-- `newResult`. -/
def newResult (rewrite : DNSRewrite) (qtype : RRType) : Outcome :=
  let res := { Result.ofReason .filteredSafeSearch with isFiltered := true }
  if rewrite.rrType = qtype then
    match rewrite.value with
    | .addr ip =>
      if ip = .zero then .error (.expectedIP rewrite.value)
      else .ok { res with rules := [⟨[], ip, apiIDSafeSearch⟩] }
    | value => .error (.expectedIP value)
  else .ok { res with canonName := rewrite.newCNAME }

/-- The types that `CheckHost` looks at. -/
def supported (qtype : RRType) : Bool := qtype = .a || qtype = .aaaa || qtype = .https

/-- `dns.Type.String` for these types. -/
def typeString (qtype : RRType) : Bytes :=
  if qtype = .a then lit "A" else if qtype = .aaaa then lit "AAAA" else lit "HTTPS"

def cacheKey (qtype : RRType) (host : Bytes) : Bytes := typeString qtype ++ lit " " ++ host

/-- Packages `gob` and `strings` as far as they are used: what is encoded is decoded again. -/
structure Codec where
  encode : Result → Option Bytes
  decode : Bytes → Option Result
  toLower : Bytes → Bytes
  decode_encode : ∀ res data, res.dnsRewriteResult = none → encode res = some data →
    decode data = some res

/-- `Default`: a nil engine is `none`. -/
structure Default where
  engine : Option Engine
  cache : FiniteMap Bytes Bytes

section Lookup

variable (codec : Codec)

/-- `searchHost`. -/
def searchHost (engine : Option Engine) (host : Bytes) (qtype : RRType) : Option DNSRewrite :=
  match engine with
  | none => none
  | some engine => ((engine (codec.toLower host) qtype).head?).map (·.dnsRewrite)

/-- What `CheckHost` returns without a cache. -/
def lookup (engine : Option Engine) (host : Bytes) (qtype : RRType) : Outcome :=
  if supported qtype then
    match searchHost codec engine host qtype with
    | none => .ok zeroResult
    | some rewrite => newResult rewrite qtype
  else .ok zeroResult

end Lookup

/-- `Time.Unix` as a `uint32`, for nanoseconds since the epoch. -/
def unix32 (now : Int) : Nat := (now / 1000000000 % 2 ^ 32).toNat

/-- What `setCacheResult` stores. -/
def cacheItem (codec : Codec) (cacheTTL now : Int) (res : Result) : Option Bytes :=
  (codec.encode res).map (BigEndian.put 4 (unix32 (now + cacheTTL)) ++ ·)

namespace Default

/-- `setCacheResult`. -/
def setCacheResult (codec : Codec) (cacheTTL : Int) (ss : Default) (host : Bytes)
    (qtype : RRType) (res : Result) (now : Int) : Default :=
  match cacheItem codec cacheTTL now res with
  | none => ss
  | some val => { ss with cache := ss.cache.set (cacheKey qtype host) val }

/-- `getCachedResult`; an expired result is deleted under the bare host. -/
def getCachedResult (codec : Codec) (ss : Default) (host : Bytes) (qtype : RRType) (now : Int) :
    Default × Option Result :=
  match ss.cache.get (cacheKey qtype host) with
  | none => (ss, none)
  | some data =>
    if BigEndian.get (data.take 4) ≤ unix32 now then
      ({ ss with cache := ss.cache.delete host }, none)
    else (ss, codec.decode (data.drop 4))

end Default

/-- Where a call of `CheckHost` stands. -/
inductive Stage where
  /-- In front of the cache. -/
  | called
  /-- Not found in the cache, in front of the engine. -/
  | missed
  /-- With the result of the engine, in front of storing it. The number says how many engines
  there had been. -/
  | found (res : Result) (engines : Nat)
  | done (outcome : Outcome)

/-- A call of `CheckHost`, with the number of engines that were in place when it started. -/
structure Call where
  host : Bytes
  qtype : RRType
  since : Nat
  stage : Stage

/-- The filter with its callers. `history` has all engines so far, the last of them first, and
`finished` is how many of them a finished `Update` (or `NewDefault`) had put in place. -/
structure System where
  ss : Default
  calls : FiniteMap Nat Call
  /-- An `Update` holds the lock and has not cleared the cache yet. -/
  updating : Bool
  history : List (Option Engine)
  finished : Nat

/-- `NewDefault`. -/
def System.newDefault (engine : Option Engine) : System where
  ss := ⟨engine, ∅⟩
  calls := ∅
  updating := false
  history := [engine]
  finished := 1

/-- One step of one of the callers, or of the cache itself. -/
inductive Event where
  | checkHost (id : Nat) (host : Bytes) (qtype : RRType)
  | getCached (id : Nat) (now : Int)
  | search (id : Nat)
  | setCache (id : Nat) (now : Int)
  /-- `Update` takes the lock and resets the engine to what its rules make. -/
  | resetEngine (enabled : Bool) (built : Option Engine)
  /-- `Update` clears the cache and releases the lock. -/
  | clearCache
  /-- The cache drops a result by itself. -/
  | evict (key : Bytes)

namespace System

variable (codec : Codec) (cacheTTL : Int)

def setStage (s : System) (id : Nat) (call : Call) (stage : Stage) : System :=
  { s with calls := s.calls.set id { call with stage } }

/-- `CheckHost` up to the cache. -/
def startCall (s : System) (id : Nat) (host : Bytes) (qtype : RRType) : System :=
  match s.calls.get id with
  | some _ => s
  | none =>
    let stage := if supported qtype then .called else .done (.ok zeroResult)
    { s with calls := s.calls.set id ⟨host, qtype, s.finished, stage⟩ }

/-- `CheckHost` at the cache. -/
def callGetsCached (s : System) (id : Nat) (call : Call) (now : Int) : System :=
  let (ss, cached) := s.ss.getCachedResult codec call.host call.qtype now
  match cached with
  | some res => { s with ss }.setStage id call (.done (.ok res))
  | none => { s with ss }.setStage id call .missed

/-- `CheckHost` at the engine, which an `Update` keeps locked. -/
def callSearches (s : System) (id : Nat) (call : Call) : System :=
  if s.updating then s
  else
    match searchHost codec s.ss.engine call.host call.qtype with
    | none => s.setStage id call (.done (.ok zeroResult))
    | some rewrite =>
      match newResult rewrite call.qtype with
      | .error err => s.setStage id call (.done (.error err))
      | .ok res => s.setStage id call (.found res s.history.length)

/-- `CheckHost` storing its result. -/
def callStores (s : System) (id : Nat) (call : Call) (res : Result) (now : Int) : System :=
  { s with ss := s.ss.setCacheResult codec cacheTTL call.host call.qtype res now }.setStage id call
    (.done (.ok res))

/-- `Update` up to the cleared cache; rules that make no engine are an error. -/
def startUpdate (s : System) (enabled : Bool) (built : Option Engine) : System :=
  if s.updating then s
  else if enabled then
    match built with
    | none => s
    | some engine =>
      { s with
        ss.engine := some engine
        history := some engine :: s.history
        updating := true }
  else { s with updating := true }

/-- The rest of `Update`. -/
def finishUpdate (s : System) : System :=
  if s.updating then
    { s with ss.cache := ∅, updating := false, finished := s.history.length }
  else s

def step (s : System) : Event → System
  | .checkHost id host qtype => s.startCall id host qtype
  | .getCached id now =>
    match s.calls.get id with
    | some call =>
      match call.stage with
      | .called => s.callGetsCached codec id call now
      | _ => s
    | none => s
  | .search id =>
    match s.calls.get id with
    | some call =>
      match call.stage with
      | .missed => s.callSearches codec id call
      | _ => s
    | none => s
  | .setCache id now =>
    match s.calls.get id with
    | some call =>
      match call.stage with
      | .found res _ => s.callStores codec cacheTTL id call res now
      | _ => s
    | none => s
  | .resetEngine enabled built => s.startUpdate enabled built
  | .clearCache => s.finishUpdate
  | .evict key => { s with ss.cache := s.ss.cache.delete key }

def machine : Machine System Event Unit where
  step s event := (s.step codec cacheTTL event, ())

end System

end AdGuardHome.Safesearch
