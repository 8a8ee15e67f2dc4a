import AdGuardHome.Querylog.QueryLog
import AdGuardHome.Lib.FiniteMap
import AdGuardHome.Lib.JSONTokens

namespace AdGuardHome.Querylog

def ascii (s : String) : Bytes := s.toList.map fun c => BitVec.ofNat 8 c.toNat

def quote : BitVec 8 := 34

/-- `strings.Index`. -/
def index (pattern : Bytes) : Bytes → Option Nat
  | [] => if pattern = [] then some 0 else none
  | c :: rest =>
    if pattern.isPrefixOf (c :: rest) then some 0 else (index pattern rest).map (· + 1)

def after (pattern s : Bytes) : Option Bytes :=
  (index pattern s).map fun i => s.drop (i + pattern.length)

/-- `readJSONValue`. -/
def readJSONValue (s pattern : Bytes) : Bytes :=
  match after pattern s with
  | none => []
  | some rest =>
    match rest.findIdx? (· = quote) with
    | none => []
    | some i => rest.take i

/-- A byte that ends a number; it is one of a character of its own. -/
def endsNumber (c : BitVec 8) : Bool := (57 < c || c < 48) && c != 46

/-- `readJSONNumericValue`. -/
def readJSONNumericValue (s pattern : Bytes) : Bytes :=
  match after pattern s with
  | none => []
  | some rest =>
    match rest.findIdx? endsNumber with
    | none => []
    | some i => rest.take i

/-- `readQLogTimestamp`, with `time.Parse` and the nanoseconds it stands for. -/
def readQLogTimestamp (parse : Bytes → Option Int) (str : Bytes) : Int :=
  let short := readJSONValue str (ascii "\"T\":\"")
  let val := if short = [] then readJSONValue str (ascii "\"Time\":\"") else short
  if val = [] then 0 else (parse val).getD 0

/-- The timestamp of a line, when there is one that can be parsed. -/
def timestampOf (parse : Bytes → Option Int) (str : Bytes) : Option Int :=
  let short := readJSONValue str (ascii "\"T\":\"")
  let val := if short = [] then readJSONValue str (ascii "\"Time\":\"") else short
  if val = [] then none else parse val

open JSONTokens

/-- `filtering.ResultRule`; the zero address is none. -/
structure ResultRule (Addr : Type) where
  text : Bytes
  ip : Option Addr
  filterListID : Int
deriving DecidableEq

def ResultRule.zero {Addr : Type} : ResultRule Addr := ⟨[], none, 0⟩

/-- `rules.RRValue`: a `net.IP`, which may be nil, a `netip.Addr`, or any other value, as
the tokens that it is encoded as. -/
inductive RRValue (Addr : Type) where
  | ip (ip : Option Bytes)
  | addr (addr : Addr)
  | json (value : List (Token Bytes))

/-- `filtering.DNSRewriteResultResponse`. -/
abbrev DNSRewriteResultResponse (Addr : Type) := FiniteMap Nat (List (RRValue Addr))

/-- `filtering.DNSRewriteResult`; the response may be nil. -/
structure DNSRewriteResult (Addr : Type) where
  response : Option (DNSRewriteResultResponse Addr)
  rCode : Int

/-- `filtering.Reason`. -/
abbrev Reason := BitVec 8

/-- `filtering.Result`. -/
structure Result (Addr : Type) where
  dnsRewriteResult : Option (DNSRewriteResult Addr)
  canonName : Bytes
  serviceName : Bytes
  ipList : List Addr
  rules : List (ResultRule Addr)
  reason : Reason
  isFiltered : Bool

/-- `logEntry`, without its client. -/
structure LogEntry (Addr Time : Type) where
  time : Time
  qHost : Bytes
  qType : Bytes
  qClass : Bytes
  reqECS : Bytes
  clientID : Bytes
  clientProto : Bytes
  upstream : Bytes
  answer : Bytes
  origAnswer : Bytes
  ip : Option Bytes
  result : Result Addr
  elapsed : Int
  cached : Bool
  authenticatedData : Bool

variable {Addr Time : Type}

def LogEntry.zero (zeroTime : Time) : LogEntry Addr Time where
  time := zeroTime
  qHost := []
  qType := []
  qClass := []
  reqECS := []
  clientID := []
  clientProto := []
  upstream := []
  answer := []
  origAnswer := []
  ip := none
  result := ⟨none, [], [], [], [], 0, false⟩
  elapsed := 0
  cached := false
  authenticatedData := false

def LogEntry.onResult (change : Result Addr → Result Addr) (ent : LogEntry Addr Time) :
    LogEntry Addr Time := { ent with result := change ent.result }

def LogEntry.withRules (rules : List (ResultRule Addr)) (ent : LogEntry Addr Time) :
    LogEntry Addr Time := ent.onResult fun res => { res with rules }

/-- `ClientProto` values. -/
def clientProtos : List Bytes := ["doh", "doq", "dot", "dnscrypt", ""].map ascii

/-- `NewClientProto`, and whether there is no error. -/
def newClientProto (s : Bytes) : Bytes × Bool :=
  if s ∈ clientProtos then (s, true) else ([], false)

end AdGuardHome.Querylog
