import Mathlib.Data.BitVec
import Mathlib.Data.Char

/-! Package `querylog`: the parameters of a search and the search itself, over the records
in memory and the lines of the files. -/
namespace AdGuardHome.Querylog

/-- A value of type `int`. -/
abbrev MachineInt := BitVec 64

/-- `time.Time` in nanoseconds since its zero value. -/
abbrev Time := Int

/-- `url.Values`: a key is there with one value or more. -/
abbrev Values := String → List String

namespace Values

def has (q : Values) (name : String) : Bool := !(q name).isEmpty

def get (q : Values) (name : String) : String := (q name).headD ""

end Values

/-- The digits of a number to the base ten, as `strconv.ParseUint` adds them up. -/
def parseDigits : List Char → Nat → Option Nat
  | [], n => some n
  | c :: rest, n =>
    if '0' ≤ c ∧ c ≤ '9' then parseDigits rest (n * 10 + (c.toNat - '0'.toNat)) else none

/-- `strconv.ParseInt(s, 10, 64)`, without the value that comes with an error. -/
def parseInt (s : String) : Option MachineInt :=
  let (negative, digits) := match s.toList with
    | '-' :: rest => (true, rest)
    | '+' :: rest => (false, rest)
    | digits => (false, digits)
  if digits.isEmpty then none
  else match parseDigits digits 0 with
    | none => none
    | some n =>
      if negative then if n ≤ 2 ^ 63 then some (BitVec.ofInt 64 (-n)) else none
      else if n < 2 ^ 63 then some (BitVec.ofNat 64 n) else none

/-- `searchParams`; the zero time is no `olderThan`. -/
structure SearchParams (Criterion : Type) where
  olderThan : Time
  searchCriteria : List Criterion
  offset : MachineInt
  limit : MachineInt
  maxFileScanEntries : MachineInt

/-- `newSearchParams`. -/
def newSearchParams (Criterion : Type) : SearchParams Criterion :=
  ⟨0, [], 0, 500, 50000⟩

inductive ParamError (Error : Type) where
  | reasonAndStatus
  | other (error : Error)
deriving DecidableEq

structure Parsers (Criterion Error : Type) where
  time : String → Except Error Time
  criterions : Values → Except Error (List Criterion)

/-- The limit and the offset of a query string. A number that is none is left at its
default; with an offset all log records are scanned until there are enough entries. -/
def parseWindow {Criterion : Type} (p : SearchParams Criterion) (q : Values) :
    SearchParams Criterion :=
  let p := { p with limit := (parseInt (q.get "limit")).getD p.limit }
  match parseInt (q.get "offset") with
  | some offset => { p with offset, maxFileScanEntries := 0 }
  | none => p

/-- `parseSearchParams`. -/
def parseSearchParams {Criterion Error : Type} (parsers : Parsers Criterion Error) (q : Values) :
    Except (ParamError Error) (SearchParams Criterion) :=
  if q.has "reason" && q.has "response_status" then .error .reasonAndStatus
  else
    let p := newSearchParams Criterion
    let olderThan := q.get "older_than"
    match if olderThan = "" then .ok p.olderThan else parsers.time olderThan with
    | .error error => .error (.other error)
    | .ok olderThan =>
      let p := parseWindow { p with olderThan } q
      match parsers.criterions q with
      | .error error => .error (.other error)
      | .ok criterions => .ok { p with searchCriteria := p.searchCriteria ++ criterions }

/-- What a search asks of the records and of the lines: criteria on both, with the client
looked up, and what a record and a line are to the log. -/
structure Lookup (Line Record Criterion : Type) where
  time : Record → Time
  isMatch : Criterion → Record → Bool
  quickMatch : Criterion → Line → Bool
  decodeLogEntry : Line → Record
  readQLogTimestamp : Line → Time
  isIgnored : Record → Bool
  ignoreQueryLog : Record → Bool

/-- What there is to search: the buffer and the lines of the files, both from the oldest
on, and what `seekRecord` leaves to read for a time. -/
structure Contents (Line Record : Type) where
  memSize : Nat
  buffer : List Record
  lines : List Line
  seekTS : Time → Option (List Line)

namespace SearchParams

variable {Line Record Criterion : Type}

/-- `searchParams.quickMatch`. -/
def quickMatch (s : SearchParams Criterion) (env : Lookup Line Record Criterion) (line : Line) :
    Bool :=
  s.searchCriteria.all fun c => env.quickMatch c line

/-- `searchParams.match`. -/
def isMatch (s : SearchParams Criterion) (env : Lookup Line Record Criterion) (entry : Record) :
    Bool :=
  if s.olderThan ≠ 0 ∧ ¬ env.time entry < s.olderThan then false
  else s.searchCriteria.all fun c => env.isMatch c entry

end SearchParams

section Search

variable {Line Record Criterion : Type} (env : Lookup Line Record Criterion)
variable (log : Contents Line Record) (params : SearchParams Criterion)

/-- `queryLog.searchMemory`. -/
def searchMemory : List Record × Nat :=
  if log.memSize = 0 then ([], 0)
  else (log.buffer.reverse.filter (params.isMatch env), log.buffer.length)

/-- The lines from the newest one on, as `setQLogReader` leaves them to read. -/
def seekRecord : Option (List Line) :=
  if params.olderThan = 0 then some log.lines.reverse else log.seekTS params.olderThan

/-- `queryLog.readNextEntry`, with the line that `ReadNext` returns. -/
def readNextEntry (line : Line) : Option Record × Time :=
  if !params.quickMatch env line then (none, env.readQLogTimestamp line)
  else
    let e := env.decodeLogEntry line
    if env.isIgnored e then (none, 0)
    else if env.ignoreQueryLog e then (none, 0)
    else if !params.isMatch env e then (none, env.time e)
    else (some e, env.time e)

/-- The loop of `queryLog.readEntries` over the lines that are left. -/
def readEntriesLoop (totalLimit : MachineInt) :
    List Line → List Record → Time → Nat → List Record × Time × Nat
  | lines, entries, oldestNano, total =>
    if (total : Int) < params.maxFileScanEntries.toInt ∨ params.maxFileScanEntries.toInt ≤ 0 then
      match lines with
      | [] => (entries, 0, total)
      | line :: rest =>
        match readNextEntry env params line with
        | (none, ts) => readEntriesLoop totalLimit rest entries ts (total + 1)
        | (some ent, ts) =>
          if ((entries ++ [ent]).length : Int) = totalLimit.toInt then
            (entries ++ [ent], ts, total + 1)
          else readEntriesLoop totalLimit rest (entries ++ [ent]) ts (total + 1)
    else (entries, oldestNano, total)

/-- `queryLog.searchFiles`. -/
def searchFiles : List Record × Time × Nat :=
  match seekRecord log params with
  | none => ([], 0, 0)
  | some lines => readEntriesLoop env params (params.offset + params.limit) lines [] 0 0

/-- `entries[:n]`, where `none` is the panic on a negative bound. -/
def cutTo (entries : List Record) (n : MachineInt) : Option (List Record) :=
  if 0 ≤ n.toInt then some (entries.take n.toInt.toNat) else none

/-- `queryLog.finalizeSearchResults`. -/
def finalizeSearchResults (entries : List Record) (oldest : Time) : List Record × Time :=
  let entries := entries.mergeSort fun a b => env.time b ≤ env.time a
  if 0 < params.offset.toInt then
    if params.offset.toInt < entries.length then
      let entries := entries.drop params.offset.toInt.toNat
      (entries, (entries.getLast?.map env.time).getD oldest)
    else ([], 0)
  else (entries, (entries.getLast?.map env.time).getD oldest)

/-- `queryLog.search`. -/
def search : Option (List Record × Time) :=
  if params.limit = 0 then some ([], 0)
  else do
    let (memoryEntries, _) := searchMemory env log params
    let (fileEntries, oldest, _) := searchFiles env log params
    let totalLimit := params.offset + params.limit
    let entries := memoryEntries ++ fileEntries
    let entries ← if totalLimit.toInt < entries.length then cutTo entries totalLimit
      else some entries
    some (finalizeSearchResults env params entries oldest)

end Search

end AdGuardHome.Querylog
