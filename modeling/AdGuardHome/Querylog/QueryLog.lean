import AdGuardHome.Lib.Machine
import Mathlib.Data.BitVec

/-! Package `container`: the ring buffer, known by what its documentation promises. -/
namespace AdGuardHome.Container

/-- `container.RingBuffer`: at most `capacity` elements, walked from the oldest to the
newest. A push into a full buffer overwrites the oldest element. -/
structure RingBuffer (α : Type) where
  Buffer : Type
  new : Nat → Buffer
  push : Buffer → α → Buffer
  clear : Buffer → Buffer
  range : Buffer → List α
  len : Buffer → Nat
  capacity : Buffer → Nat
  len_eq : ∀ buffer, len buffer = (range buffer).length
  range_new : ∀ size, range (new size) = []
  capacity_new : ∀ size, capacity (new size) = size
  range_push : ∀ buffer element, range (push buffer element) =
    (range buffer ++ [element]).drop ((range buffer).length + 1 - capacity buffer)
  capacity_push : ∀ buffer element, capacity (push buffer element) = capacity buffer
  range_clear : ∀ buffer, range (clear buffer) = []
  capacity_clear : ∀ buffer, capacity (clear buffer) = capacity buffer

namespace RingBuffer

/-- A push that overwrites nothing. -/
theorem range_push_of_lt {α : Type} (ring : RingBuffer α) {buffer : ring.Buffer}
    (room : (ring.range buffer).length < ring.capacity buffer) (element : α) :
    ring.range (ring.push buffer element) = ring.range buffer ++ [element] := by
  rw [ring.range_push, Nat.sub_eq_zero_of_le room, List.drop_zero]

def ofList (α : Type) : RingBuffer α where
  Buffer := Nat × List α
  new size := (size, [])
  push buffer element :=
    (buffer.1, (buffer.2 ++ [element]).drop (buffer.2.length + 1 - buffer.1))
  clear buffer := (buffer.1, [])
  range buffer := buffer.2
  len buffer := buffer.2.length
  capacity buffer := buffer.1
  len_eq _ := rfl
  range_new _ := rfl
  capacity_new _ := rfl
  range_push _ _ := rfl
  capacity_push _ _ := rfl
  range_clear _ := rfl
  capacity_clear _ := rfl

end RingBuffer

end AdGuardHome.Container

namespace AdGuardHome.Querylog

open Container

abbrev Bytes := List (BitVec 8)

/-- `Config`, with the fields that adding a record reads. -/
structure Config where
  enabled : Bool
  fileEnabled : Bool
  memSize : Nat
deriving DecidableEq

/-- `AddParams`: what `validate` looks at, and the record `newLogEntry` makes of them.
A question is known by its host. -/
structure AddParams (Entry : Type) where
  question : Option (List String)
  clientIP : Option Bytes
  entry : Entry

inductive ParamsError where
  | questionNil
  | moreThanOneQuestion
  | noHost
  | noClientIP
deriving DecidableEq

/-- `AddParams.validate`. -/
def AddParams.validate {Entry : Type} (p : AddParams Entry) : Option ParamsError :=
  match p.question with
  | none => some .questionNil
  | some [host] =>
    if host = "" then some .noHost
    else if p.clientIP.isNone then some .noClientIP
    else none
  | some _ => some .moreThanOneQuestion

/-- `queryLog` with the calls of `flushLogBuffer` in progress: those that wait for
`fileFlushLock`, and the encoded batch of the one that holds it. -/
structure QueryLog {Entry : Type} (ring : RingBuffer Entry) where
  conf : Config
  buffer : ring.Buffer
  flushPending : Bool
  waiting : Nat
  writing : Option Bytes
  file : Bytes

/-- How opening and writing the file turn out: `written` bytes reach it. -/
structure WriteOutcome where
  opens : Bool
  written : Nat
deriving DecidableEq

/-- A step of one of the goroutines. A record is pushed at once, under `bufferLock`; a
flush first encodes and clears the buffer and later writes the file. -/
inductive Event (Entry : Type) where
  | add (params : AddParams Entry)
  | shutdown
  | encodeBatch
  | writeBatch (outcome : WriteOutcome)
  | search

namespace QueryLog

variable {Entry : Type} {ring : RingBuffer Entry}

/-- `newQueryLog`, on an empty directory. -/
def new (ring : RingBuffer Entry) (conf : Config) : QueryLog ring where
  conf := conf
  buffer := ring.new (if conf.memSize = 0 then 1 else conf.memSize)
  flushPending := false
  waiting := 0
  writing := none
  file := []

/-- `queryLog.Add`. -/
def add (l : QueryLog ring) (params : AddParams Entry) : QueryLog ring :=
  if !l.conf.enabled then l
  else if params.validate.isSome then l
  else
    let l := { l with buffer := ring.push l.buffer params.entry }
    if !l.flushPending && l.conf.fileEnabled && decide (l.conf.memSize ≤ ring.len l.buffer) then
      { l with flushPending := true, waiting := l.waiting + 1 }
    else l

/-- The start of `queryLog.Shutdown`. -/
def shutdown (l : QueryLog ring) : QueryLog ring :=
  if l.conf.fileEnabled then { l with waiting := l.waiting + 1 } else l

/-- The loop of `encodeEntries`: the lines of the records, unless one cannot be
encoded. -/
def encodeLines (encode : Entry → Option Bytes) : List Entry → Option Bytes
  | [] => some []
  | entry :: rest =>
    match encode entry with
    | none => none
    | some line => (encodeLines encode rest).map (line ++ ·)

/-- A waiting call of `flushLogBuffer` takes the lock and runs `encodeEntries`. On an
error it returns at once. -/
def encodeBatch (encode : Entry → Option Bytes) (l : QueryLog ring) : QueryLog ring :=
  if l.waiting = 0 ∨ l.writing.isSome then l
  else
    let l := { l with waiting := l.waiting - 1 }
    if ring.len l.buffer = 0 then l
    else match encodeLines encode (ring.range l.buffer) with
      | none => l
      | some b => { l with writing := some b, buffer := ring.clear l.buffer, flushPending := false }

/-- The call that holds the lock runs `flushToFile` and returns. -/
def writeBatch (l : QueryLog ring) (outcome : WriteOutcome) : QueryLog ring :=
  match l.writing with
  | none => l
  | some b =>
    { l with
      writing := none
      file := if outcome.opens then l.file ++ b.take outcome.written else l.file }

def step (encode : Entry → Option Bytes) (l : QueryLog ring) : Event Entry → QueryLog ring
  | .add params => l.add params
  | .shutdown => l.shutdown
  | .encodeBatch => l.encodeBatch encode
  | .writeBatch outcome => l.writeBatch outcome
  -- A search only reads the buffer and the files.
  | .search => l

end QueryLog

end AdGuardHome.Querylog
