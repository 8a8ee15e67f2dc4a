import AdGuardHome.Querylog.QueryLog

namespace AdGuardHome.Querylog

open Container

variable {Entry : Type}

structure Run (ring : RingBuffer Entry) where
  log : QueryLog ring
  accepted : List Entry

namespace Run

variable {ring : RingBuffer Entry} (encode : Entry → Option Bytes)

def start (ring : RingBuffer Entry) (conf : Config) : Run ring := ⟨.new ring conf, []⟩

/-- Whether `Add` takes a record in. -/
def accepts (l : QueryLog ring) (params : AddParams Entry) : Bool :=
  l.conf.enabled && params.validate.isNone

def step (r : Run ring) (event : Event Entry) : Run ring × PUnit.{1} :=
  let accepted := match event with
    | .add params => if accepts r.log params then r.accepted ++ [params.entry] else r.accepted
    | _ => r.accepted
  (⟨r.log.step encode event, accepted⟩, ⟨⟩)

def machine : Transition.Machine (Run ring) (Event Entry) PUnit.{1} := ⟨step encode⟩

/-- The bytes are the lines of these records, each of which can be encoded. -/
def Lines (bytes : Bytes) (entries : List Entry) : Prop :=
  QueryLog.encodeLines encode entries = some bytes

/-- The accepted records are those in the file, then those in the batch being written,
then those in the buffer: each is in one place, and none is repeated. -/
def NothingLost (r : Run ring) : Prop :=
  ∃ written writing, Lines encode r.log.file written ∧
    Lines encode (r.log.writing.getD []) writing ∧
    (r.log.writing = none → writing = []) ∧
    r.accepted = written ++ writing ++ ring.range r.log.buffer

def Lossless (r : Run ring) : Event Entry → Prop
  | .add params => accepts r.log params = true →
      (ring.range r.log.buffer).length < ring.capacity r.log.buffer
  | .writeBatch outcome => ∀ b, r.log.writing = some b →
      outcome.opens = true ∧ b.length ≤ outcome.written
  | _ => True

variable {encode}

theorem encodeLines_append {first second : List Entry} {front back : Bytes}
    (frontLines : Lines encode front first) (backLines : Lines encode back second) :
    Lines encode (front ++ back) (first ++ second) := by
  induction first generalizing front with
  | nil =>
    obtain rfl : [] = front := by simpa [Lines, QueryLog.encodeLines] using frontLines
    exact backLines
  | cons entry rest ih =>
    simp only [Lines, QueryLog.encodeLines] at frontLines
    cases line : encode entry with
    | none => simp [line] at frontLines
    | some bytes =>
      simp only [line, Option.map_eq_some_iff] at frontLines
      obtain ⟨tail, tailLines, rfl⟩ := frontLines
      have joined := ih tailLines
      simp only [Lines] at joined
      simp [Lines, QueryLog.encodeLines, line, joined]

theorem NothingLost.add {r : Run ring} (kept : r.NothingLost encode) {params : AddParams Entry}
    (lossless : r.Lossless (.add params)) :
    ((machine encode).next r (.add params)).NothingLost encode := by
  obtain ⟨written, writing, file, batch, idle, all⟩ := kept
  cases accepted : accepts r.log params with
  | false =>
    have same : r.log.add params = r.log := by
      unfold QueryLog.add
      split
      · rfl
      · split
        · rfl
        · simp_all [accepts]
    refine ⟨written, writing, ?_⟩
    simp only [Transition.Machine.next, machine, step, QueryLog.step, same, accepted]
    exact ⟨file, batch, idle, all⟩
  | true =>
    have pushed : r.log.add params = { r.log with
        buffer := ring.push r.log.buffer params.entry
        flushPending := (r.log.add params).flushPending
        waiting := (r.log.add params).waiting } := by
      simp only [accepts, Bool.and_eq_true] at accepted
      simp only [QueryLog.add, accepted.1, Bool.not_true, Bool.false_eq_true, ↓reduceIte,
        Option.isSome_eq_false_iff.mpr accepted.2]
      split <;> rfl
    refine ⟨written, writing, ?_⟩
    simp only [Transition.Machine.next, machine, step, QueryLog.step, accepted, ↓reduceIte]
    rw [pushed]
    refine ⟨file, batch, idle, ?_⟩
    rw [ring.range_push_of_lt (lossless accepted), all]
    simp

theorem NothingLost.encodeBatch {r : Run ring} (kept : r.NothingLost encode) :
    ((machine encode).next r .encodeBatch).NothingLost encode := by
  have unchanged : ∀ waiting flushPending, NothingLost encode
      (⟨{ r.log with waiting, flushPending }, r.accepted⟩ : Run ring) := fun _ _ => kept
  simp only [Transition.Machine.next, machine, step, QueryLog.step, QueryLog.encodeBatch]
  split
  · exact kept
  rename_i free
  split
  · exact unchanged _ _
  cases encoded : QueryLog.encodeLines encode (ring.range r.log.buffer) with
  | none => exact unchanged _ _
  | some b =>
    obtain ⟨written, writing, file, _, idle, all⟩ := kept
    have nobody : r.log.writing = none := by
      cases holder : r.log.writing with
      | none => rfl
      | some old => simp [holder] at free
    refine ⟨written, ring.range r.log.buffer, file, encoded, by simp, ?_⟩
    rw [all, idle nobody]
    simp [ring.range_clear]

theorem NothingLost.writeBatch {r : Run ring} (kept : r.NothingLost encode)
    {outcome : WriteOutcome} (lossless : r.Lossless (.writeBatch outcome)) :
    ((machine encode).next r (.writeBatch outcome)).NothingLost encode := by
  obtain ⟨written, writing, file, batch, idle, all⟩ := kept
  simp only [Transition.Machine.next, machine, step, QueryLog.step, QueryLog.writeBatch]
  cases holder : r.log.writing with
  | none =>
    exact ⟨written, writing, file, by simpa [holder] using batch, fun _ => idle holder, all⟩
  | some b =>
    obtain ⟨opens, whole⟩ := lossless b holder
    have batch : Lines encode b writing := by simpa [holder] using batch
    refine ⟨written ++ writing, [], ?_, rfl, fun _ => rfl, ?_⟩
    · simp only [opens, ↓reduceIte, List.take_of_length_le whole]
      exact encodeLines_append file batch
    · rw [all, List.append_nil]

theorem NothingLost.next (r : Run ring) (event : Event Entry) (kept : r.NothingLost encode)
    (lossless : r.Lossless event) : ((machine encode).next r event).NothingLost encode := by
  cases event with
  | add params => exact kept.add lossless
  | shutdown =>
    simp only [Transition.Machine.next, machine, step, QueryLog.step, QueryLog.shutdown]
    split
    · exact kept
    · exact kept
  | encodeBatch => exact kept.encodeBatch
  | writeBatch outcome => exact kept.writeBatch lossless
  | search => exact kept

/-- In every interleaving of lossless steps no accepted record is lost or repeated. -/
theorem nothing_lost {conf : Config} {events : List (Event Entry)}
    (lossless : (machine encode).Allowed Lossless (start ring conf) events) :
    ((machine encode).run (start ring conf) events).NothingLost encode := by
  refine (machine encode).run_invariant (NothingLost encode) NothingLost.next ?_ lossless
  exact ⟨[], [], rfl, rfl, fun _ => rfl, by simp [start, QueryLog.new, ring.range_new]⟩

section Examples

private def record : AddParams Nat := ⟨some ["example.org"], some [192, 0, 2, 1], 7⟩

private def line (entry : Nat) : Option Bytes := some [BitVec.ofNat 8 entry, 10]

private def oneRecord : Config := ⟨true, true, 1⟩

private def flushed (opens : Bool) : List (Event Nat) :=
  [.add record, .encodeBatch, .writeBatch ⟨opens, 2⟩]

theorem nothing_lost_one :
    ((machine line).run (start (.ofList Nat) oneRecord) (flushed true)).NothingLost line :=
  nothing_lost ⟨fun _ => by decide, trivial, by
    intro b holder
    cases holder
    decide, trivial⟩

/-- A file that cannot be opened swallows the batch. -/
theorem failed_open_loses_record :
    ¬ ∀ events : List (Event Nat),
      ((machine line).run (start (.ofList Nat) oneRecord) events).NothingLost line := by
  intro kept
  obtain ⟨written, writing, file, _, idle, all⟩ := kept (flushed false)
  have file : Lines line [] written := file
  have nothing : written = [] := by
    cases written with
    | nil => rfl
    | cons entry rest => simp [Lines, QueryLog.encodeLines, line] at file
  rw [nothing, idle rfl] at all
  revert all
  decide

end Examples

end Run

end AdGuardHome.Querylog
