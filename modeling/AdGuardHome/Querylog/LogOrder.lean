import AdGuardHome.Querylog.NoLoss

namespace AdGuardHome.Querylog

open Container

structure Stamped (Entry : Type) where
  time : Int
  entry : Entry

/-- The records of a batch whose lines are within the bytes that are written. -/
def wholeLines {Entry : Type} (encode : Entry → Option Bytes) : List Entry → Nat → List Entry
  | [], _ => []
  | entry :: rest, written =>
    match encode entry with
    | none => []
    | some line =>
      if line.length ≤ written then entry :: wholeLines encode rest (written - line.length) else []

/-- A query log with the clock, the calls of `Add` between `newLogEntry` and the lock, the
records of the batch that is being written, and those whose lines are in the file. -/
structure Schedule {Entry : Type} (ring : RingBuffer (Stamped Entry)) where
  log : QueryLog ring
  clock : Int
  stamped : List (AddParams (Stamped Entry))
  batch : List (Stamped Entry)
  filed : List (Stamped Entry)

/-- A step of one of the goroutines: `push` picks one of the calls that have stamped. -/
inductive Schedule.Event (Entry : Type) where
  | stamp (elapsed : Nat) (params : AddParams Entry)
  | push (call : Nat)
  | shutdown
  | encodeBatch
  | writeBatch (outcome : WriteOutcome)
  | search

namespace Schedule

variable {Entry : Type} {ring : RingBuffer (Stamped Entry)}

def start (ring : RingBuffer (Stamped Entry)) (conf : Config) (clock : Int) : Schedule ring where
  log := .new ring conf
  clock := clock
  stamped := []
  batch := []
  filed := []

/-- The first part of `queryLog.Add`, up to `newLogEntry`, so much later. -/
def stamp (s : Schedule ring) (elapsed : Nat) (params : AddParams Entry) : Schedule ring :=
  let clock := s.clock + elapsed
  let s := { s with clock }
  if !s.log.conf.enabled then s
  else if params.validate.isSome then s
  else
    let call := ⟨params.question, params.clientIP, ⟨clock, params.entry⟩⟩
    { s with stamped := s.stamped ++ [call] }

/-- The second part of `queryLog.Add`, under `bufferLock`. -/
def push (s : Schedule ring) (call : Nat) : Schedule ring :=
  match s.stamped[call]? with
  | none => s
  | some params => { s with stamped := s.stamped.eraseIdx call, log := s.log.add params }

def encodeBatch (encode : Stamped Entry → Option Bytes) (s : Schedule ring) : Schedule ring :=
  let log := s.log.encodeBatch encode
  if s.log.writing.isNone && log.writing.isSome then
    { s with log, batch := ring.range s.log.buffer }
  else { s with log }

def writeBatch (encode : Stamped Entry → Option Bytes) (s : Schedule ring)
    (outcome : WriteOutcome) : Schedule ring :=
  match s.log.writing with
  | none => s
  | some _ =>
    let written := if outcome.opens then wholeLines encode s.batch outcome.written else []
    { s with log := s.log.writeBatch outcome, batch := [], filed := s.filed ++ written }

def step (encode : Stamped Entry → Option Bytes) (s : Schedule ring) (event : Event Entry) :
    Schedule ring × PUnit.{1} :=
  let next := match event with
    | .stamp elapsed params => s.stamp elapsed params
    | .push call => s.push call
    | .shutdown => { s with log := s.log.shutdown }
    | .encodeBatch => s.encodeBatch encode
    | .writeBatch outcome => s.writeBatch encode outcome
    | .search => s
  (next, ⟨⟩)

def machine (encode : Stamped Entry → Option Bytes) :
    Transition.Machine (Schedule ring) (Event Entry) PUnit.{1} := ⟨step encode⟩

/-- The timestamps of the file and of the buffer do not decrease in storage order. -/
def InOrder (s : Schedule ring) : Prop :=
  (s.filed ++ ring.range s.log.buffer).Pairwise fun a b => a.time ≤ b.time

def InTurn (s : Schedule ring) : Event Entry → Prop
  | .push call => ∀ params, s.stamped[call]? = some params →
      ∀ other ∈ s.stamped, params.entry.time ≤ other.entry.time
  | _ => True

def held (s : Schedule ring) : List (Stamped Entry) :=
  s.filed ++ s.batch ++ ring.range s.log.buffer

/-- The records are held in the order of their timestamps, those of the waiting calls are
no earlier, and the clock has passed them all. -/
structure Ordered (s : Schedule ring) : Prop where
  sorted : s.held.Pairwise fun a b => a.time ≤ b.time
  waiting : ∀ record ∈ s.held, ∀ call ∈ s.stamped, record.time ≤ call.entry.time
  passed : ∀ record ∈ s.held, record.time ≤ s.clock
  stamped : ∀ call ∈ s.stamped, call.entry.time ≤ s.clock

variable {s : Schedule ring}

theorem Ordered.inOrder (ordered : s.Ordered) : s.InOrder := by
  have sorted := ordered.sorted
  unfold held at sorted
  exact sorted.sublist ((List.sublist_append_left _ _).append_right _)

theorem Ordered.mono {s next : Schedule ring} (ordered : s.Ordered)
    (dropped : next.held.Sublist s.held) (calls : next.stamped = s.stamped)
    (clock : next.clock = s.clock) : next.Ordered where
  sorted := ordered.sorted.sublist dropped
  waiting record member := by
    rw [calls]
    exact ordered.waiting record (dropped.subset member)
  passed record member := by
    rw [clock]
    exact ordered.passed record (dropped.subset member)
  stamped := by
    rw [calls, clock]
    exact ordered.stamped

theorem Ordered.stamp (ordered : s.Ordered) (elapsed : Nat)
    (params : AddParams Entry) : (s.stamp elapsed params).Ordered := by
  have later : s.clock ≤ s.clock + elapsed := Int.le_add_of_nonneg_right (Int.natCast_nonneg _)
  have moved : Ordered { s with clock := s.clock + elapsed } :=
    ⟨ordered.sorted, ordered.waiting,
      fun record member => Int.le_trans (ordered.passed record member) later,
      fun call member => Int.le_trans (ordered.stamped call member) later⟩
  unfold Schedule.stamp
  dsimp only
  split
  · exact moved
  split
  · exact moved
  · refine ⟨moved.sorted, ?_, moved.passed, ?_⟩
    · intro record member call among
      rcases List.mem_append.mp among with old | new
      · exact moved.waiting record member call old
      · rw [List.mem_singleton.mp new]
        exact moved.passed record member
    · intro call among
      rcases List.mem_append.mp among with old | new
      · exact moved.stamped call old
      · rw [List.mem_singleton.mp new]

theorem range_add (l : QueryLog ring) (params : AddParams (Stamped Entry)) :
    (ring.range (l.add params).buffer).Sublist (ring.range l.buffer ++ [params.entry]) := by
  have unchanged : (ring.range l.buffer).Sublist (ring.range l.buffer ++ [params.entry]) :=
    List.sublist_append_left _ _
  have pushed : (ring.range (ring.push l.buffer params.entry)).Sublist
      (ring.range l.buffer ++ [params.entry]) := by
    rw [ring.range_push]
    exact List.drop_sublist _ _
  unfold QueryLog.add
  split
  · exact unchanged
  split
  · exact unchanged
  dsimp only
  split
  · exact pushed
  · exact pushed

theorem Ordered.push (ordered : s.Ordered) {call : Nat}
    (inTurn : s.InTurn (.push call)) : (s.push call).Ordered := by
  unfold Schedule.push
  cases found : s.stamped[call]? with
  | none => exact ordered
  | some params =>
    have least := inTurn params found
    have chosen : params ∈ s.stamped := List.mem_of_getElem? found
    have kept : ((s.stamped.eraseIdx call).Sublist s.stamped) := List.eraseIdx_sublist _ _
    have dropped : (held { s with
        stamped := s.stamped.eraseIdx call, log := s.log.add params }).Sublist
          (s.held ++ [params.entry]) := by
      unfold held
      rw [List.append_assoc _ (ring.range s.log.buffer)]
      exact (range_add s.log params).append_left _
    have old : ∀ record ∈ s.held ++ [params.entry], record ∈ s.held ∨ record = params.entry :=
      fun record member => (List.mem_append.mp member).imp_right List.mem_singleton.mp
    refine ⟨?_, ?_, ?_, ?_⟩
    · refine List.Pairwise.sublist dropped ?_
      refine List.pairwise_append.mpr ⟨ordered.sorted, List.pairwise_singleton _ _, ?_⟩
      intro record member last same
      rw [List.mem_singleton.mp same]
      exact ordered.waiting record member params chosen
    · intro record member other among
      rcases old record (dropped.subset member) with before | rfl
      · exact ordered.waiting record before other (kept.subset among)
      · exact least other (kept.subset among)
    · intro record member
      rcases old record (dropped.subset member) with before | rfl
      · exact ordered.passed record before
      · exact ordered.stamped params chosen
    · intro other among
      exact ordered.stamped other (kept.subset among)

/-- A call of `encodeEntries` fails and leaves the buffer, or takes all of it. -/
theorem encodeBatch_cases (encode : Stamped Entry → Option Bytes) (s : Schedule ring) :
    (∃ log, s.encodeBatch encode = { s with log } ∧ log.buffer = s.log.buffer ∧
      log.writing = s.log.writing ∧ log.file = s.log.file) ∨
    (∃ log b, s.encodeBatch encode = { s with log, batch := ring.range s.log.buffer } ∧
      log.writing = some b ∧ Run.Lines encode b (ring.range s.log.buffer) ∧
      ring.range log.buffer = [] ∧ log.file = s.log.file) := by
  have failed : ∀ log : QueryLog ring, s.log.encodeBatch encode = log →
      log.writing = s.log.writing → s.encodeBatch encode = { s with log } := by
    intro log same writing
    unfold Schedule.encodeBatch
    dsimp only
    rw [same, writing]
    cases s.log.writing <;> rfl
  by_cases busy : s.log.waiting = 0 ∨ s.log.writing.isSome
  · have same : s.log.encodeBatch encode = s.log := if_pos busy
    exact .inl ⟨s.log, failed _ same rfl, rfl, rfl, rfl⟩
  have idle : s.log.writing = none := by
    cases holder : s.log.writing with
    | none => rfl
    | some other => exact absurd (.inr (by rw [holder]; rfl)) busy
  by_cases empty : ring.len s.log.buffer = 0
  · refine .inl ⟨_, failed { s.log with waiting := s.log.waiting - 1 } ?_ rfl, rfl, rfl, rfl⟩
    unfold QueryLog.encodeBatch
    rw [if_neg busy]
    dsimp only
    rw [if_pos empty]
  cases lines : QueryLog.encodeLines encode (ring.range s.log.buffer) with
  | none =>
    refine .inl ⟨_, failed { s.log with waiting := s.log.waiting - 1 } ?_ rfl, rfl, rfl, rfl⟩
    unfold QueryLog.encodeBatch
    rw [if_neg busy]
    dsimp only
    rw [if_neg empty, lines]
  | some b =>
    have taken : s.log.encodeBatch encode = { s.log with
        waiting := s.log.waiting - 1
        writing := some b
        buffer := ring.clear s.log.buffer
        flushPending := false } := by
      unfold QueryLog.encodeBatch
      rw [if_neg busy]
      dsimp only
      rw [if_neg empty, lines]
    refine .inr ⟨s.log.encodeBatch encode, b, ?_, by rw [taken], lines,
      by rw [taken]; exact ring.range_clear _, by rw [taken]⟩
    unfold Schedule.encodeBatch
    dsimp only
    rw [taken, idle]
    rfl

theorem Ordered.encodeBatch (ordered : s.Ordered)
    (encode : Stamped Entry → Option Bytes) : (s.encodeBatch encode).Ordered := by
  rcases encodeBatch_cases encode s with ⟨log, same, buffer, _⟩ | ⟨log, b, same, _, _, cleared, _⟩
  · rw [same]
    refine ordered.mono ?_ rfl rfl
    simp only [held, buffer]
    exact .refl _
  · rw [same]
    refine ordered.mono ?_ rfl rfl
    simp only [held, cleared, List.append_nil]
    exact (List.sublist_append_left _ _).append_right _

theorem wholeLines_sublist (encode : Stamped Entry → Option Bytes)
    (batch : List (Stamped Entry)) (written : Nat) :
    (wholeLines encode batch written).Sublist batch := by
  induction batch generalizing written with
  | nil => exact .refl _
  | cons entry rest ih =>
    rw [wholeLines]
    cases encode entry with
    | none => exact List.nil_sublist _
    | some line =>
      dsimp only
      split
      · exact (ih _).cons_cons entry
      · exact List.nil_sublist _

theorem Ordered.writeBatch (ordered : s.Ordered) (encode : Stamped Entry → Option Bytes)
    (outcome : WriteOutcome) :
    (s.writeBatch encode outcome).Ordered := by
  unfold Schedule.writeBatch
  cases holder : s.log.writing with
  | none => exact ordered
  | some b =>
    have written : (if outcome.opens then wholeLines encode s.batch outcome.written
        else []).Sublist s.batch := by
      split
      · exact wholeLines_sublist encode s.batch outcome.written
      · exact List.nil_sublist _
    have buffer : (s.log.writeBatch outcome).buffer = s.log.buffer := by
      rw [QueryLog.writeBatch, holder]
    refine ordered.mono ?_ rfl rfl
    simp only [held, buffer, List.append_nil]
    exact (written.append_left s.filed).append_right _

theorem Ordered.next {encode : Stamped Entry → Option Bytes} (s : Schedule ring)
    (event : Event Entry) (ordered : s.Ordered) (inTurn : s.InTurn event) :
    ((machine encode).next s event).Ordered := by
  cases event with
  | stamp elapsed params => exact ordered.stamp elapsed params
  | push call => exact ordered.push inTurn
  | shutdown =>
    have buffer : s.log.shutdown.buffer = s.log.buffer := by
      unfold QueryLog.shutdown
      split <;> rfl
    refine @Ordered.mono _ _ s { s with log := s.log.shutdown } ordered ?_ rfl rfl
    simp only [held, buffer]
    exact .refl _
  | encodeBatch => exact ordered.encodeBatch encode
  | writeBatch outcome => exact ordered.writeBatch encode outcome
  | search => exact ordered

section Examples

private def query (name : Nat) : AddParams Nat := ⟨some ["example.org"], some [192, 0, 2, 1], name⟩

private def line (record : Stamped Nat) : Option Bytes := some [BitVec.ofNat 8 record.entry, 10]

private def two (first second : Nat) : List (Event Nat) :=
  [.stamp 0 (query 1), .stamp 1000000000 (query 2), .push first, .push second]

end Examples

end Schedule

end AdGuardHome.Querylog
