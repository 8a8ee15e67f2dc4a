import AdGuardHome.Querylog.QueryLog

namespace AdGuardHome.Querylog

open Container

/-- A record with its timestamp and its place among all that were added. The times are in
nanoseconds. -/
structure Dated where
  time : Nat
  number : Nat
deriving DecidableEq

/-- Where `checkAndRotate` is. The oldest time is `none`, which stands for the zero time, where
there was no file to read it from. -/
inductive Rotation where
  | idle
  | compare (oldest : Option Nat)
  | rename (oldest : Option Nat)
deriving DecidableEq

def Rotation.oldest : Rotation → Option Nat
  | .idle => none
  | .compare oldest | .rename oldest => oldest

/-- Where the call of `clear` is that holds `fileFlushLock`, with the number of records that were
added before it was made. -/
inductive Clearing where
  | idle
  | emptied (before : Nat)
  | removedOld (before : Nat)
deriving DecidableEq

def Clearing.before : Clearing → Option Nat
  | .idle => none
  | .emptied before | .removedOld before => some before

/-- How the first read of the log file fails. -/
inductive ReadError where
  | notExist
  | eof
deriving DecidableEq

/-- `queryLog` with its two files and the calls in progress: those of `flushLogBuffer` and `clear`
that wait for `fileFlushLock`, the batch and the place of the one that holds it, and the place of
the goroutine that rotates. What the calls of `clear` that have returned promise is `cleared`, and
`lost` holds the records that a rename has overwritten, with the time of the rename. -/
structure LogFiles (ring : RingBuffer Dated) where
  conf : Config
  rotationIvl : Nat
  now : Nat
  newest : Nat
  buffer : ring.Buffer
  flushPending : Bool
  flushes : Nat
  batch : Option (List Dated)
  logFile : Option (List Dated)
  oldLogFile : Option (List Dated)
  rotation : Rotation
  clears : List Nat
  clearing : Clearing
  added : Nat
  cleared : Nat
  lost : List (Dated × Nat)

namespace LogFiles

variable {ring : RingBuffer Dated}

/-- A step of one of the goroutines, or the time that passes, or a restart. -/
inductive Event where
  | wait (elapsed : Nat)
  | add (time : Nat)
  | shutdown
  | encodeEntries (encodes : Bool)
  | flushToFile
  | clear
  | clearBuffer (call : Nat)
  | removeOldLogFile
  | removeLogFile
  | checkAndRotate
  | compare
  | rotate
  | restart
deriving DecidableEq

/-- `newQueryLog`, on an empty directory. -/
def new (ring : RingBuffer Dated) (conf : Config) (rotationIvl now : Nat) : LogFiles ring where
  conf := conf
  rotationIvl := rotationIvl
  now := now
  newest := 0
  buffer := ring.new (if conf.memSize = 0 then 1 else conf.memSize)
  flushPending := false
  flushes := 0
  batch := none
  logFile := none
  oldLogFile := none
  rotation := .idle
  clears := []
  clearing := .idle
  added := 0
  cleared := 0
  lost := []

/-- `queryLog.Add`, of a record with the given timestamp. The timestamps do not decrease in the
order of the buffer. -/
def add (s : LogFiles ring) (time : Nat) : LogFiles ring :=
  if !s.conf.enabled then s
  else if s.newest ≤ time ∧ time ≤ s.now then
    let s := { s with
      newest := time
      buffer := ring.push s.buffer ⟨time, s.added⟩
      added := s.added + 1 }
    if !s.flushPending && s.conf.fileEnabled && decide (s.conf.memSize ≤ ring.len s.buffer) then
      { s with flushPending := true, flushes := s.flushes + 1 }
    else s
  else s

/-- The start of `queryLog.Shutdown`. -/
def shutdown (s : LogFiles ring) : LogFiles ring :=
  if s.conf.fileEnabled then { s with flushes := s.flushes + 1 } else s

/-- Nobody holds `fileFlushLock`. -/
def Unlocked (s : LogFiles ring) : Prop := s.batch = none ∧ s.clearing = .idle

instance (s : LogFiles ring) : Decidable s.Unlocked := inferInstanceAs (Decidable (_ ∧ _))

/-- A waiting call of `flushLogBuffer` takes the lock and runs `encodeEntries`. On an error it
returns at once. -/
def encodeEntries (s : LogFiles ring) (encodes : Bool) : LogFiles ring :=
  if s.flushes = 0 ∨ ¬s.Unlocked then s
  else
    let s := { s with flushes := s.flushes - 1 }
    if ring.len s.buffer = 0 ∨ !encodes then s
    else { s with
      batch := some (ring.range s.buffer)
      buffer := ring.clear s.buffer
      flushPending := false }

/-- `flushToFile`, which creates the file where there is none. The call returns. -/
def flushToFile (s : LogFiles ring) : LogFiles ring :=
  match s.batch with
  | none => s
  | some b => { s with batch := none, logFile := some (s.logFile.getD [] ++ b) }

/-- A waiting call of `clear` takes the lock and clears the buffer. -/
def clearBuffer (s : LogFiles ring) (call : Nat) : LogFiles ring :=
  match s.clears[call]? with
  | none => s
  | some before =>
    if s.Unlocked then
      { s with
        clears := s.clears.eraseIdx call
        clearing := .emptied before
        buffer := ring.clear s.buffer
        flushPending := false }
    else s

/-- `clear` removes the `.1` file. -/
def removeOldLogFile (s : LogFiles ring) : LogFiles ring :=
  match s.clearing with
  | .emptied before => { s with clearing := .removedOld before, oldLogFile := none }
  | _ => s

/-- `clear` removes the log file and returns. -/
def removeLogFile (s : LogFiles ring) : LogFiles ring :=
  match s.clearing with
  | .removedOld before =>
    { s with clearing := .idle, logFile := none, cleared := max s.cleared before }
  | _ => s

/-- `readFileFirstTimeValue`. -/
def readFileFirstTimeValue : Option (List Dated) → Except ReadError Nat
  | none => .error .notExist
  | some [] => .error .eof
  | some (first :: _) => .ok first.time

/-- `checkAndRotate`, up to where it has read the oldest time. -/
def checkAndRotate (s : LogFiles ring) : LogFiles ring :=
  match s.rotation with
  | .idle =>
    match readFileFirstTimeValue s.logFile with
    | .ok first => { s with rotation := .compare (some first) }
    | .error .notExist => { s with rotation := .compare none }
    | .error .eof => s
  | _ => s

/-- `checkAndRotate` goes on to `rotate` unless the time is still to come. That of a missing file
never is. -/
def compare (s : LogFiles ring) : LogFiles ring :=
  match s.rotation with
  | .compare oldest =>
    if ∀ time, oldest = some time → time + s.rotationIvl ≤ s.now then
      { s with rotation := .rename oldest }
    else { s with rotation := .idle }
  | _ => s

/-- `rotate`. -/
def rotate (s : LogFiles ring) : LogFiles ring :=
  match s.rotation, s.logFile with
  | .rename _, none => { s with rotation := .idle }
  | .rename _, some log =>
    { s with
      rotation := .idle
      logFile := none
      oldLogFile := some log
      lost := s.lost ++ (s.oldLogFile.getD []).map (·, s.now) }
  | _, _ => s

def restart (s : LogFiles ring) : LogFiles ring :=
  { s with
    buffer := ring.clear s.buffer
    flushPending := false
    flushes := 0
    batch := none
    rotation := .idle
    clears := []
    clearing := .idle }

def step (s : LogFiles ring) : Event → LogFiles ring
  | .wait elapsed => { s with now := s.now + elapsed }
  | .add time => s.add time
  | .shutdown => s.shutdown
  | .encodeEntries encodes => s.encodeEntries encodes
  | .flushToFile => s.flushToFile
  | .clear => { s with clears := s.clears ++ [s.added] }
  | .clearBuffer call => s.clearBuffer call
  | .removeOldLogFile => s.removeOldLogFile
  | .removeLogFile => s.removeLogFile
  | .checkAndRotate => s.checkAndRotate
  | .compare => s.compare
  | .rotate => s.rotate
  | .restart => s.restart

def machine : Transition.Machine (LogFiles ring) Event PUnit.{1} :=
  ⟨fun s event => (s.step event, ⟨⟩)⟩

/-- The records of the `.1` file. -/
def old (s : LogFiles ring) : List Dated := s.oldLogFile.getD []

def kept (s : LogFiles ring) : List Dated :=
  s.old ++ s.logFile.getD [] ++ s.batch.getD [] ++ ring.range s.buffer

/-- What was lost to a rename had its time, and what was cleared is gone. -/
structure Sound (s : LogFiles ring) : Prop where
  retained : ∀ loss ∈ s.lost, loss.1.time + s.rotationIvl ≤ loss.2
  cleared : ∀ record ∈ s.kept, s.cleared ≤ record.number

/-- A rotation that has found no file, and renames one, overwrites no recent records. Nothing
from before a call of `clear` has come into the `.1` file again when it removes the log file. -/
def Timely (s : LogFiles ring) : Event → Prop
  | .rotate => s.rotation = .rename none → s.logFile.isSome →
      ∀ record ∈ s.old, record.time + s.rotationIvl ≤ s.now
  | .removeLogFile => ∀ before, s.clearing = .removedOld before →
      ∀ record ∈ s.old, before ≤ record.number
  | _ => True

structure Ordered (s : LogFiles ring) : Prop where
  sorted : s.kept.Pairwise fun a b => a.time ≤ b.time
  passed : ∀ record ∈ s.kept, record.time ≤ s.newest

/-- No call of `clear` is ahead of the records, and the one that holds the lock has left nothing
from before it in memory. -/
structure Counted (s : LogFiles ring) : Prop where
  cleared : s.cleared ≤ s.added
  calls : ∀ before ∈ s.clears, before ≤ s.added
  emptied : ∀ before, s.clearing.before = some before →
    before ≤ s.added ∧ s.batch = none ∧ ∀ record ∈ ring.range s.buffer, before ≤ record.number

/-- Nothing in the `.1` file is later than the time that a rotation has read, and that time is due
where it is about to rename. -/
structure Due (s : LogFiles ring) : Prop where
  read : ∀ time, s.rotation.oldest = some time → ∀ record ∈ s.old, record.time ≤ time
  due : ∀ time, s.rotation = .rename (some time) → time + s.rotationIvl ≤ s.now

structure Consistent (s : LogFiles ring) : Prop where
  ordered : s.Ordered
  counted : s.Counted
  rotation : s.Due

end LogFiles

end AdGuardHome.Querylog

namespace AdGuardHome.Querylog.LogFiles

open Container

variable {ring : RingBuffer Dated} {s : LogFiles ring}

theorem range_push_sublist (buffer : ring.Buffer) (record : Dated) :
    (ring.range (ring.push buffer record)).Sublist (ring.range buffer ++ [record]) := by
  rw [ring.range_push]
  exact List.drop_sublist _ _

/-- What a step does to the records: it holds on to some of them, in their order, or adds one. -/
inductive Moves (s next : LogFiles ring) : Prop where
  | holds (newest : next.newest = s.newest) (added : next.added = s.added)
      (kept : next.kept.Sublist s.kept)
  | adds (newest : s.newest ≤ next.newest) (added : next.added = s.added + 1)
      (kept : next.kept.Sublist (s.kept ++ [⟨next.newest, s.added⟩]))

variable {next : LogFiles ring}

theorem Moves.same (newest : next.newest = s.newest) (added : next.added = s.added)
    (kept : next.kept = s.kept) : Moves s next :=
  .holds newest added (kept ▸ List.Sublist.refl _)

theorem moves_add (time : Nat) : Moves s (s.add time) := by
  have pushed : (s.old ++ s.logFile.getD [] ++ s.batch.getD [] ++
      ring.range (ring.push s.buffer ⟨time, s.added⟩)).Sublist
      (s.kept ++ [⟨time, s.added⟩]) := by
    unfold kept
    rw [List.append_assoc _ (ring.range s.buffer)]
    exact (range_push_sublist s.buffer _).append_left _
  unfold add
  split
  · exact .same rfl rfl rfl
  split
  next between =>
    dsimp only
    split
    · exact .adds between.1 rfl pushed
    · exact .adds between.1 rfl pushed
  · exact .same rfl rfl rfl

theorem moves_encodeEntries (encodes : Bool) : Moves s (s.encodeEntries encodes) := by
  unfold encodeEntries
  split
  · exact .same rfl rfl rfl
  next free =>
    have idle : s.batch = none := by
      apply Classical.byContradiction
      intro held
      exact free (.inr fun unlocked => held unlocked.1)
    dsimp only
    split
    · exact .same rfl rfl rfl
    · refine .same rfl rfl ?_
      simp [kept, old, idle, ring.range_clear]

theorem moves_flushToFile : Moves s s.flushToFile := by
  unfold flushToFile
  split
  · exact .same rfl rfl rfl
  next b writing =>
    refine .same rfl rfl ?_
    simp [kept, old, writing]

theorem moves_clearBuffer (call : Nat) : Moves s (s.clearBuffer call) := by
  unfold clearBuffer
  split
  · exact .same rfl rfl rfl
  split
  · refine .holds rfl rfl ?_
    unfold kept
    apply List.Sublist.append_left
    rw [ring.range_clear]
    exact List.nil_sublist _
  · exact .same rfl rfl rfl

theorem moves_removeOldLogFile : Moves s s.removeOldLogFile := by
  unfold removeOldLogFile
  split
  · refine .holds rfl rfl ?_
    unfold kept
    exact (((List.nil_sublist _).append_right _).append_right _).append_right _
  · exact .same rfl rfl rfl

theorem moves_removeLogFile : Moves s s.removeLogFile := by
  unfold removeLogFile
  split
  · refine .holds rfl rfl ?_
    unfold kept
    exact (((List.nil_sublist _).append_left _).append_right _).append_right _
  · exact .same rfl rfl rfl

theorem moves_checkAndRotate : Moves s s.checkAndRotate := by
  unfold checkAndRotate
  split
  · split
    · exact .same rfl rfl rfl
    · exact .same rfl rfl rfl
    · exact .same rfl rfl rfl
  · exact .same rfl rfl rfl

theorem moves_compare : Moves s s.compare := by
  unfold compare
  split
  · split
    · exact .same rfl rfl rfl
    · exact .same rfl rfl rfl
  · exact .same rfl rfl rfl

theorem moves_rotate : Moves s s.rotate := by
  unfold rotate
  split
  · exact .same rfl rfl rfl
  next log _ present =>
    refine .holds rfl rfl ?_
    have file : s.logFile.getD [] = log := by rw [present]; rfl
    unfold kept
    rw [file]
    apply List.Sublist.append_right
    apply List.Sublist.append_right
    simp [old]
  · exact .same rfl rfl rfl

theorem moves_restart : Moves s s.restart := by
  refine .holds rfl rfl ?_
  have buffer : ring.range s.restart.buffer = [] := ring.range_clear _
  unfold kept
  rw [buffer]
  exact ((List.nil_sublist _).append_left _).append (List.nil_sublist _)

theorem moves_step (event : Event) : Moves s (s.step event) := by
  cases event with
  | wait elapsed => exact .same rfl rfl rfl
  | add time => exact moves_add time
  | shutdown =>
    unfold step shutdown
    dsimp only
    split
    · exact .same rfl rfl rfl
    · exact .same rfl rfl rfl
  | encodeEntries encodes => exact moves_encodeEntries encodes
  | flushToFile => exact moves_flushToFile
  | clear => exact .same rfl rfl rfl
  | clearBuffer call => exact moves_clearBuffer call
  | removeOldLogFile => exact moves_removeOldLogFile
  | removeLogFile => exact moves_removeLogFile
  | checkAndRotate => exact moves_checkAndRotate
  | compare => exact moves_compare
  | rotate => exact moves_rotate
  | restart => exact moves_restart

theorem Moves.mem (moves : Moves s next) {record : Dated}
    (member : record ∈ next.kept) : record ∈ s.kept ∨ record.number = s.added := by
  cases moves with
  | holds newest added kept => exact .inl (kept.subset member)
  | adds newest added kept =>
    rcases List.mem_append.mp (kept.subset member) with before | new
    · exact .inl before
    · right
      rw [List.mem_singleton.mp new]

theorem Ordered.moves (ordered : s.Ordered) (moves : Moves s next) :
    next.Ordered := by
  cases moves with
  | holds newest added kept =>
    constructor
    · exact ordered.sorted.sublist kept
    · intro record member
      rw [newest]
      exact ordered.passed record (kept.subset member)
  | adds newest added kept =>
    constructor
    · apply List.Pairwise.sublist kept
      apply List.pairwise_append.mpr
      refine ⟨ordered.sorted, List.pairwise_singleton _ _, ?_⟩
      intro record member new isNew
      rw [List.mem_singleton.mp isNew]
      exact Nat.le_trans (ordered.passed record member) newest
    · intro record member
      rcases List.mem_append.mp (kept.subset member) with before | new
      · exact Nat.le_trans (ordered.passed record before) newest
      · rw [List.mem_singleton.mp new]

theorem Ordered.old_le (ordered : s.Ordered) {first : Dated} {rest : List Dated}
    (file : s.logFile = some (first :: rest)) {record : Dated} (member : record ∈ s.old) :
    record.time ≤ first.time := by
  have sorted := ordered.sorted
  unfold kept at sorted
  rw [List.append_assoc, List.append_assoc, file] at sorted
  apply (List.pairwise_append.mp sorted).2.2 record member first
  exact List.mem_append_left _ List.mem_cons_self

theorem step_frame (event : Event) :
    (s.step event).rotationIvl = s.rotationIvl ∧
      (event ≠ .rotate → (s.step event).lost = s.lost) ∧
      (event ≠ .removeLogFile → (s.step event).cleared = s.cleared) := by
  cases event with
  | rotate =>
    unfold step rotate
    dsimp only
    split
    · exact ⟨rfl, fun other => absurd rfl other, fun _ => rfl⟩
    · exact ⟨rfl, fun other => absurd rfl other, fun _ => rfl⟩
    · exact ⟨rfl, fun other => absurd rfl other, fun _ => rfl⟩
  | removeLogFile =>
    unfold step removeLogFile
    dsimp only
    split
    · exact ⟨rfl, fun _ => rfl, fun other => absurd rfl other⟩
    · exact ⟨rfl, fun _ => rfl, fun other => absurd rfl other⟩
  | _ =>
    refine ⟨?_, fun _ => ?_, fun _ => ?_⟩
    all_goals
      simp only [step, add, shutdown, encodeEntries, flushToFile, clearBuffer, removeOldLogFile,
        checkAndRotate, compare, restart]
      repeat' split
    all_goals rfl

theorem Counted.frame (counted : s.Counted) (added : s.added ≤ next.added)
    (cleared : next.cleared = s.cleared) (calls : next.clears ⊆ s.clears)
    (clearing : ∀ before, next.clearing.before = some before → s.clearing.before = some before)
    (batch : s.batch = none → next.batch = none)
    (buffer : ∀ record ∈ ring.range next.buffer, record ∈ ring.range s.buffer ∨
      record.number = s.added) : next.Counted where
  cleared := by
    rw [cleared]
    exact Nat.le_trans counted.cleared added
  calls before waits := Nat.le_trans (counted.calls before (calls waits)) added
  emptied before held := by
    obtain ⟨made, none, gone⟩ := counted.emptied before (clearing before held)
    refine ⟨Nat.le_trans made added, batch none, ?_⟩
    intro record member
    rcases buffer record member with here | new
    · exact gone record here
    · rw [new]
      exact made

theorem Counted.add (counted : s.Counted) (time : Nat) : (s.add time).Counted := by
  have pushed : ∀ record ∈ ring.range (ring.push s.buffer ⟨time, s.added⟩),
      record ∈ ring.range s.buffer ∨ record.number = s.added := by
    intro record member
    rcases List.mem_append.mp ((range_push_sublist s.buffer _).subset member) with here | new
    · exact .inl here
    · right
      rw [List.mem_singleton.mp new]
  unfold LogFiles.add
  split
  · exact counted
  split
  · dsimp only
    split
    · exact counted.frame (Nat.le_succ _) rfl (List.Subset.refl _) (fun _ held => held) id pushed
    · exact counted.frame (Nat.le_succ _) rfl (List.Subset.refl _) (fun _ held => held) id pushed
  · exact counted

theorem Counted.encodeEntries (counted : s.Counted) (encodes : Bool) :
    (s.encodeEntries encodes).Counted := by
  unfold LogFiles.encodeEntries
  split
  · exact counted
  next free =>
    have idle : s.clearing = .idle := by
      apply Classical.byContradiction
      intro held
      exact free (.inr fun unlocked => held unlocked.2)
    dsimp only
    split
    · exact ⟨counted.cleared, counted.calls, counted.emptied⟩
    · refine ⟨counted.cleared, counted.calls, ?_⟩
      intro before held
      rw [idle] at held
      exact nomatch held

theorem Counted.clearBuffer (counted : s.Counted) (call : Nat) : (s.clearBuffer call).Counted := by
  unfold LogFiles.clearBuffer
  split
  · exact counted
  next before waits =>
    split
    next unlocked =>
      refine ⟨counted.cleared, ?_, ?_⟩
      · intro other waits
        exact counted.calls other (List.mem_of_mem_eraseIdx waits)
      · intro other held
        have same : before = other := Option.some.inj held
        subst same
        refine ⟨counted.calls before (List.mem_of_getElem? waits), unlocked.1, ?_⟩
        intro record member
        rw [ring.range_clear] at member
        exact nomatch member
    · exact counted

theorem Counted.removeLogFile (counted : s.Counted) : s.removeLogFile.Counted := by
  unfold LogFiles.removeLogFile
  split
  next before removed =>
    have made := (counted.emptied before (by rw [removed]; rfl)).1
    exact ⟨Nat.max_le.mpr ⟨counted.cleared, made⟩, counted.calls, fun _ held => nomatch held⟩
  · exact counted

theorem Counted.step (counted : s.Counted) (event : Event) : (s.step event).Counted := by
  cases event with
  | wait elapsed => exact ⟨counted.cleared, counted.calls, counted.emptied⟩
  | add time => exact counted.add time
  | shutdown =>
    unfold LogFiles.step shutdown
    dsimp only
    split
    · exact ⟨counted.cleared, counted.calls, counted.emptied⟩
    · exact counted
  | encodeEntries encodes => exact counted.encodeEntries encodes
  | flushToFile =>
    unfold LogFiles.step flushToFile
    dsimp only
    split
    · exact counted
    · exact counted.frame (Nat.le_refl _) rfl (List.Subset.refl _) (fun _ held => held)
        (fun _ => rfl) (fun _ member => .inl member)
  | clear =>
    refine ⟨counted.cleared, ?_, counted.emptied⟩
    intro before waits
    rcases List.mem_append.mp waits with earlier | new
    · exact counted.calls before earlier
    · exact Nat.le_of_eq (List.mem_singleton.mp new)
  | clearBuffer call => exact counted.clearBuffer call
  | removeOldLogFile =>
    unfold LogFiles.step removeOldLogFile
    dsimp only
    split
    next before emptied =>
      refine counted.frame (Nat.le_refl _) rfl (List.Subset.refl _) ?_ id
        (fun _ member => .inl member)
      intro other held
      rw [emptied]
      exact held
    · exact counted
  | removeLogFile => exact counted.removeLogFile
  | checkAndRotate =>
    unfold LogFiles.step checkAndRotate
    dsimp only
    repeat' split
    all_goals exact ⟨counted.cleared, counted.calls, counted.emptied⟩
  | compare =>
    unfold LogFiles.step compare
    dsimp only
    repeat' split
    all_goals exact ⟨counted.cleared, counted.calls, counted.emptied⟩
  | rotate =>
    unfold LogFiles.step rotate
    dsimp only
    split
    all_goals exact ⟨counted.cleared, counted.calls, counted.emptied⟩
  | restart =>
    refine ⟨counted.cleared, ?_, ?_⟩
    · exact fun _ waits => nomatch waits
    · exact fun _ held => nomatch held

theorem Due.frame (due : s.Due) (rotation : next.rotation = s.rotation)
    (ivl : next.rotationIvl = s.rotationIvl) (now : s.now ≤ next.now) (old : next.old ⊆ s.old) :
    next.Due where
  read time read record member := due.read time (rotation ▸ read) record (old member)
  due time renames := by
    rw [ivl]
    exact Nat.le_trans (due.due time (rotation ▸ renames)) now

theorem Due.checkAndRotate (due : s.Due) (ordered : s.Ordered) : s.checkAndRotate.Due := by
  unfold LogFiles.checkAndRotate
  split
  · split
    next first read =>
      refine ⟨?_, fun _ renames => nomatch renames⟩
      intro time found record member
      have same : first = time := Option.some.inj found
      subst same
      match file : s.logFile with
      | none => rw [file] at read; exact nomatch read
      | some [] => rw [file] at read; exact nomatch read
      | some (oldest :: rest) =>
        rw [file] at read
        have same : oldest.time = first := Except.ok.inj read
        rw [← same]
        exact ordered.old_le file member
    · exact ⟨fun _ found => (nomatch found), fun _ renames => nomatch renames⟩
    · exact due
  · exact due

theorem Due.compare (due : s.Due) : s.compare.Due := by
  unfold LogFiles.compare
  split
  next oldest comparing =>
    have read : ∀ time, oldest = some time → ∀ record ∈ s.old, record.time ≤ time := by
      intro time found
      apply due.read
      rw [comparing]
      exact found
    split
    next passed =>
      refine ⟨read, ?_⟩
      intro time renames
      exact passed time (Rotation.rename.inj renames)
    · exact ⟨fun _ found => (nomatch found), fun _ renames => nomatch renames⟩
  · exact due

theorem Due.rotate (due : s.Due) : s.rotate.Due := by
  unfold LogFiles.rotate
  split
  · exact ⟨fun _ found => (nomatch found), fun _ renames => nomatch renames⟩
  · exact ⟨fun _ found => (nomatch found), fun _ renames => nomatch renames⟩
  · exact due

theorem Due.step (due : s.Due) (ordered : s.Ordered) (event : Event) : (s.step event).Due := by
  have refl : s.old ⊆ s.old := List.Subset.refl _
  cases event with
  | wait elapsed => exact due.frame rfl rfl (Nat.le_add_right _ _) refl
  | checkAndRotate => exact due.checkAndRotate ordered
  | compare => exact due.compare
  | rotate => exact due.rotate
  | removeOldLogFile =>
    unfold LogFiles.step removeOldLogFile
    dsimp only
    split
    · exact due.frame rfl rfl (Nat.le_refl _) (List.nil_subset _)
    · exact due
  | restart => exact ⟨fun _ found => (nomatch found), fun _ renames => nomatch renames⟩
  | _ =>
    simp only [LogFiles.step, LogFiles.add, shutdown, encodeEntries, flushToFile, clearBuffer,
      removeLogFile]
    repeat' split
    all_goals exact due.frame rfl rfl (Nat.le_refl _) refl

theorem Consistent.step (consistent : s.Consistent) (event : Event) :
    (s.step event).Consistent where
  ordered := consistent.ordered.moves (moves_step event)
  counted := consistent.counted.step event
  rotation := consistent.rotation.step consistent.ordered event

theorem consistent_new (conf : Config) (rotationIvl now : Nat) :
    (new ring conf rotationIvl now).Consistent := by
  have kept : (new ring conf rotationIvl now).kept = [] := ring.range_new _
  refine ⟨⟨?_, ?_⟩, ⟨Nat.le_refl _, ?_, ?_⟩, ⟨?_, ?_⟩⟩
  · rw [kept]
    exact List.Pairwise.nil
  · intro record member
    rw [kept] at member
    exact nomatch member
  · exact fun _ waits => nomatch waits
  · exact fun _ held => nomatch held
  · exact fun _ found => nomatch found
  · exact fun _ renames => nomatch renames

theorem sound_new (conf : Config) (rotationIvl now : Nat) :
    (new ring conf rotationIvl now).Sound := by
  refine ⟨fun _ lost => (nomatch lost), ?_⟩
  intro record member
  exact Nat.zero_le _

theorem Sound.cleared_step (sound : s.Sound) (counted : s.Counted) (event : Event)
    (other : event ≠ .removeLogFile) :
    ∀ record ∈ (s.step event).kept, (s.step event).cleared ≤ record.number := by
  intro record member
  rw [(step_frame event).2.2 other]
  rcases (moves_step event).mem member with before | new
  · exact sound.cleared record before
  · rw [new]
    exact counted.cleared

theorem Sound.retained_step (sound : s.Sound) (event : Event) (other : event ≠ .rotate) :
    ∀ loss ∈ (s.step event).lost, loss.1.time + (s.step event).rotationIvl ≤ loss.2 := by
  rw [(step_frame event).2.1 other, (step_frame event).1]
  exact sound.retained

theorem Sound.rotate_iff (sound : s.Sound) (consistent : s.Consistent) :
    (s.step .rotate).Sound ↔ s.Timely .rotate := by
  have cleared := sound.cleared_step consistent.counted .rotate nofun
  cases renames : s.rotation with
  | idle =>
    have same : s.step .rotate = s := by simp only [step, rotate, renames]
    rw [same]
    exact iff_of_true sound fun other => nomatch renames.symm.trans other
  | compare oldest =>
    have same : s.step .rotate = s := by simp only [step, rotate, renames]
    rw [same]
    exact iff_of_true sound fun other => nomatch renames.symm.trans other
  | rename oldest =>
    cases file : s.logFile with
    | none =>
      have nothing : (s.step .rotate).lost = s.lost := by simp only [step, rotate, renames, file]
      apply iff_of_true
      · refine ⟨?_, cleared⟩
        rw [nothing, (step_frame .rotate).1]
        exact sound.retained
      · intro _ present
        rw [file] at present
        exact nomatch present
    | some log =>
      have losses : (s.step .rotate).lost = s.lost ++ s.old.map (·, s.now) := by
        simp only [step, rotate, renames, file, old]
      have exactly : (s.step .rotate).Sound ↔
          ∀ record ∈ s.old, record.time + s.rotationIvl ≤ s.now := by
        constructor
        · intro after record member
          have loss : (record, s.now) ∈ (s.step .rotate).lost := by
            rw [losses]
            exact List.mem_append_right _ (List.mem_map_of_mem member)
          have time := after.retained _ loss
          rwa [(step_frame .rotate).1] at time
        · intro passed
          refine ⟨?_, cleared⟩
          rw [losses, (step_frame .rotate).1]
          intro loss member
          rcases List.mem_append.mp member with before | now
          · exact sound.retained loss before
          · obtain ⟨record, held, rfl⟩ := List.mem_map.mp now
            exact passed record held
      apply exactly.trans
      constructor
      · exact fun passed _ _ => passed
      · intro timely
        cases oldest with
        | none => exact timely renames (by rw [file]; rfl)
        | some time =>
          -- The rotation has read a time: all of the old file is older.
          intro record member
          have before := consistent.rotation.read time (by rw [renames]; rfl) record member
          have due := consistent.rotation.due time renames
          exact Nat.le_trans (Nat.add_le_add_right before _) due

theorem Sound.removeLogFile_iff (sound : s.Sound) (consistent : s.Consistent) :
    (s.step .removeLogFile).Sound ↔ s.Timely .removeLogFile := by
  have retained := sound.retained_step .removeLogFile nofun
  cases removed : s.clearing with
  | idle =>
    have same : s.step .removeLogFile = s := by simp only [step, removeLogFile, removed]
    rw [same]
    exact iff_of_true sound fun before other => nomatch removed.symm.trans other
  | emptied before =>
    have same : s.step .removeLogFile = s := by simp only [step, removeLogFile, removed]
    rw [same]
    exact iff_of_true sound fun before other => nomatch removed.symm.trans other
  | removedOld before =>
    obtain ⟨_, batch, buffer⟩ := consistent.counted.emptied before (by rw [removed]; rfl)
    have promise : (s.step .removeLogFile).cleared = max s.cleared before := by
      simp only [step, removeLogFile, removed]
    have left : (s.step .removeLogFile).kept = s.old ++ ring.range s.buffer := by
      simp [step, removeLogFile, removed, kept, old, batch]
    constructor
    · intro after other same record member
      have same : before = other := Clearing.removedOld.inj (removed.symm.trans same)
      subst same
      have kept : record ∈ (s.step .removeLogFile).kept := by
        rw [left]
        exact List.mem_append_left _ member
      have bound := after.cleared record kept
      rw [promise] at bound
      exact (Nat.max_le.mp bound).2
    · intro timely
      refine ⟨retained, ?_⟩
      rw [left, promise]
      intro record member
      have held : record ∈ s.kept := by
        unfold kept
        rcases List.mem_append.mp member with first | last
        · exact List.mem_append_left _ (List.mem_append_left _ (List.mem_append_left _ first))
        · exact List.mem_append_right _ last
      apply Nat.max_le.mpr
      refine ⟨sound.cleared record held, ?_⟩
      rcases List.mem_append.mp member with first | last
      · exact timely before removed record first
      · exact buffer record last

theorem Sound.step_iff (sound : s.Sound) (consistent : s.Consistent) (event : Event) :
    (s.step event).Sound ↔ s.Timely event := by
  by_cases rotates : event = .rotate
  · subst rotates
    exact sound.rotate_iff consistent
  by_cases removes : event = .removeLogFile
  · subst removes
    exact sound.removeLogFile_iff consistent
  · apply iff_of_true
    · exact ⟨sound.retained_step event rotates, sound.cleared_step consistent.counted event removes⟩
    · cases event with
      | rotate => exact absurd rfl rotates
      | removeLogFile => exact absurd rfl removes
      | _ => exact trivial

theorem Consistent.run {s : LogFiles ring} (consistent : s.Consistent) (events : List Event) :
    (machine.run s events).Consistent := by
  induction events generalizing s with
  | nil => exact consistent
  | cons event rest ih => exact ih (consistent.step event)

/-- A run never loses a recent record to a rename and leaves nothing behind that was cleared,
exactly if each of its renames and removals finds the `.1` file as it should be. -/
theorem rotation_sound_iff (conf : Config) (rotationIvl now : Nat) (events : List Event) :
    (∀ steps, (machine.run (new ring conf rotationIvl now) (events.take steps)).Sound) ↔
      machine.Allowed Timely (new ring conf rotationIvl now) events := by
  have initially : (new ring conf rotationIvl now).Consistent := consistent_new conf rotationIvl now
  have exactly_step : ∀ (s : LogFiles ring) (event : Event), s.Sound ∧ s.Consistent →
      ((s.step event).Sound ∧ (s.step event).Consistent ↔ s.Timely event) := by
    intro s event both
    rw [← both.1.step_iff both.2 event]
    exact and_iff_left (both.2.step event)
  have exactly := machine.run_invariant_iff exactly_step (new ring conf rotationIvl now) events
  constructor
  · intro always
    exact (exactly.mp fun steps => ⟨always steps, initially.run _⟩).2
  · intro timely steps
    exact (exactly.mpr ⟨⟨sound_new conf rotationIvl now, initially⟩, timely⟩ steps).1

def hour : Nat := 3600000000000

def flushEach : Config := { enabled := true, fileEnabled := true, memSize := 1 }

def logged (time : Nat) : List Event := [.add time, .encodeEntries true, .flushToFile]

/-- The second rotation finds no log file. One is there when it renames, and the old file, with a
record of two hours before, is overwritten. In the other run a rotation falls between the two
removals of `clear`, and what it renames stays. -/
theorem rotation_unsound :
    ¬(machine.run (new (.ofList Dated) flushEach (24 * hour) 0)
      (logged 0 ++ [.wait (23 * hour)] ++ logged (23 * hour) ++ [.wait hour, .checkAndRotate,
        .compare, .rotate, .wait hour, .checkAndRotate, .compare] ++ logged (25 * hour) ++
        [.rotate])).Sound ∧
    ¬(machine.run (new (.ofList Dated) flushEach (24 * hour) 0)
      (logged 0 ++ [.wait (24 * hour), .checkAndRotate, .compare, .clear, .clearBuffer 0,
        .removeOldLogFile, .rotate, .removeLogFile])).Sound := by
  constructor
  · intro sound
    exact absurd (sound.retained (⟨23 * hour, 1⟩, 25 * hour) (by decide)) (by decide)
  · intro sound
    exact absurd (sound.cleared ⟨0, 0⟩ (by decide)) (by decide)

end AdGuardHome.Querylog.LogFiles
