import AdGuardHome.Lib.Loop
import AdGuardHome.Querylog.LogEntry
import AdGuardHome.Querylog.ReadBack

/-! Package `querylog`: the binary search for a timestamp over the bytes of one file. -/
namespace AdGuardHome.Querylog

open Lines

inductive SeekError where
  | tooEarly
  | tooLate
  | notFound
  | emptyTimestamp
  | tooDeep
  | probe
deriving DecidableEq

/-- `tsSearchState`; no line has been probed yet when `lastProbeLineIdx` is none. -/
structure SearchState where
  line : Bytes
  stop : Nat
  fileSize : Nat
  lastProbeLineIdx : Option Nat
  lineIdx : Nat
  probe : Nat
  start : Nat
  depth : Nat

def maxSearchDepth : Nat := 100

/-- `qLogFile.readProbeLine`: the line, its index, and the index after its end. -/
def readProbeLine (content : Bytes) (position : Nat) : Option (Bytes × Nat × Nat) :=
  let seekPosition := position - maxEntrySize
  let relativePos := if position > maxEntrySize then maxEntrySize else position
  (readAt content seekPosition (2 * maxEntrySize)).map fun buffer =>
    let startLine := startOf newline buffer relativePos
    match endOf newline buffer relativePos with
    | some endLine =>
      (slice buffer startLine endLine, startLine + seekPosition, endLine + seekPosition + 1)
    | none =>
      (slice buffer startLine buffer.length, startLine + seekPosition, buffer.length + seekPosition)

/-- `qLogFile.validateQLogLineIdx`. -/
def validateQLogLineIdx (lineIdx : Nat) (lastProbeLineIdx : Option Nat) (fSize : Nat) :
    Option SeekError :=
  if lastProbeLineIdx = some lineIdx then
    if lineIdx = 0 then some .tooEarly else some .notFound
  else if lineIdx = fSize then some .tooLate
  else none

section Search

variable (parse : Bytes → Option Int) (content : Bytes) (timestamp : Int)

/-- `qLogFile.readAndValidateProbe`. -/
def readAndValidateProbe (st : SearchState) :
    Except SeekError (Bytes × Nat × Nat × SearchState) :=
  match readProbeLine content st.probe with
  | none => .error .probe
  | some (line, lineIdx, lineEndIdx) =>
    match validateQLogLineIdx lineIdx st.lastProbeLineIdx st.fileSize with
    | some error => .error error
    | none => .ok (line, lineIdx, lineEndIdx, { st with lastProbeLineIdx := some lineIdx })

/-- The end of `qLogFile.seekTSStep`: narrow the scope, as deep as is allowed. -/
def narrow (lineIdx lineEndIdx : Nat) (ts : Int) (st : SearchState) :
    SearchState ⊕ Except SeekError SearchState :=
  let st := if ts > timestamp then { st with stop := lineIdx } else { st with start := lineEndIdx }
  let st := { st with
    probe := st.start + (st.stop - st.start) / 2
    depth := st.depth + 1 }
  if st.depth ≥ maxSearchDepth then .inr (.error .tooDeep) else .inl st

/-- `qLogFile.seekTSStep`. -/
def seekTSStep (st : SearchState) : SearchState ⊕ Except SeekError SearchState :=
  match readAndValidateProbe content st with
  | .error error => .inr (.error error)
  | .ok (line, lineIdx, lineEndIdx, st) =>
    let ts := readQLogTimestamp parse line
    if ts = 0 then .inr (.error .emptyTimestamp)
    else if ts = timestamp then .inr (.ok { st with line, lineIdx })
    else narrow timestamp lineIdx lineEndIdx ts st

def SearchState.initial (content : Bytes) : SearchState where
  line := []
  stop := content.length
  fileSize := content.length
  lastProbeLineIdx := none
  lineIdx := 0
  probe := content.length / 2
  start := 0
  depth := 0

end Search

/-- `qLogFile.seekTS`: the file with its position, and the depth. Every round goes one
deeper, so the rounds are no more than the depth allows. -/
def QLogFile.seekTS (parse : Bytes → Option Int) (q : QLogFile) (timestamp : Int) :
    Option (Except SeekError (QLogFile × Nat)) :=
  (Looping.run (seekTSStep parse q.content timestamp) maxSearchDepth
    (.initial q.content)).map fun result => result.map fun st =>
      ({ q with buffer := none, position := st.lineIdx + st.line.length }, st.depth)

/-- The content of a file with these records, from the oldest one on. -/
def recordsContent (records : List Line) : Bytes := contentOf records.reverse

def offset (records : List Line) (k : Nat) : Nat := (recordsContent (records.take k)).length

theorem contentOf_append (newer older : List Line) :
    contentOf (newer ++ older) = contentOf older ++ contentOf newer := by
  induction newer with
  | nil => exact (List.append_nil _).symm
  | cons line rest ih =>
    rw [List.cons_append, contentOf_cons, ih, contentOf_cons, List.append_assoc, List.append_assoc,
      List.append_assoc]

section Offsets

variable {records : List Line}

theorem content_split {k : Nat} (inside : k < records.length) :
    recordsContent records = contentOf (records[k] :: (records.take k).reverse) ++
      contentOf (records.drop (k + 1)).reverse := by
  have parts : records = records.take k ++ [records[k]] ++ records.drop (k + 1) := by
    rw [List.append_assoc, List.singleton_append, List.getElem_cons_drop, List.take_append_drop]
  conv_lhs => rw [parts]
  rw [recordsContent, List.reverse_append, contentOf_append, List.reverse_append]
  rfl

@[simp] theorem offset_zero (records : List Line) : offset records 0 = 0 := rfl

theorem offset_succ {k : Nat} (inside : k < records.length) :
    offset records (k + 1) = offset records k + records[k].bytes.length + 1 := by
  rw [offset, List.take_succ_eq_append_getElem inside, recordsContent, List.reverse_append,
    List.reverse_singleton, List.singleton_append, contentOf_cons, List.length_append,
    List.length_append]
  rfl

theorem offset_length (records : List Line) :
    offset records records.length = (recordsContent records).length := by
  rw [offset, List.take_length]

theorem offset_lt {i j : Nat} (less : i < j) (inside : j ≤ records.length) :
    offset records i < offset records j := by
  induction j with
  | zero => omega
  | succ j ih =>
    rw [offset_succ (by omega)]
    rcases Nat.lt_or_ge i j with before | same
    · have step := ih before (by omega)
      omega
    · obtain rfl : i = j := by omega
      omega

theorem offset_le {i j : Nat} (le : i ≤ j) (inside : j ≤ records.length) :
    offset records i ≤ offset records j := by
  rcases Nat.lt_or_ge i j with less | same
  · exact Nat.le_of_lt (offset_lt less inside)
  · obtain rfl : i = j := by omega
    exact Nat.le_refl _

theorem offset_inj {i j : Nat} (one : i ≤ records.length) (other : j ≤ records.length)
    (same : offset records i = offset records j) : i = j := by
  rcases Nat.lt_trichotomy i j with less | equal | more
  · exact absurd same (Nat.ne_of_lt (offset_lt less other))
  · exact equal
  · exact absurd same.symm (Nat.ne_of_lt (offset_lt more one))

/-- Every place before the end of the file is in one of the records between two others. -/
theorem exists_record {k l m : Nat} (low : offset records k ≤ m) (high : m < offset records l)
    (inside : l ≤ records.length) :
    ∃ j, k ≤ j ∧ j < l ∧ ∃ (_ : j < records.length), offset records j ≤ m ∧
      m ≤ offset records j + records[j].bytes.length := by
  induction l with
  | zero =>
    rw [offset_zero] at high
    omega
  | succ l ih =>
    rcases Nat.lt_or_ge m (offset records l) with before | here
    · obtain ⟨j, after_, less, within⟩ := ih before (by omega)
      exact ⟨j, after_, by omega, within⟩
    · have size := @offset_succ records l (by omega)
      have order : k ≤ l := by
        by_contra above
        have more := @offset_le records (l + 1) k (by omega)
        by_cases k ≤ records.length
        · have more := more ‹_›
          omega
        · have top : offset records k = offset records records.length := by
            rw [offset, offset, List.take_of_length_le (by omega), List.take_length]
          have all := @offset_le records _ _ inside (Nat.le_refl _)
          omega
      exact ⟨l, order, by omega, by omega, here, by omega⟩

end Offsets

section Probe

variable {records : List Line}

theorem readAt_spec {content : Bytes} {from_ : Nat} (inside : from_ < content.length) (size : Nat) :
    ∃ buffer, readAt content from_ size = some buffer ∧
      buffer.length = min size (content.length - from_) ∧
      ∀ i, from_ ≤ i → i < from_ + size → buffer[i - from_]? = content[i]? := by
  refine ⟨_, if_neg (Nat.not_le_of_lt inside), by rw [List.length_take, List.length_drop], ?_⟩
  intro i low high
  rw [List.getElem?_take, if_pos (by omega), List.getElem?_drop, Nat.add_sub_cancel' low]

private theorem relativePos_eq (position : Nat) :
    (if position > maxEntrySize then maxEntrySize else position) =
      position - (position - maxEntrySize) := by
  split <;> omega

/-- A probe inside a record reads that record. Only when it hits the first byte of one that
fills half of the buffer, the newline is not read. -/
theorem readProbeLine_spec {k m : Nat} (inside : k < records.length)
    (low : offset records k ≤ m) (high : m ≤ offset records k + records[k].bytes.length)
    (short : records[k].bytes.length ≤ maxEntrySize) :
    ∃ next, readProbeLine (recordsContent records) m =
        some (records[k].bytes, offset records k, next) ∧
      (next = offset records (k + 1) ∨ next + 1 = offset records (k + 1) ∧
        m = offset records k ∧ records[k].bytes.length = maxEntrySize ∧ maxEntrySize ≤ m) := by
  have split_ := content_split inside
  have size := offset_succ inside
  have longer : offset records (k + 1) ≤ (recordsContent records).length := by
    rw [← offset_length]
    exact offset_le (Nat.succ_le_of_lt inside) (Nat.le_refl _)
  have positive : 0 < maxEntrySize := by decide
  have within : m - maxEntrySize < (recordsContent records).length := by omega
  obtain ⟨buffer, read, length, bytes⟩ := readAt_spec within (2 * maxEntrySize)
  rw [readProbeLine, relativePos_eq, read, Option.map_some]
  -- The buffer reaches as far to the right of the probe as to its left.
  generalize from_ : m - maxEntrySize = b at *
  generalize maxEntrySize = half at *
  have reached : b ≤ offset records k := by omega
  have right : m ≤ b + half := by omega
  have here : startOf newline buffer (m - b) = offset records k - b :=
    startOf_line split_ reached low high fun i after_ before => bytes i after_ (by omega)
  have line : slice buffer (offset records k - b)
      (offset records k + records[k].bytes.length - b) = records[k].bytes :=
    slice_line split_ reached fun i after_ before => by
      have before : i < offset records k + records[k].bytes.length := before
      exact bytes i after_ (by omega)
  have clear : ∀ i, m - b ≤ i → i < offset records k + records[k].bytes.length - b →
      buffer[i]? ≠ some newline := by
    intro i after_ before
    have byte := bytes (i + b) (by omega) (by omega)
    rw [Nat.add_sub_cancel] at byte
    rw [byte]
    have low' : offset records k ≤ i + b := by omega
    have high' : i + b < offset records k + records[k].bytes.length := by omega
    exact getElem?_line_ne split_ low' high'
  have start : offset records k - b + b = offset records k := Nat.sub_add_cancel reached
  dsimp only
  rw [here]
  by_cases full : offset records k + records[k].bytes.length < b + 2 * half
  · have last : (recordsContent records)[offset records k + records[k].bytes.length]? =
        some newline := by
      rw [split_, contentOf_cons, List.append_assoc, List.getElem?_append_right (by
        rw [List.length_append]
        exact Nat.le_refl _)]
      rw [List.length_append]
      change ([newline] ++ _)[offset records k + records[k].bytes.length -
        (offset records k + records[k].bytes.length)]? = _
      rw [Nat.sub_self]
      rfl
    have stop : endOf newline buffer (m - b) =
        some (offset records k + records[k].bytes.length - b) := by
      refine endOf_eq_some (by omega) clear ?_
      rw [bytes _ (by omega) full, last]
    rw [stop]
    dsimp only
    rw [line, start]
    exact ⟨_, rfl, .inl (by omega)⟩
  · have none_ : endOf newline buffer (m - b) = none := by
      apply endOf_eq_none
      intro i after_
      by_cases within : i < offset records k + records[k].bytes.length - b
      · exact clear i after_ within
      · rw [List.getElem?_eq_none (by omega)]
        exact fun none_ => (by cases none_)
    have size' : buffer.length = offset records k + records[k].bytes.length - b := by omega
    rw [none_]
    dsimp only
    rw [size', line, start]
    exact ⟨_, rfl, .inr ⟨by omega, by omega, by omega, by omega⟩⟩

theorem readProbeLine_end (some_ : records ≠ []) :
    ∃ next, readProbeLine (recordsContent records) (recordsContent records).length =
      some ([], (recordsContent records).length, next) := by
  have last : (recordsContent records)[(recordsContent records).length - 1]? = some newline :=
    text_getElem?_last newline (by simpa using some_)
  have positive : 0 < (recordsContent records).length := by
    by_contra zero
    rw [List.getElem?_eq_none (by omega)] at last
    cases last
  have entry : 0 < maxEntrySize := by decide
  generalize recordsContent records = content at *
  have within : content.length - maxEntrySize < content.length := by omega
  obtain ⟨buffer, read, length, bytes⟩ := readAt_spec within (2 * maxEntrySize)
  rw [readProbeLine, relativePos_eq, read, Option.map_some]
  generalize from_ : content.length - maxEntrySize = b at *
  generalize maxEntrySize = half at *
  have reach : buffer.length = content.length - b := by omega
  have here : startOf newline buffer (content.length - b) = content.length - b := by
    apply startOf_eq (Nat.le_refl _)
    · intro i after_ before
      omega
    · refine .inr ?_
      have byte := bytes (content.length - 1) (by omega) (by omega)
      rw [Nat.sub_right_comm, byte, last]
  have none_ : endOf newline buffer (content.length - b) = none := by
    apply endOf_eq_none
    intro i after_
    rw [List.getElem?_eq_none (by omega)]
    exact fun found => (by cases found)
  have empty : slice buffer (content.length - b) (content.length - b) = [] := by
    rw [slice, Nat.sub_self, List.take_zero]
  have place : content.length - b + b = content.length := by omega
  dsimp only
  rw [here, none_]
  dsimp only
  rw [reach, empty, place]
  exact ⟨_, rfl⟩

end Probe

section Step

variable {parse : Bytes → Option Int} {content : Bytes} {target : Int} {st : SearchState}
  {line : Bytes} {idx next : Nat}

theorem readAndValidateProbe_error {error : SeekError}
    (read : readProbeLine content st.probe = some (line, idx, next))
    (invalid : validateQLogLineIdx idx st.lastProbeLineIdx st.fileSize = some error) :
    readAndValidateProbe content st = .error error := by
  simp only [readAndValidateProbe, read, invalid]

theorem readAndValidateProbe_ok
    (read : readProbeLine content st.probe = some (line, idx, next))
    (valid : validateQLogLineIdx idx st.lastProbeLineIdx st.fileSize = none) :
    readAndValidateProbe content st =
      .ok (line, idx, next, { st with lastProbeLineIdx := some idx }) := by
  simp only [readAndValidateProbe, read, valid]

theorem readProbeLine_past {position : Nat} (past : content.length ≤ position - maxEntrySize) :
    readProbeLine content position = none := by
  rw [readProbeLine, readAt, if_pos past, Option.map_none]

theorem seekTSStep_none (nothing : readProbeLine content st.probe = none) :
    seekTSStep parse content target st = .inr (.error .probe) := by
  rw [seekTSStep, readAndValidateProbe, nothing]

theorem seekTSStep_failed (read : readProbeLine content st.probe = some (line, idx, next))
    {error : SeekError}
    (invalid : validateQLogLineIdx idx st.lastProbeLineIdx st.fileSize = some error) :
    seekTSStep parse content target st = .inr (.error error) := by
  rw [seekTSStep, readAndValidateProbe_error read invalid]

theorem seekTSStep_empty (read : readProbeLine content st.probe = some (line, idx, next))
    (valid : validateQLogLineIdx idx st.lastProbeLineIdx st.fileSize = none)
    (zero : readQLogTimestamp parse line = 0) :
    seekTSStep parse content target st = .inr (.error .emptyTimestamp) := by
  rw [seekTSStep, readAndValidateProbe_ok read valid]
  exact if_pos zero

theorem seekTSStep_valid (read : readProbeLine content st.probe = some (line, idx, next))
    (valid : validateQLogLineIdx idx st.lastProbeLineIdx st.fileSize = none) {ts : Int}
    (stamp : readQLogTimestamp parse line = ts) (nonzero : ts ≠ 0) :
    seekTSStep parse content target st =
      if ts = target then
        .inr (.ok { st with lastProbeLineIdx := some idx, line, lineIdx := idx })
      else narrow target idx next ts { st with lastProbeLineIdx := some idx } := by
  subst stamp
  rw [seekTSStep, readAndValidateProbe_ok read valid]
  exact if_neg nonzero

def SearchState.narrowed (st : SearchState) (idx start stop : Nat) : SearchState :=
  { st with
    lastProbeLineIdx := some idx
    start
    stop
    probe := start + (stop - start) / 2
    depth := st.depth + 1 }

theorem narrow_eq (ts : Int) (shallow : st.depth + 1 < maxSearchDepth) :
    narrow target idx next ts { st with lastProbeLineIdx := some idx } =
      .inl (if ts > target then st.narrowed idx st.start idx else st.narrowed idx next st.stop) := by
  have deeper : ¬ st.depth + 1 ≥ maxSearchDepth := Nat.not_le_of_lt shallow
  unfold narrow
  split
  · exact if_neg deeper
  · exact if_neg deeper

end Step

end AdGuardHome.Querylog
