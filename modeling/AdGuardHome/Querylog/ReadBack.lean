import AdGuardHome.Querylog.NoLoss
import AdGuardHome.Lib.Splitting

namespace AdGuardHome.Querylog

open Lines

def newline : BitVec 8 := 10

def maxEntrySize : Nat := 16 * 1024

def bufferSize : Nat := 100 * maxEntrySize

/-- `qLogFile`, with the file it reads. Only what is read of the buffer matters. -/
structure QLogFile where
  content : Bytes
  position : Nat
  buffer : Option Bytes
  bufferStart : Nat

/-- `newQLogFile`. -/
def newQLogFile (content : Bytes) : QLogFile := ⟨content, 0, none, 0⟩

/-- `File.Read` at an offset: at the end of the file it is an error. -/
def readAt (content : Bytes) (offset size : Nat) : Option Bytes :=
  if content.length ≤ offset then none else some ((content.drop offset).take size)

namespace QLogFile

/-- `qLogFile.SeekStart`. -/
def seekStart (q : QLogFile) : QLogFile :=
  { q with buffer := none, position := q.content.length - 1 }

/-- `qLogFile.initBuffer`: the rest of the buffer keeps what was there. -/
def initBuffer (q : QLogFile) (position : Nat) : Option QLogFile :=
  let bufferStart := position - bufferSize
  let buffer := q.buffer.getD (List.replicate bufferSize 0)
  (readAt q.content bufferStart bufferSize).map fun data =>
    { q with bufferStart, buffer := some (data ++ buffer.drop data.length) }

/-- Whether the buffer has to be read anew for a line that ends at a position. -/
def needsBuffer (q : QLogFile) (position : Nat) : Bool :=
  q.buffer.isNone || decide (position - q.bufferStart < maxEntrySize) && q.bufferStart != 0

/-- `qLogFile.readNextLine`: the line, its index, and the file with its buffer. -/
def readNextLine (q : QLogFile) (position : Nat) : Option (Bytes × Nat × QLogFile) :=
  (if q.needsBuffer position then q.initBuffer position else some q).map fun q =>
    let buffer := q.buffer.getD []
    let relativePos := position - q.bufferStart
    let startLine := startOf newline buffer relativePos
    (slice buffer startLine relativePos, q.bufferStart + startLine, q)

/-- `qLogFile.ReadNext`, where `none` is any error. -/
def readNext (q : QLogFile) : Option (Bytes × QLogFile) :=
  if q.position = 0 then none
  else (q.readNextLine q.position).map fun (line, lineIdx, q) =>
    (line, { q with position := if lineIdx = 0 then 0 else lineIdx - 1 })

end QLogFile

/-- `qLogReader.ReadNext`, with the current file and the older ones; the result has the
files that are left. -/
def readNext : QLogFile → List QLogFile → Option Bytes × List QLogFile
  | q, older =>
    match q.readNext with
    | some (line, q) => (some line, q :: older)
    | none =>
      match older with
      | [] => (none, [])
      | next :: rest => readNext next.seekStart rest

/-- What as many calls of `ReadNext` return. -/
def reads : Nat → List QLogFile → List (Option Bytes)
  | 0, _ => []
  | n + 1, [] => none :: reads n []
  | n + 1, q :: older =>
    let (line, files) := readNext q older
    line :: reads n files

/-- `qLogReader.SeekStart`, on files that are listed from the newest one on. -/
def seekStart : List QLogFile → List QLogFile
  | [] => []
  | q :: older => q.seekStart :: older

structure Line where
  bytes : Bytes
  nonempty : bytes ≠ []
  noNewline : newline ∉ bytes

/-- The content of a file, whose lines are listed from the newest one on. -/
def contentOf (lines : List Line) : Bytes := text newline (lines.map Line.bytes)

theorem length_contentOf (lines : List Line) :
    (contentOf lines).length = textLength (lines.map fun line => line.bytes.length) := by
  rw [contentOf, length_text, List.map_map]
  rfl

/-- Where the buffer starts for a line that ends at a position. -/
def nextStart (start : Option Nat) (position : Nat) : Nat :=
  match start with
  | none => position - bufferSize
  | some b => if position - b < maxEntrySize ∧ b ≠ 0 then position - bufferSize else b

/-- For lines of these lengths, from the newest one on, the buffer in use always reaches
back to the start of the line. -/
def Reached : Option Nat → List Nat → Prop
  | _, [] => True
  | start, length :: older =>
    nextStart start (textLength older + length) ≤ textLength older ∧
      Reached (some (nextStart start (textLength older + length))) older

instance decidableReached (start : Option Nat) (lengths : List Nat) :
    Decidable (Reached start lengths) :=
  match lengths with
  | [] => .isTrue trivial
  | length :: older =>
    match decidableReached (some (nextStart start (textLength older + length))) older with
    | .isTrue rest =>
      if here : nextStart start (textLength older + length) ≤ textLength older then
        .isTrue ⟨here, rest⟩
      else .isFalse fun both => here both.1
    | .isFalse rest => .isFalse fun both => rest both.2

theorem reached_of_le {lengths : List Nat} (short : ∀ n ∈ lengths, n ≤ maxEntrySize)
    (start : Option Nat) (first : ∀ b, start = some b → b = 0 ∨ b ≤ textLength lengths) :
    Reached start lengths := by
  induction lengths generalizing start with
  | nil => trivial
  | cons length older ih =>
    have bound := short length List.mem_cons_self
    have less : maxEntrySize ≤ bufferSize := by decide
    have here : nextStart start (textLength older + length) ≤ textLength older := by
      unfold nextStart
      cases start with
      | none =>
        dsimp only
        omega
      | some b =>
        dsimp only
        split
        · omega
        · rename_i kept
          have positive : 0 < maxEntrySize := by decide
          by_contra above
          rcases first b rfl with zero | within
          · omega
          · rw [textLength] at within
            exact kept ⟨by omega, by omega⟩
    refine ⟨here, ih (fun n member => short n (List.mem_cons_of_mem _ member)) _ ?_⟩
    intro b same
    cases same
    exact .inr here

theorem reached_of_textLength_le {lengths : List Nat} (small : textLength lengths ≤ bufferSize + 1)
    (start : Option Nat) (first : ∀ b, start = some b → b = 0) : Reached start lengths := by
  induction lengths generalizing start with
  | nil => trivial
  | cons length older ih =>
    rw [textLength] at small
    have zero : nextStart start (textLength older + length) = 0 := by
      unfold nextStart
      cases start with
      | none =>
        dsimp only
        omega
      | some b =>
        dsimp only
        rw [if_neg fun both => both.2 (first b rfl), first b rfl]
    refine ⟨by rw [zero]; exact Nat.zero_le _, ih (by omega) _ ?_⟩
    intro b same
    cases same
    exact zero

namespace QLogFile

def Filled (q : QLogFile) (limit : Nat) : Prop :=
  ∃ data, q.buffer = some data ∧
    ∀ i, q.bufferStart ≤ i → i < limit → data[i - q.bufferStart]? = q.content[i]?

theorem initBuffer_spec (q : QLogFile) {position : Nat} (inside : position < q.content.length) :
    ∃ next, q.initBuffer position = some next ∧ next.content = q.content ∧
      next.bufferStart = position - bufferSize ∧ next.Filled position := by
  have data : ¬ q.content.length ≤ position - bufferSize := by omega
  unfold initBuffer readAt
  dsimp only
  rw [if_neg data, Option.map_some]
  refine ⟨_, rfl, rfl, rfl, _, rfl, ?_⟩
  intro i low high
  dsimp only at low ⊢
  rw [List.getElem?_append_left, List.getElem?_take, if_pos (by omega), List.getElem?_drop]
  · rw [Nat.add_sub_cancel' low]
  · rw [List.length_take, List.length_drop]
    omega

/-- A file before the lines that are left, from the newest one on: the buffer is empty or
starts at a known place. -/
structure Before (q : QLogFile) (lines : List Line) (start : Option Nat) : Prop where
  content : ∃ tail, q.content = contentOf lines ++ tail
  position : q.position = (contentOf lines).length - 1
  empty : start = none → q.buffer = none
  filled : ∀ b, start = some b → q.bufferStart = b ∧ q.Filled (contentOf lines).length

theorem before_seekStart (q : QLogFile) {lines : List Line} (content : q.content = contentOf lines) :
    q.seekStart.Before lines none where
  content := ⟨[], by rw [List.append_nil]; exact content⟩
  position := by rw [← content]; rfl
  empty _ := rfl
  filled b same := by cases same

theorem needsBuffer_eq (q : QLogFile) (position : Nat) (start : Option Nat)
    (empty : start = none → q.buffer = none)
    (held : ∀ b, start = some b → q.bufferStart = b ∧ q.buffer.isSome) :
    (q.needsBuffer position = true → nextStart start position = position - bufferSize) ∧
      (q.needsBuffer position = false → start = some (nextStart start position)) := by
  unfold needsBuffer nextStart
  cases start with
  | none => simp [empty rfl]
  | some b =>
    obtain ⟨same, some_⟩ := held b rfl
    obtain ⟨data, found⟩ := Option.isSome_iff_exists.mp some_
    simp only [found, same, Option.isNone_some, Bool.false_or, Bool.and_eq_true, decide_eq_true_iff,
      bne_iff_ne, Bool.and_eq_false_iff, decide_eq_false_iff_not, bne_eq_false_iff_eq]
    constructor
    · intro both
      exact if_pos both
    · intro either
      rw [if_neg fun both => either.elim (fun wide => wide both.1) fun zero => both.2 zero]

/-- The buffer that a line is read from. -/
theorem readNextLine_eq {q : QLogFile} {lines : List Line} {start : Option Nat}
    (before : q.Before lines start) {position : Nat} (inside : position < (contentOf lines).length) :
    ∃ next : QLogFile, next.content = q.content ∧ next.bufferStart = nextStart start position ∧
      next.Filled position ∧ q.readNextLine position =
        some (slice (next.buffer.getD []) (startOf newline (next.buffer.getD [])
          (position - next.bufferStart)) (position - next.bufferStart),
          next.bufferStart + startOf newline (next.buffer.getD []) (position - next.bufferStart),
          next) := by
  obtain ⟨tail, content⟩ := before.content
  have needs := needsBuffer_eq q position start before.empty fun b same => by
    obtain ⟨here, data, found, _⟩ := before.filled b same
    exact ⟨here, by rw [found]; rfl⟩
  unfold readNextLine
  cases need : q.needsBuffer position with
  | true =>
    have within : position < q.content.length := by
      rw [content, List.length_append]
      omega
    obtain ⟨next, made, same, from_, filled⟩ := q.initBuffer_spec within
    refine ⟨next, same, from_.trans (needs.1 need).symm, filled, ?_⟩
    rw [if_pos rfl, made]
    rfl
  | false =>
    obtain ⟨here, data, found, bytes⟩ := before.filled _ (needs.2 need)
    refine ⟨q, rfl, here, ⟨data, found, fun i low high => bytes i low (by omega)⟩, ?_⟩
    rw [if_neg (by decide)]
    rfl

end QLogFile

section Step

variable {line : Line} {older : List Line}

theorem contentOf_cons (line : Line) (older : List Line) :
    contentOf (line :: older) = contentOf older ++ line.bytes ++ [newline] := rfl

variable {content tail : Bytes}

/-- Where the bytes of the first line are in the content of a file. -/
theorem getElem?_line (same : content = contentOf (line :: older) ++ tail) {i : Nat}
    (low : (contentOf older).length ≤ i) (high : i < (contentOf older).length + line.bytes.length) :
    content[i]? = line.bytes[i - (contentOf older).length]? := by
  have inside : i < (contentOf (line :: older)).length := by
    rw [contentOf_cons, List.length_append, List.length_append]
    omega
  rw [same, List.getElem?_append_left inside, contentOf_cons,
    List.getElem?_append_left (by rw [List.length_append]; exact high),
    List.getElem?_append_right low]

/-- No byte of a line is a newline. -/
theorem getElem?_line_ne (same : content = contentOf (line :: older) ++ tail) {i : Nat}
    (low : (contentOf older).length ≤ i)
    (high : i < (contentOf older).length + line.bytes.length) : content[i]? ≠ some newline := by
  rw [getElem?_line same low high]
  intro found
  exact line.noNewline (List.mem_of_getElem? found)

theorem getElem?_before (same : content = contentOf (line :: older) ++ tail) :
    (contentOf older).length = 0 ∨ content[(contentOf older).length - 1]? = some newline := by
  by_cases empty : older = []
  · subst empty
    exact .inl rfl
  · have last := @text_getElem?_last _ newline (older.map Line.bytes) (by simpa using empty)
    have positive : 0 < (contentOf older).length := by
      by_contra zero
      rw [List.getElem?_eq_none (by unfold contentOf at zero; omega)] at last
      cases last
    refine .inr ?_
    rw [same, contentOf_cons, List.append_assoc, List.append_assoc,
      List.getElem?_append_left (by omega)]
    exact last

/-- In a buffer that reaches back to the start of a line, the scan from inside the line
finds it. -/
theorem startOf_line {content tail data : Bytes} {b place : Nat}
    (same : content = contentOf (line :: older) ++ tail) (reached : b ≤ (contentOf older).length)
    (low : (contentOf older).length ≤ place)
    (high : place ≤ (contentOf older).length + line.bytes.length)
    (bytes : ∀ i, b ≤ i → i < place → data[i - b]? = content[i]?) :
    startOf newline data (place - b) = (contentOf older).length - b := by
  apply startOf_eq (by omega)
  · intro i after_ before
    have byte := bytes (i + b) (by omega) (by omega)
    rw [Nat.add_sub_cancel] at byte
    rw [byte]
    exact getElem?_line_ne same (by omega) (by omega)
  · rcases getElem?_before same with zero | found
    · exact .inl (by omega)
    · by_cases first : (contentOf older).length = b
      · exact .inl (by omega)
      · have byte := bytes ((contentOf older).length - 1) (by omega) (by omega)
        rw [Nat.sub_right_comm] at byte
        exact .inr (byte.trans found)

/-- The bytes of such a buffer from the start of the line to its end. -/
theorem slice_line {content tail data : Bytes} {b : Nat}
    (same : content = contentOf (line :: older) ++ tail) (reached : b ≤ (contentOf older).length)
    (bytes : ∀ i, b ≤ i → i < (contentOf older).length + line.bytes.length →
      data[i - b]? = content[i]?) :
    slice data ((contentOf older).length - b) ((contentOf older).length + line.bytes.length - b) =
      line.bytes := by
  apply List.ext_getElem?
  intro i
  have width : (contentOf older).length + line.bytes.length - b -
      ((contentOf older).length - b) = line.bytes.length := by omega
  rw [slice, width, List.getElem?_take, List.getElem?_drop]
  split
  · rename_i within
    have byte := bytes ((contentOf older).length + i) (by omega) (by omega)
    have index : (contentOf older).length + i - b = (contentOf older).length - b + i := by omega
    rw [index] at byte
    rw [byte, getElem?_line same (Nat.le_add_right _ _) (by omega), Nat.add_sub_cancel_left]
  · rename_i outside
    exact (List.getElem?_eq_none (by omega)).symm

end Step

namespace QLogFile

variable {q : QLogFile} {line : Line} {older : List Line} {start : Option Nat}

/-- A line whose start is in the buffer is read; else only its end is. -/
theorem readNext_spec (before : q.Before (line :: older) start) :
    ∃ read next, q.readNext = some (read, next) ∧
      (nextStart start ((contentOf older).length + line.bytes.length) ≤ (contentOf older).length →
        read = line.bytes ∧ next.Before older
          (some (nextStart start ((contentOf older).length + line.bytes.length)))) ∧
      ((contentOf older).length < nextStart start ((contentOf older).length + line.bytes.length) →
        read ≠ line.bytes) := by
  have some_ : 0 < line.bytes.length := List.length_pos_iff.mpr line.nonempty
  have size : (contentOf (line :: older)).length =
      (contentOf older).length + line.bytes.length + 1 := by
    rw [contentOf_cons, List.length_append, List.length_append]
    rfl
  have place : q.position = (contentOf older).length + line.bytes.length := by
    rw [before.position, size, Nat.add_sub_cancel]
  obtain ⟨tail, content⟩ := before.content
  obtain ⟨made, same, from_, ⟨data, found, bytes⟩, read⟩ :=
    @readNextLine_eq _ _ _ before q.position (by rw [place, size]; omega)
  rw [found, Option.getD_some] at read
  rw [place] at from_ bytes
  rw [same, content] at bytes
  generalize nextStart start ((contentOf older).length + line.bytes.length) = b at from_ ⊢
  rw [from_, place] at read
  rw [from_] at bytes
  refine ⟨_, _, by rw [QLogFile.readNext, if_neg (by omega), place, read]; rfl, ?_, ?_⟩
  · intro reached
    rw [startOf_line rfl reached (Nat.le_add_right _ _) (Nat.le_refl _) bytes]
    constructor
    · exact slice_line rfl reached bytes
    · have index : b + ((contentOf older).length - b) = (contentOf older).length := by omega
      refine ⟨⟨line.bytes ++ [newline] ++ tail, ?_⟩, ?_, fun none_ => (by cases none_), ?_⟩
      · rw [same, content, contentOf_cons]
        simp only [List.append_assoc]
      · dsimp only
        rw [index]
        split
        · omega
        · rfl
      · intro b' equal
        cases equal
        refine ⟨from_, data, found, ?_⟩
        intro i low high
        dsimp only at low ⊢
        rw [from_] at low ⊢
        rw [same, content]
        exact bytes i low (by omega)
  · intro late equal
    have length := congrArg List.length equal
    rw [slice, List.length_take] at length
    omega

end QLogFile

theorem readNext_of_some {q next : QLogFile} {line : Bytes} (found : q.readNext = some (line, next))
    (older : List QLogFile) : readNext q older = (some line, next :: older) := by
  rw [readNext.eq_def]
  simp only [found]

theorem readNext_of_none {q : QLogFile} (nothing : q.readNext = none) (older : List QLogFile) :
    readNext q older = match older with
      | [] => (none, [])
      | next :: rest => readNext next.seekStart rest := by
  cases older with
  | nil => simp only [readNext, nothing]
  | cons next rest => simp only [readNext, nothing]

/-- The lines of a file, from the newest one on, have these lengths. -/
def lengths (lines : List Line) : List Nat := lines.map fun line => line.bytes.length

/-- The lines of a file come back one after the other, exactly when each is reached; then
the reader goes on as at the end of the file. -/
theorem reads_file {q : QLogFile} {lines : List Line} {start : Option Nat}
    (before : q.Before lines start) (older : List QLogFile) (more : Nat) :
    (Reached start (lengths lines) → ∃ last : QLogFile, last.position = 0 ∧
      reads (lines.length + more) (q :: older) =
        (lines.map fun line => some line.bytes) ++ reads more (last :: older)) ∧
    (¬ Reached start (lengths lines) → ∀ rest : List (Option Bytes),
      reads (lines.length + more) (q :: older) ≠
        (lines.map fun line => some line.bytes) ++ rest) := by
  induction lines generalizing q start with
  | nil =>
    refine ⟨fun _ => ⟨q, before.position, ?_⟩, fun never => absurd trivial never⟩
    rw [List.length_nil, Nat.zero_add]
    rfl
  | cons line rest ih =>
    obtain ⟨read, next, found, reached, missed⟩ := QLogFile.readNext_spec before
    have unfold_ : reads ((line :: rest).length + more) (q :: older) =
        some read :: reads (rest.length + more) (next :: older) := by
      rw [List.length_cons, Nat.add_right_comm, reads, readNext_of_some found]
    have head : Reached start (lengths (line :: rest)) ↔
        nextStart start ((contentOf rest).length + line.bytes.length) ≤ (contentOf rest).length ∧
          Reached (some (nextStart start ((contentOf rest).length + line.bytes.length)))
            (lengths rest) := by
      rw [length_contentOf]
      rfl
    rw [unfold_, head]
    constructor
    · rintro ⟨here, later⟩
      obtain ⟨rfl, left⟩ := reached here
      obtain ⟨last, done, all⟩ := (ih left).1 later
      exact ⟨last, done, by rw [all]; rfl⟩
    · intro never other same
      obtain ⟨first, others⟩ := List.cons.inj same
      by_cases here : nextStart start ((contentOf rest).length + line.bytes.length) ≤
          (contentOf rest).length
      · exact (ih (reached here).2).2 (fun later => never ⟨here, later⟩) other others
      · exact missed (Nat.lt_of_not_le here) (Option.some.inj first)

theorem reads_done {q : QLogFile} (done : q.position = 0) (older : List QLogFile) (n : Nat) :
    reads (n + 1) (q :: older) = reads (n + 1) (seekStart older) := by
  have nothing : q.readNext = none := if_pos done
  cases older with
  | nil => rw [reads, readNext_of_none nothing, seekStart, reads]
  | cons next rest => rw [reads, readNext_of_none nothing, seekStart, reads]

/-- The files of the log, newly opened, whose lines are listed from the newest one on. -/
def opened (files : List (List Line)) : List QLogFile :=
  files.map fun lines => newQLogFile (contentOf lines)

/-- From the newest file on all lines come back and then the end of the log, exactly when
all lines are reached. -/
theorem reads_files (files : List (List Line)) :
    reads (files.flatten.length + 1) (seekStart (opened files)) =
        (files.flatten.map fun line => some line.bytes) ++ [none] ↔
      ∀ lines ∈ files, Reached none (lengths lines) := by
  induction files with
  | nil =>
    refine ⟨fun _ lines member => (by cases member), fun _ => rfl⟩
  | cons lines older ih =>
    have before : (newQLogFile (contentOf lines)).seekStart.Before lines none :=
      QLogFile.before_seekStart _ rfl
    obtain ⟨reached, missed⟩ := reads_file before (opened older) (older.flatten.length + 1)
    have split_ : reads ((lines :: older).flatten.length + 1) (seekStart (opened (lines :: older))) =
        reads (lines.length + (older.flatten.length + 1))
          ((newQLogFile (contentOf lines)).seekStart :: opened older) := by
      rw [List.flatten_cons, List.length_append, Nat.add_assoc]
      rfl
    rw [split_, List.flatten_cons, List.map_append, List.append_assoc, List.forall_mem_cons]
    by_cases here : Reached none (lengths lines)
    · obtain ⟨last, done, all⟩ := reached here
      rw [all, List.append_cancel_left_eq, reads_done done, ih]
      exact (and_iff_right here).symm
    · constructor
      · intro same
        exact absurd same (missed here _)
      · intro both
        exact absurd both.1 here

section Written

variable {Entry : Type} (line : Entry → Line)

/-- `Encoder.Encode`: a line and its newline. -/
def encode (entry : Entry) : Option Bytes := some ((line entry).bytes ++ [newline])

/-- What flushes write into one file, from the oldest record on. -/
def fileOf (entries : List Entry) : Bytes :=
  (QueryLog.encodeLines (encode line) entries).getD []

theorem fileOf_eq (entries : List Entry) :
    fileOf line entries = contentOf (entries.map line).reverse := by
  have lines : ∀ entries, QueryLog.encodeLines (encode line) entries =
      some (contentOf (entries.map line).reverse) := by
    intro entries
    induction entries using List.reverseRecOn with
    | nil => rfl
    | append_singleton before entry ih =>
      have last : Run.Lines (encode line) ((line entry).bytes ++ [newline]) [entry] := by
        simp [Run.Lines, QueryLog.encodeLines, encode]
      have joined := Run.encodeLines_append ih last
      rw [Run.Lines] at joined
      rw [joined, List.map_append, List.map_singleton, List.reverse_append, List.reverse_singleton,
        List.singleton_append, contentOf_cons, List.append_assoc]
  rw [fileOf, lines, Option.getD_some]

/-- From the newest file on the records come back in reverse order, and then the end. The
files and the records in each are listed from the oldest one on. -/
def ReadsBack (files : List (List Entry)) : Prop :=
  reads (files.flatten.length + 1)
      (seekStart (files.reverse.map fun entries => newQLogFile (fileOf line entries))) =
    (files.flatten.reverse.map fun entry => some (line entry).bytes) ++ [none]

/-- Each line of a file is reached by the buffer that is in use when its turn comes. -/
def AllReached (files : List (List Entry)) : Prop :=
  ∀ entries ∈ files, Reached none (entries.reverse.map fun entry => (line entry).bytes.length)

theorem readsBack_iff (files : List (List Entry)) :
    ReadsBack line files ↔ AllReached line files := by
  have same : files.reverse.map (fun entries => newQLogFile (fileOf line entries)) =
      opened (files.reverse.map fun entries => (entries.map line).reverse) := by
    rw [opened, List.map_map]
    apply List.map_congr_left
    intro entries _
    rw [fileOf_eq]
    rfl
  have flat : (files.reverse.map fun entries => (entries.map line).reverse).flatten =
      (files.flatten.map line).reverse := by
    rw [List.map_flatten, List.reverse_flatten, List.map_map, List.map_reverse]
    rfl
  have length : ((files.flatten.map line).reverse).length = files.flatten.length := by
    rw [List.length_reverse, List.length_map]
  have all := reads_files (files.reverse.map fun entries => (entries.map line).reverse)
  rw [flat, length, ← same, ← List.map_reverse, List.map_map] at all
  unfold ReadsBack AllReached
  refine (iff_of_eq rfl).trans (all.trans ?_)
  simp only [List.mem_map, List.mem_reverse, forall_exists_index, and_imp,
    forall_apply_eq_imp_iff₂, lengths, ← List.map_reverse, List.map_map]
  rfl

/-- The log is read back exactly when the buffer reaches back to the start of each line, as
it does in a file whose lines have no more than `maxEntrySize` bytes, and in one that the
buffer holds as a whole. -/
theorem read_back (files : List (List Entry)) :
    (ReadsBack line files ↔ AllReached line files) ∧
      ((∀ entries ∈ files, (∀ entry ∈ entries, (line entry).bytes.length ≤ maxEntrySize) ∨
        (fileOf line entries).length ≤ bufferSize + 1) → ReadsBack line files) := by
  refine ⟨readsBack_iff line files, ?_⟩
  intro small
  rw [readsBack_iff]
  intro entries member
  rcases small entries member with short | fits
  · apply reached_of_le
    · intro n inside
      obtain ⟨entry, among, rfl⟩ := List.mem_map.mp inside
      exact short entry (List.mem_reverse.mp among)
    · intro b same
      cases same
  · rw [fileOf_eq, length_contentOf, ← List.map_reverse, List.map_map] at fits
    exact reached_of_textLength_le fits none fun b same => (by cases same)

end Written

def longLine : Line where
  bytes := List.replicate 20000 120
  nonempty empty := by
    have length := congrArg List.length empty
    rw [List.length_replicate] at length
    cases length
  noNewline member := by
    have byte := List.eq_of_mem_replicate member
    revert byte
    decide

/-- Of a hundred such lines one is cut where the buffer starts. -/
theorem long_lines_cut :
    ¬ ∀ (line : Unit → Line) (files : List (List Unit)), ReadsBack line files := by
  intro all
  have back := (readsBack_iff (fun _ => longLine) [List.replicate 100 ()]).mp (all _ _)
  have reached := back (List.replicate 100 ()) List.mem_cons_self
  have size : longLine.bytes.length = 20000 := List.length_replicate
  rw [List.reverse_replicate, List.map_replicate, size] at reached
  exact absurd reached (by decide +kernel)

end AdGuardHome.Querylog
