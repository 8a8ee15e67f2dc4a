import AdGuardHome.Querylog.SeekTS

namespace AdGuardHome.Querylog

def Line.timestamp (parse : Bytes → Option Int) (line : Line) : Int :=
  readQLogTimestamp parse line.bytes

section Search

variable (parse : Bytes → Option Int) (records : List Line) (target : Int)

def Earlier (k : Nat) : Prop :=
  ∀ (i : Nat) (h : i < records.length), i < k → records[i].timestamp parse < target

def Later (l : Nat) : Prop :=
  ∀ (i : Nat) (h : i < records.length), l ≤ i → target < records[i].timestamp parse

/-- The records of a file as they should be: with increasing timestamps that can be parsed,
and not too long. -/
structure Ordered : Prop where
  valid : ∀ record ∈ records, (timestampOf parse record.bytes).isSome
  increasing : records.Pairwise fun one other => one.timestamp parse < other.timestamp parse
  short : ∀ record ∈ records, record.bytes.length ≤ maxEntrySize

/-- The records of a file that can be searched: no timestamp is the one that stands for none,
and the last record fits with its newline into the right half of the buffer of a probe. -/
structure Searchable : Prop extends Ordered parse records where
  nonzero : ∀ record ∈ records, record.timestamp parse ≠ 0
  last : ∀ record ∈ records.getLast?, record.bytes.length < maxEntrySize

/-- The scope of a search reaches from record `k` to record `l`. Where the newline of the
record before was not read, it is in the scope as well; there is one more record then. -/
structure Scope (k l : Nat) (st : SearchState) : Prop where
  order : k ≤ l
  inside : l ≤ records.length
  before : Earlier parse records target k
  beyond : Later parse records target l
  start : st.start = offset records k ∨ st.start + 1 = offset records k ∧ k < records.length ∧
    ∃ i, i + 1 = k ∧ 0 < offset records i
  stop : st.stop = offset records l
  fileSize : st.fileSize = (recordsContent records).length
  probe : st.probe = st.start + (st.stop - st.start) / 2
  last : ∀ place, st.lastProbeLineIdx = some place →
    ∃ j, place = offset records j ∧ j < records.length ∧ (j < k ∨ l ≤ j)

/-- The error for a timestamp before the record with this index. -/
def verdict (k n : Nat) : SeekError :=
  if k = n then .tooLate else if k = 0 then .tooEarly else .notFound

/-- The right result of a search. -/
inductive Answer : Except SeekError SearchState → Prop where
  | found {st : SearchState} (j : Nat) (h : j < records.length)
      (same : records[j].timestamp parse = target) (line : st.line = records[j].bytes)
      (place : st.lineIdx = offset records j) : Answer (.ok st)
  | missing (k : Nat) (inside : k ≤ records.length) (before : Earlier parse records target k)
      (beyond : Later parse records target k) : Answer (.error (verdict k records.length))

variable {parse records target} {k l : Nat} {st : SearchState}

namespace Scope

/-- A probe of a record that was not the last one to be probed is valid. -/
theorem valid (scope : Scope parse records target k l st) {j : Nat} (inside : j < records.length)
    (fresh : st.lastProbeLineIdx ≠ some (offset records j)) :
    validateQLogLineIdx (offset records j) st.lastProbeLineIdx st.fileSize = none := by
  have less := offset_lt inside (Nat.le_refl records.length)
  rw [offset_length, ← scope.fileSize] at less
  rw [validateQLogLineIdx, if_neg fresh, if_neg (Nat.ne_of_lt less)]

theorem fresh (scope : Scope parse records target k l st) {j : Nat} (low : k ≤ j) (high : j < l) :
    st.lastProbeLineIdx ≠ some (offset records j) := by
  intro same
  obtain ⟨i, equal, inside, outside⟩ := scope.last _ same
  have bound := scope.inside
  have index := offset_inj (by omega) (Nat.le_of_lt inside) equal
  omega

/-- The scope after a record with a later timestamp. -/
theorem left (scope : Scope parse records target k l st) {j : Nat} (low : k ≤ j)
    (inside : j < records.length) (later : Later parse records target j) :
    Scope parse records target k j (st.narrowed (offset records j) st.start (offset records j)) where
  order := low
  inside := Nat.le_of_lt inside
  before := scope.before
  beyond := later
  start := scope.start
  stop := rfl
  fileSize := scope.fileSize
  probe := rfl
  last _ same := ⟨j, (Option.some.inj same).symm, inside, .inr (Nat.le_refl j)⟩

/-- The scope after a record with an earlier timestamp. -/
theorem right (scope : Scope parse records target k l st) {j next : Nat}
    (inside : j < records.length) (high : j + 1 ≤ l) (earlier : Earlier parse records target (j + 1))
    (from_ : next = offset records (j + 1) ∨ next + 1 = offset records (j + 1) ∧
      j + 1 < records.length ∧ 0 < offset records j) :
    Scope parse records target (j + 1) l (st.narrowed (offset records j) next st.stop) where
  order := high
  inside := scope.inside
  before := earlier
  beyond := scope.beyond
  start := from_.imp_right fun ⟨same, more, positive⟩ => ⟨same, more, j, rfl, positive⟩
  stop := scope.stop
  fileSize := scope.fileSize
  probe := rfl
  last _ same := ⟨j, (Option.some.inj same).symm, inside, .inl (Nat.lt_succ_self j)⟩

end Scope

namespace Searchable

variable (searchable : Searchable parse records)

include searchable

theorem ordered {i j : Nat} (less : i < j) (inside : j < records.length) :
    records[i].timestamp parse < records[j].timestamp parse :=
  List.pairwise_iff_getElem.mp searchable.increasing i j (by omega) inside less

theorem earlier {j : Nat} (inside : j < records.length)
    (less : records[j].timestamp parse < target) : Earlier parse records target (j + 1) := by
  intro i h before
  rcases Nat.lt_or_ge i j with first | same
  · exact lt_trans (searchable.ordered first inside) less
  · obtain rfl : i = j := by omega
    exact less

theorem later {j : Nat} (inside : j < records.length)
    (more : target < records[j].timestamp parse) : Later parse records target j := by
  intro i h after_
  rcases Nat.lt_or_ge j i with last | same
  · exact lt_trans more (searchable.ordered last h)
  · obtain rfl : i = j := by omega
    exact more

/-- A probe in a record: its line, and where the scope would go on. -/
theorem probe {j m : Nat} (inside : j < records.length) (low : offset records j ≤ m)
    (high : m ≤ offset records j + records[j].bytes.length) :
    ∃ next, readProbeLine (recordsContent records) m =
        some (records[j].bytes, offset records j, next) ∧
      (next = offset records (j + 1) ∨ next + 1 = offset records (j + 1) ∧ m = offset records j ∧
        m < next ∧ j + 1 < records.length ∧ 0 < offset records j) := by
  have short := searchable.short _ (List.getElem_mem inside)
  obtain ⟨next, read, ends⟩ := readProbeLine_spec inside low high short
  refine ⟨next, read, ends.imp_right ?_⟩
  rintro ⟨same, first, full, large⟩
  have positive : 0 < maxEntrySize := by decide
  have size := offset_succ inside
  refine ⟨same, first, by omega, ?_, by omega⟩
  by_contra more
  have last : records.getLast? = some records[j] := by
    rw [List.getLast?_eq_getElem?, ← List.getElem?_eq_getElem inside]
    congr 1
    omega
  have less := searchable.last _ last
  omega

/-- What a round does that probes a record other than the last one. -/
theorem round {j : Nat} (scope : Scope parse records target k l st) (inside : j < records.length)
    (fresh : st.lastProbeLineIdx ≠ some (offset records j)) (low : offset records j ≤ st.probe)
    (high : st.probe ≤ offset records j + records[j].bytes.length)
    (shallow : st.depth + 1 < maxSearchDepth) :
    (∃ found, seekTSStep parse (recordsContent records) target st = .inr found ∧
        Answer parse records target found) ∨
      (target < records[j].timestamp parse ∧ Later parse records target j ∧
        seekTSStep parse (recordsContent records) target st =
          .inl (st.narrowed (offset records j) st.start (offset records j))) ∨
      (records[j].timestamp parse < target ∧ Earlier parse records target (j + 1) ∧ ∃ next,
        seekTSStep parse (recordsContent records) target st =
            .inl (st.narrowed (offset records j) next st.stop) ∧
          (next = offset records (j + 1) ∨ next + 1 = offset records (j + 1) ∧
            st.probe = offset records j ∧ st.probe < next ∧ j + 1 < records.length ∧
            0 < offset records j)) := by
  obtain ⟨next, read, ends⟩ := searchable.probe inside low high
  have step : seekTSStep parse (recordsContent records) target st =
      if records[j].timestamp parse = target then
        .inr (.ok { st with
          lastProbeLineIdx := some (offset records j)
          line := records[j].bytes
          lineIdx := offset records j })
      else narrow target (offset records j) next (records[j].timestamp parse)
        { st with lastProbeLineIdx := some (offset records j) } :=
    seekTSStep_valid read (scope.valid inside fresh) rfl
      (searchable.nonzero _ (List.getElem_mem inside))
  rcases lt_trichotomy (records[j].timestamp parse) target with less | same | more
  · refine .inr (.inr ⟨less, searchable.earlier inside less, next, ?_, ends⟩)
    rw [step, if_neg (ne_of_lt less), narrow_eq _ shallow, if_neg (not_lt_of_gt less)]
  · rw [if_pos same] at step
    exact .inl ⟨_, step, .found j inside same rfl rfl⟩
  · refine .inr (.inl ⟨more, searchable.later inside more, ?_⟩)
    rw [step, if_neg (ne_of_gt more), narrow_eq _ shallow, if_pos more]

/-- A round with records in the scope finds the record or halves the scope. -/
theorem halve (scope : Scope parse records target k l st) (open_ : k < l)
    (shallow : st.depth + 1 < maxSearchDepth) :
    (∃ found, seekTSStep parse (recordsContent records) target st = .inr found ∧
        Answer parse records target found) ∨
      ∃ k' l' next, seekTSStep parse (recordsContent records) target st = .inl next ∧
        Scope parse records target k' l' next ∧ next.depth = st.depth + 1 ∧
        2 * (next.stop - next.start) ≤ st.stop - st.start := by
  have more := offset_lt open_ scope.inside
  have middle := scope.probe
  have stop := scope.stop
  have first : offset records k ≤ st.probe ∧ st.probe < offset records l ∧
      st.start ≤ st.probe := by
    rcases scope.start with start | ⟨start, _⟩
    · omega
    · omega
  obtain ⟨j, low, high, inside, here, within⟩ := exists_record first.1 first.2.1 scope.inside
  have size := offset_succ inside
  rcases searchable.round scope inside (scope.fresh low high) here within shallow with
    found | ⟨_, later, step⟩ | ⟨_, earlier, next, step, ends⟩
  · exact .inl found
  · refine .inr ⟨k, j, _, step, scope.left low inside later, rfl, ?_⟩
    change 2 * (offset records j - st.start) ≤ _
    omega
  · refine .inr ⟨j + 1, l, _, step, scope.right inside high earlier ?_, rfl, ?_⟩
    · exact ends.imp_right fun ⟨same, _, _, rest⟩ => ⟨same, rest⟩
    · change 2 * (st.stop - next) ≤ _
      omega

/-- The second probe of the record after the scope ends the search. -/
theorem settled {k : Nat} (scope : Scope parse records target k k st)
    (start : st.start = offset records k) (inside : k < records.length)
    (again : st.lastProbeLineIdx = some (offset records k)) :
    seekTSStep parse (recordsContent records) target st =
      .inr (.error (verdict k records.length)) := by
  have place : st.probe = offset records k := by
    rw [scope.probe, scope.stop, start, Nat.sub_self, Nat.zero_div, Nat.add_zero]
  obtain ⟨next, read, _⟩ := searchable.probe inside (Nat.le_of_eq place.symm)
    (place ▸ Nat.le_add_right _ _)
  apply seekTSStep_failed read
  rw [validateQLogLineIdx, if_pos again, verdict, if_neg (Nat.ne_of_lt inside)]
  by_cases first : k = 0
  · subst first
    rfl
  · have positive := offset_lt (Nat.pos_of_ne_zero first) (Nat.le_of_lt inside)
    rw [offset_zero] at positive
    rw [if_neg first, if_neg (Nat.ne_of_gt positive)]

/-- Without a record in the scope the search ends in two rounds. -/
theorem settle (some_ : records ≠ []) {k : Nat} (scope : Scope parse records target k k st)
    (start : st.start = offset records k) (shallow : st.depth + 1 < maxSearchDepth)
    (fuel : Nat) :
    ∃ result, Looping.run (seekTSStep parse (recordsContent records) target) (fuel + 2) st =
      some result ∧ Answer parse records target result := by
  have missing : Answer parse records target (.error (verdict k records.length)) :=
    .missing k scope.inside scope.before scope.beyond
  have place : st.probe = offset records k := by
    rw [scope.probe, scope.stop, start, Nat.sub_self, Nat.zero_div, Nat.add_zero]
  rcases Nat.lt_or_eq_of_le scope.inside with inside | end_
  · by_cases again : st.lastProbeLineIdx = some (offset records k)
    · exact ⟨_, Looping.run_leave (searchable.settled scope start inside again) _, missing⟩
    · rcases searchable.round scope inside again (Nat.le_of_eq place.symm)
        (place ▸ Nat.le_add_right _ _) shallow with
        ⟨found, step, answer⟩ | ⟨_, later, step⟩ | ⟨less, _⟩
      · exact ⟨found, Looping.run_leave step _, answer⟩
      · rw [Looping.run_again step]
        have next := scope.left (Nat.le_refl k) inside later
        exact ⟨_, Looping.run_leave (searchable.settled next start inside rfl) _, missing⟩
      · exact absurd less (not_lt_of_gt (scope.beyond k inside (Nat.le_refl k)))
  · subst end_
    rw [offset_length] at place
    obtain ⟨next, read⟩ := readProbeLine_end some_
    rw [← place] at read
    have other : st.lastProbeLineIdx ≠ some (recordsContent records).length := by
      intro same
      obtain ⟨j, equal, inside, _⟩ := scope.last _ same
      have less := offset_lt inside (Nat.le_refl _)
      rw [offset_length, ← equal] at less
      exact Nat.lt_irrefl _ less
    have step : seekTSStep parse (recordsContent records) target st =
        .inr (.error (verdict records.length records.length)) := by
      apply seekTSStep_failed read
      rw [place, validateQLogLineIdx, if_neg other, if_pos scope.fileSize.symm, verdict, if_pos rfl]
    exact ⟨_, Looping.run_leave step _, missing⟩

/-- The same where the newline of the record before is left in the scope. -/
theorem settle_late (some_ : records ≠ []) {i : Nat}
    (scope : Scope parse records target (i + 1) (i + 1) st)
    (start : st.start + 1 = offset records (i + 1)) (more : i + 1 < records.length)
    (positive : 0 < offset records i) (shallow : st.depth + 2 < maxSearchDepth) (fuel : Nat) :
    ∃ result, Looping.run (seekTSStep parse (recordsContent records) target) (fuel + 3) st =
      some result ∧ Answer parse records target result := by
  have inside : i < records.length := by omega
  have size := offset_succ inside
  have place : st.probe = offset records i + records[i].bytes.length := by
    have middle := scope.probe
    have stop := scope.stop
    omega
  have low : offset records i ≤ st.probe := place ▸ Nat.le_add_right _ _
  by_cases again : st.lastProbeLineIdx = some (offset records i)
  · obtain ⟨next, read, _⟩ := searchable.probe inside low (Nat.le_of_eq place)
    refine ⟨_, Looping.run_leave (seekTSStep_failed read ?_) _,
      .missing (i + 1) scope.inside scope.before scope.beyond⟩
    rw [validateQLogLineIdx, if_pos again, verdict, if_neg (Nat.ne_of_lt more),
      if_neg (Nat.ne_of_gt positive), if_neg (Nat.succ_ne_zero i)]
  · rcases searchable.round scope inside again low (Nat.le_of_eq place) (by omega) with
      ⟨found, step, answer⟩ | ⟨later, _⟩ | ⟨_, earlier, next, step, ends⟩
    · exact ⟨found, Looping.run_leave step _, answer⟩
    · exact absurd later (not_lt_of_gt (scope.before i inside (Nat.lt_succ_self i)))
    · rw [Looping.run_again step]
      have exact_ : next = offset records (i + 1) := by omega
      exact searchable.settle some_ (scope.right inside (Nat.le_refl _) earlier (.inl exact_))
        exact_ shallow fuel

/-- The search of a scope, by halving it. -/
theorem search (some_ : records ≠ []) (bits : Nat) (scope : Scope parse records target k l st)
    (small : st.stop - st.start < 2 ^ bits) (shallow : st.depth + bits + 3 ≤ maxSearchDepth)
    {fuel : Nat} (enough : bits + 3 ≤ fuel) :
    ∃ result, Looping.run (seekTSStep parse (recordsContent records) target) fuel st =
      some result ∧ Answer parse records target result := by
  have stop := scope.stop
  induction bits generalizing k l st fuel with
  | zero =>
    obtain ⟨spare, rfl⟩ : ∃ spare, fuel = spare + 2 := ⟨fuel - 2, by omega⟩
    have closed : k = l ∧ st.start = offset records k := by
      rcases Nat.lt_or_eq_of_le scope.order with open_ | rfl
      · have more := offset_lt open_ scope.inside
        rcases scope.start with start | ⟨start, _⟩ <;> omega
      · rcases scope.start with start | ⟨start, _⟩
        · exact ⟨rfl, start⟩
        · omega
    obtain ⟨rfl, start⟩ := closed
    exact searchable.settle some_ scope start (by omega) spare
  | succ bits ih =>
    obtain ⟨spare, rfl⟩ : ∃ spare, fuel = spare + 3 := ⟨fuel - 3, by omega⟩
    rcases Nat.lt_or_eq_of_le scope.order with open_ | rfl
    · rcases searchable.halve scope open_ (by omega) with
        ⟨found, step, answer⟩ | ⟨k', l', next, step, inner, deeper, half⟩
      · exact ⟨found, Looping.run_leave step _, answer⟩
      · rw [Looping.run_again step]
        exact ih inner (by rw [Nat.pow_succ] at small; omega) (by omega) (by omega) inner.stop
    · rcases scope.start with start | ⟨start, more, i, rfl, positive⟩
      · exact searchable.settle some_ scope start (by omega) (spare + 1)
      · exact searchable.settle_late some_ scope start more positive (by omega) spare

end Searchable

end Search

section Result

variable (parse : Bytes → Option Int) (records : List Line) (target : Int)

structure RightResult (result : Except SeekError (QLogFile × Nat)) : Prop where
  found : (∃ q depth, result = .ok (q, depth)) ↔
    ∃ record ∈ records, record.timestamp parse = target
  position : ∀ q depth, result = .ok (q, depth) → ∃ (k : Nat) (h : k < records.length),
    records[k].timestamp parse = target ∧
      q.position = offset records k + records[k].bytes.length ∧
      ∃ next, q.readNext = some (records[k].bytes, next)
  early : ∀ first, records.head? = some first → target < first.timestamp parse →
    result = .error .tooEarly
  late : ∀ last, records.getLast? = some last → last.timestamp parse < target →
    result = .error .tooLate
  between : ∀ (k : Nat) (h : k + 1 < records.length), records[k].timestamp parse < target →
    target < records[k + 1].timestamp parse → result = .error .notFound
  shallow : result ≠ .error .tooDeep

/-- The search of a file for a timestamp does what it has to do. -/
def SeeksRight (q : QLogFile) : Prop :=
  ∃ result, q.seekTS parse target = some result ∧ RightResult parse records target result

variable {parse records target}

/-- The next read from the end of a record returns it. -/
theorem readNext_record {q : QLogFile} (content : q.content = recordsContent records) {k : Nat}
    (inside : k < records.length) (short : records[k].bytes.length ≤ maxEntrySize)
    (position : q.position = offset records k + records[k].bytes.length)
    (empty : q.buffer = none) : ∃ next, q.readNext = some (records[k].bytes, next) := by
  have before : q.Before (records[k] :: (records.take k).reverse) none :=
    { content := ⟨_, content.trans (content_split inside)⟩
      position := by
        rw [position, contentOf_cons, List.length_append, List.length_append]
        rfl
      empty := fun _ => empty
      filled := fun b same => (by cases same) }
  obtain ⟨read, next, found, reached, _⟩ := QLogFile.readNext_spec before
  have less : maxEntrySize ≤ bufferSize := by decide
  obtain ⟨rfl, _⟩ := reached (by
    rw [nextStart]
    omega)
  exact ⟨next, found⟩

/-- The record that is found is the only one with this timestamp. -/
theorem Answer.right_of_found (ordered : Ordered parse records) {q : QLogFile} {depth j : Nat}
    (content : q.content = recordsContent records) (inside : j < records.length)
    (same : records[j].timestamp parse = target)
    (position : q.position = offset records j + records[j].bytes.length)
    (empty : q.buffer = none) : RightResult parse records target (.ok (q, depth)) := by
  have less : ∀ i k (h : k < records.length) (_ : i < k),
      records[i].timestamp parse < records[k].timestamp parse := fun i k h first =>
    List.pairwise_iff_getElem.mp ordered.increasing i k (by omega) h first
  constructor
  · exact ⟨fun _ => ⟨_, List.getElem_mem inside, same⟩, fun _ => ⟨q, depth, rfl⟩⟩
  · intro q' depth' equal
    cases equal
    refine ⟨j, inside, same, position, readNext_record content inside ?_ position empty⟩
    exact ordered.short _ (List.getElem_mem inside)
  · intro first head early
    rw [List.head?_eq_getElem?, List.getElem?_eq_some_iff] at head
    obtain ⟨some_, rfl⟩ := head
    rcases Nat.eq_zero_or_pos j with rfl | positive
    · omega
    · have order := less 0 j inside positive
      omega
  · intro last tail late
    rw [List.getLast?_eq_getElem?, List.getElem?_eq_some_iff] at tail
    obtain ⟨some_, rfl⟩ := tail
    rcases Nat.lt_or_ge j (records.length - 1) with before | end_
    · have order := less j _ some_ before
      omega
    · obtain rfl : j = records.length - 1 := by omega
      omega
  · intro k more low high
    rcases Nat.lt_trichotomy j k with before | rfl | after_
    · have order := less j k (by omega) before
      omega
    · omega
    · rcases Nat.lt_or_ge (k + 1) j with far | next
      · have order := less (k + 1) j inside far
        omega
      · obtain rfl : j = k + 1 := by omega
        omega
  · exact fun equal => (by cases equal)

/-- No record has the timestamp, and the error says where it falls. -/
theorem Answer.right_of_missing (some_ : records ≠ []) {k : Nat} (inside : k ≤ records.length)
    (before : Earlier parse records target k) (beyond : Later parse records target k) :
    RightResult parse records target (.error (verdict k records.length)) := by
  have positive := List.length_pos_iff.mpr some_
  constructor
  · constructor
    · rintro ⟨q, depth, equal⟩
      cases equal
    · rintro ⟨record, member, same⟩
      obtain ⟨i, h, rfl⟩ := List.getElem_of_mem member
      rcases Nat.lt_or_ge i k with less | more
      · exact absurd same (ne_of_lt (before i h less))
      · exact absurd same (ne_of_gt (beyond i h more))
  · intro q depth equal
    cases equal
  · intro first head early
    rw [List.head?_eq_getElem?, List.getElem?_eq_some_iff] at head
    obtain ⟨_, rfl⟩ := head
    rcases Nat.eq_zero_or_pos k with rfl | later
    · rw [verdict, if_neg (Nat.ne_of_lt positive), if_pos rfl]
    · exact absurd early (not_lt_of_gt (before 0 positive later))
  · intro last tail late
    rw [List.getLast?_eq_getElem?, List.getElem?_eq_some_iff] at tail
    obtain ⟨last_, rfl⟩ := tail
    rcases Nat.lt_or_ge (records.length - 1) k with less | more
    · rw [verdict, if_pos (by omega)]
    · exact absurd late (not_lt_of_gt (beyond _ last_ more))
  · intro i more low high
    have after_ : i < k := by
      by_contra early
      exact absurd low (not_lt_of_gt (beyond i (by omega) (by omega)))
    have until_ : k ≤ i + 1 := by
      by_contra late
      exact absurd high (not_lt_of_gt (before (i + 1) more (by omega)))
    rw [verdict, if_neg (by omega), if_neg (by omega)]
  · intro equal
    unfold verdict at equal
    split at equal
    · cases equal
    · split at equal <;> cases equal

theorem seeksRight_nil {q : QLogFile} (content : q.content = recordsContent []) :
    SeeksRight parse [] target q := by
  have step : seekTSStep parse (recordsContent []) target (.initial (recordsContent [])) =
      .inr (.error .probe) := seekTSStep_none (readProbeLine_past (Nat.zero_le _))
  have run : Looping.run (seekTSStep parse (recordsContent []) target) maxSearchDepth
      (.initial (recordsContent [])) = some (.error .probe) := Looping.run_leave step 99
  refine ⟨.error .probe, ?_, ?_⟩
  · rw [QLogFile.seekTS, content, run, Option.map_some]
    rfl
  · constructor
    · exact ⟨fun ⟨_, _, equal⟩ => (by cases equal), fun ⟨_, member, _⟩ => (by cases member)⟩
    · exact fun _ _ equal => (by cases equal)
    · exact fun _ head => (by cases head)
    · exact fun _ tail => (by cases tail)
    · exact fun _ more => absurd more (Nat.not_lt_zero _)
    · exact fun equal => (by cases equal)

theorem Scope.initial : Scope parse records target 0 records.length
    (.initial (recordsContent records)) where
  order := Nat.zero_le _
  inside := Nat.le_refl _
  before _ _ less := absurd less (Nat.not_lt_zero _)
  beyond _ h more := absurd h (Nat.not_lt_of_le more)
  start := .inl rfl
  stop := (offset_length records).symm
  fileSize := rfl
  probe := (Nat.zero_add _).symm
  last _ same := by cases same

/-- The search of a file finds the record with a timestamp, or says where the timestamp falls
among those of the records. It is never too deep: a file is shorter than two to the 63rd. -/
theorem seek_record (searchable : Searchable parse records)
    (small : (recordsContent records).length < 2 ^ 63) {q : QLogFile}
    (content : q.content = recordsContent records) : SeeksRight parse records target q := by
  by_cases some_ : records = []
  · subst some_
    exact seeksRight_nil content
  have scope : Scope parse records target 0 records.length (.initial (recordsContent records)) :=
    .initial
  have shallow : 0 + 63 + 3 ≤ maxSearchDepth := by decide
  have enough : 63 + 3 ≤ maxSearchDepth := by decide
  obtain ⟨result, run, answer⟩ := searchable.search some_ 63 scope small shallow enough
  rw [SeeksRight, QLogFile.seekTS, content, run, Option.map_some]
  refine ⟨_, rfl, ?_⟩
  cases answer with
  | found j inside same line place =>
    refine Answer.right_of_found searchable.toOrdered rfl inside same ?_ rfl
    rw [place, line]
  | missing k inside before beyond => exact Answer.right_of_missing some_ inside before beyond

end Result

def stamped (time : String) : Bytes := ascii "\x7b\"T\":\"" ++ ascii time ++ ascii "\"\x7d"

def firstRecord : Line := ⟨stamped "2024-05-01T10:00:00Z", by decide, by decide⟩

def secondRecord : Line := ⟨stamped "2024-05-01T10:00:01Z", by decide, by decide⟩

def mayTime (val : Bytes) : Option Int :=
  if val = ascii "2024-05-01T10:00:00Z" then some 1714557600000000000
  else if val = ascii "2024-05-01T10:00:01Z" then some 1714557601000000000
  else none

theorem seek_second_record :
    SeeksRight mayTime [firstRecord, secondRecord] 1714557601000000000
      (newQLogFile (recordsContent [firstRecord, secondRecord])) :=
  seek_record
    { valid := by decide
      increasing := by decide
      short := by decide
      nonzero := by decide
      last := by decide }
    (by decide) rfl

def epochRecord : Line := ⟨stamped "1970-01-01T00:00:00Z", by decide, by decide⟩

def epochTime (val : Bytes) : Option Int :=
  if val = ascii "1970-01-01T00:00:00Z" then some 0 else none

/-- A record with the timestamp zero is taken for one without a timestamp. -/
theorem epoch_not_found : ¬ ∀ (parse : Bytes → Option Int) (records : List Line) (target : Int)
    (q : QLogFile), Ordered parse records → (recordsContent records).length < 2 ^ 63 →
      q.content = recordsContent records → SeeksRight parse records target q := by
  intro all
  have ordered : Ordered epochTime [epochRecord] :=
    { valid := by decide
      increasing := List.pairwise_singleton _ _
      short := by decide }
  obtain ⟨result, run, right⟩ := all epochTime [epochRecord] 0
    (newQLogFile (recordsContent [epochRecord])) ordered (by decide) rfl
  obtain ⟨next, read, _⟩ := @readProbeLine_spec ([epochRecord]) 0 14 (by decide) (by decide) (by decide) (by decide)
  have step : seekTSStep epochTime (recordsContent [epochRecord]) 0
      (.initial (recordsContent [epochRecord])) = .inr (.error .emptyTimestamp) :=
    seekTSStep_empty read (by decide) (by decide)
  have ran : Looping.run (seekTSStep epochTime (recordsContent [epochRecord]) 0) maxSearchDepth
      (.initial (recordsContent [epochRecord])) = some (.error .emptyTimestamp) :=
    Looping.run_leave step 99
  have same : (newQLogFile (recordsContent [epochRecord])).content =
      recordsContent [epochRecord] := rfl
  rw [QLogFile.seekTS, same, ran] at run
  obtain rfl := Option.some.inj run
  obtain ⟨_, _, found⟩ := right.found.mpr ⟨epochRecord, List.mem_singleton_self _, by decide⟩
  cases found

end AdGuardHome.Querylog
