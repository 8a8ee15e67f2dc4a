import AdGuardHome.Lib.Pages
import AdGuardHome.Querylog.Search

namespace AdGuardHome.Querylog

section Search

variable {Line Record Criterion : Type} (env : Lookup Line Record Criterion)
variable (log : Contents Line Record) (params : SearchParams Criterion)

def shown (line : Line) : Option Record :=
  let e := env.decodeLogEntry line
  if env.isIgnored e || env.ignoreQueryLog e || !params.isMatch env e then none else some e

/-- All matching records of the memory and of the files, from the newest one on. -/
def allMatching : List Record :=
  log.buffer.reverse.filter (params.isMatch env) ++ log.lines.reverse.filterMap (shown env params)

/-- The records of a list with the numbers from `offset` to `offset + limit - 1`. -/
def window (offset limit : Int) (entries : List Record) : List Record :=
  (entries.take (offset + limit).toNat).drop offset.toNat

/-- The timestamps of the log increase strictly, from the files to the buffer. -/
def Increasing : Prop :=
  (log.lines.map env.decodeLogEntry ++ log.buffer).Pairwise fun a b => env.time a < env.time b

/-- A search returns, with no more records than the limit, and with those of the window
when an offset is given and no time. -/
def Answered (offsetGiven : Prop) : Prop :=
  ∃ entries oldest, search env log params = some (entries, oldest) ∧
    (entries.length : Int) ≤ params.limit.toInt ∧
    (offsetGiven → params.olderThan = 0 →
      entries = window params.offset.toInt params.limit.toInt (allMatching env log params))

/-- The limit is not negative and the end of the window is a number that is not. -/
def WithinRange : Prop :=
  0 ≤ params.limit.toInt ∧ (params.limit ≠ 0 →
    0 ≤ params.offset.toInt + params.limit.toInt ∧
      params.offset.toInt + params.limit.toInt < 2 ^ 63)

/-- The matching records again, each with whether it is searched: those of the buffer where
that is not skipped, and those of the lines that the quick match lets through. -/
def candidates : List (Record × Bool) :=
  (log.buffer.reverse.filter (params.isMatch env)).map (fun e => (e, decide (log.memSize ≠ 0))) ++
    log.lines.reverse.filterMap fun line =>
      (shown env params line).map fun e => (e, params.quickMatch env line)

/-- What is read from a line, if anything. -/
def readable (line : Line) : Option Record :=
  if params.quickMatch env line then shown env params line else none

def searched : List Record := ((candidates env log params).filter (·.2)).map (·.1)

/-- There is nothing to return, or all records up to the end of the window are searched. -/
def NoneHidden : Prop :=
  params.limit = 0 ∨
    ((allMatching env log params).length : Int) ≤ max 0 params.offset.toInt ∨
    ∀ r ∈ (candidates env log params).take (params.offset.toInt + params.limit.toInt).toNat,
      r.2 = true

end Search

section Search

variable {Line Record Criterion : Type} {env : Lookup Line Record Criterion}
variable {log : Contents Line Record} {params : SearchParams Criterion}

theorem candidates_map_fst : (candidates env log params).map (·.1) = allMatching env log params := by
  simp [candidates, allMatching, List.map_filterMap, Function.comp_def]

theorem readNextEntry_fst (line : Line) :
    (readNextEntry env params line).1 = readable env params line := by
  unfold readNextEntry readable
  cases passed : params.quickMatch env line with
  | false => rfl
  | true =>
    unfold shown
    dsimp only
    cases env.isIgnored (env.decodeLogEntry line) <;>
      cases env.ignoreQueryLog (env.decodeLogEntry line) <;>
        cases params.isMatch env (env.decodeLogEntry line) <;> rfl

/-- Without a bound on the lines, the loop collects records up to the limit. -/
theorem readEntriesLoop_fst {totalLimit : MachineInt}
    (unbounded : params.maxFileScanEntries.toInt ≤ 0) (lines : List Line)
    (entries : List Record) (oldest : Time) (total : Nat)
    (room : (entries.length : Int) < totalLimit.toInt) :
    (readEntriesLoop env params totalLimit lines entries oldest total).1 =
      entries ++ (lines.filterMap (readable env params)).take
        (totalLimit.toInt.toNat - entries.length) := by
  induction lines generalizing entries oldest total with
  | nil =>
    rw [readEntriesLoop, if_pos (.inr unbounded), List.filterMap_nil, List.take_nil, List.append_nil]
  | cons line rest ih =>
    rw [readEntriesLoop, if_pos (.inr unbounded)]
    rcases found : readNextEntry env params line with ⟨ent, ts⟩
    have read := @readNextEntry_fst _ _ _ env params line
    rw [found] at read
    cases ent with
    | none =>
      dsimp only
      rw [List.filterMap_cons_none read.symm]
      exact ih entries ts (total + 1) room
    | some e =>
      dsimp only
      rw [List.filterMap_cons_some read.symm]
      have length : (entries ++ [e]).length = entries.length + 1 := by simp
      split
      · rename_i full
        have one : totalLimit.toInt.toNat - entries.length = 1 := by omega
        rw [one]
        rfl
      · rename_i more
        have next := ih (entries ++ [e]) ts (total + 1) (by omega)
        have left : totalLimit.toInt.toNat - entries.length =
            totalLimit.toInt.toNat - (entries ++ [e]).length + 1 := by omega
        rw [next, left, List.take_succ_cons, List.append_assoc]
        rfl

theorem search_isSome_iff (some_ : params.limit ≠ 0) :
    (search env log params).isSome ↔ 0 ≤ (params.offset + params.limit).toInt := by
  unfold search
  rw [if_neg some_]
  dsimp only
  generalize (searchMemory env log params).1 ++ (searchFiles env log params).1 = entries
  generalize (searchFiles env log params).2.1 = oldest
  generalize params.offset + params.limit = totalLimit
  by_cases nonneg : 0 ≤ totalLimit.toInt
  · simp only [nonneg, iff_true]
    split
    · simp [cutTo, nonneg]
    · rfl
  · have longer : totalLimit.toInt < entries.length := by omega
    simp [longer, cutTo, nonneg]

/-- What is left of the merged records before they are sorted. -/
theorem search_eq (some_ : params.limit ≠ 0)
    (nonneg : 0 ≤ (params.offset + params.limit).toInt) :
    search env log params = some (finalizeSearchResults env params
      (((searchMemory env log params).1 ++ (searchFiles env log params).1).take
        (params.offset + params.limit).toInt.toNat) (searchFiles env log params).2.1) := by
  unfold search
  rw [if_neg some_]
  dsimp only
  generalize (searchMemory env log params).1 ++ (searchFiles env log params).1 = entries
  generalize params.offset + params.limit = totalLimit at nonneg
  split
  · rw [cutTo, if_pos nonneg]
    rfl
  · rename_i short
    rw [List.take_of_length_le (by omega)]
    rfl

private theorem toInt_totalLimit (nonneg : 0 ≤ params.limit.toInt) :
    0 ≤ (params.offset + params.limit).toInt ↔
      0 ≤ params.offset.toInt + params.limit.toInt ∧
        params.offset.toInt + params.limit.toInt < 2 ^ 63 := by
  have low := params.offset.le_toInt
  have high := params.offset.toInt_lt
  have limit := params.limit.toInt_lt
  rw [BitVec.toInt_add, Int.bmod_def]
  split <;> omega

private theorem toInt_totalLimit_eq
    (sum : 0 ≤ params.offset.toInt + params.limit.toInt)
    (small : params.offset.toInt + params.limit.toInt < 2 ^ 63) :
    (params.offset + params.limit).toInt = params.offset.toInt + params.limit.toInt := by
  rw [BitVec.toInt_add, Int.bmod_def]
  split <;> omega

theorem length_finalizeSearchResults {entries : List Record} (oldest : Time)
    (nonneg : 0 ≤ params.limit.toInt)
    (cut : (entries.length : Int) ≤ params.offset.toInt + params.limit.toInt) :
    ((finalizeSearchResults env params entries oldest).1.length : Int) ≤ params.limit.toInt := by
  unfold finalizeSearchResults
  dsimp only
  split
  · split
    · rw [List.length_drop, List.length_mergeSort]
      omega
    · exact nonneg
  · rw [List.length_mergeSort]
    omega

/-- Records that are in order already only lose those before the offset. -/
theorem finalizeSearchResults_fst {entries : List Record} (oldest : Time)
    (sorted : entries.Pairwise fun a b => env.time b < env.time a) :
    (finalizeSearchResults env params entries oldest).1 =
      entries.drop params.offset.toInt.toNat := by
  have same : (entries.mergeSort fun a b => env.time b ≤ env.time a) = entries := by
    apply List.mergeSort_of_pairwise
    refine sorted.imp ?_
    intro a b before
    simpa using Int.le_of_lt before
  unfold finalizeSearchResults
  dsimp only
  rw [same]
  split
  · split
    · rfl
    · rename_i short
      rw [List.drop_of_length_le (by omega)]
  · rename_i none_
    have zero : params.offset.toInt.toNat = 0 := by omega
    rw [zero, List.drop_zero]

theorem allMatching_sorted (increasing : Increasing env log) :
    (allMatching env log params).Pairwise fun a b => env.time b < env.time a := by
  have lines : (log.lines.reverse.filterMap (shown env params)).Sublist
      (log.lines.map env.decodeLogEntry).reverse := by
    rw [← List.map_reverse]
    induction log.lines.reverse with
    | nil => exact .refl _
    | cons line rest ih =>
      rw [List.filterMap_cons, List.map_cons]
      unfold shown
      dsimp only
      split
      · exact ih.cons _
      · rename_i e found
        split at found
        · cases found
        · rw [← Option.some.inj found]
          exact ih.cons_cons _
  have all : (allMatching env log params).Sublist
      (log.lines.map env.decodeLogEntry ++ log.buffer).reverse := by
    rw [List.reverse_append]
    exact List.filter_sublist.append lines
  exact (List.pairwise_reverse.mpr increasing).sublist all

theorem searched_sublist : (searched env log params).Sublist (allMatching env log params) := by
  rw [← candidates_map_fst]
  exact List.filter_sublist.map _

/-- The merged records, up to the end of the window, are those that are searched. -/
theorem take_merged (noTime : params.olderThan = 0)
    (unbounded : params.maxFileScanEntries.toInt ≤ 0)
    (nonneg : 0 ≤ (params.offset + params.limit).toInt) :
    ((searchMemory env log params).1 ++ (searchFiles env log params).1).take
        (params.offset + params.limit).toInt.toNat =
      (searched env log params).take (params.offset + params.limit).toInt.toNat := by
  have memory : (((log.buffer.reverse.filter (params.isMatch env)).map
      fun e => (e, decide (log.memSize ≠ 0))).filter (·.2)).map (·.1) =
        (searchMemory env log params).1 := by
    unfold searchMemory
    by_cases zero : log.memSize = 0 <;> simp [zero, List.filter_map, Function.comp_def]
  have lines : ((log.lines.reverse.filterMap fun line =>
      (shown env params line).map fun e => (e, params.quickMatch env line)).filter (·.2)).map (·.1) =
        log.lines.reverse.filterMap (readable env params) := by
    rw [List.filter_filterMap, List.map_filterMap]
    congr 1
    funext line
    unfold readable
    cases shown env params line <;> cases params.quickMatch env line <;> rfl
  have all : searched env log params = (searchMemory env log params).1 ++
      log.lines.reverse.filterMap (readable env params) := by
    rw [searched, candidates, List.filter_append, List.map_append, memory, lines]
  rw [all]
  by_cases empty : (params.offset + params.limit).toInt = 0
  · rw [empty]
    rfl
  · have files : (searchFiles env log params).1 =
        (log.lines.reverse.filterMap (readable env params)).take
          (params.offset + params.limit).toInt.toNat := by
      unfold searchFiles seekRecord
      rw [if_pos noTime]
      have room : (([] : List Record).length : Int) < (params.offset + params.limit).toInt := by
        rw [List.length_nil]
        omega
      have read := @readEntriesLoop_fst _ _ _ env _ _ unbounded log.lines.reverse [] 0 0 room
      rwa [List.nil_append, List.length_nil, Nat.sub_zero] at read
    rw [files, List.take_append, List.take_append, List.take_take, Nat.min_eq_left (Nat.sub_le _ _)]

/-- The window of the searched records is that of all matching ones just where none of those up
to its end is hidden. -/
theorem window_searched_iff (increasing : Increasing env log)
    (nonneg : 0 ≤ params.limit.toInt)
    (low : 0 ≤ params.offset.toInt + params.limit.toInt) (some_ : params.limit ≠ 0) :
    window params.offset.toInt params.limit.toInt (searched env log params) =
        window params.offset.toInt params.limit.toInt (allMatching env log params) ↔
      NoneHidden env log params := by
  have positive : params.limit.toInt ≠ 0 := fun zero => some_ (BitVec.eq_of_toInt_eq zero)
  have length : (allMatching env log params).length = (candidates env log params).length := by
    rw [← candidates_map_fst, List.length_map]
  have distinct : ((candidates env log params).map (·.1)).Nodup := by
    rw [candidates_map_fst]
    refine (allMatching_sorted increasing).imp ?_
    rintro a b before rfl
    exact Int.lt_irrefl _ before
  rw [NoneHidden, or_iff_right some_, length, window, window]
  by_cases beyond : (candidates env log params).length ≤ params.offset.toInt.toNat
  · have short := (@searched_sublist _ _ _ env log params).length_le
    rw [List.drop_of_length_le (by rw [List.length_take]; omega),
      List.drop_of_length_le (by rw [List.length_take]; omega)]
    simp only [true_iff]
    exact .inl (by omega)
  rw [or_iff_right (by omega), searched, ← candidates_map_fst, List.drop_take, List.drop_take,
    ← List.map_drop, ← List.map_drop, ← List.map_take, ← List.map_take]
  generalize candidates env log params = items at distinct beyond ⊢
  obtain ⟨width, end_⟩ : ∃ width, (params.offset.toInt + params.limit.toInt).toNat =
      params.offset.toInt.toNat + width := ⟨_, (Nat.add_sub_of_le (by omega)).symm⟩
  rw [end_, Nat.add_sub_cancel_left]
  by_cases wide : 0 < width
  · rw [Lib.Pages.window_filter_iff (·.2) distinct (Nat.lt_of_not_le beyond) wide]
    have first : params.offset.toInt.toNat = ((items.take params.offset.toInt.toNat).filter (·.2)).length ↔
        ∀ item ∈ items.take params.offset.toInt.toNat, item.2 = true := by
      have full : (items.take params.offset.toInt.toNat).length = params.offset.toInt.toNat := by
        rw [List.length_take]
        omega
      rw [eq_comm, ← List.length_filter_eq_length_iff, full]
    rw [first, List.take_add]
    simp only [List.forall_mem_append]
    exact and_comm
  · have start : params.offset.toInt.toNat = 0 := by omega
    have narrow : width = 0 := by omega
    simp [start, narrow]

theorem withinRange_of_answered {offsetGiven : Prop} (answered : Answered env log params offsetGiven) :
    WithinRange params := by
  obtain ⟨entries, oldest, found, length, _⟩ := answered
  have nonneg : 0 ≤ params.limit.toInt := Int.le_trans (Int.natCast_nonneg _) length
  refine ⟨nonneg, ?_⟩
  intro some_
  refine (toInt_totalLimit nonneg).mp ((@search_isSome_iff _ _ _ env log _ some_).mp ?_)
  rw [found]
  rfl

theorem length_of_withinRange (range : WithinRange params) :
    ∃ entries oldest, search env log params = some (entries, oldest) ∧
      (entries.length : Int) ≤ params.limit.toInt := by
  obtain ⟨nonneg, sum⟩ := range
  by_cases zero : params.limit = 0
  · exact ⟨[], 0, if_pos zero, nonneg⟩
  · obtain ⟨low, high⟩ := sum zero
    have total := toInt_totalLimit_eq low high
    refine ⟨_, _, search_eq zero (total ▸ low), ?_⟩
    apply length_finalizeSearchResults _ nonneg
    rw [List.length_take]
    omega

theorem window_of_zero (zero : params.limit = 0) (entries : List Record) :
    window params.offset.toInt params.limit.toInt entries = [] := by
  rw [zero]
  unfold window
  rw [List.drop_eq_nil_iff, List.length_take]
  exact Nat.le_trans (Nat.min_le_left _ _) (by simp)

/-- What a search by offset returns is the window of the searched records. -/
theorem search_fst (range : WithinRange params) (increasing : Increasing env log)
    (noTime : params.olderThan = 0) (unbounded : params.maxFileScanEntries.toInt ≤ 0)
    {entries : List Record} {oldest : Time} (found : search env log params = some (entries, oldest)) :
    entries = window params.offset.toInt params.limit.toInt (searched env log params) := by
  obtain ⟨nonneg, sum⟩ := range
  by_cases zero : params.limit = 0
  · rw [search, if_pos zero] at found
    cases found
    exact (window_of_zero zero _).symm
  · obtain ⟨low, high⟩ := sum zero
    have total := toInt_totalLimit_eq low high
    rw [search_eq zero (total ▸ low), take_merged noTime unbounded (total ▸ low)] at found
    have result := congrArg Prod.fst (Option.some.inj found)
    have sorted := (allMatching_sorted increasing).sublist (@searched_sublist _ _ _ env log params)
    rw [finalizeSearchResults_fst _ (sorted.sublist (List.take_sublist _ _)), total] at result
    exact result.symm

theorem answered_iff (increasing : Increasing env log) {offsetGiven : Prop}
    (unbounded : offsetGiven → params.maxFileScanEntries.toInt ≤ 0) :
    Answered env log params offsetGiven ↔ WithinRange params ∧
      (offsetGiven → params.olderThan = 0 → NoneHidden env log params) := by
  have agree (range : WithinRange params) :
      window params.offset.toInt params.limit.toInt (searched env log params) =
        window params.offset.toInt params.limit.toInt (allMatching env log params) ↔
      NoneHidden env log params := by
    by_cases zero : params.limit = 0
    · rw [window_of_zero zero, window_of_zero zero]
      exact iff_of_true rfl (.inl zero)
    · exact window_searched_iff increasing range.1 (range.2 zero).1 zero
  constructor
  · intro answered
    have range := withinRange_of_answered answered
    obtain ⟨entries, oldest, found, -, exact_⟩ := answered
    refine ⟨range, ?_⟩
    intro given noTime
    rw [← agree range, ← search_fst range increasing noTime (unbounded given) found]
    exact exact_ given noTime
  · rintro ⟨range, unhidden⟩
    obtain ⟨entries, oldest, found, length⟩ := @length_of_withinRange _ _ _ env log _ range
    refine ⟨entries, oldest, found, length, ?_⟩
    intro given noTime
    rw [search_fst range increasing noTime (unbounded given) found]
    exact (agree range).mpr (unhidden given noTime)

end Search

def Values.GivesOffset (q : Values) : Prop := (parseInt (q.get "offset")).isSome = true

theorem maxFileScanEntries_of_givesOffset {Criterion Error : Type}
    {parsers : Parsers Criterion Error} {q : Values} {params : SearchParams Criterion}
    (accepted : parseSearchParams parsers q = .ok params) (given : q.GivesOffset) :
    params.maxFileScanEntries = 0 := by
  obtain ⟨offset, found⟩ := Option.isSome_iff_exists.mp given
  simp only [parseSearchParams, parseWindow, found] at accepted
  split at accepted
  · cases accepted
  split at accepted
  · cases accepted
  split at accepted
  · cases accepted
  · cases accepted
    rfl

section Offset

variable {Line Record Criterion Error : Type}

/-- A search that an accepted query string asks for panics or returns too much exactly when
its limit or the end of its window is out of range; else it returns the window of all
matching records, unless one of those up to the end of the window is hidden. -/
theorem search_by_offset (parsers : Parsers Criterion Error)
    (env : Lookup Line Record Criterion) (log : Contents Line Record) (q : Values)
    (params : SearchParams Criterion) (accepted : parseSearchParams parsers q = .ok params)
    (increasing : Increasing env log) :
    Answered env log params q.GivesOffset ↔ WithinRange params ∧
      (q.GivesOffset → params.olderThan = 0 → NoneHidden env log params) := by
  refine answered_iff increasing ?_
  intro given
  rw [maxFileScanEntries_of_givesOffset accepted given]
  decide

end Offset

/-- A log of numbers, each with its value as its timestamp and as its line. The quick match
passes over the line of zero. -/
def numbers : Lookup Int Int Unit where
  time := id
  isMatch _ _ := true
  quickMatch _ line := line ≠ 0
  decodeLogEntry := id
  readQLogTimestamp := id
  isIgnored _ := false
  ignoreQueryLog _ := false

def noCriterions : Parsers Unit Unit where
  time _ := .error ()
  criterions _ := .ok [()]

def fourNumbers : Contents Int Int := ⟨10, [2, 3], [0, 1], fun _ => none⟩

private def page (limit offset : String) : Values := fun name =>
  if name = "limit" then [limit] else if name = "offset" then [offset] else []

private theorem fourNumbers_increasing : Increasing numbers fourNumbers := by
  unfold Increasing
  decide

/-- The second page ends before the hidden record, and the third one would be that record. -/
theorem search_by_offset_second_page :
    Answered numbers fourNumbers (⟨0, [()], 1, 2, 0⟩ : SearchParams Unit) (page "2" "1").GivesOffset ∧
      ¬ Answered numbers fourNumbers (⟨0, [()], 3, 2, 0⟩ : SearchParams Unit)
        (page "2" "3").GivesOffset := by
  constructor
  · refine (search_by_offset noCriterions numbers fourNumbers (page "2" "1") ⟨0, [()], 1, 2, 0⟩ rfl
      fourNumbers_increasing).mpr ⟨?_, fun _ _ => ?_⟩
    · exact ⟨by decide, fun _ => by decide⟩
    · exact .inr (.inr (by decide))
  · intro answered
    have condition := (search_by_offset noCriterions numbers fourNumbers (page "2" "3")
      ⟨0, [()], 3, 2, 0⟩ rfl fourNumbers_increasing).mp answered
    obtain zero | few | all := condition.2 rfl rfl
    · exact absurd zero (by decide)
    · exact absurd few (by decide)
    · exact absurd all (by decide)

/-- A query string with the limit `-1` is accepted, and the search panics. -/
theorem negative_limit_panics :
    ¬ ∀ (parsers : Parsers Unit Unit) (env : Lookup Int Int Unit) (log : Contents Int Int)
      (q : Values) (params : SearchParams Unit), parseSearchParams parsers q = .ok params →
        Increasing env log → Answered env log params q.GivesOffset := by
  intro all
  have answered := all noCriterions numbers fourNumbers (page "-1" "0") ⟨0, [()], 0, -1, 0⟩ rfl
    fourNumbers_increasing
  obtain ⟨entries, oldest, found, _⟩ := answered
  have panics : (search numbers fourNumbers (⟨0, [()], 0, -1, 0⟩ : SearchParams Unit)).isSome → False := by
    rw [search_isSome_iff (by decide)]
    decide
  rw [found] at panics
  exact panics rfl

end AdGuardHome.Querylog
