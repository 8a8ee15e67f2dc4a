import AdGuardHome.Lib.Tally
import AdGuardHome.Stats.Unit

namespace AdGuardHome.Stats

open StatsCtx

/-- A collector in a run, with the hours of the valid entries passed so far: each
belongs to the hour of the unit that is current when it arrives. -/
structure Run where
  stats : StatsCtx
  passed : List UnitID

namespace Run

def step (r : Run) (event : Event) : Run × PUnit.{1} :=
  let passed := match event with
    | .update e => if e.validate = none then r.passed ++ [r.stats.curr.id] else r.passed
    | _ => r.passed
  (⟨r.stats.step event, passed⟩, ⟨⟩)

def machine : Transition.Machine Run Event PUnit.{1} := ⟨step⟩

/-- The hours that a report over `limit` hours ending at `curID` covers. -/
def inWindow (curID : UnitID) (limit : BitVec 32) (id : UnitID) : Bool :=
  id ≤ curID && decide (curID.toNat < id.toNat + limit.toNat)

def reported (r : Run) (orders : MapOrders) : Counter :=
  numDNSQueries (r.stats.loadUnits r.stats.conf.limitHours orders)

def passedInWindow (r : Run) : Nat :=
  r.passed.countP (inWindow r.stats.curr.id r.stats.conf.limitHours)

/-- A flush for a new hour that gets a transaction also completes it. -/
def Completes (s : StatsCtx) (id : UnitID) (outcome : TxOutcome) : Prop :=
  outcome.begins = true → s.curr.id ≠ id →
    outcome.puts = true ∧ outcome.commits = true ∧
      (outcome.deletes = true ∨ id - s.conf.limitHours ≠ s.curr.id ∧
        s.file.get (id - s.conf.limitHours) = none)

/-- The events of an enabled collector: valid entries have a known result code and the
hours never go back. -/
def Regular (r : Run) : Event → Prop
  | .update e => e.validate = none → r.stats.conf.enabled = true ∧ 0 ≤ e.result
  | .flush id _ _ => r.stats.curr.id ≤ id
  | .restart id _ _ => r.stats.curr.id ≤ id

/-- No unit is dropped: a started flush completes, and the oldest hour a restart keeps
does not wrap around. -/
def Lossless (r : Run) : Event → Prop
  | .update _ => True
  | .flush id _ outcome => Completes r.stats id outcome
  | .restart id _ _ => r.stats.conf.limitHours < id

def Safe (r : Run) (event : Event) : Prop := r.Regular event ∧ r.Lossless event

/-- The current unit has the count of its hour, the file has the counts of the earlier
hours of the window, and nothing belongs to a later hour. -/
structure Conserved (r : Run) : Prop where
  isOpen : r.stats.isOpen = true
  counts : r.stats.curr.Counts
  valid : validateIvl r.stats.conf.limit = none
  current : r.stats.curr.nTotal = BitVec.ofNat 64 (r.passed.count r.stats.curr.id)
  stored : ∀ id, id < r.stats.curr.id →
    r.stats.curr.id.toNat < id.toNat + r.stats.conf.limitHours.toNat →
    ((r.stats.file.get id).map UnitDB.nTotal).getD 0 = BitVec.ofNat 64 (r.passed.count id)
  noneLater : ∀ id, r.stats.curr.id < id → r.stats.file.get id = none
  passedBefore : ∀ id ∈ r.passed, id ≤ r.stats.curr.id

theorem validateIvl_positive {conf : Config} (valid : validateIvl conf.limit = none) :
    conf.limitHours ≠ 0 := by
  apply conf.positive
  by_contra short
  simp [validateIvl, Int.not_le.mp short] at valid

variable {id : UnitID} {r : Run}

private theorem count_later (conserved : r.Conserved)
    (later : r.stats.curr.id < id) : r.passed.count id = 0 := by
  apply List.count_eq_zero.mpr
  intro member
  exact absurd later (BitVec.not_lt.mpr (conserved.passedBefore id member))

theorem Conserved.update (conserved : r.Conserved) {e : Entry}
    (safe : r.Safe (.update e)) : (machine.next r (.update e)).Conserved := by
  have limited : ¬ r.stats.conf.limit = 0 := by
    intro zero
    have valid := conserved.valid
    simp [validateIvl, zero, hour] at valid
  cases validity : e.validate with
  | some error =>
    have same : machine.next r (.update e) = r := by
      simp [Transition.Machine.next, machine, step, StatsCtx.step, StatsCtx.update, validity]
    rwa [same]
  | none =>
    obtain ⟨enabled, nonneg⟩ := safe.1 validity
    obtain ⟨curr, added⟩ := Option.isSome_iff_exists.mp
      (Unit.add_isSome conserved.counts validity nonneg)
    obtain ⟨sameID, total, counts⟩ := Unit.add_spec added
    have next : machine.next r (.update e) =
        ⟨{ r.stats with curr }, r.passed ++ [r.stats.curr.id]⟩ := by
      simp [Transition.Machine.next, machine, step, StatsCtx.step, StatsCtx.update, validity,
        enabled, limited, added]
    rw [next]
    refine ⟨conserved.isOpen, counts conserved.counts, conserved.valid, ?_, ?_, ?_, ?_⟩
    · simp only [total, sameID, conserved.current, List.count_append, List.count_singleton_self]
      rw [BitVec.ofNat_add]
      rfl
    · intro id earlier recent
      simp only [sameID] at earlier recent
      have other : ¬ r.stats.curr.id = id := by
        rintro rfl
        exact BitVec.lt_irrefl _ earlier
      simpa [List.count_append, List.count_singleton, other] using
        conserved.stored id earlier recent
    · simpa [sameID] using conserved.noneLater
    · intro id member
      simp only [sameID]
      rcases List.mem_append.mp member with old | fresh
      · exact conserved.passedBefore id old
      · rw [List.mem_singleton.mp fresh]
        exact BitVec.le_refl _

/-- The file after a flush that completes. -/
private theorem flushDB_completed {s : StatsCtx} (orders : MapOrders) {outcome : TxOutcome}
    (isOpen : s.isOpen = true) (begins : outcome.begins = true) (completes : Completes s id outcome)
    (moved : s.curr.id ≠ id) :
    ∃ file, s.flushDB id s.conf.limitHours s.curr orders outcome =
        { s with curr := newUnit id, file } ∧
      (∀ other, other ≠ id - s.conf.limitHours → file.get other =
        if other = s.curr.id then some (s.curr.serialize orders) else s.file.get other) ∧
      ∀ other, other ≠ s.curr.id → s.file.get other = none → file.get other = none := by
  obtain ⟨puts, commits, deletes⟩ := completes begins moved
  have written : ∀ other, (s.file.set s.curr.id (s.curr.serialize orders)).get other =
      if other = s.curr.id then some (s.curr.serialize orders) else s.file.get other :=
    fun other => FiniteMap.get_set _ _ _ _
  simp only [flushDB, isOpen, begins, flushUnitToDB, puts, finishTxn, commits, Bool.not_true,
    Bool.false_eq_true, ↓reduceIte, Bool.true_and, Bool.and_true]
  cases target : (s.file.set s.curr.id (s.curr.serialize orders)).get (id - s.conf.limitHours) with
  | none =>
    refine ⟨_, rfl, fun other _ => written other, ?_⟩
    intro other different missing
    simp only [↓reduceIte]
    rw [written, if_neg different, missing]
  | some old =>
    have deletes : outcome.deletes = true := by
      rcases deletes with deletes | ⟨other, missing⟩
      · exact deletes
      · simp [written, other, missing] at target
    simp only [deletes, ↓reduceIte]
    refine ⟨_, rfl, ?_, ?_⟩
    · intro other kept
      rw [FiniteMap.get_delete, if_neg kept, written]
    · intro other different missing
      rw [FiniteMap.get_delete, written, if_neg different, missing, ite_self]

/-- Once the current unit is written, the file has the counts of every hour of a later
window. -/
private theorem Conserved.written_stored (conserved : r.Conserved) {id old : UnitID}
    (monotone : r.stats.curr.id ≤ id) (orders : MapOrders)
    (recent : id.toNat < old.toNat + r.stats.conf.limitHours.toNat) :
    ((if old = r.stats.curr.id then some (r.stats.curr.serialize orders)
      else r.stats.file.get old).map UnitDB.nTotal).getD 0 =
        BitVec.ofNat 64 (r.passed.count old) := by
  by_cases own : old = r.stats.curr.id
  · subst own
    simp [conserved.current]
  rw [if_neg own]
  by_cases before : old < r.stats.curr.id
  · have still : r.stats.curr.id.toNat < old.toNat + r.stats.conf.limitHours.toNat :=
      Nat.lt_of_le_of_lt (BitVec.le_def.mp monotone) recent
    exact conserved.stored old before still
  · have between : r.stats.curr.id < old :=
      BitVec.lt_of_le_ne (BitVec.not_lt.mp before) (Ne.symm own)
    simp [conserved.noneLater old between, count_later conserved between]

private theorem ne_deleted {h id limit : BitVec 32} (earlier : h < id)
    (recent : id.toNat < h.toNat + limit.toNat) : h ≠ id - limit := by
  rintro rfl
  rw [BitVec.lt_def, BitVec.toNat_sub] at earlier
  rw [BitVec.toNat_sub] at recent
  omega

theorem Conserved.flush (conserved : r.Conserved) {orders : MapOrders} {outcome : TxOutcome}
    (safe : r.Safe (.flush id orders outcome)) :
    (machine.next r (.flush id orders outcome)).Conserved := by
  obtain ⟨monotone, completes⟩ := safe
  have unchanged : ∀ s : StatsCtx, s = r.stats → (⟨s, r.passed⟩ : Run).Conserved := by
    rintro s rfl
    exact conserved
  have positive := validateIvl_positive conserved.valid
  change (⟨r.stats.flush id orders outcome, r.passed⟩ : Run).Conserved
  by_cases same : r.stats.curr.id = id
  · exact unchanged _ (by simp [StatsCtx.flush, same])
  by_cases begins : outcome.begins = true
  swap
  · exact unchanged _ (by simp [StatsCtx.flush, flushDB, same, begins])
  obtain ⟨file, flushed, written, unwritten⟩ :=
    flushDB_completed orders conserved.isOpen begins completes same
  have later : r.stats.curr.id < id := BitVec.lt_of_le_ne monotone same
  have next : r.stats.flush id orders outcome = { r.stats with curr := newUnit id, file } := by
    simp only [StatsCtx.flush, positive, same, or_self, ↓reduceIte, flushed]
  rw [next]
  refine ⟨conserved.isOpen, Unit.counts_newUnit id, conserved.valid, ?_, ?_, ?_, ?_⟩
  · simp [newUnit, count_later conserved later]
  · intro old earlier recent
    rw [written old (ne_deleted earlier recent)]
    exact conserved.written_stored monotone orders recent
  · intro future beyond
    have beyondOld : r.stats.curr.id < future := BitVec.lt_trans later beyond
    exact unwritten future (BitVec.ne_of_lt beyondOld).symm (conserved.noneLater future beyondOld)
  · intro old member
    exact BitVec.le_trans (conserved.passedBefore old member) monotone

private theorem close_success {s : StatsCtx} (isOpen : s.isOpen = true) (orders : MapOrders) :
    s.close orders .success = { s with
      isOpen := false
      file := s.file.set s.curr.id (s.curr.serialize orders) } := by
  simp [close, isOpen, TxOutcome.success, flushUnitToDB, finishTxn]

/-- The oldest hours that a restart deletes are outside of the window. -/
private theorem get_deleteOldUnits (file : Database) {id limit : BitVec 32}
    (missed : UnitID → Bool) (large : limit < id) :
    (∀ old, id.toNat < old.toNat + limit.toNat →
      (deleteOldUnits file (id - limit - 1) missed).get old = file.get old) ∧
    ∀ old, file.get old = none → (deleteOldUnits file (id - limit - 1) missed).get old = none := by
  constructor
  · intro old recent
    have kept : ¬ old < id - limit - 1 := by
      rw [BitVec.lt_def] at large ⊢
      have positive : 1 ≤ (id - limit).toNat := by
        rw [BitVec.toNat_sub_of_le (BitVec.le_of_lt (BitVec.lt_def.mpr large))]
        omega
      rw [BitVec.toNat_sub_of_le (BitVec.le_def.mpr (by simpa using positive)),
        BitVec.toNat_sub_of_le (BitVec.le_of_lt (BitVec.lt_def.mpr large))]
      omega
    rw [deleteOldUnits, FiniteMap.get_deleteAll, if_neg]
    intro member
    have older := (List.mem_filter.mp member).2
    simp only [Bool.and_eq_true, decide_eq_true_eq] at older
    exact kept older.1
  · intro old missing
    rw [deleteOldUnits, FiniteMap.get_deleteAll, missing, ite_self]

theorem Conserved.restart (conserved : r.Conserved) {orders : MapOrders} {missed : UnitID → Bool}
    (safe : r.Safe (.restart id orders missed)) :
    (machine.next r (.restart id orders missed)).Conserved := by
  obtain ⟨monotone, large⟩ := safe
  let file := r.stats.file.set r.stats.curr.id (r.stats.curr.serialize orders)
  let limit := r.stats.conf.limitHours
  let kept := deleteOldUnits file (id - limit - 1) missed
  have written : ∀ other, file.get other =
      if other = r.stats.curr.id then some (r.stats.curr.serialize orders)
      else r.stats.file.get other := fun other => FiniteMap.get_set _ _ _ _
  obtain ⟨recentKept, missingKept⟩ := get_deleteOldUnits file missed large
  have next : machine.next r (.restart id orders missed) =
      ⟨⟨r.stats.conf, (newUnit id).deserialize (kept.get id), true, kept⟩, r.passed⟩ := by
    simp [Transition.Machine.next, machine, step, StatsCtx.step, close_success conserved.isOpen,
      new, conserved.valid, kept, file, limit]
  obtain ⟨sameID, total, counts⟩ := (newUnit id).deserialize_spec (kept.get id)
  have noneAfter : ∀ future, r.stats.curr.id < future → kept.get future = none := by
    intro future beyond
    apply missingKept
    rw [written, if_neg (BitVec.ne_of_lt beyond).symm, conserved.noneLater future beyond]
  have positive : 0 < limit.toNat := by
    have nonzero := validateIvl_positive conserved.valid
    rw [ne_eq, ← BitVec.toNat_inj] at nonzero
    simpa [Nat.pos_iff_ne_zero] using nonzero
  rw [next]
  refine ⟨rfl, counts (Unit.counts_newUnit id), conserved.valid, ?_, ?_, ?_, ?_⟩
  · simp only [sameID, total]
    by_cases same : id = r.stats.curr.id
    · rw [recentKept id (Nat.lt_add_of_pos_right positive), written, if_pos same]
      simpa [newUnit, same] using conserved.current
    · have later := BitVec.lt_of_le_ne monotone (Ne.symm same)
      simp [noneAfter id later, newUnit, count_later conserved later]
  · intro old _ recent
    simp only [sameID] at recent
    rw [recentKept old recent, written]
    exact conserved.written_stored monotone orders recent
  · intro future beyond
    simp only [sameID] at beyond
    exact noneAfter future (Nat.lt_of_le_of_lt monotone beyond)
  · intro old member
    simp only [sameID]
    exact BitVec.le_trans (conserved.passedBefore old member) monotone

private theorem mem_unitIDs {limit curID id : BitVec 32} (positive : limit ≠ 0) :
    id ∈ unitIDs (curID - limit + 1) curID ↔
      id ≠ curID ∧ (curID - id).toNat < limit.toNat := by
  have nonzero : 0 < limit.toNat := by
    rw [ne_eq, ← BitVec.toNat_inj] at positive
    simpa [Nat.pos_iff_ne_zero] using positive
  have one : (1 : BitVec 32).toNat = 1 := rfl
  have boundLimit := limit.isLt
  have boundCur := curID.isLt
  have boundID := id.isLt
  simp only [unitIDs, List.mem_map, List.mem_range, ne_eq, ← BitVec.toNat_inj, BitVec.toNat_sub,
    BitVec.toNat_add, BitVec.toNat_ofNat, one]
  constructor
  · rintro ⟨i, bound, same⟩
    omega
  · rintro ⟨different, recent⟩
    refine ⟨(id - (curID - limit + 1)).toNat, ?_, ?_⟩ <;>
      simp only [BitVec.toNat_sub, BitVec.toNat_add, one] <;> omega

private theorem nodup_unitIDs (firstID curID : UnitID) : (unitIDs firstID curID).Nodup := by
  apply List.Nodup.map_on _ List.nodup_range
  intro i first j second same
  rw [List.mem_range] at first second
  rw [← BitVec.toNat_inj] at same
  simp only [BitVec.toNat_add, BitVec.toNat_ofNat] at same
  have boundI := (curID - firstID).isLt
  omega

private theorem sum_ofNat (counts : List Nat) :
    (counts.map (BitVec.ofNat 64)).sum = BitVec.ofNat 64 counts.sum := by
  induction counts with
  | nil => rfl
  | cons first rest ih => rw [List.map_cons, List.sum_cons, ih, List.sum_cons, BitVec.ofNat_add]

private theorem mem_window {limit curID id : BitVec 32} (positive : limit ≠ 0)
    (before : id ≤ curID) :
    inWindow curID limit id = true ↔ id ∈ curID :: unitIDs (curID - limit + 1) curID := by
  have nonzero : 0 < limit.toNat := by
    rw [ne_eq, ← BitVec.toNat_inj] at positive
    simpa [Nat.pos_iff_ne_zero] using positive
  rw [List.mem_cons, mem_unitIDs positive, BitVec.toNat_sub_of_le before]
  simp only [inWindow, before, decide_true, Bool.true_and, decide_eq_true_eq]
  rw [BitVec.le_def] at before
  constructor
  · intro recent
    by_cases same : id = curID
    · exact .inl same
    · exact .inr ⟨same, by omega⟩
  · rintro (rfl | ⟨_, recent⟩) <;> omega

theorem Conserved.reported (conserved : r.Conserved) (orders : MapOrders) :
    r.reported orders = BitVec.ofNat 64 r.passedInWindow := by
  have positive := validateIvl_positive conserved.valid
  have distinct : (r.stats.curr.id ::
      unitIDs (r.stats.curr.id - r.stats.conf.limitHours + 1) r.stats.curr.id).Nodup := by
    refine List.nodup_cons.mpr ⟨?_, nodup_unitIDs _ _⟩
    rw [mem_unitIDs positive]
    simp
  have storedTotal : ∀ id ∈ unitIDs (r.stats.curr.id - r.stats.conf.limitHours + 1) r.stats.curr.id,
      ((r.stats.file.get id).map UnitDB.nTotal).getD 0 = BitVec.ofNat 64 (r.passed.count id) := by
    intro id member
    obtain ⟨different, recent⟩ := (mem_unitIDs positive).mp member
    by_cases before : id < r.stats.curr.id
    · apply conserved.stored id before
      rw [BitVec.toNat_sub_of_le (BitVec.le_of_lt before)] at recent
      have order := BitVec.lt_def.mp before
      omega
    · have later := BitVec.lt_of_le_ne (BitVec.not_lt.mp before) (Ne.symm different)
      simp [conserved.noneLater id later, count_later conserved later]
  have window : r.passedInWindow = r.passed.countP fun id =>
      id ∈ r.stats.curr.id ::
        unitIDs (r.stats.curr.id - r.stats.conf.limitHours + 1) r.stats.curr.id := by
    apply List.countP_congr
    intro id member
    rw [decide_eq_true_iff]
    exact mem_window positive (conserved.passedBefore id member)
  have units : r.reported orders =
      ((unitIDs (r.stats.curr.id - r.stats.conf.limitHours + 1) r.stats.curr.id).map fun id =>
        ((r.stats.file.get id).map UnitDB.nTotal).getD 0).sum + r.stats.curr.nTotal := by
    simp only [Run.reported, numDNSQueries, loadUnits, List.map_append, List.map_map,
      List.sum_append, List.map_cons, List.map_nil, List.sum_cons, List.sum_nil, add_zero,
      Unit.serialize_nTotal]
    congr 2
    apply List.map_congr_left
    intro id _
    rw [Function.comp_apply]
    cases r.stats.file.get id <;> rfl
  rw [units, window, ← Tally.sum_count _ _ distinct, List.map_congr_left storedTotal,
    conserved.current, List.map_cons, List.sum_cons, BitVec.add_comm, BitVec.ofNat_add,
    ← sum_ofNat, List.map_map]
  rfl

theorem Conserved.start {conf : Config} {missed : UnitID → Bool} {s : StatsCtx}
    (opened : new conf ∅ id missed = .ok s) :
    s.conf = conf ∧ (⟨s, []⟩ : Run).Conserved := by
  have nothing : ∀ other, (deleteOldUnits ∅ (id - conf.limitHours - 1) missed).get other = none := by
    intro other
    rw [deleteOldUnits, FiniteMap.get_deleteAll, FiniteMap.get_empty, ite_self]
  unfold new at opened
  split at opened
  · cases opened
  rename_i valid
  dsimp only at opened
  generalize deleteOldUnits ∅ (id - conf.limitHours - 1) missed = file at nothing opened
  cases opened
  refine ⟨rfl, rfl, ?_, valid, ?_, ?_, ?_, ?_⟩
  · simpa [nothing, Unit.deserialize] using Unit.counts_newUnit id
  · simp [nothing, Unit.deserialize, newUnit]
  · intro other _ _
    simp [nothing]
  · intro other _
    exact nothing other
  · simp

theorem Conserved.next (r : Run) (event : Event) (conserved : r.Conserved) (safe : r.Safe event) :
    (machine.next r event).Conserved := by
  cases event with
  | update e => exact conserved.update safe
  | flush id orders outcome => exact conserved.flush safe
  | restart id orders missed => exact conserved.restart safe

/-- In every run of safe events the report over the limit counts, modulo the width of
the counter, the valid entries passed in the hours it covers. -/
theorem report_counts_passed {conf : Config} {id : UnitID} {missed : UnitID → Bool}
    {s : StatsCtx} (opened : new conf ∅ id missed = .ok s) {events : List Event}
    (safe : machine.Allowed Safe ⟨s, []⟩ events) (orders : MapOrders) :
    (machine.run ⟨s, []⟩ events).reported orders =
      BitVec.ofNat 64 (machine.run ⟨s, []⟩ events).passedInWindow :=
  (machine.run_invariant Conserved Conserved.next (Conserved.start opened).2 safe).reported orders

section Examples

private def oneDay : Config := ⟨day, 24, true, fun _ => by decide⟩

private def lookup : Entry := ⟨"192.0.2.1", "example.org", [], rNotFiltered, 1500000⟩

private def opened : StatsCtx :=
  { conf := oneDay, curr := newUnit 1000, isOpen := true, file := ∅ }

private def flushes (commits : Bool) : List Event :=
  [.update lookup, .flush 1001 .inserted ⟨true, true, true, commits⟩]

private theorem oneHourLater : (1000 : UnitID) ≤ 1001 := by decide

theorem report_counts_passed_one :
    (machine.run ⟨opened, []⟩ (flushes true)).reported .inserted =
      BitVec.ofNat 64 (machine.run ⟨opened, []⟩ (flushes true)).passedInWindow :=
  @report_counts_passed oneDay 1000 (fun _ => false) opened rfl (flushes true)
    ⟨⟨fun _ => ⟨rfl, by decide⟩, trivial⟩, ⟨oneHourLater, fun _ _ => ⟨rfl, rfl, .inl rfl⟩⟩, trivial⟩
    .inserted

/-- One entry, and a commit that fails at the end of its hour: the report is empty. -/
theorem failed_commit_loses_entry :
    ¬ ∀ (conf : Config) (id : UnitID) (s : StatsCtx) (events : List Event),
      new conf ∅ id (fun _ => false) = .ok s → machine.Allowed Regular ⟨s, []⟩ events →
      (machine.run ⟨s, []⟩ events).reported .inserted =
        BitVec.ofNat 64 (machine.run ⟨s, []⟩ events).passedInWindow := by
  intro conserves
  have regular : machine.Allowed Regular ⟨opened, []⟩ (flushes false) :=
    ⟨fun _ => ⟨rfl, by decide⟩, oneHourLater, trivial⟩
  have wrong := conserves oneDay 1000 opened (flushes false) rfl regular
  revert wrong
  decide

end Examples

end Run

end AdGuardHome.Stats
