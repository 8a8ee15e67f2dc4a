import AdGuardHome.Filtering.ListStore

namespace AdGuardHome.Filtering

open RuleList Strings

theorem Outcome.eq_of {o o' : Outcome} (updated : o.isUpdated = o'.isUpdated)
    (error : o.isError = o'.isError) : o = o' := by
  cases o <;> cases o' <;> simp [Outcome.isUpdated, Outcome.isError] at updated error ⊢

/-- How an update ends, by its outcome. -/
inductive Updates (disk : Disk) (flt : FilterYAML) (d : Download) : Outcome → Updated → Prop where
  | failed (err : UpdateError) :
      Updates disk flt d .failed ⟨{ flt with lastUpdated := d.now }, disk, false, some err⟩
  | unchanged (res : Parser) (parsed : d.parsed = some res) (same : res.checksum = flt.checksum) :
      Updates disk flt d .unchanged ⟨{ flt with lastUpdated := d.now }, disk, false, none⟩
  | replaceFailed :
      Updates disk flt d .replaceFailed
        ⟨{ flt with lastUpdated := d.now }, disk, true, some .finalizing⟩
  | replaced (res : Parser) (parsed : d.parsed = some res) :
      Updates disk flt d .replaced
        ⟨{ flt.loaded res with lastUpdated := d.now }, disk.set flt.id res.dst, true, none⟩

theorem update_by_outcome (disk : Disk) (flt : FilterYAML) (d : Download) :
    Updates disk flt d (d.outcome flt.checksum) (update disk flt d) := by
  obtain ⟨updated, error⟩ := update_outcome disk flt d
  have updating := update_cases disk flt d
  generalize update disk flt d = u at updating updated error ⊢
  cases updating with
  | failed err =>
    have outcome : d.outcome flt.checksum = .failed := Outcome.eq_of updated.symm error.symm
    exact outcome ▸ .failed err
  | unchanged res parsed same =>
    have outcome : d.outcome flt.checksum = .unchanged := Outcome.eq_of updated.symm error.symm
    exact outcome ▸ .unchanged res parsed same
  | replaceFailed =>
    have outcome : d.outcome flt.checksum = .replaceFailed := Outcome.eq_of updated.symm error.symm
    exact outcome ▸ .replaceFailed
  | replaced res parsed =>
    have outcome : d.outcome flt.checksum = .replaced := Outcome.eq_of updated.symm error.symm
    exact outcome ▸ .replaced res parsed

theorem withProperties_checksum (old newList : FilterYAML) :
    (old.withProperties newList).checksum = if old.url = newList.url then old.checksum else 0 := by
  unfold FilterYAML.withProperties
  by_cases same : old.url = newList.url <;> simp [same, FilterYAML.unload]

/-- The list has contents just downloaded: they are in its file, and its count and checksum
are theirs. -/
def Holds (disk : Disk) (flt : FilterYAML) (d : Download) : Prop :=
  ∃ res, d.parsed = some res ∧ disk.get flt.id = some res.dst ∧ flt.Describes res

structure Transaction (disk : Disk) (old newList : FilterYAML) (d : Download) (r : SetResult) :
    Prop where
  kept : r.err ≠ none → r.flt = old ∧ r.disk = disk
  stored : r.err = none → newList.enabled = true → old.restarts newList = true →
    Holds r.disk r.flt d

/-- What an edit that comes to update the list has to meet. With a new URL the old checksum
and count are gone: an error does not bring the checksum back, and contents with the checksum
zero are taken for those that are there. -/
def Safe (disk : Disk) (old newList : FilterYAML) (d : Download) : Prop :=
  let flt := old.withProperties newList
  match d.outcome flt.checksum with
  | .failed | .replaceFailed => old.url = newList.url ∨ old.checksum = 0
  | .unchanged => ∀ res, d.parsed = some res →
    disk.get old.id = some res.dst ∧ res.rulesCount = flt.rulesCount
  | .replaced => True

theorem rollback_eq_iff (old newList : FilterYAML) (now : Int) :
    FilterYAML.rollback { old.withProperties newList with lastUpdated := now } old = old ↔
      old.url = newList.url ∨ old.checksum = 0 := by
  have checksum := withProperties_checksum old newList
  have rolled : FilterYAML.rollback { old.withProperties newList with lastUpdated := now } old =
      { old with checksum := (old.withProperties newList).checksum } := by
    simp only [FilterYAML.rollback, FilterYAML.withProperties]
    split <;> rfl
  rw [rolled, checksum]
  constructor
  · intro same
    have sums := congrArg FilterYAML.checksum same
    by_cases url : old.url = newList.url
    · exact .inl url
    · exact .inr (by simpa [url] using sums.symm)
  · rintro (url | zero)
    · rw [if_pos url]
    · rw [zero, ite_self, ← zero]

def ComesToUpdate (exists_ : Bool) (old newList : FilterYAML) : Prop :=
  ¬ (old.url ≠ newList.url ∧ exists_ = true) ∧ newList.enabled = true ∧
    old.restarts newList = true

/-- An edit that comes to update the list is a transaction iff it is safe. -/
theorem transaction_of_comes {exists_ : Bool} {old newList : FilterYAML}
    (comes : ComesToUpdate exists_ old newList) (disk : Disk) (d : Download) :
    Transaction disk old newList d (setProperties exists_ disk old newList d) ↔
      Safe disk old newList d := by
  obtain ⟨free, on, restarts⟩ := comes
  have enabled : (old.withProperties newList).enabled = true := on
  have updates := update_by_outcome disk (old.withProperties newList) d
  simp only [setProperties, if_neg free, enabled, restarts, Bool.not_true, Bool.false_eq_true,
    ↓reduceIte, Safe]
  generalize update disk (old.withProperties newList) d = u at updates ⊢
  generalize d.outcome (old.withProperties newList).checksum = outcome at updates ⊢
  cases updates with
  | failed err =>
    rw [← rollback_eq_iff old newList d.now]
    exact ⟨fun whole => (whole.kept (by simp)).1, fun same => ⟨fun _ => ⟨same, rfl⟩, by simp⟩⟩
  | replaceFailed =>
    rw [← rollback_eq_iff old newList d.now]
    exact ⟨fun whole => (whole.kept (by simp)).1, fun same => ⟨fun _ => ⟨same, rfl⟩, by simp⟩⟩
  | unchanged res parsed same =>
    constructor
    · intro whole res' parsed'
      obtain ⟨found, parsed'', file, describes⟩ := whole.stored rfl on restarts
      obtain rfl := Option.some.inj (parsed'.symm.trans parsed'')
      exact ⟨withProperties_id old newList ▸ file, describes.2.symm⟩
    · intro safe
      obtain ⟨file, count⟩ := safe res parsed
      refine ⟨fun failed => absurd rfl failed, fun _ _ _ => ⟨res, parsed, ?_, same.symm, count.symm⟩⟩
      exact (withProperties_id old newList).symm ▸ file
  | replaced res parsed =>
    have sameId : ((old.withProperties newList).loaded res).id = (old.withProperties newList).id :=
      congrArg (·.1) ((old.withProperties newList).ensureName_identity res.title)
    refine ⟨fun _ => trivial, fun _ => ⟨fun failed => absurd rfl failed, fun _ _ _ => ?_⟩⟩
    refine ⟨res, parsed, ?_, rfl, rfl⟩
    change FiniteMap.get _ ((old.withProperties newList).loaded res).id = _
    rw [sameId, FiniteMap.get_set_self]

/-- An edit of a list is a transaction iff it is safe where it comes to update the list. -/
theorem transaction_iff (exists_ : Bool) (disk : Disk) (old newList : FilterYAML) (d : Download) :
    Transaction disk old newList d (setProperties exists_ disk old newList d) ↔
      (ComesToUpdate exists_ old newList → Safe disk old newList d) := by
  by_cases comes : ComesToUpdate exists_ old newList
  · rw [transaction_of_comes comes]
    exact ⟨fun safe _ => safe, fun safe => safe comes⟩
  · refine ⟨fun _ comes' => absurd comes' comes, fun _ => ?_⟩
    unfold setProperties
    by_cases clash : old.url ≠ newList.url ∧ exists_ = true
    · rw [if_pos clash]
      exact ⟨fun _ => ⟨rfl, rfl⟩, fun done => by cases done⟩
    · have enabled : (old.withProperties newList).enabled = newList.enabled := rfl
      rw [if_neg clash]
      simp only [enabled]
      cases on : newList.enabled with
      | false => exact ⟨fun failed => absurd rfl failed, fun _ off => absurd off (by simp [on])⟩
      | true =>
        cases restarts : old.restarts newList with
        | false =>
          exact ⟨fun failed => absurd rfl failed, fun _ _ again => absurd again (by simp [restarts])⟩
        | true => exact absurd ⟨clash, on, restarts⟩ comes

namespace Lists

def Finds (s : Lists) (listURL : Bytes) (isAllowlist : Bool) (i : Nat) (old : FilterYAML) : Prop :=
  (s.array isAllowlist).findIdx? (·.url == listURL) = some i ∧ (s.array isAllowlist)[i]? = some old

/-- `filterSetProperties` is atomic: after an error all lists and files are as before, and
an enabled list whose URL or enabled flag was changed holds what was downloaded. -/
structure Atomic (s : Lists) (listURL : Bytes) (newList : FilterYAML) (isAllowlist : Bool)
    (d : Download) : Prop where
  kept : (s.filterSetProperties listURL newList isAllowlist d).2.2 ≠ none →
    (s.filterSetProperties listURL newList isAllowlist d).1 = s
  stored : (s.filterSetProperties listURL newList isAllowlist d).2.2 = none →
    ∀ i old, s.Finds listURL isAllowlist i old → newList.enabled = true →
      old.restarts newList = true →
        ∃ flt, ((s.filterSetProperties listURL newList isAllowlist d).1.array isAllowlist)[i]? =
            some flt ∧
          Holds (s.filterSetProperties listURL newList isAllowlist d).1.disk flt d

variable {isAllowlist : Bool} {old : FilterYAML} {s : Lists}

theorem filterSetProperties_of_finds {listURL : Bytes} {i : Nat}
    (finds : s.Finds listURL isAllowlist i old) (newList : FilterYAML) (d : Download) :
    s.filterSetProperties listURL newList isAllowlist d =
      let r := setProperties (s.filterExists newList.url) s.disk old newList d
      ({ s.setArray isAllowlist ((s.array isAllowlist).set i r.flt) with disk := r.disk },
        r.shouldRestart, r.err) := by
  simp only [filterSetProperties, finds.1, finds.2]

/-- Writing a list to its place changes nothing iff it is the one that is there. -/
theorem setArray_set_eq_iff {i : Nat} (here : (s.array isAllowlist)[i]? = some old)
    (flt : FilterYAML) (disk : Disk) :
    { s.setArray isAllowlist ((s.array isAllowlist).set i flt) with disk } = s ↔
      flt = old ∧ disk = s.disk := by
  obtain ⟨inside, here⟩ := List.getElem?_eq_some_iff.mp here
  have arrays : (s.array isAllowlist).set i flt = s.array isAllowlist ↔ flt = old := by
    rw [← here]
    constructor
    · intro same
      have there := congrArg (·[i]?) same
      simpa [inside] using there
    · intro same
      rw [same, List.set_getElem_self]
  rw [← arrays]
  obtain ⟨filters, whitelistFilters, files⟩ := s
  cases isAllowlist <;> simp [setArray, array]

theorem array_setArray_set {i : Nat} (here : (s.array isAllowlist)[i]? = some old)
    (flt : FilterYAML) (disk : Disk) :
    (({ s.setArray isAllowlist ((s.array isAllowlist).set i flt) with disk } : Lists).array
      isAllowlist)[i]? = some flt := by
  obtain ⟨inside, -⟩ := List.getElem?_eq_some_iff.mp here
  cases isAllowlist <;> exact List.getElem?_set_self inside

/-- The list that is found is the only one. -/
theorem Finds.unique {listURL : Bytes} {i j : Nat} {old other : FilterYAML}
    (finds : s.Finds listURL isAllowlist i old)
    (finds' : s.Finds listURL isAllowlist j other) : i = j ∧ old = other := by
  obtain rfl := Option.some.inj (finds.1.symm.trans finds'.1)
  exact ⟨rfl, Option.some.inj (finds.2.symm.trans finds'.2)⟩

/-- For the list that is found, an atomic edit is a transaction. -/
theorem atomic_iff_transaction {listURL : Bytes} {i : Nat}
    (finds : s.Finds listURL isAllowlist i old) (newList : FilterYAML) (d : Download) :
    s.Atomic listURL newList isAllowlist d ↔
      Transaction s.disk old newList d
        (setProperties (s.filterExists newList.url) s.disk old newList d) := by
  have result := filterSetProperties_of_finds finds newList d
  generalize setProperties (s.filterExists newList.url) s.disk old newList d = r at result ⊢
  simp only at result
  have placed := array_setArray_set finds.2 r.flt r.disk
  constructor
  · rintro ⟨kept, stored⟩
    rw [result] at kept stored
    refine ⟨fun failed => (setArray_set_eq_iff finds.2 r.flt r.disk).mp (kept failed), ?_⟩
    intro done on restarts
    obtain ⟨flt, there, holds⟩ := stored done i old finds on restarts
    obtain rfl := Option.some.inj (placed.symm.trans there)
    exact holds
  · rintro ⟨kept, stored⟩
    constructor
    · intro failed
      rw [result] at failed ⊢
      exact (setArray_set_eq_iff finds.2 r.flt r.disk).mpr (kept failed)
    · intro done j other finds' on restarts
      obtain ⟨rfl, rfl⟩ := finds.unique finds'
      rw [result] at done ⊢
      exact ⟨r.flt, placed, stored done on restarts⟩

end Lists

/-- An edit is atomic iff it is safe wherever it comes to update the list it is about. -/
theorem filterSetProperties_atomic_iff (s : Lists) (listURL : Bytes) (newList : FilterYAML)
    (isAllowlist : Bool) (d : Download) :
    s.Atomic listURL newList isAllowlist d ↔
      ∀ i old, s.Finds listURL isAllowlist i old →
        ComesToUpdate (s.filterExists newList.url) old newList → Safe s.disk old newList d := by
  by_cases found : ∃ i old, s.Finds listURL isAllowlist i old
  · obtain ⟨i, old, finds⟩ := found
    rw [Lists.atomic_iff_transaction finds, transaction_iff]
    constructor
    · intro safe j other finds'
      obtain ⟨rfl, rfl⟩ := finds.unique finds'
      exact safe
    · intro safe
      exact safe i old finds
  · refine ⟨fun _ i old finds => absurd ⟨i, old, finds⟩ found, fun _ => ?_⟩
    have absent : (s.array isAllowlist).findIdx? (·.url == listURL) = none := by
      refine Option.eq_none_iff_forall_ne_some.mpr fun i index => found ?_
      obtain ⟨inside, -⟩ := List.findIdx?_eq_some_iff_getElem.mp index
      exact ⟨i, _, index, List.getElem?_eq_getElem inside⟩
    have result : s.filterSetProperties listURL newList isAllowlist d =
        (s, false, some .filterNotExist) := by
      simp only [Lists.filterSetProperties, absent]
    constructor
    · intro _
      rw [result]
    · intro done
      rw [result] at done
      cases done

/-- A list that moves to an address with no rules keeps the file of the old address, and one
whose new address cannot be read loses its checksum. -/
theorem moved_list_is_not_atomic :
    let old : FilterYAML := ⟨true, lit "a", lit "n", 1, 0, crcUpdate 0 (lit "r"), false, 1⟩
    let s : Lists := ⟨[old], [], FiniteMap.set ∅ 1 (lit "r\n")⟩
    let moved := { old with url := lit "b" }
    let empty : Download := ⟨true, some [], true, true, 5⟩
    let unread : Download := ⟨true, none, true, true, 5⟩
    (s.filterSetProperties (lit "a") moved false unread).1.filters = [{ old with checksum := 0 }] ∧
      ¬ s.Atomic (lit "a") moved false unread ∧
    (s.filterSetProperties (lit "a") moved false empty).2.2 = none ∧
    (s.filterSetProperties (lit "a") moved false empty).1.disk.get 1 = some (lit "r\n") ∧
      ¬ s.Atomic (lit "a") moved false empty := by
  intro old s moved empty unread
  refine ⟨by decide +kernel, ?_, by decide +kernel, by decide +kernel, ?_⟩
  · intro atomic
    have kept := congrArg Lists.filters (atomic.kept (by decide +kernel))
    revert kept
    decide +kernel
  · intro atomic
    obtain ⟨flt, there, res, parsed, file, -⟩ := atomic.stored (by decide +kernel) 0 old
      ⟨by decide +kernel, rfl⟩ rfl (by decide +kernel)
    have same : flt = { moved with rulesCount := 0, lastUpdated := 5, checksum := 0 } := by
      refine Option.some.inj (there.symm.trans ?_)
      decide +kernel
    have nothing : res.dst = [] := by
      have read : empty.parsed = some newParser := by decide +kernel
      rw [read] at parsed
      rw [← Option.some.inj parsed]
      rfl
    rw [same, nothing] at file
    revert file
    decide +kernel

end AdGuardHome.Filtering
