import AdGuardHome.Filtering.FilterList
import AdGuardHome.Lib.SecondaryIndex

namespace AdGuardHome.Filtering

open RuleList Strings

def Download.parsed (d : Download) : Option Parser :=
  match d.body with
  | none => none
  | some body =>
    match parse body with
    | .error _ => none
    | .ok res => some res

namespace FilterYAML

def loaded (flt : FilterYAML) (res : Parser) : FilterYAML :=
  { flt.ensureName res.title with checksum := res.checksum, rulesCount := res.rulesCount }

def identity (flt : FilterYAML) : ListID × Bytes × Bool × Bool :=
  (flt.id, flt.url, flt.enabled, flt.white)

theorem ensureName_identity (flt : FilterYAML) (title : Bytes) :
    (flt.ensureName title).identity = flt.identity := by
  unfold ensureName
  split
  · rfl
  · split <;> rfl

end FilterYAML

/-- How an update ends. -/
inductive Updating (disk : Disk) (flt : FilterYAML) (d : Download) : Updated → Prop where
  | failed (err : UpdateError) :
      Updating disk flt d ⟨{ flt with lastUpdated := d.now }, disk, false, some err⟩
  | unchanged (res : Parser) (parsed : d.parsed = some res) (same : res.checksum = flt.checksum) :
      Updating disk flt d ⟨{ flt with lastUpdated := d.now }, disk, false, none⟩
  | replaceFailed (res : Parser) (parsed : d.parsed = some res)
      (differs : res.checksum ≠ flt.checksum) :
      Updating disk flt d ⟨{ flt with lastUpdated := d.now }, disk, true, some .finalizing⟩
  | replaced (res : Parser) (parsed : d.parsed = some res) (differs : res.checksum ≠ flt.checksum) :
      Updating disk flt d
        ⟨{ flt.loaded res with lastUpdated := d.now }, disk.set flt.id res.dst, true, none⟩

theorem update_cases (disk : Disk) (flt : FilterYAML) (d : Download) :
    Updating disk flt d (update disk flt d) := by
  simp only [update, updateIntl]
  cases d.pending with
  | false => exact .failed .pendingFile
  | true =>
    simp only [Bool.not_true, Bool.false_eq_true, ↓reduceIte]
    cases body : d.body with
    | none => exact .failed .reading
    | some bytes =>
      simp only
      cases result : parse bytes with
      | error err => exact .failed (.parsing err)
      | ok res =>
        have parsed : d.parsed = some res := by simp only [Download.parsed, body, result]
        simp only
        by_cases same : res.checksum = flt.checksum
        · rw [if_pos same]
          cases d.cleanup with
          | false => exact .failed .cleanup
          | true => exact .unchanged res parsed same
        · rw [if_neg same]
          cases d.replace with
          | false => exact .replaceFailed res parsed same
          | true => exact .replaced res parsed same

theorem update_identity (disk : Disk) (flt : FilterYAML) (d : Download) :
    (update disk flt d).flt.identity = flt.identity := by
  have updating := update_cases disk flt d
  generalize update disk flt d = u at updating ⊢
  cases updating with
  | failed | unchanged | replaceFailed => rfl
  | replaced res => exact flt.ensureName_identity res.title

theorem update_id (disk : Disk) (flt : FilterYAML) (d : Download) :
    (update disk flt d).flt.id = flt.id := congrArg (·.1) (update_identity disk flt d)

theorem update_url (disk : Disk) (flt : FilterYAML) (d : Download) :
    (update disk flt d).flt.url = flt.url := congrArg (·.2.1) (update_identity disk flt d)

theorem update_white (disk : Disk) (flt : FilterYAML) (d : Download) :
    (update disk flt d).flt.white = flt.white := congrArg (·.2.2.2) (update_identity disk flt d)

theorem update_other (disk : Disk) (flt : FilterYAML) (d : Download) {id : ListID}
    (other : id ≠ flt.id) : (update disk flt d).disk.get id = disk.get id := by
  have updating := update_cases disk flt d
  generalize update disk flt d = u at updating ⊢
  cases updating with
  | failed | unchanged | replaceFailed => rfl
  | replaced => rw [FiniteMap.get_set, if_neg other]

/-- How setting the properties of a list ends. -/
inductive Setting (disk : Disk) (old newList : FilterYAML) (d : Download) : SetResult → Prop where
  | refused : Setting disk old newList d ⟨old, disk, false, some .filterExists⟩
  | disabled (off : newList.enabled = false) (restart : Bool) :
      Setting disk old newList d ⟨(old.withProperties newList).unload, disk, restart, none⟩
  | renamed (on : old.enabled = true) (same : old.url = newList.url) :
      Setting disk old newList d ⟨{ old with name := newList.name }, disk, false, none⟩
  | updated (on : newList.enabled = true)
      (done : (update disk (old.withProperties newList) d).err = none) :
      Setting disk old newList d
        ⟨(update disk (old.withProperties newList) d).flt,
          (update disk (old.withProperties newList) d).disk,
          (update disk (old.withProperties newList) d).updated, none⟩
  | failed (on : newList.enabled = true) {err : UpdateError}
      (fails : (update disk (old.withProperties newList) d).err = some err) :
      Setting disk old newList d
        ⟨(update disk (old.withProperties newList) d).flt.rollback old,
          (update disk (old.withProperties newList) d).disk,
          (update disk (old.withProperties newList) d).updated, some (.updating err)⟩

theorem setProperties_cases (exists_ : Bool) (disk : Disk) (old newList : FilterYAML)
    (d : Download) : Setting disk old newList d (setProperties exists_ disk old newList d) := by
  unfold setProperties
  have enabled : (old.withProperties newList).enabled = newList.enabled := rfl
  split
  · exact .refused
  simp only [enabled]
  cases on : newList.enabled with
  | false => exact .disabled on _
  | true =>
    simp only [Bool.not_true, Bool.false_eq_true, ↓reduceIte]
    cases restart : old.restarts newList with
    | false =>
      simp only [FilterYAML.restarts, on, Bool.or_eq_false_iff, bne_eq_false_iff_eq] at restart
      have kept : old.withProperties newList = { old with name := newList.name } := by
        simp [FilterYAML.withProperties, restart.1, restart.2, on]
      simp only [Bool.not_false, ↓reduceIte, kept]
      exact .renamed restart.2 restart.1
    | true =>
      simp only [Bool.not_true, Bool.false_eq_true, ↓reduceIte]
      cases result : (update disk (old.withProperties newList) d).err with
      | none => exact .updated on result
      | some err => exact .failed on result

theorem withProperties_id (old newList : FilterYAML) :
    (old.withProperties newList).id = old.id := by
  unfold FilterYAML.withProperties
  simp only
  split <;> rfl

theorem setProperties_id (exists_ : Bool) (disk : Disk) (old newList : FilterYAML) (d : Download) :
    (setProperties exists_ disk old newList d).flt.id = old.id := by
  have updatedId : (update disk (old.withProperties newList) d).flt.id = old.id :=
    (update_id disk _ d).trans (withProperties_id old newList)
  have setting := setProperties_cases exists_ disk old newList d
  generalize setProperties exists_ disk old newList d = r at setting ⊢
  cases setting with
  | refused | renamed => rfl
  | disabled => exact withProperties_id old newList
  | updated => exact updatedId
  | failed => exact updatedId

theorem setProperties_other (exists_ : Bool) (disk : Disk) (old newList : FilterYAML) (d : Download)
    {id : ListID} (other : id ≠ old.id) :
    (setProperties exists_ disk old newList d).disk.get id = disk.get id := by
  have kept := update_other disk (old.withProperties newList) d
    ((withProperties_id old newList).symm ▸ other)
  have setting := setProperties_cases exists_ disk old newList d
  generalize setProperties exists_ disk old newList d = r at setting ⊢
  cases setting with
  | refused | renamed | disabled => rfl
  | updated => exact kept
  | failed => exact kept

def Lists.all (s : Lists) : List FilterYAML := s.filters ++ s.whitelistFilters

theorem Lists.mem_all {s : Lists} {f : FilterYAML} :
    f ∈ s.all ↔ ∃ white, f ∈ s.array white := by
  simp [Lists.all, Lists.array]

theorem Lists.mem_all_of_array {s : Lists} {white : Bool} {f : FilterYAML}
    (member : f ∈ s.array white) : f ∈ s.all := Lists.mem_all.mpr ⟨white, member⟩

theorem Lists.array_setArray (s : Lists) (white other : Bool) (filters : List FilterYAML) :
    (s.setArray white filters).array other =
      if other = white then filters else s.array other := by
  cases white <;> cases other <;> rfl

theorem Lists.disk_setArray (s : Lists) (white : Bool) (filters : List FilterYAML) :
    (s.setArray white filters).disk = s.disk := by
  cases white <;> rfl

theorem Lists.all_perm (s : Lists) (white : Bool) :
    s.all.Perm (s.array white ++ s.array !white) := by
  cases white with
  | false => exact List.Perm.refl _
  | true => exact List.perm_append_comm

theorem find?_of_findIdx?_none {filters : List FilterYAML} {p : FilterYAML → Bool}
    (position : filters.findIdx? p = none) : filters.find? p = none := by
  rw [List.findIdx?_eq_none_iff] at position
  exact List.find?_eq_none.mpr fun f member => by simp [position f member]

theorem find?_of_findIdx? {filters : List FilterYAML} {p : FilterYAML → Bool} {i : Nat}
    (position : filters.findIdx? p = some i) :
    ∃ inside : i < filters.length, filters[i]? = some filters[i] ∧ filters.find? p = some filters[i] := by
  obtain ⟨inside, found, first⟩ := List.findIdx?_eq_some_iff_getElem.mp position
  refine ⟨inside, List.getElem?_eq_getElem inside, ?_⟩
  refine List.find?_eq_some_iff_getElem.mpr ⟨found, i, inside, rfl, ?_⟩
  intro j before
  simpa using first j before

theorem filterSetProperties_eq (s : Lists) (listURL : Bytes) (newList : FilterYAML)
    (white : Bool) (d : Download) :
    let result := (s.filterSetProperties listURL newList white d).1
    ((s.array white).find? (·.url == listURL) = none ∧ result = s) ∨
    ∃ i old, (s.array white)[i]? = some old ∧
      (s.array white).find? (·.url == listURL) = some old ∧
      let r := setProperties (s.filterExists newList.url) s.disk old newList d
      result = { s.setArray white ((s.array white).set i r.flt) with disk := r.disk } := by
  simp only [Lists.filterSetProperties]
  cases position : (s.array white).findIdx? (·.url == listURL) with
  | none => exact Or.inl ⟨find?_of_findIdx?_none position, rfl⟩
  | some i =>
    obtain ⟨_, here, found⟩ := find?_of_findIdx? position
    refine Or.inr ⟨i, _, here, found, ?_⟩
    simp only [here]

theorem filterSetProperties_ids (lists : Lists) (listURL : Bytes) (newList : FilterYAML)
    (white : Bool) (d : Download) :
    let result := (lists.filterSetProperties listURL newList white d).1
    (result.filters ++ result.whitelistFilters).map (·.id) =
      (lists.filters ++ lists.whitelistFilters).map (·.id) := by
  simp only [Lists.filterSetProperties]
  split
  · rfl
  split
  · rfl
  · rename_i i _ flt here
    have same := setProperties_id (lists.filterExists newList.url) lists.disk flt newList d
    cases white with
    | false =>
      have kept := KeyedList.map_set here same
      simp only [Lists.array, Bool.false_eq_true, ↓reduceIte] at kept
      simp [Lists.setArray, Lists.array, -List.map_set, kept]
    | true =>
      have kept := KeyedList.map_set here same
      simp only [Lists.array, ↓reduceIte] at kept
      simp [Lists.setArray, Lists.array, -List.map_set, kept]

theorem removeURL_ids (lists : Lists) (url : Bytes) (white renamed : Bool) :
    let result := lists.removeURL url white renamed
    ((result.filters ++ result.whitelistFilters).map (·.id)).Sublist
      ((lists.filters ++ lists.whitelistFilters).map (·.id)) := by
  simp only [Lists.removeURL]
  split
  · exact List.Sublist.refl _
  split
  · exact List.Sublist.refl _
  split
  · exact List.Sublist.refl _
  · apply List.Sublist.map
    cases white with
    | false => exact (List.eraseIdx_sublist _ _).append (List.Sublist.refl _)
    | true => exact (List.Sublist.refl _).append (List.eraseIdx_sublist _ _)

/-- Removing a list takes its file away and no other. -/
theorem removeURL_eq (s : Lists) (url : Bytes) (white renamed : Bool) :
    (s.removeURL url white renamed = s ∧
      ((s.array white).find? (·.url == url) = none ∨ renamed = false)) ∨
    ∃ i deleted, (s.array white)[i]? = some deleted ∧ renamed = true ∧
      (s.array white).find? (·.url == url) = some deleted ∧
      s.removeURL url white renamed =
        { s.setArray white ((s.array white).eraseIdx i) with disk := s.disk.delete deleted.id } := by
  simp only [Lists.removeURL]
  cases position : (s.array white).findIdx? (·.url == url) with
  | none => exact Or.inl ⟨rfl, Or.inl (find?_of_findIdx?_none position)⟩
  | some i =>
    obtain ⟨_, here, found⟩ := find?_of_findIdx? position
    simp only [here]
    cases renamed with
    | false => exact Or.inl ⟨rfl, Or.inr rfl⟩
    | true => exact Or.inr ⟨i, _, here, rfl, found, rfl⟩

end AdGuardHome.Filtering
