import AdGuardHome.Filtering.StoreInvariant

namespace AdGuardHome.Filtering

open RuleList Strings

namespace ListStore

variable {s : ListStore}

/-- A request keeps what holds if every list that it leaves is either untouched or a list
of its array that has come into order, or a new one that has. -/
theorem Good.request (good : s.Good) {s' : ListStore} (same : s'.refreshing = s.refreshing)
    (known : ∀ id ∈ s.ids, id ∈ s'.ids) (distinct : s'.Distinct) (parsed : Parses s'.downloads)
    (files : Holds s'.lists.disk s'.files)
    (arrays : ∀ white, ∀ f ∈ s'.lists.array white,
      f.id ∈ (s.lists.array white).map (·.id) ∨ f.id ∉ s.ids)
    (lists : ∀ f ∈ s'.lists.all,
      (f ∈ s.lists.all ∧ s'.lists.disk.get f.id = s.lists.disk.get f.id ∧
        s'.downloads.get (f.id, f.url) = s.downloads.get (f.id, f.url)) ∨
      (f.enabled = true → ∀ res ∈ s'.downloads.get (f.id, f.url),
        s'.Stored f res ∧ (f.Describes res ∨ s.Pending f res))) : s'.Good := by
  refine ⟨distinct, parsed, files, ?_, ?_⟩
  · intro r running
    rw [same] at running
    have before := good.running r running
    refine ⟨before.distinct, fun id member => known id (before.known id member), ?_, before.failed,
      before.parsed, before.brought⟩
    intro f member listed
    rcases arrays _ f member with former | new
    · obtain ⟨g, other, sameId⟩ := List.mem_map.mp former
      exact before.apart g other (sameId ▸ listed)
    · exact new (before.known f.id listed)
  · intro f member enabled res last
    have pending : s'.Pending f res ↔ s.Pending f res := by simp only [Pending, same]
    rw [pending]
    rcases lists f member with ⟨former, file, downloads⟩ | inOrder
    · obtain ⟨stored, described⟩ := good.stored f former enabled res (downloads ▸ last)
      exact ⟨file.trans stored, described⟩
    · exact inOrder enabled res last

section Edit

variable {exists_ : Bool} {disk : Disk} {old newList : FilterYAML} {d : Download}

theorem setProperties_of_updates (disk : Disk) (d : Download) (runs : updates exists_ old newList = true) :
    let u := Filtering.update disk (old.withProperties newList) d
    let r := setProperties exists_ disk old newList d
    r.disk = u.disk ∧ (u.err = none → r.flt = u.flt) ∧
      (∀ err, u.err = some err → r.flt = u.flt.rollback old) := by
  simp only [updates, Bool.and_eq_true, Bool.not_eq_true', Bool.and_eq_false_iff,
    bne_eq_false_iff_eq] at runs
  obtain ⟨⟨allowed, on⟩, restarts⟩ := runs
  have refused : ¬ (old.url ≠ newList.url ∧ exists_ = true) := by
    rintro ⟨differs, known⟩
    rcases allowed with same | unknown
    · exact differs same
    · simp [unknown] at known
  have enabled : (old.withProperties newList).enabled = true := on
  simp only [setProperties, if_neg refused, enabled, restarts, Bool.not_true, Bool.false_eq_true,
    ↓reduceIte]
  cases (Filtering.update disk (old.withProperties newList) d).err with
  | none => exact ⟨rfl, fun _ => rfl, nofun⟩
  | some err => exact ⟨rfl, nofun, fun _ _ => rfl⟩

theorem setProperties_of_not_updates (disk : Disk) (d : Download) (still : updates exists_ old newList = false) :
    let r := setProperties exists_ disk old newList d
    r.disk = disk ∧ (r.flt.enabled = true → r.flt.identity = old.identity ∧
      ∀ res, old.Describes res → r.flt.Describes res) := by
  simp only [setProperties]
  split
  · exact ⟨rfl, fun _ => ⟨rfl, fun _ describes => describes⟩⟩
  next allowed =>
    have enabled : (old.withProperties newList).enabled = newList.enabled := rfl
    simp only [enabled]
    cases on : newList.enabled with
    | false =>
      refine ⟨rfl, fun enabled => ?_⟩
      have off : newList.enabled = true := enabled
      simp [on] at off
    | true =>
      have notRestarted : old.restarts newList = false := by
        have free : (old.url != newList.url && exists_) = false := by
          simpa [not_and_or] using allowed
        simpa [updates, free, on] using still
      simp only [FilterYAML.restarts, on, Bool.or_eq_false_iff, bne_eq_false_iff_eq] at notRestarted
      have kept : old.withProperties newList = { old with name := newList.name } := by
        simp [FilterYAML.withProperties, notRestarted.1, notRestarted.2, on]
      simp only [FilterYAML.restarts, on, notRestarted.1, notRestarted.2, kept, Bool.not_true,
        Bool.false_eq_true, bne_self_eq_false, Bool.or_self, Bool.not_false, ↓reduceIte]
      exact ⟨trivial, fun _ => ⟨by simp [FilterYAML.identity, notRestarted],
        fun _ describes => describes⟩⟩

theorem withProperties_url (old newList : FilterYAML) :
    (old.withProperties newList).url = newList.url := by
  unfold FilterYAML.withProperties
  simp only
  split
  next => rfl
  next same => exact Decidable.not_not.mp same

theorem withProperties_rulesCount (old newList : FilterYAML) :
    (old.withProperties newList).rulesCount =
      if old.url = newList.url then old.rulesCount else 0 := by
  unfold FilterYAML.withProperties
  by_cases same : old.url = newList.url <;> simp [same, FilterYAML.unload]

theorem withProperties_checksum (old newList : FilterYAML) (differs : old.url ≠ newList.url) :
    (old.withProperties newList).checksum = 0 := by
  simp [FilterYAML.withProperties, differs, FilterYAML.unload]

theorem record_error (downloads : FiniteMap (ListID × Bytes) Parser) (flt : FilterYAML)
    (d : Download) (err : UpdateError) : record downloads flt d (some err) = downloads := rfl

theorem record_done (downloads : FiniteMap (ListID × Bytes) Parser) (flt : FilterYAML)
    {d : Download} {res : Parser} (parsed : d.parsed = some res) :
    record downloads flt d none = downloads.set (flt.id, flt.url) res := by
  simp only [record, parsed]

theorem get_record_other (downloads : FiniteMap (ListID × Bytes) Parser) (flt : FilterYAML)
    (d : Download) (err : Option UpdateError) {id : ListID} (url : Bytes) (other : id ≠ flt.id) :
    (record downloads flt d err).get (id, url) = downloads.get (id, url) := by
  unfold record
  split
  · rw [FiniteMap.get_set, if_neg fun same => other (congrArg Prod.fst same)]
  · rfl

/-- A list whose edit has failed has no checksum; its file is still there. -/
theorem Good.rolledBack (good : s.Good) (member : old ∈ s.lists.all) (enabled : old.enabled = true)
    {res : Parser} (last : s.downloads.get (old.id, old.url) = some res)
    (lost : res.checksum = 0 ∨ s.Pending old res) {f : FilterYAML} (id : f.id = old.id)
    (url : f.url = old.url) (count : f.rulesCount = old.rulesCount) (checksum : f.checksum = 0) :
    s.Stored f res ∧ (f.Describes res ∨ s.Pending f res) := by
  obtain ⟨stored, described⟩ := good.stored old member enabled res last
  rw [Stored, id, pending_congr id url]
  refine ⟨stored, ?_⟩
  rcases lost with empty | brings
  · refine described.imp ?_ (fun brings => brings)
    intro describes
    exact ⟨checksum.trans empty.symm, count.trans describes.2⟩
  · exact Or.inr brings

theorem Good.edited (good : s.Good) (member : old ∈ s.lists.all)
    (runs : updates exists_ old newList = true) (sound : s.SoundEdit old newList d) :
    let u := Filtering.update s.lists.disk (old.withProperties newList) d
    let f := (setProperties exists_ s.lists.disk old newList d).flt
    f.enabled = true →
      ∀ res ∈ (record s.downloads (old.withProperties newList) d u.err).get (f.id, f.url),
        u.disk.get f.id = some res.dst ∧ (f.Describes res ∨ s.Pending f res) := by
  intro u f enabled res last
  obtain ⟨_, done, undone⟩ := setProperties_of_updates s.lists.disk d runs
  have id := withProperties_id old newList
  have url := withProperties_url old newList
  have failed : ∀ err, u.err = some err → u.disk = s.lists.disk →
      u.flt.checksum = (old.withProperties newList).checksum →
      u.disk.get f.id = some res.dst ∧ (f.Describes res ∨ s.Pending f res) := by
    intro err fails file checksum
    have rolledBack : f = u.flt.rollback old := undone err fails
    have sameId : f.id = old.id := by
      rw [rolledBack]
      exact (update_id _ _ _).trans id
    have sameUrl : f.url = old.url := by rw [rolledBack]; rfl
    have count : f.rulesCount = old.rulesCount := by rw [rolledBack]; rfl
    have wasEnabled : old.enabled = true := by
      rw [rolledBack] at enabled
      exact enabled
    have differs : old.url ≠ newList.url := by
      intro same
      simp [updates, FilterYAML.restarts, same, wasEnabled] at runs
    have noChecksum : f.checksum = 0 := by
      rw [rolledBack]
      exact checksum.trans (withProperties_checksum old newList differs)
    have before : s.downloads.get (old.id, old.url) = some res := by
      rwa [fails, record_error, sameId, sameUrl] at last
    have lost := sound.2 (outcome_error _ _ _ fails) wasEnabled res before
    obtain ⟨stored, described⟩ :=
      good.rolledBack member wasEnabled before lost sameId sameUrl count noChecksum
    exact ⟨file ▸ stored, described⟩
  have updating := update_cases s.lists.disk (old.withProperties newList) d
  have unchanged := outcome_unchanged s.lists.disk (old.withProperties newList) d
  have result : u = Filtering.update s.lists.disk (old.withProperties newList) d := rfl
  rw [← result] at updating unchanged done
  generalize u = v at *
  cases updating with
  | failed err => exact failed err rfl rfl rfl
  | replaceFailed contents parsed differs => exact failed .finalizing rfl rfl rfl
  | unchanged contents parsed same =>
    have edited : f = { old.withProperties newList with lastUpdated := d.now } := done rfl
    rw [record_done _ _ parsed, edited, FiniteMap.get_set_self] at last
    obtain rfl := Option.some.inj last
    obtain ⟨⟨file, written, dst⟩, count⟩ := sound.1 (unchanged rfl rfl) contents parsed
    have rules := (withProperties_rulesCount old newList).trans count.symm
    rw [edited]
    refine ⟨?_, Or.inl ⟨same.symm, rules⟩⟩
    show s.lists.disk.get (old.withProperties newList).id = some contents.dst
    rw [id, ← dst]
    exact good.files _ file written
  | replaced contents parsed differs =>
    have edited : f = { (old.withProperties newList).loaded contents with lastUpdated := d.now } :=
      done rfl
    have identity := (old.withProperties newList).ensureName_identity contents.title
    have sameId : f.id = (old.withProperties newList).id := edited ▸ congrArg (·.1) identity
    have sameUrl : f.url = (old.withProperties newList).url := edited ▸ congrArg (·.2.1) identity
    rw [record_done _ _ parsed, sameId, sameUrl, FiniteMap.get_set_self] at last
    obtain rfl := Option.some.inj last
    refine ⟨by rw [sameId, FiniteMap.get_set_self], Or.inl ?_⟩
    rw [edited]
    exact ⟨rfl, rfl⟩

end Edit

theorem Good.filterSetProperties (good : s.Good) {listURL : Bytes} {newList : FilterYAML}
    {white : Bool} {d : Download} (sound : s.Sound (.filterSetProperties listURL newList white d)) :
    (s.filterSetProperties listURL newList white d).Good := by
  have ids := filterSetProperties_ids s.lists listURL newList white d
  rcases filterSetProperties_eq s.lists listURL newList white d with
    ⟨missing, same⟩ | ⟨i, old, here, found, result⟩
  · have same : s.filterSetProperties listURL newList white d = s := by
      simp only [ListStore.filterSetProperties, find, missing, same]
    rw [same]
    exact good
  have sound := sound old found
  have member : old ∈ s.lists.all := Lists.mem_all_of_array (List.mem_of_getElem? here)
  have sameId := setProperties_id (s.lists.filterExists newList.url) s.lists.disk old newList d
  have onlyOld : ∀ other, ∀ f ∈ (s.filterSetProperties listURL newList white d).lists.array other,
      (other = white ∧
        f = (setProperties (s.lists.filterExists newList.url) s.lists.disk old newList d).flt) ∨
      (f ∈ s.lists.array other ∧ f.id ≠ old.id) := by
    intro other f inArray
    have lists : (s.filterSetProperties listURL newList white d).lists = _ := result
    rw [lists] at inArray
    have inArray : f ∈ (s.lists.setArray white ((s.lists.array white).set i
        (setProperties (s.lists.filterExists newList.url) s.lists.disk old newList d).flt)).array
          other := by
      cases other <;> exact inArray
    rw [Lists.array_setArray] at inArray
    split at inArray
    next same =>
      subst same
      exact (KeyedList.mem_set (good.distinct.array other) here inArray).imp (⟨rfl, ·⟩) id
    next differs =>
      refine Or.inr ⟨inArray, ?_⟩
      rw [Bool.eq_not_of_ne differs] at inArray
      exact (good.distinct.apart (List.mem_of_getElem? here) inArray).symm
  have file : (s.filterSetProperties listURL newList white d).lists.disk =
      (setProperties (s.lists.filterExists newList.url) s.lists.disk old newList d).disk :=
    congrArg (·.disk) result
  have downloads : (s.filterSetProperties listURL newList white d).downloads =
      if updates (s.lists.filterExists newList.url) old newList then
        record s.downloads (old.withProperties newList) d
          (Filtering.update s.lists.disk (old.withProperties newList) d).err
      else s.downloads := by
    simp only [ListStore.filterSetProperties, find, found]
  have files : (s.filterSetProperties listURL newList white d).files =
      if updates (s.lists.filterExists newList.url) old newList then
        replace s.files (old.withProperties newList) d
      else s.files := by
    simp only [ListStore.filterSetProperties, find, found]
  refine good.request rfl (fun _ known => known) ⟨?_, ?_⟩ ?_ ?_ ?_ ?_
  · exact ids.symm ▸ good.distinct.nodup
  · intro f listed
    have listed := List.mem_map_of_mem (f := (·.id)) listed
    obtain ⟨g, known, same⟩ := List.mem_map.mp (ids ▸ listed)
    exact same ▸ good.distinct.known g known
  · rw [downloads]
    split
    · exact good.parsed.record _ _ _
    · exact good.parsed
  · rw [file, files]
    cases runs : updates (s.lists.filterExists newList.url) old newList with
    | false =>
      rw [(setProperties_of_not_updates s.lists.disk d runs).1]
      exact good.files
    | true =>
      rw [(setProperties_of_updates s.lists.disk d runs).1]
      exact good.files.replace _ _ _
  · intro other f inArray
    rcases onlyOld other f inArray with ⟨rfl, rfl⟩ | ⟨former, _⟩
    · exact Or.inl (sameId ▸ List.mem_map_of_mem (List.mem_of_getElem? here))
    · exact Or.inl (List.mem_map_of_mem former)
  · intro f listed
    obtain ⟨other, inArray⟩ := Lists.mem_all.mp listed
    cases runs : updates (s.lists.filterExists newList.url) old newList with
    | false =>
      obtain ⟨kept, enabledKept⟩ := setProperties_of_not_updates s.lists.disk d runs
      simp only [Stored, file, kept, downloads, runs, Bool.false_eq_true, ↓reduceIte]
      rcases onlyOld other f inArray with ⟨_, rfl⟩ | ⟨former, _⟩
      · refine Or.inr fun enabled res last => ?_
        obtain ⟨identity, describes⟩ := enabledKept enabled
        have url := congrArg (·.2.1) identity
        have wasEnabled := congrArg (·.2.2.1) identity
        simp only [FilterYAML.identity] at url wasEnabled
        rw [sameId, url] at last
        rw [sameId, pending_congr sameId url]
        obtain ⟨stored, described⟩ := good.stored old member (wasEnabled ▸ enabled) res last
        exact ⟨stored, described.imp (describes res) (fun brings => brings)⟩
      · exact Or.inl ⟨Lists.mem_all_of_array former, trivial, trivial⟩
    | true =>
      obtain ⟨updated, _⟩ := setProperties_of_updates s.lists.disk d runs
      simp only [Stored, file, updated, downloads, runs, ↓reduceIte]
      rcases onlyOld other f inArray with ⟨_, rfl⟩ | ⟨former, differs⟩
      · exact Or.inr (good.edited member runs (sound runs))
      · have differs : f.id ≠ (old.withProperties newList).id := withProperties_id old newList ▸ differs
        exact Or.inl ⟨Lists.mem_all_of_array former, update_other _ _ _ differs,
          get_record_other _ _ _ _ _ differs⟩

section Add

/-- Adding a list leaves the lists alone or adds a list that was just downloaded. -/
inductive Adding (s : Lists) (flt : FilterYAML) (d : Download) : Lists → Option UpdateError → Prop
  where
  | failed (err : UpdateError) : Adding s flt d s (some err)
  | unchanged (res : Parser) (parsed : d.parsed = some res) : Adding s flt d s none
  | added (res : Parser) (parsed : d.parsed = some res) (f : FilterYAML)
      (same : f.identity = flt.identity) (describes : f.Describes res) :
      Adding s flt d
        { s.setArray f.white (s.array f.white ++ [f]) with disk := s.disk.set flt.id res.dst }
        none

theorem filterAdd_of_new {s : Lists} (disk : Disk) {f : FilterYAML}
    (new : s.filterExists f.url = false) :
    Lists.filterAdd { s with disk } f =
      ({ s.setArray f.white (s.array f.white ++ [f]) with disk }, none) := by
  have unknown : Lists.filterExists { s with disk } f.url = false := new
  rw [Lists.filterAdd, unknown, if_neg Bool.false_ne_true]
  cases f.white <;> rfl

theorem addURL_cases (s : Lists) (url name : Bytes) (white : Bool) (id : ListID) (d : Download)
    (new : s.filterExists url = false) :
    Adding s (Lists.newFilter url name white id) d (s.addURL url name white id d)
      (Filtering.update s.disk (Lists.newFilter url name white id) d).err := by
  simp only [Lists.addURL, new, Bool.false_eq_true, ↓reduceIte]
  have identity := update_identity s.disk (Lists.newFilter url name white id) d
  have updating := update_cases s.disk (Lists.newFilter url name white id) d
  generalize Filtering.update s.disk (Lists.newFilter url name white id) d = u at *
  cases updating with
  | failed err => exact .failed err
  | replaceFailed => exact .failed .finalizing
  | unchanged res parsed => exact .unchanged res parsed
  | replaced res parsed differs =>
    have sameUrl := congrArg (·.2.1) identity
    simp only [FilterYAML.identity] at sameUrl
    have unknown : s.filterExists ((Lists.newFilter url name white id).loaded res).url = false :=
      sameUrl ▸ new
    have result := filterAdd_of_new (s.disk.set id res.dst)
      (f := { (Lists.newFilter url name white id).loaded res with lastUpdated := d.now }) unknown
    have added := Adding.added (s := s) res parsed
      { (Lists.newFilter url name white id).loaded res with lastUpdated := d.now } identity ⟨rfl, rfl⟩
    simp only [Option.isSome_none, Bool.false_eq_true, ↓reduceIte, Bool.not_true]
    have lists := congrArg Prod.fst result
    exact lists.symm ▸ added

theorem addURL_disk (s : Lists) (url name : Bytes) (white : Bool) (id : ListID) (d : Download)
    (new : s.filterExists url = false) :
    (s.addURL url name white id d).disk =
      (Filtering.update s.disk (Lists.newFilter url name white id) d).disk := by
  simp only [Lists.addURL, new, Bool.false_eq_true, ↓reduceIte]
  split
  · rfl
  · split
    · rfl
    · simp only [Lists.filterAdd]
      split
      · rfl
      · exact Lists.disk_setArray _ _ _

/-- The lists stay, and so do the downloads of each. -/
theorem Good.keepLists (good : s.Good) {s' : ListStore} (same : s'.refreshing = s.refreshing)
    (known : ∀ id ∈ s.ids, id ∈ s'.ids) (lists : s'.lists = s.lists)
    (parsed : Parses s'.downloads) (files : Holds s'.lists.disk s'.files)
    (downloads : ∀ f ∈ s.lists.all,
      s'.downloads.get (f.id, f.url) = s.downloads.get (f.id, f.url)) : s'.Good := by
  refine good.request same known ⟨?_, ?_⟩ parsed files ?_ ?_
  · rw [lists]
    exact good.distinct.nodup
  · intro f member
    rw [lists] at member
    exact known f.id (good.distinct.known f member)
  · intro white f member
    rw [lists] at member
    exact Or.inl (List.mem_map_of_mem member)
  · intro f member
    rw [lists] at member ⊢
    exact Or.inl ⟨member, rfl, downloads f member⟩

theorem Good.addURL (good : s.Good) {id : ListID} (fresh : id ∉ s.ids) (url name : Bytes)
    (white : Bool) (d : Download) : (s.addURL url name white id d).Good := by
  have known : ∀ old ∈ s.ids, old ∈ (s.addURL url name white id d).ids := fun _ known =>
    List.mem_cons_of_mem _ known
  have other : ∀ f ∈ s.lists.all, f.id ≠ id := fun f member same =>
    fresh (same ▸ good.distinct.known f member)
  cases new : s.lists.filterExists url with
  | true =>
    refine good.keepLists rfl known (by simp [ListStore.addURL, Lists.addURL, new]) ?_ ?_ ?_
    · simpa [ListStore.addURL, new] using good.parsed
    · simpa [ListStore.addURL, Lists.addURL, new] using good.files
    · intro f member
      simp [ListStore.addURL, new]
  | false =>
    have downloads : (s.addURL url name white id d).downloads =
        record s.downloads (Lists.newFilter url name white id) d
          (Filtering.update s.lists.disk (Lists.newFilter url name white id) d).err := by
      simp [ListStore.addURL, new]
    have others : ∀ f ∈ s.lists.all, (s.addURL url name white id d).downloads.get (f.id, f.url) =
        s.downloads.get (f.id, f.url) := by
      intro f member
      rw [downloads]
      exact get_record_other _ _ _ _ _ (other f member)
    have parses : Parses (s.addURL url name white id d).downloads := by
      rw [downloads]
      exact good.parsed.record _ _ _
    have holds : Holds (s.addURL url name white id d).lists.disk
        (s.addURL url name white id d).files := by
      simp only [ListStore.addURL, new, Bool.false_eq_true, ↓reduceIte, addURL_disk _ _ _ _ _ _ new]
      exact good.files.replace _ _ _
    have adding := addURL_cases s.lists url name white id d new
    generalize result : s.lists.addURL url name white id d = after at adding
    generalize ending : (Filtering.update s.lists.disk (Lists.newFilter url name white id) d).err =
      err at adding downloads
    cases adding with
    | failed | unchanged => exact good.keepLists rfl known result parses holds others
    | added res parsed f same describes =>
      have result : (s.addURL url name white id d).lists = _ := result
      have sameId : f.id = id := congrArg (·.1) same
      have sameUrl : f.url = url := congrArg (·.2.1) same
      have grown : (s.addURL url name white id d).lists.all.Perm (f :: s.lists.all) := by
        rw [result]
        exact s.lists.all_add f _
      refine good.request rfl known ⟨?_, ?_⟩ parses holds ?_ ?_
      · rw [(grown.map _).nodup_iff, List.map_cons, List.nodup_cons]
        refine ⟨?_, good.distinct.nodup⟩
        intro listed
        obtain ⟨g, member, taken⟩ := List.mem_map.mp listed
        exact other g member (taken.trans sameId)
      · intro g member
        rw [grown.mem_iff] at member
        rcases List.mem_cons.mp member with rfl | former
        · rw [sameId]
          exact List.mem_cons_self
        · exact known g.id (good.distinct.known g former)
      · intro array g member
        rw [result] at member
        have inArray : g ∈ (s.lists.setArray f.white (s.lists.array f.white ++ [f])).array array := by
          cases array <;> exact member
        rw [Lists.array_setArray] at inArray
        split at inArray
        next here =>
          rw [here]
          rcases List.mem_append.mp inArray with former | added
          · exact Or.inl (List.mem_map_of_mem former)
          · obtain rfl := List.mem_singleton.mp added
            exact Or.inr (sameId ▸ fresh)
        next => exact Or.inl (List.mem_map_of_mem inArray)
      · intro g member
        rw [grown.mem_iff] at member
        have file : (s.addURL url name white id d).lists.disk = s.lists.disk.set id res.dst :=
          congrArg (·.disk) result
        rcases List.mem_cons.mp member with rfl | former
        · refine Or.inr fun _ contents last => ?_
          rw [downloads, record_done _ _ parsed, sameId, sameUrl] at last
          obtain rfl := Option.some.inj ((FiniteMap.get_set_self _ (id, url) res).symm.trans last)
          refine ⟨?_, Or.inl describes⟩
          rw [Stored, file, sameId, FiniteMap.get_set_self]
        · refine Or.inl ⟨former, ?_, others g former⟩
          rw [file, FiniteMap.get_set, if_neg (other g former)]

end Add

theorem Good.removeURL (good : s.Good) (url : Bytes) (white renamed : Bool) :
    (s.removeURL url white renamed).Good := by
  have ids := removeURL_ids s.lists url white renamed
  have known : ∀ id ∈ s.ids, id ∈ (s.removeURL url white renamed).ids := fun _ known => known
  rcases removeURL_eq s.lists url white renamed with
    ⟨same, still⟩ | ⟨i, deleted, here, rfl, found, result⟩
  · have files : (s.removeURL url white renamed).files = s.files := by
      simp only [ListStore.removeURL, find]
      rcases still with missing | notRenamed
      · rw [missing]
      · split <;> simp [notRenamed]
    refine good.keepLists rfl known same good.parsed ?_ fun _ _ => rfl
    rw [files]
    have lists : (s.removeURL url white renamed).lists = s.lists := same
    rw [lists]
    exact good.files
  have onlyOthers : ∀ other, ∀ f ∈ (s.removeURL url white true).lists.array other,
      f ∈ s.lists.array other ∧ f.id ≠ deleted.id := by
    intro other f inArray
    have lists : (s.removeURL url white true).lists = _ := result
    rw [lists] at inArray
    have inArray : f ∈ (s.lists.setArray white ((s.lists.array white).eraseIdx i)).array other := by
      cases other <;> exact inArray
    rw [Lists.array_setArray] at inArray
    split at inArray
    next same =>
      subst same
      exact KeyedList.mem_eraseIdx (good.distinct.array other) here inArray
    next differs =>
      refine ⟨inArray, ?_⟩
      rw [Bool.eq_not_of_ne differs] at inArray
      exact (good.distinct.apart (List.mem_of_getElem? here) inArray).symm
  have file : (s.removeURL url white true).lists.disk = s.lists.disk.delete deleted.id :=
    congrArg (·.disk) result
  have files : (s.removeURL url white true).files = s.files.delete deleted.id := by
    simp only [ListStore.removeURL, find, found, ↓reduceIte]
  refine good.request rfl known ⟨good.distinct.nodup.sublist ids, ?_⟩ good.parsed ?_ ?_ ?_
  · intro f member
    obtain ⟨other, inArray⟩ := Lists.mem_all.mp member
    exact good.distinct.known f (Lists.mem_all_of_array (onlyOthers other f inArray).1)
  · rw [file, files]
    intro id res last
    rw [FiniteMap.get_delete] at last ⊢
    split at last
    next => nomatch last
    next others => exact (if_neg others).trans (good.files id res last)
  · intro other f inArray
    exact Or.inl (List.mem_map_of_mem (onlyOthers other f inArray).1)
  · intro f member
    obtain ⟨other, inArray⟩ := Lists.mem_all.mp member
    obtain ⟨former, differs⟩ := onlyOthers other f inArray
    refine Or.inl ⟨Lists.mem_all_of_array former, ?_, rfl⟩
    rw [file, FiniteMap.get_delete, if_neg differs]

end ListStore

namespace ListStore

variable {s : ListStore}

theorem Good.next (good : s.Good) {event : StoreEvent} (sound : s.Sound event) :
    (s.next event).Good := by
  cases event with
  | listsToUpdate white force now interval => exact good.listsToUpdate white force now interval
  | update d => exact good.update sound
  | sync => exact good.sync sound
  | filterSetProperties listURL newList isAllowlist d => exact good.filterSetProperties sound
  | addURL url name white id d => exact good.addURL sound url name white d
  | removeURL url white renamed => exact good.removeURL url white renamed

theorem consistent_iff (parsed : Parses s.downloads) :
    s.Consistent ↔ s.Downloaded fun f res => s.Stored f res ∧ f.Describes res := by
  constructor
  · intro consistent f member enabled res last
    obtain ⟨src, from_⟩ := parsed _ res last
    exact (consistent f member enabled res last).imp id (f.describesFile_dst from_).mp
  · intro described f member enabled res last
    obtain ⟨src, from_⟩ := parsed _ res last
    exact (described f member enabled res last).imp id (f.describesFile_dst from_).mpr

/-- A state in which no operation is under way and nothing is amiss. -/
structure Ready (s : ListStore) : Prop where
  idle : s.refreshing = none
  distinct : s.Distinct
  parsed : Parses s.downloads
  files : Holds s.lists.disk s.files
  consistent : s.Consistent

theorem Ready.good (ready : s.Ready) : s.Good := by
  refine ⟨ready.distinct, ready.parsed, ready.files, ?_, ?_⟩
  · intro r running
    simp [ready.idle] at running
  · intro f member enabled res last
    obtain ⟨stored, describes⟩ :=
      (consistent_iff ready.parsed).mp ready.consistent f member enabled res last
    exact ⟨stored, Or.inl describes⟩

end ListStore

/-- In a run of sound steps every list is stored as it was last downloaded whenever no
refresh is under way. -/
theorem listStore_consistent {s : ListStore} (ready : s.Ready) (events : List StoreEvent)
    (sound : ListStore.machine.Allowed ListStore.Sound s events)
    (idle : (ListStore.machine.run s events).refreshing = none) :
    (ListStore.machine.run s events).Consistent := by
  have good := ListStore.machine.run_invariant ListStore.Good
    (fun _ _ good sound => ListStore.Good.next good sound) ready.good sound
  exact (ListStore.consistent_iff good.parsed).mpr (good.described idle)

section Examples

private def noLists : ListStore := ⟨⟨[], [], ∅⟩, none, ∅, ∅, []⟩

private theorem ready_noLists : noLists.Ready where
  idle := rfl
  distinct := ⟨List.nodup_nil, nofun⟩
  parsed := by simp [ListStore.Parses, noLists]
  files := by simp [ListStore.Holds, noLists]
  consistent := nofun

private def download (body : String) : Download := ⟨true, some (lit body), true, true, 0⟩

private def failing : Download := ⟨true, none, true, true, 0⟩

private def renamed (url : String) : FilterYAML :=
  Lists.newFilter (lit url) (lit "List") false 0

/-- A list is added, downloaded anew by a refresh and renamed before the refresh ends; the
next refresh finds nothing new, and then another URL of the list is edited in. -/
theorem listStore_consistent_refreshed :
    (ListStore.machine.run noLists
      [.addURL (lit "http://a.example/") (lit "A") false 1 (download "||a.example^\n"),
        .listsToUpdate false true 0 24, .update (download "||b.example^\n"),
        .filterSetProperties (lit "http://a.example/") (renamed "http://a.example/") false failing,
        .sync, .listsToUpdate false true 1 24, .update (download "||b.example^\n"), .sync,
        .filterSetProperties (lit "http://a.example/") (renamed "http://c.example/") false
          (download "||c.example^\n")]).Consistent :=
  listStore_consistent ready_noLists _ (by decide +kernel) (by decide +kernel)

/-- The new URL of a list cannot be downloaded: the old URL comes back, and the checksum does
not. -/
theorem failed_edit_loses_checksum :
    ¬ ∀ (s : ListStore) (events : List StoreEvent), s.Ready →
      ListStore.machine.Allowed ListStore.Fresh s events →
      (ListStore.machine.run s events).refreshing = none →
      (ListStore.machine.run s events).Consistent := by
  intro always
  have after := always noLists
    [.addURL (lit "http://a.example/") (lit "A") false 1 (download "||a.example^\n"),
      .filterSetProperties (lit "http://a.example/") (renamed "http://b.example/") false failing]
    ready_noLists (by decide +kernel) rfl
  revert after
  decide +kernel

end Examples

end AdGuardHome.Filtering
