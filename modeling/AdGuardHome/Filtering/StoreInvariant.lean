import AdGuardHome.Filtering.ListStore
import AdGuardHome.Filtering.RuleListNormal

namespace AdGuardHome.Filtering

open RuleList Strings

/-- The refresh has replaced the list's file by a download with these contents, and is still
to write the metadata into the list. -/
def Refreshing.Brings (r : Refreshing) (f : FilterYAML) (res : Parser) : Prop :=
  r.failNum < r.done.length ∧ (∃ u ∈ r.done, u.2 = true ∧ u.1.id = f.id ∧ u.1.url = f.url) ∧
    ListStore.Latest r.brought f.id res

instance (r : Refreshing) (f : FilterYAML) (res : Parser) : Decidable (r.Brings f res) :=
  inferInstanceAs (Decidable (_ ∧ _))

namespace ListStore

/-- The metadata of a list are still to be written by the refresh that is under way. -/
def Pending (s : ListStore) (f : FilterYAML) (res : Parser) : Prop :=
  ∃ r ∈ s.refreshing, r.Brings f res

instance (s : ListStore) (f : FilterYAML) (res : Parser) : Decidable (s.Pending f res) :=
  inferInstanceAs (Decidable (∃ r ∈ s.refreshing, _))

/-- The update of a list by a refresh: no list that has another URL by now loses its file,
and contents that seem to be unchanged are those of the last download. -/
def SoundUpdate (s : ListStore) (uf : FilterYAML) (d : Download) (res : Parser) : Prop :=
  (d.outcome uf.checksum = .replaced →
    s.Downloaded fun f last => f.id = uf.id → f.url ≠ uf.url → last.dst = res.dst) ∧
  (d.outcome uf.checksum = .unchanged →
    ∀ f ∈ s.lists.all, f.enabled = true → f.id = uf.id → f.url = uf.url →
      Latest s.downloads (f.id, f.url) res)

instance (s : ListStore) (uf : FilterYAML) (d : Download) (res : Parser) :
    Decidable (s.SoundUpdate uf d res) :=
  inferInstanceAs (Decidable ((_ = _ → s.Downloaded _) ∧
    (_ = _ → ∀ f ∈ s.lists.all, _ → _ → _ → Latest s.downloads (f.id, f.url) res)))

/-- The end of a refresh: what it has brought to a list is the last download. -/
def SoundSync (s : ListStore) (r : Refreshing) : Prop :=
  ∀ u ∈ r.done, u.2 = true →
    s.Downloaded fun f last => f.id = u.1.id → f.url = u.1.url →
      Latest r.brought f.id last

instance (s : ListStore) (r : Refreshing) : Decidable (s.SoundSync r) :=
  inferInstanceAs (Decidable (∀ u ∈ r.done, u.2 = true → s.Downloaded _))

/-- An edit that comes to the update: contents that seem to be unchanged are those that were
last written, with as many rules as are left to the list, and an enabled list whose new URL
fails had no checksum to lose. -/
def SoundEdit (s : ListStore) (old newList : FilterYAML) (d : Download) : Prop :=
  let flt := old.withProperties newList
  (d.outcome flt.checksum = .unchanged →
    ∀ res ∈ d.parsed, Latest s.files old.id res ∧
      res.rulesCount = if old.url = newList.url then old.rulesCount else 0) ∧
  ((d.outcome flt.checksum).isError = true → old.enabled = true →
    ∀ last ∈ s.downloads.get (old.id, old.url), last.checksum = 0 ∨ s.Pending old last)

instance (s : ListStore) (old newList : FilterYAML) (d : Download) :
    Decidable (s.SoundEdit old newList d) :=
  inferInstanceAs (Decidable
    ((_ = _ → ∀ res, d.parsed = some res → Latest s.files old.id res ∧ _) ∧
      (_ → _ → ∀ last, _ = some last → _ ∨ s.Pending old last)))

def Sound (s : ListStore) : StoreEvent → Prop
  | .update d => ∀ r ∈ s.refreshing, ∀ uf ∈ r.todo.head?, ∀ res ∈ d.parsed, s.SoundUpdate uf d res
  | .sync => ∀ r ∈ s.refreshing, r.todo = [] → r.failNum < r.done.length → s.SoundSync r
  | .filterSetProperties listURL newList isAllowlist d =>
    ∀ old ∈ s.find listURL isAllowlist,
      updates (s.lists.filterExists newList.url) old newList = true → s.SoundEdit old newList d
  | .addURL _ _ _ id _ => id ∉ s.ids
  | .listsToUpdate .. | .removeURL .. => True

instance (s : ListStore) (event : StoreEvent) : Decidable (s.Sound event) :=
  match event with
  | .update d => inferInstanceAs (Decidable (∀ r, s.refreshing = some r → ∀ uf,
      r.todo.head? = some uf → ∀ res, d.parsed = some res → s.SoundUpdate uf d res))
  | .sync => inferInstanceAs (Decidable (∀ r, s.refreshing = some r → _ → _ → s.SoundSync r))
  | .filterSetProperties listURL newList isAllowlist d => inferInstanceAs (Decidable (∀ old,
      s.find listURL isAllowlist = some old → _ → s.SoundEdit old newList d))
  | .addURL _ _ _ id _ => inferInstanceAs (Decidable (id ∉ s.ids))
  | .listsToUpdate .. | .removeURL .. => .isTrue trivial

structure Running (s : ListStore) (r : Refreshing) : Prop where
  distinct : (r.entries.map (·.id)).Nodup
  known : ∀ id ∈ r.entries.map (·.id), id ∈ s.ids
  apart : ∀ f ∈ s.lists.array !r.white, f.id ∉ r.entries.map (·.id)
  failed : r.failNum ≤ r.done.length
  parsed : Parses r.brought
  brought : ∀ id contents, r.brought.get id = some contents →
    ∃ u ∈ r.done, u.2 = true ∧ u.1.id = id ∧ u.1.Describes contents

/-- The files are those of the last downloads, and so are the metadata, unless the refresh
brings them. -/
structure Good (s : ListStore) : Prop where
  distinct : s.Distinct
  parsed : Parses s.downloads
  files : Holds s.lists.disk s.files
  running : ∀ r ∈ s.refreshing, s.Running r
  stored : s.Downloaded fun f res => s.Stored f res ∧ (f.Describes res ∨ s.Pending f res)

end ListStore

theorem Outcome.eq_replaced (o : Outcome) (updated : o.isUpdated = true)
    (done : o.isError = false) : o = .replaced := by
  cases o with
  | replaced => rfl
  | failed | unchanged => nomatch updated
  | replaceFailed => nomatch done

theorem Outcome.eq_unchanged (o : Outcome) (kept : o.isUpdated = false)
    (done : o.isError = false) : o = .unchanged := by
  cases o with
  | unchanged => rfl
  | failed => nomatch done
  | replaced | replaceFailed => nomatch kept

theorem Lists.all_add (s : Lists) (f : FilterYAML) (disk : Disk) :
    (Lists.all { s.setArray f.white (s.array f.white ++ [f]) with disk }).Perm (f :: s.all) := by
  cases f.white with
  | false =>
    simp only [Lists.all, Lists.setArray, Lists.array, Bool.false_eq_true, ↓reduceIte]
    exact (List.perm_append_singleton f s.filters).append_right _
  | true =>
    simp only [Lists.all, Lists.setArray, Lists.array, ↓reduceIte, ← List.append_assoc]
    exact List.perm_append_singleton f _

/-- The file of some contents tells the metadata. -/
theorem FilterYAML.describesFile_dst {src : Bytes} {res : Parser} (parsed : parse src = .ok res)
    (f : FilterYAML) : f.DescribesFile res.dst ↔ f.Describes res := by
  rw [FilterYAML.DescribesFile, parse_dst parsed]
  exact Iff.rfl

namespace ListStore

variable {s : ListStore} {r : Refreshing}

theorem describes_of_dst {f : FilterYAML} {first second : Parser}
    (parsedFirst : ∃ src, parse src = .ok first) (parsedSecond : ∃ src, parse src = .ok second)
    (same : first.dst = second.dst) (describes : f.Describes first) : f.Describes second := by
  obtain ⟨_, parsedFirst⟩ := parsedFirst
  obtain ⟨_, parsedSecond⟩ := parsedSecond
  have describesFile := (f.describesFile_dst parsedFirst).mpr describes
  rw [same] at describesFile
  exact (f.describesFile_dst parsedSecond).mp describesFile

namespace Distinct

theorem array (distinct : s.Distinct) (white : Bool) :
    ((s.lists.array white).map (·.id)).Nodup := by
  have nodup := ((s.lists.all_perm white).map (·.id)).nodup_iff.mp distinct.nodup
  rw [List.map_append] at nodup
  exact nodup.of_append_left

theorem apart (distinct : s.Distinct) {white : Bool} {f g : FilterYAML}
    (here : f ∈ s.lists.array white) (there : g ∈ s.lists.array !white) : f.id ≠ g.id := by
  have nodup := ((s.lists.all_perm white).map (·.id)).nodup_iff.mp distinct.nodup
  rw [List.map_append, List.nodup_append] at nodup
  exact nodup.2.2 f.id (List.mem_map_of_mem here) g.id (List.mem_map_of_mem there)

end Distinct

theorem Running.entry (running : s.Running r) {u : FilterYAML × Bool} (done : u ∈ r.done)
    {contents : Parser} (brings : r.brought.get u.1.id = some contents) :
    u.1.Describes contents := by
  obtain ⟨v, member, _, same, describes⟩ := running.brought _ _ brings
  have distinct : (r.done.map (·.1.id)).Nodup := by
    have all := running.distinct
    rw [Refreshing.entries, List.map_append, List.map_map] at all
    exact all.of_append_left
  obtain rfl : v = u := List.inj_on_of_nodup_map distinct member done same
  exact describes

theorem pending_congr {f g : FilterYAML} {res : Parser} (id : f.id = g.id) (url : f.url = g.url) :
    s.Pending f res ↔ s.Pending g res := by
  simp only [Pending, Refreshing.Brings, id, url]

theorem Good.described (good : s.Good) (idle : s.refreshing = none) :
    s.Downloaded fun f res => s.Stored f res ∧ f.Describes res := by
  intro f member enabled res last
  obtain ⟨stored, describes | pending⟩ := good.stored f member enabled res last
  · exact ⟨stored, describes⟩
  · obtain ⟨r, running, _⟩ := pending
    simp [idle] at running

end ListStore

namespace ListStore

variable {s : ListStore} {r : Refreshing}

section Snapshot

variable (filters : List FilterYAML) (force : Bool) (now : Int) (interval : Nat)

theorem listsToUpdate_ids :
    ((Filtering.listsToUpdate filters force now interval).map (·.id)).Sublist
      (filters.map (·.id)) := by
  have ids : (Filtering.listsToUpdate filters force now interval).map (·.id) =
      (filters.filter fun flt => flt.enabled &&
        (force || !decide (now < flt.lastUpdated + interval * 3600000000000))).map (·.id) := by
    simp [Filtering.listsToUpdate]
  rw [ids]
  exact List.filter_sublist.map _

end Snapshot

theorem Good.listsToUpdate (good : s.Good) (white force : Bool) (now : Int) (interval : Nat) :
    (s.listsToUpdate white force now interval).Good := by
  unfold ListStore.listsToUpdate
  cases idle : s.refreshing with
  | some r => exact good
  | none =>
    dsimp only
    split
    · exact good
    · have ids := listsToUpdate_ids (s.lists.array white) force now interval
      refine ⟨⟨good.distinct.nodup, good.distinct.known⟩, good.parsed, good.files, ?_, ?_⟩
      · intro r started
        obtain rfl := Option.some.inj started
        constructor
        · exact (good.distinct.array white).sublist ids
        · intro id member
          obtain ⟨f, listed, rfl⟩ := List.mem_map.mp (ids.subset member)
          exact good.distinct.known f (Lists.mem_all_of_array listed)
        · intro f other member
          obtain ⟨g, listed, same⟩ := List.mem_map.mp (ids.subset member)
          exact good.distinct.apart listed other same
        · exact le_rfl
        · simp [Parses]
        · simp
      · intro f member enabled res last
        obtain ⟨stored, describes⟩ := good.described idle f member enabled res last
        exact ⟨stored, Or.inl describes⟩

section Update

variable (disk : Disk) (flt : FilterYAML) (d : Download)

theorem outcome_replaced (updated : (Filtering.update disk flt d).updated = true)
    (done : (Filtering.update disk flt d).err = none) :
    d.outcome flt.checksum = .replaced := by
  obtain ⟨flag, failed⟩ := update_outcome disk flt d
  rw [updated] at flag
  rw [done] at failed
  exact (d.outcome flt.checksum).eq_replaced flag.symm failed.symm

theorem outcome_unchanged (updated : (Filtering.update disk flt d).updated = false)
    (done : (Filtering.update disk flt d).err = none) :
    d.outcome flt.checksum = .unchanged := by
  obtain ⟨flag, failed⟩ := update_outcome disk flt d
  rw [updated] at flag
  rw [done] at failed
  exact (d.outcome flt.checksum).eq_unchanged flag.symm failed.symm

theorem outcome_error {err : UpdateError} (failed : (Filtering.update disk flt d).err = some err) :
    (d.outcome flt.checksum).isError = true := by
  rw [← (update_outcome disk flt d).2, failed]
  rfl

/-- An update replaces the file by the download, with the metadata of it, or leaves it. -/
theorem update_replace (files : FiniteMap ListID Parser) :
    let u := Filtering.update disk flt d
    (replace files flt d = files ∧ u.disk = disk) ∨
    ∃ res, d.parsed = some res ∧ replace files flt d = files.set flt.id res ∧
      u.disk = disk.set flt.id res.dst ∧ u.updated = true ∧ u.flt.Describes res := by
  intro u
  have replaced := outcome_replaced disk flt d
  have unchanged := outcome_unchanged disk flt d
  have failing := @outcome_error disk flt d
  have updating := update_cases disk flt d
  have result : u = Filtering.update disk flt d := rfl
  rw [← result] at updating replaced unchanged failing
  have kept : (d.outcome flt.checksum).isError = true → replace files flt d = files := by
    intro error
    cases outcome : d.outcome flt.checksum with
    | failed | replaceFailed => simp only [replace, outcome]
    | unchanged | replaced => simp [outcome, Outcome.isError] at error
  generalize u = v at *
  cases updating with
  | failed err => exact Or.inl ⟨kept (failing rfl), rfl⟩
  | replaceFailed res parsed differs => exact Or.inl ⟨kept (failing rfl), rfl⟩
  | unchanged res parsed same => exact Or.inl ⟨by simp only [replace, unchanged rfl rfl], rfl⟩
  | replaced res parsed differs =>
    exact Or.inr ⟨res, parsed, by simp only [replace, replaced rfl rfl, parsed], rfl, rfl, rfl, rfl⟩

theorem Holds.replace {files : FiniteMap ListID Parser} (holds : Holds disk files) :
    Holds (Filtering.update disk flt d).disk (replace files flt d) := by
  rcases update_replace disk flt d files with ⟨files, disk⟩ | ⟨new, _, files, disk, _⟩
  · rw [files, disk]
    exact holds
  · rw [files, disk]
    intro id res last
    rw [FiniteMap.get_set] at last ⊢
    by_cases same : id = flt.id
    · rw [if_pos same] at last ⊢
      rw [Option.some.inj last]
    · rw [if_neg same] at last ⊢
      exact holds id res last

theorem parses_set {Key : Type} [DecidableEq Key] {table : FiniteMap Key Parser}
    (parses : Parses table) {d : Download} {res : Parser} (parsed : d.parsed = some res)
    (key : Key) : Parses (table.set key res) := by
  intro other found last
  rw [FiniteMap.get_set] at last
  split at last
  next =>
    obtain rfl := Option.some.inj last
    unfold Download.parsed at parsed
    split at parsed
    · nomatch parsed
    next body _ =>
      split at parsed
      · nomatch parsed
      next result => exact ⟨body, Option.some.inj parsed ▸ result⟩
  next => exact parses other found last

theorem Parses.record {downloads : FiniteMap (ListID × Bytes) Parser} (parses : Parses downloads)
    (err : Option UpdateError) : Parses (record downloads flt d err) := by
  unfold Filtering.record
  split
  next contents parsed => exact parses_set parses parsed _
  next => exact parses

end Update

section Round

variable {uf f : FilterYAML} {rest : List FilterYAML} {d : Download} {u : Updated} {res : Parser}

theorem failNum_round (bound : r.failNum ≤ r.done.length) :
    (r.round uf rest d u).failNum ≤ (r.round uf rest d u).done.length := by
  simp only [Refreshing.round, List.length_append, List.length_singleton]
  split <;> omega

theorem entries_round (next : r.todo = uf :: rest) (same : u.flt.id = uf.id) :
    (r.round uf rest d u).entries.map (·.id) = r.entries.map (·.id) := by
  simp [Refreshing.round, Refreshing.entries, next, same]

/-- The list that is next has not been updated yet. -/
theorem Running.undone (running : s.Running r) (next : r.todo = uf :: rest) :
    r.brought.get uf.id = none := by
  by_contra some
  obtain ⟨contents, brings⟩ := Option.ne_none_iff_exists'.mp some
  obtain ⟨u, done, _, same, _⟩ := running.brought _ _ brings
  have distinct := running.distinct
  rw [Refreshing.entries, next, List.map_append, List.nodup_append] at distinct
  exact distinct.2.2 u.1.id (List.mem_map_of_mem (List.mem_map_of_mem done)) uf.id
    (List.mem_map_of_mem List.mem_cons_self) same

theorem Running.round (running : s.Running r) (next : r.todo = uf :: rest) (disk : Disk)
    (d : Download) :
    let r' := r.round uf rest d (Filtering.update disk uf d)
    Parses r'.brought ∧ (∀ id contents, r.brought.get id = some contents →
      r'.brought.get id = some contents) ∧
      ∀ id contents, r'.brought.get id = some contents →
        ∃ u ∈ r'.done, u.2 = true ∧ u.1.id = id ∧ u.1.Describes contents := by
  intro r'
  have earlier : ∀ id contents, r.brought.get id = some contents →
      ∃ u ∈ r'.done, u.2 = true ∧ u.1.id = id ∧ u.1.Describes contents := by
    intro id contents brings
    obtain ⟨u, done, entry⟩ := running.brought id contents brings
    exact ⟨u, List.mem_append_left _ done, entry⟩
  have brought : r'.brought = replace r.brought uf d := rfl
  rcases update_replace disk uf d r.brought with ⟨same, _⟩ | ⟨res, parsed, new, _, flag, describes⟩
  · rw [brought, same]
    exact ⟨running.parsed, fun _ _ brings => brings, earlier⟩
  · rw [brought, new]
    refine ⟨parses_set running.parsed parsed _, ?_, ?_⟩
    · intro id contents brings
      rw [FiniteMap.get_set]
      split
      next same => simp [same, running.undone next] at brings
      next => exact brings
    · intro id contents brings
      rw [FiniteMap.get_set] at brings
      split at brings
      next same =>
        obtain rfl := Option.some.inj brings
        refine ⟨_, List.mem_append_right _ (List.mem_singleton_self _), flag, ?_, describes⟩
        exact (update_id disk uf d).trans same.symm
      next => exact earlier id contents brings

theorem brings_round (running : s.Running r) (next : r.todo = uf :: rest) (disk : Disk)
    (brings : r.Brings f res) : (r.round uf rest d (Filtering.update disk uf d)).Brings f res := by
  obtain ⟨fewer, ⟨v, member, entry⟩, contents, brought, dst⟩ := brings
  refine ⟨?_, ⟨v, List.mem_append_left _ member, entry⟩, contents,
    (running.round next disk d).2.1 _ _ brought, dst⟩
  simp only [Refreshing.round, List.length_append, List.length_singleton]
  split <;> omega

end Round

theorem Good.update (good : s.Good) {d : Download} (sound : s.Sound (.update d)) :
    (s.update d).Good := by
  unfold ListStore.update
  cases refreshing : s.refreshing with
  | none => exact good
  | some r =>
    dsimp only
    cases next : r.todo with
    | nil => exact good
    | cons uf rest =>
      have running := good.running r refreshing
      have sound := sound r refreshing uf (by rw [next]; rfl)
      obtain ⟨parses, earlier, brought⟩ := running.round next s.lists.disk d
      have holds := Holds.replace s.lists.disk uf d good.files
      have stillBrings : ∀ f res, r.Brings f res →
          (r.round uf rest d (Filtering.update s.lists.disk uf d)).Brings f res :=
        fun _ _ brings => brings_round running next s.lists.disk brings
      have same := update_id s.lists.disk uf d
      have url := update_url s.lists.disk uf d
      have replaced := outcome_replaced s.lists.disk uf d
      have unchanged := outcome_unchanged s.lists.disk uf d
      have updating := update_cases s.lists.disk uf d
      dsimp only at parses earlier brought ⊢
      generalize Filtering.update s.lists.disk uf d = u at *
      refine ⟨⟨good.distinct.nodup, good.distinct.known⟩, good.parsed.record uf d u.err, holds,
        ?_, ?_⟩
      · intro r' here
        obtain rfl := Option.some.inj here
        have ids := entries_round (d := d) next same
        constructor
        · rw [ids]
          exact running.distinct
        · rw [ids]
          exact running.known
        · rw [ids]
          exact running.apart
        · exact failNum_round running.failed
        · exact parses
        · exact brought
      -- What was pending still is, so that only the updated list has to be looked at.
      have before : ∀ f ∈ s.lists.all, f.enabled = true → ∀ res,
          s.downloads.get (f.id, f.url) = some res →
            s.Stored f res ∧ (f.Describes res ∨ (r.round uf rest d u).Brings f res) := by
        intro f member enabled res last
        obtain ⟨stored, described⟩ := good.stored f member enabled res last
        refine ⟨stored, described.imp id ?_⟩
        intro ⟨r', here, brings⟩
        obtain rfl := Option.some.inj (refreshing.symm.trans here)
        exact stillBrings f res brings
      have after : ∀ f ∈ s.lists.all, f.enabled = true → ∀ res,
          (record s.downloads uf d u.err).get (f.id, f.url) = some res →
            u.disk.get f.id = some res.dst ∧
              (f.Describes res ∨ (r.round uf rest d u).Brings f res) := by
        intro f member enabled res last
        have source := good.parsed.record uf d u.err (f.id, f.url) res last
        cases updating with
        | failed err => exact before f member enabled res last
        | replaceFailed contents parsed differs => exact before f member enabled res last
        | unchanged contents parsed checksum =>
          simp only [Filtering.record, parsed, FiniteMap.get_set, Prod.mk.injEq] at last
          split at last
          next this =>
            obtain rfl := Option.some.inj last
            obtain ⟨former, download, dst⟩ :=
              (sound contents parsed).2 (unchanged rfl rfl) f member enabled this.1 this.2
            obtain ⟨stored, described⟩ := before f member enabled former download
            refine ⟨dst ▸ stored, described.imp ?_ ?_⟩
            · exact describes_of_dst (good.parsed _ former download) source dst
            · rintro ⟨fewer, entry, contents, brings, text⟩
              exact ⟨fewer, entry, contents, brings, text.trans dst⟩
          next => exact before f member enabled res last
        | replaced contents parsed differs =>
          have outcome := replaced rfl rfl
          simp only [Filtering.record, parsed, FiniteMap.get_set, Prod.mk.injEq] at last
          split at last
          next this =>
            obtain rfl := Option.some.inj last
            refine ⟨by rw [this.1, FiniteMap.get_set_self], Or.inr ⟨?_, ?_, ?_⟩⟩
            · simpa [Refreshing.round] using Nat.lt_succ_of_le running.failed
            · refine ⟨_, List.mem_append_right _ (List.mem_singleton_self _), rfl, ?_, ?_⟩
              · exact same.trans this.1.symm
              · exact url.trans this.2.symm
            · refine ⟨contents, ?_, rfl⟩
              simp only [Refreshing.round, replace, outcome, parsed, this.1]
              exact FiniteMap.get_set_self _ _ _
          next other =>
            obtain ⟨stored, described⟩ := before f member enabled res last
            refine ⟨?_, described⟩
            rw [FiniteMap.get_set]
            split
            next here =>
              have elsewhere : f.url ≠ uf.url := fun there => other ⟨here, there⟩
              have kept := (sound contents parsed).1 outcome f member enabled res last here elsewhere
              rw [kept]
            next => exact stored
      intro f member enabled res last
      obtain ⟨stored, described⟩ := after f member enabled res last
      exact ⟨stored, described.imp id fun brings => ⟨_, rfl, brings⟩⟩

section Sync

theorem syncFilter_identity (uf : FilterYAML) (updated : Bool) (f : FilterYAML) :
    (syncFilter uf updated f).identity = f.identity := by
  unfold syncFilter
  split
  · rfl
  · split <;> rfl

/-- One round writes the metadata of an updated list that it finds, and no others. -/
theorem syncFilter_cases (uf : FilterYAML) (updated : Bool) (f : FilterYAML) :
    (updated = true ∧ uf.id = f.id ∧ uf.url = f.url ∧
      ∀ res, uf.Describes res → (syncFilter uf updated f).Describes res) ∨
    ((updated = true → uf.id = f.id → uf.url ≠ f.url) ∧
      ∀ res, f.Describes res → (syncFilter uf updated f).Describes res) := by
  unfold syncFilter
  split
  next other =>
    refine Or.inr ⟨?_, fun res describes => describes⟩
    intro _ id url
    exact other.elim (fun ids => ids id.symm) (fun urls => urls url.symm)
  next same =>
    simp only [ne_eq, not_or, Decidable.not_not] at same
    cases updated with
    | false => exact Or.inr ⟨nofun, fun res describes => describes⟩
    | true => exact Or.inl ⟨rfl, same.1.symm, same.2.symm, fun res describes => describes⟩

def synced (updates : List (FilterYAML × Bool)) (f : FilterYAML) : FilterYAML :=
  updates.foldl (fun f u => syncFilter u.1 u.2 f) f

theorem syncUpdatedFilters_eq (filters : List FilterYAML) (updates : List (FilterYAML × Bool)) :
    (syncUpdatedFilters filters updates).1 = filters.map (synced updates) := by
  induction updates generalizing filters with
  | nil => exact filters.map_id.symm
  | cons head rest ih =>
    simp only [syncUpdatedFilters, ih, List.map_map]
    rfl

theorem synced_identity (updates : List (FilterYAML × Bool)) (f : FilterYAML) :
    (synced updates f).identity = f.identity := by
  induction updates generalizing f with
  | nil => rfl
  | cons head rest ih => exact (ih _).trans (syncFilter_identity _ _ _)

theorem synced_id (updates : List (FilterYAML × Bool)) (f : FilterYAML) :
    (synced updates f).id = f.id := congrArg (·.1) (synced_identity updates f)

theorem synced_url (updates : List (FilterYAML × Bool)) (f : FilterYAML) :
    (synced updates f).url = f.url := congrArg (·.2.1) (synced_identity updates f)

theorem synced_enabled (updates : List (FilterYAML × Bool)) (f : FilterYAML) :
    (synced updates f).enabled = f.enabled := congrArg (·.2.2.1) (synced_identity updates f)

/-- If every updated list that is found has the metadata of the contents, the list has them
afterwards; if none is found it keeps its own. -/
theorem synced_describes (updates : List (FilterYAML × Bool)) (f : FilterYAML) (res : Parser)
    (right : ∀ u ∈ updates, u.2 = true → u.1.id = f.id → u.1.url = f.url → u.1.Describes res)
    (own : f.Describes res ∨ ∃ u ∈ updates, u.2 = true ∧ u.1.id = f.id ∧ u.1.url = f.url) :
    (synced updates f).Describes res := by
  induction updates generalizing f with
  | nil => exact own.resolve_right (by simp)
  | cons head rest ih =>
    have id := congrArg (·.1) (syncFilter_identity head.1 head.2 f)
    have url := congrArg (·.2.1) (syncFilter_identity head.1 head.2 f)
    simp only [FilterYAML.identity] at id url
    apply ih
    · intro u member
      rw [id, url]
      exact right u (List.mem_cons_of_mem _ member)
    · rw [id, url]
      rcases syncFilter_cases head.1 head.2 f with ⟨flag, sameId, sameUrl, writes⟩ | ⟨other, keeps⟩
      · exact Or.inl (writes res (right head List.mem_cons_self flag sameId sameUrl))
      · refine own.imp (keeps res) ?_
        intro ⟨u, member, flag, sameId, sameUrl⟩
        rcases List.mem_cons.mp member with rfl | later
        · exact absurd sameUrl (other flag sameId)
        · exact ⟨u, later, flag, sameId, sameUrl⟩

end Sync

theorem Good.sync (good : s.Good) (sound : s.Sound .sync) : s.sync.Good := by
  unfold ListStore.sync
  cases refreshing : s.refreshing with
  | none => exact good
  | some r =>
    dsimp only
    cases todo : r.todo with
    | cons uf rest => exact good
    | nil =>
      have running := good.running r refreshing
      dsimp only
      split
      next allFailed =>
        refine ⟨⟨good.distinct.nodup, good.distinct.known⟩, good.parsed, good.files,
          fun _ none => (by cases none), ?_⟩
        intro f member enabled res last
        obtain ⟨stored, describes | ⟨r', here, brings⟩⟩ := good.stored f member enabled res last
        · exact ⟨stored, Or.inl describes⟩
        · obtain rfl := Option.some.inj (refreshing.symm.trans here)
          exact absurd allFailed brings.1.ne
      next someDone =>
        have fewer : r.failNum < r.done.length := lt_of_le_of_ne running.failed someDone
        have sound := sound r refreshing todo fewer
        -- Every list afterwards is one from before, synced if the refresh is about its array.
        have former : ∀ white, ∀ f ∈ (s.lists.setArray r.white (syncUpdatedFilters
            (s.lists.array r.white) r.done).1).array white, ∃ g ∈ s.lists.array white,
            (white = r.white ∧ f = synced r.done g) ∨ (white = !r.white ∧ f = g) := by
          intro white f member
          rw [Lists.array_setArray, syncUpdatedFilters_eq] at member
          split at member
          next same =>
            obtain ⟨g, listed, rfl⟩ := List.mem_map.mp member
            exact ⟨g, same ▸ listed, Or.inl ⟨same, rfl⟩⟩
          next other => exact ⟨f, member, Or.inr ⟨Bool.eq_not_of_ne other, rfl⟩⟩
        have ids : (s.lists.setArray r.white (syncUpdatedFilters (s.lists.array r.white)
            r.done).1).all.map (·.id) = s.lists.all.map (·.id) := by
          cases r.white <;>
            simp [Lists.all, Lists.setArray, Lists.array, syncUpdatedFilters_eq, synced_id,
              Function.comp_def]
        refine ⟨⟨?_, ?_⟩, good.parsed, ?_, fun _ none => (by cases none), ?_⟩
        · rw [ids]
          exact good.distinct.nodup
        · intro f member
          have listed := List.mem_map_of_mem (f := (·.id)) member
          rw [ids] at listed
          obtain ⟨g, known, same⟩ := List.mem_map.mp listed
          exact same ▸ good.distinct.known g known
        · rw [Lists.disk_setArray]
          exact good.files
        · intro f member enabled res last
          obtain ⟨white, inArray⟩ := Lists.mem_all.mp member
          obtain ⟨g, listed, ⟨rfl, rfl⟩ | ⟨rfl, rfl⟩⟩ := former white f inArray
          · rw [synced_enabled] at enabled
            rw [synced_id, synced_url] at last
            have gMember := Lists.mem_all_of_array listed
            obtain ⟨stored, described⟩ := good.stored g gMember enabled res last
            refine ⟨?_, Or.inl ?_⟩
            · rw [Stored, Lists.disk_setArray, synced_id]
              exact stored
            · apply synced_describes
              · intro u done flag id url
                obtain ⟨contents, brings, dst⟩ :=
                  sound u done flag g gMember enabled res last id.symm url.symm
                rw [← id] at brings
                exact describes_of_dst (running.parsed _ contents brings)
                  (good.parsed _ res last) dst (running.entry done brings)
              · refine described.imp id ?_
                rintro ⟨r', here, _, entry, _⟩
                obtain rfl := Option.some.inj (refreshing.symm.trans here)
                exact entry
          · obtain ⟨stored, describes | ⟨r', here, _, ⟨u, done, _, id, _⟩, _⟩⟩ :=
              good.stored f (Lists.mem_all_of_array listed) enabled res last
            · rw [Stored, Lists.disk_setArray]
              exact ⟨stored, Or.inl describes⟩
            · obtain rfl := Option.some.inj (refreshing.symm.trans here)
              refine absurd ?_ (running.apart f listed)
              rw [← id]
              exact List.mem_map_of_mem (List.mem_append_left _ (List.mem_map_of_mem done))

end ListStore

end AdGuardHome.Filtering
