import AdGuardHome.Filtering.ListOperations
import AdGuardHome.Filtering.Refresh
import AdGuardHome.Lib.Machine

namespace AdGuardHome.Filtering

open RuleList Strings Transition

/-- What a download leaves in a list's file, beside what the files had before. -/
def replace (files : FiniteMap ListID Parser) (flt : FilterYAML) (d : Download) :
    FiniteMap ListID Parser :=
  match d.outcome flt.checksum, d.parsed with
  | .replaced, some res => files.set flt.id res
  | _, _ => files

/-- `refreshFiltersArray` between `listsToUpdate` and `syncUpdatedFilters`: the lists that
are still to be updated, those that have been with their flags, and the downloads that have
replaced a file. -/
structure Refreshing where
  white : Bool
  todo : List FilterYAML
  done : List (FilterYAML × Bool)
  failNum : Nat
  brought : FiniteMap ListID Parser

def Refreshing.entries (r : Refreshing) : List FilterYAML := r.done.map (·.1) ++ r.todo

def Refreshing.round (r : Refreshing) (uf : FilterYAML) (rest : List FilterYAML) (d : Download)
    (u : Updated) : Refreshing where
  white := r.white
  todo := rest
  done := r.done ++ [(u.flt, u.updated)]
  failNum := if u.err.isSome then r.failNum + 1 else r.failNum
  brought := replace r.brought uf d

/-- The lists, the refresh that is under way, what was last downloaded for each list from
each URL without an error, the downloads that have last replaced the files, and the IDs that
have been given to lists. -/
structure ListStore where
  lists : Lists
  refreshing : Option Refreshing
  downloads : FiniteMap (ListID × Bytes) Parser
  files : FiniteMap ListID Parser
  ids : List ListID

inductive StoreEvent where
  /-- `listsToUpdate`, with the interval in hours. -/
  | listsToUpdate (white force : Bool) (now : Int) (interval : Nat)
  /-- The next round of `updateFilterList`. -/
  | update (d : Download)
  /-- The end of `refreshFiltersArray`. -/
  | sync
  | filterSetProperties (listURL : Bytes) (newList : FilterYAML) (isAllowlist : Bool)
      (d : Download)
  | addURL (url name : Bytes) (white : Bool) (id : ListID) (d : Download)
  | removeURL (url : Bytes) (white renamed : Bool)

def record (downloads : FiniteMap (ListID × Bytes) Parser) (flt : FilterYAML) (d : Download)
    (err : Option UpdateError) : FiniteMap (ListID × Bytes) Parser :=
  match err, d.parsed with
  | none, some res => downloads.set (flt.id, flt.url) res
  | _, _ => downloads

/-- Whether `filterSetProperties` comes to the update. -/
def updates (exists_ : Bool) (old newList : FilterYAML) : Bool :=
  !(old.url != newList.url && exists_) && newList.enabled && old.restarts newList

namespace ListStore

def listsToUpdate (s : ListStore) (white force : Bool) (now : Int) (interval : Nat) : ListStore :=
  match s.refreshing with
  | some _ => s
  | none =>
    let updateFilters := Filtering.listsToUpdate (s.lists.array white) force now interval
    if updateFilters.length = 0 then s
    else { s with refreshing := some ⟨white, updateFilters, [], 0, ∅⟩ }

def update (s : ListStore) (d : Download) : ListStore :=
  match s.refreshing with
  | none => s
  | some r =>
    match r.todo with
    | [] => s
    | uf :: rest =>
      let u := Filtering.update s.lists.disk uf d
      { s with
        lists := { s.lists with disk := u.disk }
        refreshing := some (r.round uf rest d u)
        downloads := record s.downloads uf d u.err
        files := replace s.files uf d }

def sync (s : ListStore) : ListStore :=
  match s.refreshing with
  | none => s
  | some r =>
    match r.todo with
    | _ :: _ => s
    | [] =>
      if r.failNum = r.done.length then { s with refreshing := none }
      else
        { s with
          lists := s.lists.setArray r.white
            (syncUpdatedFilters (s.lists.array r.white) r.done).1
          refreshing := none }

def find (s : ListStore) (listURL : Bytes) (isAllowlist : Bool) : Option FilterYAML :=
  (s.lists.array isAllowlist).find? (·.url == listURL)

def filterSetProperties (s : ListStore) (listURL : Bytes) (newList : FilterYAML)
    (isAllowlist : Bool) (d : Download) : ListStore :=
  { s with
    lists := (s.lists.filterSetProperties listURL newList isAllowlist d).1
    downloads :=
      match s.find listURL isAllowlist with
      | none => s.downloads
      | some old =>
        if updates (s.lists.filterExists newList.url) old newList then
          let flt := old.withProperties newList
          record s.downloads flt d (Filtering.update s.lists.disk flt d).err
        else s.downloads
    files :=
      match s.find listURL isAllowlist with
      | none => s.files
      | some old =>
        if updates (s.lists.filterExists newList.url) old newList then
          replace s.files (old.withProperties newList) d
        else s.files }

def addURL (s : ListStore) (url name : Bytes) (white : Bool) (id : ListID) (d : Download) :
    ListStore :=
  { s with
    lists := s.lists.addURL url name white id d
    downloads :=
      if s.lists.filterExists url then s.downloads
      else
        let flt := Lists.newFilter url name white id
        record s.downloads flt d (Filtering.update s.lists.disk flt d).err
    files :=
      if s.lists.filterExists url then s.files
      else replace s.files (Lists.newFilter url name white id) d
    ids := id :: s.ids }

def removeURL (s : ListStore) (url : Bytes) (white renamed : Bool) : ListStore :=
  { s with
    lists := s.lists.removeURL url white renamed
    files :=
      match s.find url white with
      | none => s.files
      | some deleted => if renamed then s.files.delete deleted.id else s.files }

def next (s : ListStore) : StoreEvent → ListStore
  | .listsToUpdate white force now interval => s.listsToUpdate white force now interval
  | .update d => s.update d
  | .sync => s.sync
  | .filterSetProperties listURL newList isAllowlist d =>
    s.filterSetProperties listURL newList isAllowlist d
  | .addURL url name white id d => s.addURL url name white id d
  | .removeURL url white renamed => s.removeURL url white renamed

def machine : Machine ListStore StoreEvent PUnit.{1} := ⟨fun s event => (s.next event, ⟨⟩)⟩

end ListStore

namespace FilterYAML

def Describes (f : FilterYAML) (res : Parser) : Prop :=
  f.checksum = res.checksum ∧ f.rulesCount = res.rulesCount

instance (f : FilterYAML) (res : Parser) : Decidable (f.Describes res) :=
  inferInstanceAs (Decidable (_ ∧ _))

/-- The metadata of a list are those that the file has when it is parsed. -/
def DescribesFile (f : FilterYAML) (file : Bytes) : Prop :=
  match parse file with
  | .error _ => False
  | .ok res => f.Describes res

instance (f : FilterYAML) (file : Bytes) : Decidable (f.DescribesFile file) :=
  match parsed : parse file with
  | .error _ => .isFalse fun describes => by simp [DescribesFile, parsed] at describes
  | .ok res => decidable_of_iff (f.Describes res) (by simp only [DescribesFile, parsed])

end FilterYAML

namespace ListStore

/-- What holds of every enabled list that has been downloaded from its URL, and of the last
download from there. -/
def Downloaded (s : ListStore) (P : FilterYAML → Parser → Prop) : Prop :=
  ∀ f ∈ s.lists.all, f.enabled = true → ∀ res, s.downloads.get (f.id, f.url) = some res → P f res

instance {P : FilterYAML → Parser → Prop} [∀ f res, Decidable (P f res)] (s : ListStore) :
    Decidable (s.Downloaded P) :=
  inferInstanceAs (Decidable (∀ f ∈ s.lists.all, _ → ∀ res, _ = some res → _))

def Stored (s : ListStore) (f : FilterYAML) (res : Parser) : Prop :=
  s.lists.disk.get f.id = some res.dst

instance (s : ListStore) (f : FilterYAML) (res : Parser) : Decidable (s.Stored f res) :=
  inferInstanceAs (Decidable (_ = _))

/-- The file of each such list is that of its last download, and the metadata are those of
the file. -/
def Consistent (s : ListStore) : Prop :=
  s.Downloaded fun f res => s.Stored f res ∧ f.DescribesFile res.dst

instance (s : ListStore) : Decidable s.Consistent :=
  inferInstanceAs (Decidable (s.Downloaded _))

/-- What was downloaded is what the parser has made of some contents. -/
def Parses {Key : Type} [DecidableEq Key] (table : FiniteMap Key Parser) : Prop :=
  ∀ key res, table.get key = some res → ∃ src, parse src = .ok res

/-- The contents that the table has under the key are those of the download. -/
def Latest {Key : Type} [DecidableEq Key] (table : FiniteMap Key Parser) (key : Key)
    (res : Parser) : Prop :=
  ∃ last ∈ table.get key, last.dst = res.dst

instance {Key : Type} [DecidableEq Key] (table : FiniteMap Key Parser) (key : Key) (res : Parser) :
    Decidable (Latest table key res) :=
  inferInstanceAs (Decidable (∃ last ∈ table.get key, _))

def Holds (disk : Disk) (files : FiniteMap ListID Parser) : Prop :=
  ∀ id res, files.get id = some res → disk.get id = some res.dst

structure Distinct (s : ListStore) : Prop where
  nodup : (s.lists.all.map (·.id)).Nodup
  known : ∀ f ∈ s.lists.all, f.id ∈ s.ids

def Fresh (s : ListStore) : StoreEvent → Prop
  | .addURL _ _ _ id _ => id ∉ s.ids
  | _ => True

instance (s : ListStore) (event : StoreEvent) : Decidable (s.Fresh event) :=
  match event with
  | .addURL _ _ _ id _ => inferInstanceAs (Decidable (id ∉ s.ids))
  | .listsToUpdate .. | .update _ | .sync | .filterSetProperties .. | .removeURL .. => .isTrue trivial

section Alone

theorem length_updateFilterList (ds : Nat → Download) (disk : Disk) (ufs : List FilterYAML)
    (i : Nat) : (updateFilterList ds disk ufs i).2.length = ufs.length := by
  induction ufs generalizing disk i with
  | nil => rfl
  | cons uf rest ih => simp [updateFilterList, ih]

/-- The updates of a refresh, one after the other, are those of `updateFilterList`. -/
theorem run_updates (ds : Nat → Download) (s : ListStore) (white : Bool) (todo : List FilterYAML)
    (done : List (FilterYAML × Bool)) (failNum i : Nat) (brought : FiniteMap ListID Parser)
    (running : s.refreshing = some ⟨white, todo, done, failNum, brought⟩) :
    let after := machine.run s ((List.range' i todo.length).map fun j => .update (ds j))
    let result := updateFilterList ds s.lists.disk todo i
    after.lists = { s.lists with disk := result.1 } ∧
      ∃ brought, after.refreshing = some ⟨white, [],
        done ++ result.2.map fun u => (u.flt, u.updated),
        failNum + result.2.countP (·.err.isSome), brought⟩ := by
  induction todo generalizing s done failNum i brought with
  | nil => simp [updateFilterList, running]
  | cons uf rest ih =>
    let u := Filtering.update s.lists.disk uf (ds i)
    have next : machine.next s (.update (ds i)) =
        { s with
          lists := { s.lists with disk := u.disk }
          refreshing := some
            (Refreshing.round ⟨white, uf :: rest, done, failNum, brought⟩ uf rest (ds i) u)
          downloads := record s.downloads uf (ds i) u.err
          files := replace s.files uf (ds i) } := by
      show s.update (ds i) = _
      simp only [update, running, u]
    have step := ih (machine.next s (.update (ds i))) (done ++ [(u.flt, u.updated)])
      (if u.err.isSome then failNum + 1 else failNum) (i + 1) (replace brought uf (ds i))
      (by rw [next]; rfl)
    have disk : (machine.next s (.update (ds i))).lists.disk = u.disk := by rw [next]
    have lists : (machine.next s (.update (ds i))).lists = { s.lists with disk := u.disk } := by
      rw [next]
    simp only [List.length_cons, List.range'_succ, List.map_cons, Machine.run_cons]
    refine ⟨?_, ?_⟩
    · rw [step.1, disk, lists]
      rfl
    · obtain ⟨after, refreshing⟩ := step.2
      refine ⟨after, ?_⟩
      rw [refreshing, disk]
      simp only [updateFilterList, List.map_cons, List.countP_cons, List.append_assoc,
        List.singleton_append, u]
      congr 2
      split <;> omega

/-- Without other requests, the steps of a refresh are `refreshFiltersArray`. -/
theorem run_refresh (s : ListStore) (white force : Bool) (env : RefreshEnv)
    (idle : s.refreshing = none) :
    let updateFilters := Filtering.listsToUpdate (s.lists.array white) force (env.now white)
      env.interval
    (machine.run s (.listsToUpdate white force (env.now white) env.interval ::
      ((List.range' 0 updateFilters.length).map (fun j => .update (env.downloads white j)) ++
        [.sync]))).lists = (refreshFiltersArray s.lists white force env).lists := by
  intro updateFilters
  simp only [Machine.run_cons, Machine.run_append, Machine.run_nil, refreshFiltersArray]
  by_cases nothing : updateFilters.length = 0
  · have snapshot : machine.next s (.listsToUpdate white force (env.now white) env.interval) = s := by
      show s.listsToUpdate white force (env.now white) env.interval = s
      simp only [listsToUpdate, idle]
      exact if_pos nothing
    have same : machine.next s .sync = s := by
      show s.sync = s
      simp only [sync, idle]
    rw [snapshot, nothing, List.range'_zero, List.map_nil, Machine.run_nil, same, if_pos rfl]
  · have snapshot : machine.next s (.listsToUpdate white force (env.now white) env.interval) =
        { s with refreshing := some ⟨white, updateFilters, [], 0, ∅⟩ } := by
      show s.listsToUpdate white force (env.now white) env.interval = _
      simp only [listsToUpdate, idle]
      exact if_neg nothing
    obtain ⟨lists, brought, refreshing⟩ := run_updates (env.downloads white)
      { s with refreshing := some ⟨white, updateFilters, [], 0, ∅⟩ } white updateFilters [] 0 0 ∅ rfl
    have lengths := length_updateFilterList (env.downloads white) s.lists.disk updateFilters 0
    rw [snapshot, if_neg nothing]
    generalize machine.run { s with refreshing := some ⟨white, updateFilters, [], 0, ∅⟩ }
      ((List.range' 0 updateFilters.length).map fun j => .update (env.downloads white j)) = after
      at lists refreshing ⊢
    show after.sync.lists = _
    simp only [sync, refreshing, lists, List.nil_append, List.length_map, Nat.zero_add, lengths]
    split
    next => rfl
    next => cases white <;> rfl

end Alone

end ListStore

end AdGuardHome.Filtering
