import AdGuardHome.Filtering.RuleListEngineProcess
import AdGuardHome.Lib.Machine

namespace AdGuardHome.Filtering.RuleListEngine

open Strings

variable {Ptr Outside : Type} [DecidableEq Ptr]

/-- The rules of the last refresh of the filter that succeeded. -/
def lastRules (f : Ptr) (history : List (Ptr × Bytes)) : Option Bytes :=
  (history.find? fun refreshed => refreshed.1 = f).map Prod.snd

namespace Engine

/-- The engine in use has an open list of the filter with these rules. -/
def HasRules (e : Engine Ptr) (f : Ptr) (text : Bytes) : Prop :=
  ∃ list ∈ e.storage.getD [], list.owner = f ∧ list.rulesText = text ∧
    list.number ∉ e.lists.closed

/-- The engine in use holds the last rules of every enabled filter. -/
def HoldsLast (e : Engine Ptr) : Prop :=
  ∀ f ∈ e.filtersToRefresh, ∀ text, lastRules f e.history = some text → e.HasRules f text

/-- What the storage and the filters have in common at any time. -/
structure WellFormed (e : Engine Ptr) : Prop where
  numbered : e.lists.Numbered
  stored : ∀ list ∈ e.storage.getD [], list.number < e.lists.created
  ids : ∀ list ∈ e.storage.getD [], list.id = (e.lists.filter list.owner).urlFilterID
  unique : ((e.storage.getD []).map (·.id)).Nodup

variable (newRuleStorage : List Nat → Bool) (outsideTimeout : Outside → Bool)

/-- A refresh tells whether every enabled filter was refreshed, and keeps the last rules. -/
def RefreshesAll (e : Engine Ptr) (calls : Ptr → Call Outside) : Prop :=
  let (after, report) := e.refresh newRuleStorage outsideTimeout calls
  (report.err = none ↔ ∀ f ∈ e.filtersToRefresh, f ∈ report.refreshed) ∧ after.HoldsLast

/-- The context stays, there is not just one failure that is a timeout, no filter fails that was
refreshed before, and the lists that are refreshed have different IDs. -/
structure Undisturbed (e : Engine Ptr) (calls : Ptr → Call Outside) : Prop where
  going : ∀ f ∈ e.filtersToRefresh, (calls f).done = none
  failures : isOneTimeoutError outsideTimeout
    (e.filtersToRefresh.filterMap (e.lists.failure calls)) = false
  unrefreshed : ∀ f ∈ e.filtersToRefresh, e.lists.failure calls f ≠ none →
    lastRules f e.history = none
  ids : ((e.filtersToRefresh.filterMap (e.lists.success calls)).map fun refreshed =>
    (e.lists.filter refreshed.1).urlFilterID).Nodup

variable {e : Engine Ptr} {calls : Ptr → Call Outside}

omit [DecidableEq Ptr] in
theorem foldl_close (storage : List (CompiledList Ptr)) (lists : Lists Ptr) :
    (storage.foldl Lists.close lists).filter = lists.filter ∧
      (storage.foldl Lists.close lists).created = lists.created ∧
      ∀ number ∈ (storage.foldl Lists.close lists).closed,
        number ∈ lists.closed ∨ ∃ list ∈ storage, list.number = number := by
  induction storage generalizing lists with
  | nil => exact ⟨rfl, rfl, fun _ closed => .inl closed⟩
  | cons list rest ih =>
    obtain ⟨filter, created, closed⟩ := ih (lists.close list)
    have first : (lists.close list).filter = lists.filter ∧
        (lists.close list).created = lists.created ∧
        ∀ number ∈ (lists.close list).closed, number ∈ lists.closed ∨ list.number = number := by
      unfold Lists.close
      split
      · refine ⟨rfl, rfl, fun number closed => ?_⟩
        rcases List.mem_cons.mp closed with rfl | old
        · exact .inr rfl
        · exact .inl old
      · exact ⟨rfl, rfl, fun _ closed => .inl closed⟩
    refine ⟨filter.trans first.1, created.trans first.2.1, fun number found => ?_⟩
    rcases closed number found with before | ⟨other, member, same⟩
    · rcases first.2.2 number before with old | same
      · exact .inl old
      · exact .inr ⟨list, List.mem_cons_self, same⟩
    · exact .inr ⟨other, List.mem_cons_of_mem list member, same⟩

/-- The variables of `process` when it begins. -/
def begun (e : Engine Ptr) : Processing Ptr Outside := ⟨e.lists, [], [], []⟩

omit [DecidableEq Ptr] in
theorem filtersToRefresh_nodup (e : Engine Ptr) : e.filtersToRefresh.Nodup :=
  e.distinct.filter _

omit [DecidableEq Ptr] in
theorem WellFormed.begun (wellFormed : e.WellFormed) :
    Processing.Collecting e.lists e.filtersToRefresh (begun e : Processing Ptr Outside) where
  numbered := wellFormed.numbered
  created := Nat.le_refl _
  config _ := ⟨rfl, rfl⟩
  untouched _ _ := rfl
  current _ member := absurd member List.not_mem_nil
  fresh _ member := absurd member List.not_mem_nil
  ids _ member := absurd member List.not_mem_nil
  texts := rfl

def processed (e : Engine Ptr) (calls : Ptr → Call Outside) : Processing Ptr Outside :=
  Processing.process calls 0 e.filtersToRefresh (begun e)

theorem WellFormed.processed (wellFormed : e.WellFormed)
    (going : ∀ f ∈ e.filtersToRefresh, (calls f).done = none) :
    Processing.Collecting e.lists [] (e.processed calls) ∧
      (e.processed calls).errs = e.filtersToRefresh.filterMap (e.lists.failure calls) ∧
      (e.processed calls).refreshed =
        (e.filtersToRefresh.filterMap (e.lists.success calls)).reverse := by
  obtain ⟨collecting, errs, refreshed⟩ :=
    Processing.process_spec 0 e.filtersToRefresh_nodup wellFormed.begun going
  exact ⟨collecting, errs, refreshed.trans (List.append_nil _)⟩

/-- The engine with what the loop has made, before the storage is created. -/
def afterLoop (e : Engine Ptr) (calls : Ptr → Call Outside) : Engine Ptr :=
  { e with
    lists := (e.processed calls).lists
    history := (e.processed calls).refreshed ++ e.history }

theorem refresh_eq (some : e.filtersToRefresh ≠ []) :
    e.refresh newRuleStorage outsideTimeout calls =
      if isOneTimeoutError outsideTimeout (e.processed calls).errs then
        (e.afterLoop calls, ⟨none, (e.processed calls).refreshed.map Prod.fst⟩)
      else if newRuleStorage ((e.processed calls).ruleLists.map (·.id)) then
        ((e.afterLoop calls).resetStorage (e.processed calls).ruleLists,
          ⟨(e.afterLoop calls).joined (e.processed calls).errs,
            (e.processed calls).refreshed.map Prod.fst⟩)
      else
        (e.afterLoop calls,
          ⟨(e.afterLoop calls).joined ((e.processed calls).errs ++ [.creatingStorage]),
            (e.processed calls).refreshed.map Prod.fst⟩) := by
  unfold refresh
  rw [if_neg (by simpa using some)]
  rfl

omit [DecidableEq Ptr] in
theorem joined_eq_none_iff (errs : List (EngineError Outside)) :
    e.joined errs = none ↔ errs = [] := by
  unfold joined
  cases errs <;> simp

omit [DecidableEq Ptr] in
theorem mem_successes {r : Ptr × Bytes} :
    r ∈ e.filtersToRefresh.filterMap (e.lists.success calls) ↔
      r.1 ∈ e.filtersToRefresh ∧ e.lists.success calls r.1 = some r := by
  rw [List.mem_filterMap]
  constructor
  · rintro ⟨f, member, succeeds⟩
    obtain rfl := Lists.success_fst succeeds
    exact ⟨member, succeeds⟩
  · rintro ⟨member, succeeds⟩
    exact ⟨r.1, member, succeeds⟩

/-- Where the context stays, the filters that do not fail are refreshed. -/
theorem WellFormed.mem_refreshed_iff (wellFormed : e.WellFormed)
    (going : ∀ f ∈ e.filtersToRefresh, (calls f).done = none) {f : Ptr}
    (member : f ∈ e.filtersToRefresh) :
    f ∈ (e.processed calls).refreshed.map Prod.fst ↔ e.lists.failure calls f = none := by
  obtain ⟨_, _, refreshed⟩ := wellFormed.processed going
  rw [refreshed, List.map_reverse, List.mem_reverse, Lists.failure_eq_none_iff]
  constructor
  · intro found
    obtain ⟨r, among, rfl⟩ := List.mem_map.mp found
    exact ⟨r.2, (mem_successes.mp among).2⟩
  · rintro ⟨text, succeeds⟩
    exact List.mem_map.mpr ⟨(f, text), mem_successes.mpr ⟨member, succeeds⟩, rfl⟩

theorem WellFormed.all_refreshed_iff (wellFormed : e.WellFormed)
    (going : ∀ f ∈ e.filtersToRefresh, (calls f).done = none) :
    (∀ f ∈ e.filtersToRefresh, f ∈ (e.processed calls).refreshed.map Prod.fst) ↔
      (e.processed calls).errs = [] := by
  obtain ⟨_, errs, _⟩ := wellFormed.processed going
  rw [errs, List.filterMap_eq_nil_iff]
  exact forall₂_congr fun f member => wellFormed.mem_refreshed_iff going member

/-- The new lists are those of the filters that are refreshed. -/
theorem WellFormed.ruleLists_ids (wellFormed : e.WellFormed)
    (going : ∀ f ∈ e.filtersToRefresh, (calls f).done = none) :
    (e.processed calls).ruleLists.map (·.id) =
      (e.filtersToRefresh.filterMap (e.lists.success calls)).map fun refreshed =>
        (e.lists.filter refreshed.1).urlFilterID := by
  obtain ⟨collecting, _, refreshed⟩ := wellFormed.processed going
  have texts : (e.processed calls).ruleLists.map (fun list => (list.owner, list.rulesText)) =
      e.filtersToRefresh.filterMap (e.lists.success calls) := by
    rw [collecting.texts, refreshed, List.reverse_reverse]
  rw [← texts, List.map_map]
  exact List.map_congr_left collecting.ids

theorem WellFormed.mem_ruleLists (wellFormed : e.WellFormed)
    (going : ∀ f ∈ e.filtersToRefresh, (calls f).done = none) (f : Ptr) (text : Bytes) :
    (∃ list ∈ (e.processed calls).ruleLists, list.owner = f ∧ list.rulesText = text) ↔
      (f, text) ∈ e.filtersToRefresh.filterMap (e.lists.success calls) := by
  obtain ⟨collecting, _, refreshed⟩ := wellFormed.processed going
  have texts : (e.processed calls).ruleLists.map (fun list => (list.owner, list.rulesText)) =
      e.filtersToRefresh.filterMap (e.lists.success calls) := by
    rw [collecting.texts, refreshed, List.reverse_reverse]
  rw [← texts, List.mem_map]
  simp only [Prod.mk.injEq]

def replaced (e : Engine Ptr) (calls : Ptr → Call Outside) : Engine Ptr :=
  (e.afterLoop calls).resetStorage (e.processed calls).ruleLists

theorem WellFormed.filtersToRefresh_afterLoop (wellFormed : e.WellFormed)
    (going : ∀ f ∈ e.filtersToRefresh, (calls f).done = none) :
    (e.afterLoop calls).filtersToRefresh = e.filtersToRefresh := by
  obtain ⟨collecting, _, _⟩ := wellFormed.processed going
  exact List.filter_congr fun f _ => (collecting.config f).2

theorem WellFormed.filtersToRefresh_replaced (wellFormed : e.WellFormed)
    (going : ∀ f ∈ e.filtersToRefresh, (calls f).done = none) :
    (e.replaced calls).filtersToRefresh = e.filtersToRefresh := by
  have same : (e.replaced calls).lists.filter = (e.afterLoop calls).lists.filter :=
    (foldl_close (e.storage.getD []) (e.processed calls).lists).1
  rw [← wellFormed.filtersToRefresh_afterLoop going]
  unfold filtersToRefresh
  rw [same]
  rfl

theorem WellFormed.replaced_open (wellFormed : e.WellFormed)
    (going : ∀ f ∈ e.filtersToRefresh, (calls f).done = none) :
    ∀ list ∈ (e.processed calls).ruleLists, list.number ∉ (e.replaced calls).lists.closed := by
  obtain ⟨collecting, _, _⟩ := wellFormed.processed going
  intro list member closed
  obtain ⟨late, stays⟩ := collecting.fresh list member
  rcases (foldl_close (e.storage.getD []) (e.processed calls).lists).2.2 list.number closed with
    before | ⟨old, stored, same⟩
  · exact stays before
  · exact Nat.not_le_of_lt (wellFormed.stored old stored) (same ▸ late)

theorem WellFormed.replaced (wellFormed : e.WellFormed)
    (going : ∀ f ∈ e.filtersToRefresh, (calls f).done = none)
    (ids : ((e.filtersToRefresh.filterMap (e.lists.success calls)).map fun refreshed =>
      (e.lists.filter refreshed.1).urlFilterID).Nodup) : (e.replaced calls).WellFormed := by
  obtain ⟨collecting, _, _⟩ := wellFormed.processed going
  obtain ⟨filter, created, closed⟩ := foldl_close (e.storage.getD []) (e.processed calls).lists
  have sameFilter : (e.replaced calls).lists.filter = (e.processed calls).lists.filter := filter
  have sameCreated : (e.replaced calls).lists.created = (e.processed calls).lists.created := created
  constructor
  · constructor
    · intro number found
      rw [sameCreated]
      rcases closed number found with before | ⟨old, stored, rfl⟩
      · exact collecting.numbered.closed number before
      · exact Nat.lt_of_lt_of_le (wellFormed.stored old stored) collecting.created
    · intro f list kept
      rw [sameFilter] at kept
      rw [sameCreated]
      exact collecting.numbered.current f list kept
    · rw [sameFilter]
      exact collecting.numbered.distinct
  · intro list member
    obtain ⟨_, kept⟩ := collecting.current list member
    rw [sameCreated]
    exact (collecting.numbered.current _ list kept).2
  · intro list member
    rw [sameFilter, collecting.ids list member, (collecting.config list.owner).1]
  · exact wellFormed.ruleLists_ids going ▸ ids

theorem lastRules_append (f : Ptr) (recent history : List (Ptr × Bytes)) :
    lastRules f (recent ++ history) = (lastRules f recent).or (lastRules f history) := by
  unfold lastRules
  rw [List.find?_append]
  cases recent.find? fun refreshed => refreshed.1 = f <;> rfl

theorem mem_of_lastRules {f : Ptr} {text : Bytes} {history : List (Ptr × Bytes)}
    (last : lastRules f history = some text) : (f, text) ∈ history := by
  obtain ⟨r, found, rfl⟩ := Option.map_eq_some_iff.mp last
  have named : r.1 = f := by simpa using List.find?_some found
  exact named ▸ List.mem_of_find?_eq_some found

theorem lastRules_eq_none_iff {f : Ptr} {history : List (Ptr × Bytes)} :
    lastRules f history = none ↔ f ∉ history.map Prod.fst := by
  unfold lastRules
  rw [Option.map_eq_none_iff, List.find?_eq_none, List.mem_map]
  constructor
  · rintro others ⟨r, member, rfl⟩
    exact others r member (by simp)
  · intro absent r member same
    exact absent ⟨r, member, by simpa using same⟩

theorem WellFormed.holdsLast_replaced (wellFormed : e.WellFormed)
    (undisturbed : e.Undisturbed outsideTimeout calls) : (e.replaced calls).HoldsLast := by
  have going := undisturbed.going
  obtain ⟨_, _, refreshed⟩ := wellFormed.processed going
  intro f member text last
  rw [wellFormed.filtersToRefresh_replaced going] at member
  have whole : lastRules f ((e.processed calls).refreshed ++ e.history) = some text := last
  rw [lastRules_append] at whole
  rcases Option.or_eq_some_iff.mp whole with now | ⟨missing, before⟩
  · have success : (f, text) ∈ e.filtersToRefresh.filterMap (e.lists.success calls) := by
      have found := mem_of_lastRules now
      rwa [refreshed, List.mem_reverse] at found
    obtain ⟨list, made, owner, same⟩ := (wellFormed.mem_ruleLists going f text).mpr success
    exact ⟨list, made, owner, same, wellFormed.replaced_open going list made⟩
  · -- a filter that was refreshed before does not fail, so it is refreshed again
    have fails : e.lists.failure calls f ≠ none := fun succeeds =>
      lastRules_eq_none_iff.mp missing ((wellFormed.mem_refreshed_iff going member).mpr succeeds)
    rw [undisturbed.unrefreshed f member fails] at before
    cases before

variable {newRuleStorage outsideTimeout}

/-- An undisturbed refresh replaces the storage and reports the failures. -/
theorem WellFormed.refresh_undisturbed
    (documented : ∀ ids, newRuleStorage ids = true ↔ ids.Nodup) (wellFormed : e.WellFormed)
    (some : e.filtersToRefresh ≠ []) (undisturbed : e.Undisturbed outsideTimeout calls) :
    e.refresh newRuleStorage outsideTimeout calls =
      (e.replaced calls, ⟨(e.afterLoop calls).joined (e.processed calls).errs,
        (e.processed calls).refreshed.map Prod.fst⟩) := by
  have going := undisturbed.going
  obtain ⟨_, errs, _⟩ := wellFormed.processed going
  have stored : newRuleStorage ((e.processed calls).ruleLists.map (·.id)) = true := by
    rw [documented, wellFormed.ruleLists_ids going]
    exact undisturbed.ids
  have several : isOneTimeoutError outsideTimeout (e.processed calls).errs = false := by
    rw [errs]
    exact undisturbed.failures
  rw [refresh_eq newRuleStorage outsideTimeout some, several, stored]
  rfl

theorem WellFormed.refreshesAll (documented : ∀ ids, newRuleStorage ids = true ↔ ids.Nodup)
    (wellFormed : e.WellFormed) (holdsLast : e.HoldsLast)
    (undisturbed : e.Undisturbed outsideTimeout calls) :
    e.RefreshesAll newRuleStorage outsideTimeout calls := by
  unfold RefreshesAll
  by_cases empty : e.filtersToRefresh = []
  · have nothing : e.refresh newRuleStorage outsideTimeout calls = (e, ⟨none, []⟩) := by
      unfold refresh
      rw [empty]
      rfl
    rw [nothing, empty]
    exact ⟨⟨fun _ f member => absurd member List.not_mem_nil, fun _ => rfl⟩, holdsLast⟩
  · rw [wellFormed.refresh_undisturbed documented empty undisturbed]
    refine ⟨?_, wellFormed.holdsLast_replaced outsideTimeout undisturbed⟩
    exact (joined_eq_none_iff _).trans (wellFormed.all_refreshed_iff undisturbed.going).symm

theorem RefreshesAll.going (some : e.filtersToRefresh ≠ [])
    (all : e.RefreshesAll newRuleStorage outsideTimeout calls) :
    ∀ f ∈ e.filtersToRefresh, (calls f).done = none := by
  by_contra ended
  push Not at ended
  have absent : ∀ f ∈ e.filtersToRefresh,
      f ∉ ((begun e : Processing Ptr Outside).refreshed.map Prod.fst) :=
    fun f _ => List.not_mem_nil
  obtain ⟨⟨j, cause, alone⟩, f, member, missing⟩ :=
    Processing.process_done 0 e.filtersToRefresh_nodup absent ended
  have alone : (e.processed calls).errs = [.timeout j cause] := alone
  unfold RefreshesAll at all
  rw [refresh_eq newRuleStorage outsideTimeout some, alone] at all
  exact missing (all.1.mp rfl f member)

theorem HoldsLast.exists_list {after : Engine Ptr} (holdsLast : after.HoldsLast) {f : Ptr}
    (member : f ∈ after.filtersToRefresh) (known : f ∈ after.history.map Prod.fst) :
    ∃ list ∈ after.storage.getD [], list.owner = f := by
  have some : lastRules f after.history ≠ none := fun missing =>
    lastRules_eq_none_iff.mp missing known
  obtain ⟨text, last⟩ := Option.ne_none_iff_exists'.mp some
  obtain ⟨list, stored, owner, _⟩ := holdsLast f member text last
  exact ⟨list, stored, owner⟩

/-- If the old storage has lists of all filters that were refreshed, their IDs are different. -/
theorem WellFormed.ids_of_afterLoop (wellFormed : e.WellFormed)
    (going : ∀ f ∈ e.filtersToRefresh, (calls f).done = none)
    (holdsLast : (e.afterLoop calls).HoldsLast) :
    ((e.filtersToRefresh.filterMap (e.lists.success calls)).map fun refreshed =>
      (e.lists.filter refreshed.1).urlFilterID).Nodup := by
  have stored : ∀ r ∈ e.filtersToRefresh.filterMap (e.lists.success calls),
      ∃ list ∈ e.storage.getD [], list.owner = r.1 := by
    intro r success
    obtain ⟨member, succeeds⟩ := mem_successes.mp success
    have refreshed := (wellFormed.mem_refreshed_iff going member).mpr
      (Lists.failure_eq_none_iff.mpr ⟨r.2, succeeds⟩)
    have member : r.1 ∈ (e.afterLoop calls).filtersToRefresh :=
      (wellFormed.filtersToRefresh_afterLoop going).symm ▸ member
    apply holdsLast.exists_list member
    show r.1 ∈ ((e.processed calls).refreshed ++ e.history).map Prod.fst
    rw [List.map_append]
    exact List.mem_append_left _ refreshed
  have distinct : (e.filtersToRefresh.filterMap (e.lists.success calls)).Nodup := by
    apply e.filtersToRefresh_nodup.filterMap
    intro f g r first second
    exact (Lists.success_fst first).symm.trans (Lists.success_fst second)
  apply distinct.map_on
  intro r success other also same
  obtain ⟨list, kept, owner⟩ := stored r success
  obtain ⟨second, keptAlso, ownerAlso⟩ := stored other also
  have ids : list.id = second.id := by
    rw [wellFormed.ids list kept, wellFormed.ids second keptAlso, owner, ownerAlso]
    exact same
  obtain rfl := List.inj_on_of_nodup_map wellFormed.unique kept keptAlso ids
  have firsts : r.1 = other.1 := owner.symm.trans ownerAlso
  have succeeds := (mem_successes.mp success).2
  rw [firsts, (mem_successes.mp also).2] at succeeds
  exact (Option.some.inj succeeds).symm

theorem RefreshesAll.undisturbed (documented : ∀ ids, newRuleStorage ids = true ↔ ids.Nodup)
    (wellFormed : e.WellFormed) (some : e.filtersToRefresh ≠ [])
    (all : e.RefreshesAll newRuleStorage outsideTimeout calls) :
    e.Undisturbed outsideTimeout calls := by
  have going := all.going some
  obtain ⟨_, errs, refreshed⟩ := wellFormed.processed going
  unfold RefreshesAll at all
  rw [refresh_eq newRuleStorage outsideTimeout some] at all
  have several : isOneTimeoutError outsideTimeout (e.processed calls).errs = false := by
    by_contra lone
    rw [Bool.not_eq_false] at lone
    rw [if_pos lone] at all
    have nothing := (wellFormed.all_refreshed_iff going).mp (all.1.mp rfl)
    rw [nothing] at lone
    cases lone
  rw [if_neg (by simp [several])] at all
  have ids : ((e.filtersToRefresh.filterMap (e.lists.success calls)).map fun refreshed =>
      (e.lists.filter refreshed.1).urlFilterID).Nodup := by
    by_contra repeated
    have rejected : ¬ newRuleStorage ((e.processed calls).ruleLists.map (·.id)) = true := by
      rw [documented, wellFormed.ruleLists_ids going]
      exact repeated
    rw [if_neg rejected] at all
    exact repeated (wellFormed.ids_of_afterLoop going all.2)
  have stored : newRuleStorage ((e.processed calls).ruleLists.map (·.id)) = true := by
    rw [documented, wellFormed.ruleLists_ids going]
    exact ids
  rw [if_pos stored] at all
  have holdsLast : (e.replaced calls).HoldsLast := all.2
  refine ⟨going, errs ▸ several, fun f member fails => ?_, ids⟩
  rw [lastRules_eq_none_iff]
  intro known
  have enabled : f ∈ (e.replaced calls).filtersToRefresh :=
    (wellFormed.filtersToRefresh_replaced going).symm ▸ member
  have recorded : f ∈ (e.replaced calls).history.map Prod.fst := by
    show f ∈ ((e.processed calls).refreshed ++ e.history).map Prod.fst
    rw [List.map_append]
    exact List.mem_append_right _ known
  obtain ⟨list, made, owner⟩ := holdsLast.exists_list enabled recorded
  have success := (wellFormed.mem_ruleLists going f list.rulesText).mp ⟨list, made, owner, rfl⟩
  exact fails (Lists.failure_eq_none_iff.mpr ⟨_, (mem_successes.mp success).2⟩)

theorem WellFormed.refreshesAll_iff (documented : ∀ ids, newRuleStorage ids = true ↔ ids.Nodup)
    (wellFormed : e.WellFormed) (holdsLast : e.HoldsLast) :
    e.RefreshesAll newRuleStorage outsideTimeout calls ↔ e.Undisturbed outsideTimeout calls := by
  constructor
  · intro all
    by_cases empty : e.filtersToRefresh = []
    · constructor
      · rw [empty]
        exact fun f member => absurd member List.not_mem_nil
      · rw [empty]
        rfl
      · rw [empty]
        exact fun f member => absurd member List.not_mem_nil
      · rw [empty]
        exact List.nodup_nil
    · exact all.undisturbed documented wellFormed empty
  · exact wellFormed.refreshesAll documented holdsLast

variable (newRuleStorage outsideTimeout) in
def machine : Transition.Machine (Engine Ptr) (Ptr → Call Outside) (Report Ptr Outside) where
  step e calls := e.refresh newRuleStorage outsideTimeout calls

theorem WellFormed.next (documented : ∀ ids, newRuleStorage ids = true ↔ ids.Nodup)
    (wellFormed : e.WellFormed) (holdsLast : e.HoldsLast)
    (undisturbed : e.Undisturbed outsideTimeout calls) :
    ((machine newRuleStorage outsideTimeout).next e calls).WellFormed ∧
      ((machine newRuleStorage outsideTimeout).next e calls).HoldsLast := by
  have next : (machine newRuleStorage outsideTimeout).next e calls =
      (e.refresh newRuleStorage outsideTimeout calls).1 := rfl
  rw [next]
  by_cases empty : e.filtersToRefresh = []
  · have nothing : e.refresh newRuleStorage outsideTimeout calls = (e, ⟨none, []⟩) := by
      unfold refresh
      rw [empty]
      rfl
    rw [nothing]
    exact ⟨wellFormed, holdsLast⟩
  · rw [wellFormed.refresh_undisturbed documented empty undisturbed]
    exact ⟨wellFormed.replaced undisturbed.going undisturbed.ids,
      wellFormed.holdsLast_replaced outsideTimeout undisturbed⟩

/-- `NewEngine`, with filters that no refresh has touched. -/
structure New (e : Engine Ptr) : Prop where
  lists : ∀ f, (e.lists.filter f).ruleList = none
  closed : e.lists.closed = []
  storage : e.storage = none
  history : e.history = []

omit [DecidableEq Ptr] in
theorem New.wellFormed (new : e.New) : e.WellFormed where
  numbered := {
    closed := fun number closed => by
      rw [new.closed] at closed
      exact absurd closed List.not_mem_nil
    current := fun f list kept => by
      rw [new.lists f] at kept
      cases kept
    distinct := fun f g list other kept => by
      rw [new.lists f] at kept
      cases kept }
  stored list member := by
    rw [new.storage] at member
    exact absurd member List.not_mem_nil
  ids list member := by
    rw [new.storage] at member
    exact absurd member List.not_mem_nil
  unique := by
    rw [new.storage]
    exact List.nodup_nil

theorem New.holdsLast (new : e.New) : e.HoldsLast := by
  intro f _ text last
  rw [new.history] at last
  cases last

/-- All refreshes of a run report every failure and keep the last rules just where all are
undisturbed. -/
theorem refreshesAll_run_iff (newRuleStorage : List Nat → Bool) (outsideTimeout : Outside → Bool)
    (documented : ∀ ids, newRuleStorage ids = true ↔ ids.Nodup) (e : Engine Ptr) (new : e.New)
    (refreshes : List (Ptr → Call Outside)) :
    (machine newRuleStorage outsideTimeout).Allowed
        (RefreshesAll newRuleStorage outsideTimeout) e refreshes ↔
      (machine newRuleStorage outsideTimeout).Allowed (Undisturbed outsideTimeout) e refreshes := by
  apply (machine newRuleStorage outsideTimeout).allowed_iff
    (fun e => e.WellFormed ∧ e.HoldsLast)
  · rintro e calls ⟨wellFormed, holdsLast⟩
    exact wellFormed.refreshesAll_iff documented holdsLast
  · rintro e calls ⟨wellFormed, holdsLast⟩ undisturbed
    exact wellFormed.next documented holdsLast undisturbed
  · exact ⟨new.wellFormed, new.holdsLast⟩

private def webFilter (id : Nat) : Filter Bool :=
  ⟨.https, none, 0, lit "List", lit "list", id, 0, 0, true⟩

private def twoFilters : Engine Bool where
  name := lit "block"
  filters := [false, true]
  distinct := by decide
  lists := ⟨fun f => webFilter f.toNat, [], 0⟩
  storage := none
  history := []

private theorem new_twoFilters : twoFilters.New := ⟨fun _ => rfl, rfl, rfl, rfl⟩

/-- A source that can be read, or an error that is a timeout or not. -/
private def webCall (source : Except Bool Bytes) : Call Bool := ⟨none, source, none, none, none, 1⟩

private def unique (ids : List Nat) : Bool := decide ids.Nodup

private theorem unique_iff (ids : List Nat) : unique ids = true ↔ ids.Nodup := decide_eq_true_iff

theorem refreshesAll_run_twoFilters :
    (machine unique id).Allowed (RefreshesAll unique id) twoFilters
      [fun _ => webCall (.ok (lit "||ads.example^"))] := by
  rw [refreshesAll_run_iff unique id unique_iff twoFilters new_twoFilters]
  refine ⟨⟨fun _ _ => rfl, by decide +kernel, fun _ _ _ => rfl, by decide +kernel⟩, trivial⟩

/-- One download takes too long: that is not reported, and the other filter has no rules. -/
theorem refreshesAll_timeout :
    ¬ twoFilters.RefreshesAll unique id fun f =>
      webCall (if f then .error true else .ok (lit "||ads.example^")) := by
  rintro ⟨reported, _⟩
  have refreshed := reported.mp (by decide +kernel) true (by decide +kernel)
  revert refreshed
  decide +kernel

end Engine

end AdGuardHome.Filtering.RuleListEngine
