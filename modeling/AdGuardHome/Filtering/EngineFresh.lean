import AdGuardHome.Filtering.ListOperations
import AdGuardHome.Filtering.Refresh

namespace AdGuardHome.Filtering

open Strings

theorem updateFilterList_spec (ds : Nat → Download) (disk : Disk) (ufs : List FilterYAML)
    (i : Nat) :
    let us := (updateFilterList ds disk ufs i).2
    us.map (fun u => (u.flt.id, u.flt.url)) = ufs.map (fun uf => (uf.id, uf.url)) ∧
    us.map (·.updated) =
      (ufs.mapIdx fun j uf => (ds (i + j)).outcome uf.checksum).map (·.isUpdated) ∧
    us.map (·.err.isSome) =
      (ufs.mapIdx fun j uf => (ds (i + j)).outcome uf.checksum).map (·.isError) := by
  induction ufs generalizing disk i with
  | nil => exact ⟨rfl, rfl, rfl⟩
  | cons uf rest ih =>
    obtain ⟨updated, failed⟩ := update_outcome disk uf (ds i)
    obtain ⟨names, flags, errors⟩ := ih (update disk uf (ds i)).disk (i + 1)
    simp only [Nat.add_right_comm i 1, Nat.add_assoc] at flags errors
    refine ⟨?_, ?_, ?_⟩
    · simpa [updateFilterList, update_id, update_url] using names
    · simpa [updateFilterList, List.mapIdx_cons, updated] using flags
    · simpa [updateFilterList, List.mapIdx_cons, failed] using errors

section Sync

theorem syncFilter_same (uf : FilterYAML) (updated : Bool) (f : FilterYAML) :
    (syncFilter uf updated f).id = f.id ∧ (syncFilter uf updated f).url = f.url := by
  unfold syncFilter
  split
  · exact ⟨rfl, rfl⟩
  · split <;> exact ⟨rfl, rfl⟩

private theorem countP_syncFilter (filters : List FilterYAML) (uf other : FilterYAML)
    (updated : Bool) :
    (filters.map (syncFilter uf updated)).countP (fun f => f.id = other.id ∧ f.url = other.url) =
      filters.countP (fun f => f.id = other.id ∧ f.url = other.url) := by
  rw [List.countP_map]
  apply List.countP_congr
  intro f _
  simp [syncFilter_same]

/-- Lists that are found once each are counted once each. -/
theorem syncUpdatedFilters_count (filters : List FilterYAML) (updates : List (FilterYAML × Bool))
    (once : ∀ u ∈ updates, filters.countP (fun f => f.id = u.1.id ∧ f.url = u.1.url) = 1) :
    (syncUpdatedFilters filters updates).2 = updates.countP (·.2) := by
  induction updates generalizing filters with
  | nil => rfl
  | cons head rest ih =>
    obtain ⟨uf, updated⟩ := head
    have one := once (uf, updated) List.mem_cons_self
    have others := ih (filters.map (syncFilter uf updated)) fun u member => by
      rw [countP_syncFilter]
      exact once u (List.mem_cons_of_mem _ member)
    simp only [syncUpdatedFilters, others, List.countP_cons, syncCount]
    cases updated with
    | true =>
      simp only [↓reduceIte, one]
      omega
    | false => simp

private theorem countP_self {filters : List FilterYAML} (distinct : (filters.map (·.url)).Nodup)
    {f : FilterYAML} (here : f ∈ filters) :
    filters.countP (fun g => g.id = f.id ∧ g.url = f.url) = 1 := by
  induction filters with
  | nil => cases here
  | cons head rest ih =>
    simp only [List.map_cons, List.nodup_cons, List.mem_map, not_exists, not_and] at distinct
    rw [List.countP_cons]
    rcases List.mem_cons.mp here with rfl | later
    · have nobody : rest.countP (fun g => g.id = f.id ∧ g.url = f.url) = 0 := by
        rw [List.countP_eq_zero]
        intro g member
        simp [distinct.1 g member]
      rw [nobody]
      simp
    · have other : head.url ≠ f.url := fun same => distinct.1 f later same.symm
      rw [ih distinct.2 later]
      simp [other]

/-- Lists with different URLs are found once each. -/
theorem countP_listsToUpdate {filters : List FilterYAML} (distinct : (filters.map (·.url)).Nodup)
    {force : Bool} {now : Int} {interval : Nat} {uf : FilterYAML}
    (member : uf ∈ listsToUpdate filters force now interval) :
    filters.countP (fun f => f.id = uf.id ∧ f.url = uf.url) = 1 := by
  simp only [listsToUpdate, List.mem_map, List.mem_filter] at member
  obtain ⟨f, ⟨here, _⟩, same⟩ := member
  rw [← same]
  have once := countP_self distinct here
  exact once

end Sync

def FailsEntirely (os : List Outcome) : Prop := os ≠ [] ∧ ∀ o ∈ os, o.isError = true

instance (os : List Outcome) : Decidable (FailsEntirely os) := inferInstanceAs (Decidable (_ ∧ _))

section Array

variable {s : Lists} {white force : Bool} {env : RefreshEnv}

/-- The outcomes of the array decide on the count and the network error. -/
theorem refreshFiltersArray_spec (distinct : ((s.array white).map (·.url)).Nodup)
    {os : List Outcome} {r : ArrayResult}
    (shape : outcomes (s.array white) force (env.now white) env.interval
      (env.downloads white) = os)
    (result : refreshFiltersArray s white force env = r) :
    r.isNetErr = decide (FailsEntirely os) ∧
      r.updateCount = if FailsEntirely os then 0 else os.countP (·.isUpdated) := by
  have once : ∀ uf ∈ listsToUpdate (s.array white) force (env.now white) env.interval,
      (s.array white).countP (fun f => f.id = uf.id ∧ f.url = uf.url) = 1 :=
    fun uf member => countP_listsToUpdate distinct member
  simp only [refreshFiltersArray] at result
  simp only [outcomes] at shape
  generalize listsToUpdate (s.array white) force (env.now white) env.interval = ufs at *
  obtain ⟨names, flags, errors⟩ := updateFilterList_spec (env.downloads white) s.disk ufs 0
  simp only [Nat.zero_add, shape] at flags errors
  generalize (updateFilterList (env.downloads white) s.disk ufs 0) = updates at *
  obtain ⟨disk, us⟩ := updates
  have length : os.length = ufs.length := by rw [← shape, List.length_mapIdx]
  have failNum : us.countP (·.err.isSome) = os.countP (·.isError) := by
    have counted := congrArg (List.countP id) errors
    simpa [List.countP_map, Function.comp_def] using counted
  by_cases empty : ufs.length = 0
  · have none : os = [] := List.length_eq_zero_iff.mp (length.trans empty)
    rw [← result]
    simp [empty, FailsEntirely, none]
  · have some : os ≠ [] := fun none => empty (by rw [← length, none]; rfl)
    have all : us.countP (·.err.isSome) = ufs.length ↔ FailsEntirely os := by
      rw [failNum, ← length, List.countP_eq_length]
      simp [FailsEntirely, some]
    by_cases fails : FailsEntirely os
    · rw [← result]
      simp [empty, all.mpr fails, fails]
    · have counted : (syncUpdatedFilters (s.array white) (us.map fun u => (u.flt, u.updated))).2 =
          os.countP (·.isUpdated) := by
        rw [syncUpdatedFilters_count]
        · have flagged := congrArg (List.countP id) flags
          simpa [List.countP_map, Function.comp_def] using flagged
        · intro update member
          obtain ⟨u, uMember, rfl⟩ := List.mem_map.mp member
          have named : (u.flt.id, u.flt.url) ∈ ufs.map (fun uf => (uf.id, uf.url)) :=
            names ▸ List.mem_map_of_mem uMember
          obtain ⟨uf, ufMember, same⟩ := List.mem_map.mp named
          simp only [Prod.mk.injEq] at same
          simpa only [same] using once uf ufMember
      have notAll : us.countP (·.err.isSome) ≠ ufs.length := fun every => fails (all.mp every)
      have array : ({ s with disk } : Lists).array white = s.array white := rfl
      rw [← result]
      simp only [empty, notAll, ↓reduceIte, fails, array, counted]
      exact ⟨(decide_eq_false (by simp)).symm, trivial⟩

theorem refreshFiltersArray_other (s : Lists) (white force : Bool) (env : RefreshEnv) :
    (refreshFiltersArray s white force env).lists.array (!white) = s.array (!white) := by
  simp only [refreshFiltersArray]
  split
  · rfl
  split
  · rfl
  · cases white <;> rfl

end Array

/-- A side that fails entirely is no reason to forget what the other one has replaced, and
otherwise every file replacement and the rule storages have to succeed. -/
def RefreshComplete (b a : List Outcome) (opened : Bool × Bool) : Prop :=
  (FailsEntirely b ∨ FailsEntirely a → .replaced ∉ b ∧ .replaced ∉ a) ∧
  (¬ (FailsEntirely b ∨ FailsEntirely a) → (.replaceFailed ∉ b ∧ .replaceFailed ∉ a) ∧
    (.replaced ∈ b ∨ .replaced ∈ a → opened.1 = true ∧ opened.2 = true))

instance (b a : List Outcome) (opened : Bool × Bool) : Decidable (RefreshComplete b a opened) :=
  inferInstanceAs (Decidable (_ ∧ _))

/-- The engines are those of the stored lists if any list was replaced, and the lists that
were are counted. -/
structure EngineFresh (d : DNSFilter) (block allow force : Bool) (env : RefreshEnv) : Prop where
  rebuilt : .replaced ∈ d.outcomes block false force env ∨
      .replaced ∈ d.outcomes allow true force env →
    (refreshFiltersIntl d block allow force env).1.engines =
      (refreshFiltersIntl d block allow force env).1.current :: d.engines
  count : (refreshFiltersIntl d block allow force env).2.1 =
    (d.outcomes block false force env).count .replaced +
      (d.outcomes allow true force env).count .replaced

theorem countP_isUpdated (os : List Outcome) :
    os.countP (·.isUpdated) = os.count .replaced + os.count .replaceFailed := by
  induction os with
  | nil => rfl
  | cons o rest ih =>
    rw [List.countP_cons, List.count_cons, List.count_cons, ih]
    cases o <;> simp [Outcome.isUpdated] <;> omega

section Intl

variable {d : DNSFilter} {block allow force : Bool} {env : RefreshEnv}

/-- What a refresh returns and builds, by the outcomes of both arrays. -/
theorem refreshFiltersIntl_spec (distinct : ∀ white, ((d.lists.array white).map (·.url)).Nodup)
    {b a : List Outcome} (blockOutcomes : d.outcomes block false force env = b)
    (allowOutcomes : d.outcomes allow true force env = a) {r : DNSFilter × Nat × Bool}
    (result : refreshFiltersIntl d block allow force env = r) :
    (FailsEntirely b ∨ FailsEntirely a → r.1.engines = d.engines ∧ r.2.1 = 0) ∧
    (¬ (FailsEntirely b ∨ FailsEntirely a) →
      r.2.1 = b.countP (·.isUpdated) + a.countP (·.isUpdated) ∧
      r.1.engines = if 0 < r.2.1 ∧ env.opened.1 = true ∧ env.opened.2 = true then
        r.1.current :: d.engines else d.engines) := by
  simp only [refreshFiltersIntl] at result
  generalize refreshed :
    (if block then refreshFiltersArray d.lists false force env else ⟨d.lists, 0, false⟩) = x at result
  obtain ⟨blockErr, blockCount, same⟩ : x.isNetErr = decide (FailsEntirely b) ∧
      (x.updateCount = if FailsEntirely b then 0 else b.countP (·.isUpdated)) ∧
      x.lists.array true = d.lists.array true := by
    cases block with
    | false =>
      obtain rfl : [] = b := blockOutcomes
      rw [← refreshed]
      exact ⟨rfl, rfl, rfl⟩
    | true =>
      have other := refreshFiltersArray_other d.lists false force env
      obtain ⟨netErr, count⟩ := refreshFiltersArray_spec (distinct false) blockOutcomes refreshed
      exact ⟨netErr, count, refreshed ▸ other⟩
  generalize allowed :
    (if allow then refreshFiltersArray x.lists true force env else ⟨x.lists, 0, false⟩) = y at result
  obtain ⟨allowErr, allowCount⟩ : y.isNetErr = decide (FailsEntirely a) ∧
      y.updateCount = if FailsEntirely a then 0 else a.countP (·.isUpdated) := by
    cases allow with
    | false =>
      obtain rfl : [] = a := allowOutcomes
      rw [← allowed]
      exact ⟨rfl, rfl⟩
    | true =>
      apply refreshFiltersArray_spec (same ▸ distinct true) _ allowed
      rw [same]
      exact allowOutcomes
  rw [blockErr, allowErr, blockCount, allowCount] at result
  constructor
  · intro fails
    have netErr : (decide (FailsEntirely b) || decide (FailsEntirely a)) = true := by simpa using fails
    rw [if_pos netErr] at result
    rw [← result]
    exact ⟨rfl, rfl⟩
  · intro fine
    obtain ⟨blockFine, allowFine⟩ := not_or.mp fine
    simp only [blockFine, allowFine, decide_false, Bool.or_self, Bool.false_eq_true,
      ↓reduceIte] at result
    generalize b.countP (·.isUpdated) + a.countP (·.isUpdated) = count at *
    by_cases none : count = 0
    · rw [if_pos none] at result
      rw [← result]
      exact ⟨none.symm, by simp⟩
    · rw [if_neg none] at result
      rw [← result]
      refine ⟨rfl, ?_⟩
      have some : 0 < count := Nat.pos_of_ne_zero none
      simp only [DNSFilter.enableFilters, some, true_and, Bool.and_eq_true]
      split <;> rfl

/-- A refresh leaves fresh engines behind and counts what it replaced exactly when no side
fails entirely beside a replaced list, no file replacement fails on sides that go on, and
the rule storages of what was replaced can be made. -/
theorem engineFresh_iff (distinct : ∀ white, ((d.lists.array white).map (·.url)).Nodup) :
    EngineFresh d block allow force env ↔
      RefreshComplete (d.outcomes block false force env) (d.outcomes allow true force env)
        env.opened := by
  generalize blockOutcomes : d.outcomes block false force env = b
  generalize allowOutcomes : d.outcomes allow true force env = a
  generalize result : refreshFiltersIntl d block allow force env = r
  obtain ⟨failing, passing⟩ := refreshFiltersIntl_spec distinct blockOutcomes allowOutcomes result
  have fresh : EngineFresh d block allow force env ↔
      (.replaced ∈ b ∨ .replaced ∈ a → r.1.engines = r.1.current :: d.engines) ∧
        r.2.1 = b.count .replaced + a.count .replaced := by
    constructor
    · intro ⟨rebuilt, count⟩
      rw [blockOutcomes, allowOutcomes, result] at rebuilt count
      exact ⟨rebuilt, count⟩
    · intro ⟨rebuilt, count⟩
      constructor
      · rw [blockOutcomes, allowOutcomes, result]
        exact rebuilt
      · rw [blockOutcomes, allowOutcomes, result]
        exact count
  rw [fresh, RefreshComplete]
  by_cases fails : FailsEntirely b ∨ FailsEntirely a
  · obtain ⟨engines, count⟩ := failing fails
    simp only [fails, forall_const, not_true_eq_false, false_implies, and_true]
    rw [count]
    constructor
    · intro ⟨_, sum⟩
      constructor
      · exact List.count_eq_zero.mp (by omega)
      · exact List.count_eq_zero.mp (by omega)
    · intro ⟨noBlock, noAllow⟩
      refine ⟨fun some => (some.elim noBlock noAllow).elim, ?_⟩
      rw [List.count_eq_zero.mpr noBlock, List.count_eq_zero.mpr noAllow]
  · obtain ⟨count, engines⟩ := passing fails
    rw [countP_isUpdated, countP_isUpdated] at count
    simp only [fails, false_implies, not_false_eq_true, forall_const, true_and]
    have longer : d.engines ≠ r.1.current :: d.engines := by simp
    have positive : .replaced ∈ b ∨ .replaced ∈ a → 0 < r.2.1 := by
      rw [count]
      intro some
      rcases some with inBlock | inAllow
      · have one := List.count_pos_iff.mpr inBlock
        omega
      · have one := List.count_pos_iff.mpr inAllow
        omega
    constructor
    · intro ⟨rebuilt, sum⟩
      refine ⟨⟨List.count_eq_zero.mp (by omega), List.count_eq_zero.mp (by omega)⟩, ?_⟩
      intro some
      by_contra closed
      have notBuilt : ¬ (0 < r.2.1 ∧ env.opened.1 = true ∧ env.opened.2 = true) :=
        fun all => closed all.2
      rw [if_neg notBuilt] at engines
      exact longer (engines.symm.trans (rebuilt some))
    · intro ⟨⟨noBlock, noAllow⟩, opened⟩
      constructor
      · intro some
        rw [if_pos ⟨positive some, opened some⟩] at engines
        exact engines
      · rw [count, List.count_eq_zero.mpr noBlock, List.count_eq_zero.mpr noAllow]
        rfl

end Intl

section Examples

private def list (url : String) (id : ListID) : FilterYAML :=
  ⟨true, lit url, lit "List", 0, zeroTime, 0, false, id⟩

private def twoLists : DNSFilter where
  lists := ⟨[list "http://block.example/" 1], [list "http://allow.example/" 2], ∅⟩
  userRules := []
  engines := []

/-- The block list is downloaded, and the allow list is if there is a body for it. -/
private def env (allow : Option Bytes) : RefreshEnv where
  now _ := 0
  interval := 24
  downloads
    | false, _ => ⟨true, some (lit "||ads.example^\n"), true, true, 0⟩
    | true, _ => ⟨true, allow, true, true, 0⟩
  opened := (true, true)

private theorem distinct_twoLists : ∀ white, ((twoLists.lists.array white).map (·.url)).Nodup := by
  intro white
  cases white <;> decide

theorem engineFresh_twoLists :
    EngineFresh twoLists true true true (env (some (lit "@@||good.example^\n"))) :=
  (engineFresh_iff distinct_twoLists).mpr (by decide +kernel)

/-- An allow list that cannot be downloaded hides the new contents of the block list. -/
theorem failed_side_hides_update :
    ¬ ∀ (d : DNSFilter) (env : RefreshEnv),
      (∀ white, ((d.lists.array white).map (·.url)).Nodup) → EngineFresh d true true true env := by
  intro fresh
  have count := (fresh twoLists (env none) distinct_twoLists).count
  revert count
  decide +kernel

end Examples

end AdGuardHome.Filtering
