import AdGuardHome.Filtering.RuleListEngine

namespace AdGuardHome.Filtering.RuleListEngine

open Strings

variable {Ptr Outside : Type}

def Filter.outcome (f : Filter Ptr) (call : Call Outside) :
    Except (RefreshError Outside) RuleList.Parser :=
  match call.read with
  | .error err => .error err
  | .ok parseRes =>
    match f.scheme with
    | .http | .https => .ok parseRes
    | .file =>
      match if f.ruleList.isSome then call.close else none with
      | some err => .error (.outside err)
      | none =>
        match call.opened with
        | some err => .error (.outside err)
        | none => .ok parseRes

variable [DecidableEq Ptr]

/-- No list is numbered twice, each is kept by the filter that it was made for, and only lists
that were made are closed. -/
structure Lists.Numbered (lists : Lists Ptr) : Prop where
  closed : ∀ number ∈ lists.closed, number < lists.created
  current : ∀ f list, (lists.filter f).ruleList = some list →
    list.owner = f ∧ list.number < lists.created
  distinct : ∀ f g list other, (lists.filter f).ruleList = some list →
    (lists.filter g).ruleList = some other → list.number = other.number → f = g

structure Lists.Closing (f : Ptr) (before after : Lists Ptr) : Prop where
  filter : after.filter = before.filter
  created : after.created = before.created
  stillOpen : ∀ number ∈ after.closed, number ∈ before.closed ∨
    ∃ list, (before.filter f).ruleList = some list ∧ list.number = number

omit [DecidableEq Ptr] in
theorem Lists.Closing.refl (f : Ptr) (lists : Lists Ptr) : Closing f lists lists where
  filter := rfl
  created := rfl
  stillOpen _ closed := .inl closed

variable (call : Call Outside)

omit [DecidableEq Ptr] in
theorem Lists.Closing.closeRuleList (lists : Lists Ptr) (f : Ptr) :
    Closing f lists (lists.closeRuleList call f).1 := by
  unfold Lists.closeRuleList
  cases kept : (lists.filter f).ruleList with
  | none => exact refl f lists
  | some list =>
    show Closing f lists (lists.close list)
    unfold Lists.close
    split
    · refine ⟨rfl, rfl, ?_⟩
      intro number closed
      rcases List.mem_cons.mp closed with rfl | before
      · exact .inr ⟨list, kept, rfl⟩
      · exact .inl before
    · exact refl f lists

omit [DecidableEq Ptr] in
theorem Lists.closeRuleList_error (lists : Lists Ptr) (f : Ptr) :
    (lists.closeRuleList call f).2 =
      if (lists.filter f).ruleList.isSome then call.close else none := by
  unfold closeRuleList
  cases (lists.filter f).ruleList <;> rfl

def Lists.made (lists : Lists Ptr) (f : Ptr) (inFile : Bool) (parseRes : RuleList.Parser)
    (now : Int) : Lists Ptr :=
  let lists := lists.setRuleList f inFile parseRes.dst
  { lists with
    filter := Function.update lists.filter f ((lists.filter f).noteResult parseRes now) }

/-- The result of setting the rules: with at most the old list closed there is an error, or a new
list. -/
def Sets (call : Call Outside) (lists : Lists Ptr) (f : Ptr)
    (result : Lists Ptr × Except (RefreshError Outside) RuleList.Parser) : Prop :=
  ∃ middle, Lists.Closing f lists middle ∧
    ((∃ err, (lists.filter f).outcome call = .error err ∧ result = (middle, .error err)) ∨
      ∃ parseRes inFile, (lists.filter f).outcome call = .ok parseRes ∧
        result = (middle.setRuleList f inFile parseRes.dst, .ok parseRes))

theorem sets_fromHTTP (lists : Lists Ptr) (f : Ptr)
    (scheme : (lists.filter f).scheme ≠ .file) : Sets call lists f (setFromHTTP call lists f) := by
  refine ⟨lists, Lists.Closing.refl f lists, ?_⟩
  unfold Filter.outcome setFromHTTP
  cases call.read with
  | error err => exact .inl ⟨err, rfl, rfl⟩
  | ok parseRes =>
    right
    refine ⟨parseRes, false, ?_, rfl⟩
    cases which : (lists.filter f).scheme with
    | http => rfl
    | https => rfl
    | file => exact absurd which scheme

theorem sets_fromFile (lists : Lists Ptr) (f : Ptr)
    (scheme : (lists.filter f).scheme = .file) : Sets call lists f (setFromFile call lists f) := by
  unfold Sets Filter.outcome setFromFile
  rw [scheme, ← Lists.closeRuleList_error call lists f]
  cases call.read with
  | error err => exact ⟨lists, Lists.Closing.refl f lists, .inl ⟨err, rfl, rfl⟩⟩
  | ok parseRes =>
    have closing := Lists.Closing.closeRuleList call lists f
    generalize lists.closeRuleList call f = result at closing ⊢
    obtain ⟨middle, failure⟩ := result
    refine ⟨middle, closing, ?_⟩
    cases failure with
    | some err => exact .inl ⟨.outside err, rfl, rfl⟩
    | none =>
      cases call.opened with
      | some err => exact .inl ⟨.outside err, rfl, rfl⟩
      | none => exact .inr ⟨parseRes, true, rfl, rfl⟩

theorem sets_fromURL (lists : Lists Ptr) (f : Ptr) :
    Sets call lists f (setFromURL call lists f) := by
  unfold setFromURL
  cases scheme : (lists.filter f).scheme with
  | http => exact sets_fromHTTP call lists f (by simp [scheme])
  | https => exact sets_fromHTTP call lists f (by simp [scheme])
  | file => exact sets_fromFile call lists f scheme

/-- The refresh of a filter fails, with at most the old list closed, or it makes a new list. -/
theorem Lists.refresh_cases (lists : Lists Ptr) (f : Ptr) :
    ∃ middle, Closing f lists middle ∧
      ((∃ err, (lists.filter f).outcome call = .error err ∧
          lists.refresh call f = (middle, .error err)) ∨
        ∃ parseRes inFile, (lists.filter f).outcome call = .ok parseRes ∧
          lists.refresh call f = (middle.made f inFile parseRes call.now, .ok parseRes)) := by
  obtain ⟨middle, closing, ⟨err, fails, done⟩ | ⟨parseRes, inFile, succeeds, done⟩⟩ :=
    sets_fromURL call lists f
  · refine ⟨middle, closing, .inl ⟨err, fails, ?_⟩⟩
    unfold Lists.refresh
    rw [done]
  · refine ⟨middle, closing, .inr ⟨parseRes, inFile, succeeds, ?_⟩⟩
    unfold Lists.refresh
    rw [done]
    rfl

namespace Lists.Numbered

variable {lists : Lists Ptr} {f : Ptr}

omit [DecidableEq Ptr] in
theorem closing (numbered : lists.Numbered) {after : Lists Ptr} (step : Closing f lists after) :
    after.Numbered where
  closed number closed := by
    rw [step.created]
    rcases step.stillOpen number closed with before | ⟨list, kept, rfl⟩
    · exact numbered.closed number before
    · exact (numbered.current f list kept).2
  current g list kept := by
    rw [step.filter] at kept
    rw [step.created]
    exact numbered.current g list kept
  distinct g h list other := by
    rw [step.filter]
    exact numbered.distinct g h list other

end Lists.Numbered

section Made

variable (lists : Lists Ptr) (f : Ptr) (inFile : Bool) (parseRes : RuleList.Parser) (now : Int)

omit [DecidableEq Ptr] in
theorem Filter.noteResult_fields (filter : Filter Ptr) :
    (filter.noteResult parseRes now).ruleList = filter.ruleList ∧
      (filter.noteResult parseRes now).urlFilterID = filter.urlFilterID ∧
      (filter.noteResult parseRes now).enabled = filter.enabled := by
  unfold Filter.noteResult
  split <;> exact ⟨rfl, rfl, rfl⟩

theorem Lists.made_other {g : Ptr} (other : g ≠ f) :
    (lists.made f inFile parseRes now).filter g = lists.filter g := by
  simp [made, setRuleList, other]

theorem Lists.made_ruleList : ((lists.made f inFile parseRes now).filter f).ruleList =
    some ⟨f, lists.created, inFile, (lists.filter f).urlFilterID, parseRes.dst⟩ := by
  simp [made, setRuleList, (Filter.noteResult_fields parseRes now _).1]

theorem Lists.made_config (g : Ptr) :
    ((lists.made f inFile parseRes now).filter g).urlFilterID = (lists.filter g).urlFilterID ∧
      ((lists.made f inFile parseRes now).filter g).enabled = (lists.filter g).enabled := by
  by_cases same : g = f
  · subst same
    simp [made, setRuleList, (Filter.noteResult_fields parseRes now _).2]
  · rw [made_other lists f inFile parseRes now same]
    exact ⟨rfl, rfl⟩

variable {lists} in
theorem Lists.Numbered.made (numbered : lists.Numbered) :
    (lists.made f inFile parseRes now).Numbered := by
  have fresh : ∀ g list, g ≠ f → (lists.filter g).ruleList = some list →
      list.number ≠ lists.created := fun g list _ kept =>
    Nat.ne_of_lt (numbered.current g list kept).2
  constructor
  · exact fun number closed => Nat.lt_succ_of_lt (numbered.closed number closed)
  · intro g list kept
    by_cases same : g = f
    · subst same
      rw [made_ruleList] at kept
      obtain rfl := Option.some.inj kept
      exact ⟨rfl, Nat.lt_succ_self _⟩
    · rw [made_other lists f inFile parseRes now same] at kept
      obtain ⟨owned, early⟩ := numbered.current g list kept
      exact ⟨owned, Nat.lt_succ_of_lt early⟩
  · intro g h list other kept also same
    by_cases first : g = f
    · by_cases second : h = f
      · rw [first, second]
      · subst first
        rw [made_ruleList] at kept
        rw [made_other lists g inFile parseRes now second] at also
        obtain rfl := Option.some.inj kept
        exact absurd same.symm (fresh h other second also)
    · rw [made_other lists f inFile parseRes now first] at kept
      by_cases second : h = f
      · subst second
        rw [made_ruleList] at also
        obtain rfl := Option.some.inj also
        exact absurd same (fresh g list first kept)
      · rw [made_other lists f inFile parseRes now second] at also
        exact numbered.distinct g h list other kept also same

end Made

/-- What the loop of `process` has made before the filters that are still to come. -/
structure Processing.Collecting (start : Lists Ptr) (pending : List Ptr)
    (p : Processing Ptr Outside) : Prop where
  numbered : p.lists.Numbered
  created : start.created ≤ p.lists.created
  config : ∀ g, (p.lists.filter g).urlFilterID = (start.filter g).urlFilterID ∧
    (p.lists.filter g).enabled = (start.filter g).enabled
  untouched : ∀ g ∈ pending, p.lists.filter g = start.filter g
  current : ∀ list ∈ p.ruleLists, list.owner ∉ pending ∧
    (p.lists.filter list.owner).ruleList = some list
  fresh : ∀ list ∈ p.ruleLists, start.created ≤ list.number ∧ list.number ∉ p.lists.closed
  ids : ∀ list ∈ p.ruleLists, list.id = (start.filter list.owner).urlFilterID
  texts : p.ruleLists.map (fun list => (list.owner, list.rulesText)) = p.refreshed.reverse

namespace Processing.Collecting

variable {start : Lists Ptr} {f : Ptr} {pending : List Ptr} {p : Processing Ptr Outside}

omit [DecidableEq Ptr] in
theorem failed (collecting : Collecting start (f :: pending) p) {middle : Lists Ptr}
    (closing : Lists.Closing f p.lists middle) (errs : List (EngineError Outside)) :
    Collecting start pending { p with lists := middle, errs } where
  numbered := collecting.numbered.closing closing
  created := closing.created ▸ collecting.created
  config g := closing.filter ▸ collecting.config g
  untouched g member := closing.filter ▸ collecting.untouched g (List.mem_cons_of_mem f member)
  current list member := by
    obtain ⟨done, kept⟩ := collecting.current list member
    exact ⟨fun later => done (List.mem_cons_of_mem f later), closing.filter ▸ kept⟩
  fresh list member := by
    obtain ⟨late, stays⟩ := collecting.fresh list member
    obtain ⟨done, kept⟩ := collecting.current list member
    refine ⟨late, fun closed => ?_⟩
    rcases closing.stillOpen list.number closed with before | ⟨own, owned, same⟩
    · exact stays before
    · have owner := collecting.numbered.distinct _ _ _ _ owned kept same
      exact done (owner ▸ List.mem_cons_self)
  ids := collecting.ids
  texts := collecting.texts

/-- The new list of a filter is added. -/
theorem succeeded (collecting : Collecting start (f :: pending) p) (distinct : f ∉ pending)
    {middle : Lists Ptr} (closing : Lists.Closing f p.lists middle) (inFile : Bool)
    (parseRes : RuleList.Parser) (now : Int) :
    Collecting start pending
      { lists := middle.made f inFile parseRes now
        ruleLists := p.ruleLists ++
          ((middle.made f inFile parseRes now).filter f).ruleList.toList
        errs := p.errs
        refreshed := (f, parseRes.dst) :: p.refreshed } := by
  have closed := collecting.failed closing p.errs
  have made := Lists.made_ruleList middle f inFile parseRes now
  have early : start.created ≤ middle.created := closed.created
  have id : (middle.filter f).urlFilterID = (start.filter f).urlFilterID := (closed.config f).1
  have among : ∀ list, list ∈ p.ruleLists ++
      ((middle.made f inFile parseRes now).filter f).ruleList.toList → list ∈ p.ruleLists ∨
      list = ⟨f, middle.created, inFile, (middle.filter f).urlFilterID, parseRes.dst⟩ := by
    intro list member
    rw [made] at member
    simpa using member
  have other : ∀ list ∈ p.ruleLists, list.owner ≠ f := by
    intro list member same
    exact (collecting.current list member).1 (same ▸ List.mem_cons_self)
  constructor
  · exact closed.numbered.made f inFile parseRes now
  · exact Nat.le_succ_of_le early
  · intro g
    obtain ⟨sameID, sameFlag⟩ := Lists.made_config middle f inFile parseRes now g
    exact ⟨sameID.trans (closed.config g).1, sameFlag.trans (closed.config g).2⟩
  · intro g member
    have different : g ≠ f := fun same => distinct (same ▸ member)
    exact (Lists.made_other middle f inFile parseRes now different).trans
      (closed.untouched g member)
  · intro list member
    rcases among list member with old | rfl
    · obtain ⟨done, kept⟩ := closed.current list old
      refine ⟨done, ?_⟩
      rw [Lists.made_other middle f inFile parseRes now (other list old)]
      exact kept
    · exact ⟨distinct, made⟩
  · intro list member
    rcases among list member with old | rfl
    · exact closed.fresh list old
    · exact ⟨early, fun stale => Nat.lt_irrefl _ (closed.numbered.closed _ stale)⟩
  · intro list member
    rcases among list member with old | rfl
    · exact closed.ids list old
    · exact id
  · rw [made]
    simp [closed.texts]

/-- What a round does with the filter, as its refresh ends. -/
theorem round (collecting : Collecting start (f :: pending) p) (distinct : f ∉ pending)
    (call : Call Outside) :
    Collecting start pending (p.processFilter call f) ∧
      ((∃ err, (start.filter f).outcome call = .error err ∧
          (p.processFilter call f).errs = p.errs ++ [.updating (start.filter f).uid err] ∧
          (p.processFilter call f).refreshed = p.refreshed) ∨
        ∃ parseRes, (start.filter f).outcome call = .ok parseRes ∧
          (p.processFilter call f).errs = p.errs ∧
          (p.processFilter call f).refreshed = (f, parseRes.dst) :: p.refreshed) := by
  have same : p.lists.filter f = start.filter f := collecting.untouched f List.mem_cons_self
  obtain ⟨middle, closing, ⟨err, fails, done⟩ | ⟨parseRes, inFile, succeeds, done⟩⟩ :=
    p.lists.refresh_cases call f
  · rw [same] at fails
    have uid : (middle.filter f).uid = (start.filter f).uid := by rw [closing.filter, same]
    unfold processFilter
    rw [done]
    refine ⟨collecting.failed closing _, .inl ⟨err, fails, ?_, rfl⟩⟩
    show p.errs ++ [.updating (middle.filter f).uid err] = _
    rw [uid]
  · rw [same] at succeeds
    unfold processFilter
    rw [done]
    exact ⟨collecting.succeeded distinct closing inFile parseRes call.now,
      .inr ⟨parseRes, succeeds, rfl, rfl⟩⟩

end Processing.Collecting

def Lists.failure (start : Lists Ptr) (calls : Ptr → Call Outside) (f : Ptr) :
    Option (EngineError Outside) :=
  match (start.filter f).outcome (calls f) with
  | .error err => some (.updating (start.filter f).uid err)
  | .ok _ => none

def Lists.success (start : Lists Ptr) (calls : Ptr → Call Outside) (f : Ptr) :
    Option (Ptr × Bytes) :=
  match (start.filter f).outcome (calls f) with
  | .error _ => none
  | .ok parseRes => some (f, parseRes.dst)

section Process

variable {start : Lists Ptr} {calls : Ptr → Call Outside}

omit [DecidableEq Ptr] in
theorem Lists.success_fst {f g : Ptr} {text : Bytes}
    (succeeds : start.success calls f = some (g, text)) : g = f := by
  unfold success at succeeds
  split at succeeds
  · cases succeeds
  · exact (congrArg Prod.fst (Option.some.inj succeeds)).symm

omit [DecidableEq Ptr] in
theorem Lists.failure_eq_none_iff {f : Ptr} :
    start.failure calls f = none ↔ ∃ text, start.success calls f = some (f, text) := by
  unfold failure success
  cases (start.filter f).outcome (calls f) with
  | error err => simp
  | ok parseRes => simp

/-- Without an end of the context, every filter is refreshed or fails. -/
theorem Processing.process_spec (i : Nat) {filters : List Ptr} (distinct : filters.Nodup)
    {p : Processing Ptr Outside} (collecting : Collecting start filters p)
    (going : ∀ f ∈ filters, (calls f).done = none) :
    Collecting start [] (process calls i filters p) ∧
      (process calls i filters p).errs = p.errs ++ filters.filterMap (start.failure calls) ∧
      (process calls i filters p).refreshed =
        (filters.filterMap (start.success calls)).reverse ++ p.refreshed := by
  induction filters generalizing i p with
  | nil => exact ⟨collecting, (List.append_nil _).symm, rfl⟩
  | cons f rest ih =>
    obtain ⟨new, distinct⟩ := List.nodup_cons.mp distinct
    have step : process calls i (f :: rest) p =
        process calls (i + 1) rest (p.processFilter (calls f) f) := by
      rw [process, going f List.mem_cons_self]
    rw [step]
    obtain ⟨next, ended⟩ := collecting.round new (calls f)
    obtain ⟨last, errs, refreshed⟩ := ih (i + 1) distinct next
      fun g member => going g (List.mem_cons_of_mem f member)
    refine ⟨last, ?_⟩
    rw [errs, refreshed]
    rcases ended with ⟨err, fails, added, same⟩ | ⟨parseRes, succeeds, same, added⟩
    · have failure : start.failure calls f = some (.updating (start.filter f).uid err) := by
        simp [Lists.failure, fails]
      have success : start.success calls f = none := by simp [Lists.success, fails]
      rw [added, same, List.filterMap_cons_some failure, List.filterMap_cons_none success]
      simp
    · have failure : start.failure calls f = none := by simp [Lists.failure, succeeds]
      have success : start.success calls f = some (f, parseRes.dst) := by
        simp [Lists.success, succeeds]
      rw [added, same, List.filterMap_cons_none failure, List.filterMap_cons_some success]
      simp

theorem Processing.processFilter_refreshed (call : Call Outside) (p : Processing Ptr Outside)
    (f : Ptr) : ∀ r ∈ (p.processFilter call f).refreshed, r.1 = f ∨ r ∈ p.refreshed := by
  intro r member
  unfold processFilter at member
  split at member
  · rcases List.mem_cons.mp member with rfl | old
    · exact .inl rfl
    · exact .inr old
  · exact .inr member

/-- Where the context ends, there is one error and a filter that is not refreshed. -/
theorem Processing.process_done (i : Nat) {filters : List Ptr} (distinct : filters.Nodup)
    {p : Processing Ptr Outside} (pending : ∀ f ∈ filters, f ∉ p.refreshed.map Prod.fst)
    (stops : ∃ f ∈ filters, (calls f).done ≠ none) :
    (∃ j cause, (process calls i filters p).errs = [.timeout j cause]) ∧
      ∃ f ∈ filters, f ∉ (process calls i filters p).refreshed.map Prod.fst := by
  induction filters generalizing i p with
  | nil =>
    obtain ⟨f, member, _⟩ := stops
    exact absurd member List.not_mem_nil
  | cons f rest ih =>
    obtain ⟨new, distinct⟩ := List.nodup_cons.mp distinct
    cases ended : (calls f).done with
    | some cause =>
      rw [process, ended]
      exact ⟨⟨i, cause, rfl⟩, f, List.mem_cons_self, pending f List.mem_cons_self⟩
    | none =>
      have step : process calls i (f :: rest) p =
          process calls (i + 1) rest (p.processFilter (calls f) f) := by
        rw [process, ended]
      rw [step]
      have later : ∃ g ∈ rest, (calls g).done ≠ none := by
        obtain ⟨g, member, done⟩ := stops
        rcases List.mem_cons.mp member with rfl | after
        · exact absurd ended done
        · exact ⟨g, after, done⟩
      have waiting : ∀ g ∈ rest, g ∉ (p.processFilter (calls f) f).refreshed.map Prod.fst := by
        intro g member found
        obtain ⟨r, among, rfl⟩ := List.mem_map.mp found
        rcases p.processFilter_refreshed (calls f) f r among with same | old
        · exact new (same ▸ member)
        · exact pending r.1 (List.mem_cons_of_mem f member) (List.mem_map_of_mem old)
      obtain ⟨alone, g, member, missing⟩ := ih (i + 1) distinct waiting later
      exact ⟨alone, g, List.mem_cons_of_mem f member, missing⟩

end Process

end AdGuardHome.Filtering.RuleListEngine
