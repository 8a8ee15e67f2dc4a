import AdGuardHome.Home.ClientsHTTP

namespace AdGuardHome.Home

open Client Schedule

/-- The identifiers of one client, set on another one that has none. -/
theorem setIDs_on {texts : IDTexts} {ids : List String} {c e : Persistent}
    (none : c.ips = [] ∧ c.subnets = [] ∧ c.macs = [] ∧ c.clientIDs = [])
    (accepted : c.setIDs texts ids = .ok e) :
    ∃ d, Persistent.blank.setIDs texts ids = .ok d ∧
      e = { c with ips := d.ips, subnets := d.subnets, macs := d.macs, clientIDs := d.clientIDs } := by
  obtain ⟨ips, subnets, macs, clientIDs⟩ := none
  unfold Persistent.setIDs at accepted
  cases folded : ids.foldlM (Persistent.setID texts) c with
  | error error =>
    rw [folded] at accepted
    cases accepted
  | ok last =>
    rw [folded] at accepted
    obtain ⟨kinds, reads, rfl⟩ := (Persistent.foldlM_setID texts ids c last).mp folded
    refine ⟨_, Persistent.setIDs_ok.mpr ⟨kinds, reads, rfl⟩, ?_⟩
    rw [← Except.ok.inj accepted, Persistent.foldl_append, ips, subnets, macs, clientIDs]
    rfl

/-- The client that a request makes, for the identifiers and the UID. -/
def ClientJSON.made (env : ClientsEnv) (cj : ClientJSON ZonedWeekly) (ids : Persistent)
    (uid : UID) : ClientRecord := {
  ids with
  name := cj.name
  tags := cj.tags
  upstreams := cj.upstreams
  uid
  ignoreQueryLog := cj.ignoreQueryLog.getD false
  ignoreStatistics := cj.ignoreStatistics.getD false
  upstreamsCacheEnabled := cj.upstreamsCacheEnabled.getD false
  upstreamsCacheSize := if cj.upstreamsCacheEnabled = .nbNull then 0 else cj.upstreamsCacheSize
  settings := {
    blockedServices := ⟨some (cj.schedule.getD (.emptyWeekly env.zones)), cj.blockedServices⟩
    useOwnSettings := !cj.useGlobalSettings
    filteringEnabled := cj.filteringEnabled
    parentalEnabled := cj.parentalEnabled
    safeBrowsingEnabled := cj.safeBrowsingEnabled
    useOwnBlockedServices := !cj.useGlobalBlockedServices
    safeSearchConf := copySafeSearch cj.safeSearchConf cj.safeSearchEnabled } }

variable {cj : ClientJSON ZonedWeekly} {env : ClientsEnv} {c : ClientRecord} {fresh : Fresh}

theorem initPrev_ok (accepted : initPrev env cj none fresh = .ok c) :
    ∃ uid, c = {
      Persistent.blank with
      uid
      ignoreQueryLog := cj.ignoreQueryLog.getD false
      ignoreStatistics := cj.ignoreStatistics.getD false
      upstreamsCacheEnabled := cj.upstreamsCacheEnabled.getD false
      upstreamsCacheSize :=
        if cj.upstreamsCacheEnabled = .nbNull then 0 else cj.upstreamsCacheSize
      settings :=
        { ClientSettings.zero with
          blockedServices :=
            ⟨some (cj.schedule.getD (.emptyWeekly env.zones)), cj.blockedServices⟩ } } := by
  obtain ⟨svcs, copied, accepted⟩ := Fallible.bind_ok_iff.mp accepted
  obtain ⟨uid, _, accepted⟩ := Fallible.bind_ok_iff.mp accepted
  obtain ⟨_, _, copied⟩ := Fallible.bind_ok_iff.mp copied
  refine ⟨uid, ?_⟩
  rw [← Except.ok.inj accepted, ← Except.ok.inj copied]
  cases cj.schedule <;> rfl

theorem jsonToClient_ok (accepted : jsonToClient env cj none fresh = .ok c) :
    ∃ ids uid, Persistent.blank.setIDs env.texts cj.ids = .ok ids ∧ c = cj.made env ids uid := by
  obtain ⟨first, made, accepted⟩ := Fallible.bind_ok_iff.mp accepted
  obtain ⟨uid, rfl⟩ := initPrev_ok made
  obtain ⟨read, reads, accepted⟩ := Fallible.bind_ok_iff.mp accepted
  obtain ⟨ids, set, rfl⟩ := setIDs_on ⟨rfl, rfl, rfl, rfl⟩ (Fallible.mapError_ok_iff.mp reads)
  obtain ⟨_, accepted⟩ := Fallible.bind_unit_ok_iff.mp accepted
  exact ⟨ids, uid, set, (Except.ok.inj accepted).symm⟩

/-- What is true of a client that is to be stored: its identifiers were set from texts, and its
schedule, if any, was read. -/
structure ClientRecord.Prepared (env : ClientsEnv) (c : ClientRecord) : Prop where
  ids : ∃ ids d, Persistent.blank.setIDs env.texts ids = .ok d ∧ c.equalIDs d = true
  schedule : ∀ w, c.settings.blockedServices.schedule = some w → w.Settled env.zones

theorem ClientJSON.made_prepared (zones : env.zones.Documented)
    (read : ∀ w, cj.schedule = some w → w.Settled env.zones) {ids : Persistent}
    (set : Persistent.blank.setIDs env.texts cj.ids = .ok ids) (uid : UID) :
    (cj.made env ids uid).Prepared env where
  ids := ⟨cj.ids, ids, set, by simp [made, Persistent.equalIDs]⟩
  schedule := by
    intro w found
    obtain rfl := Option.some.inj found
    cases arrived : cj.schedule with
    | none => exact ZonedWeekly.emptyWeekly_settled zones
    | some w => exact read w arrived

theorem ClientJSON.decode_settled (zones : env.zones.Documented) {cj : ClientJSON WeeklyConfigJSON}
    {decoded : ClientJSON ZonedWeekly} (accepted : cj.decode env = .ok decoded) :
    ∃ schedule, decoded = cj.withSchedule schedule ∧ (cj.schedule = none ↔ schedule = none) ∧
      ∀ w, schedule = some w → w.Settled env.zones := by
  unfold decode at accepted
  split at accepted
  · rename_i omitted
    exact ⟨none, (Except.ok.inj accepted).symm, by simp [omitted], by simp⟩
  · rename_i conf arrived
    split at accepted
    · cases accepted
    · rename_i weekly read
      refine ⟨some weekly, (Except.ok.inj accepted).symm, by simp [arrived], ?_⟩
      intro w same
      obtain rfl := Option.some.inj same
      exact ZonedWeekly.read_settled zones read

theorem ClientObject.toPersistent_prepared (zones : env.zones.Documented) {o : ClientObject}
    (accepted : o.toPersistent env fresh = .ok c) : c.Prepared env := by
  obtain ⟨svcs, made, accepted⟩ := Fallible.bind_ok_iff.mp accepted
  obtain ⟨cli, reads, accepted⟩ := Fallible.bind_ok_iff.mp accepted
  obtain ⟨ids, set, rfl⟩ := setIDs_on ⟨rfl, rfl, rfl, rfl⟩ (Fallible.mapError_ok_iff.mp reads)
  obtain ⟨uid, _, accepted⟩ := Fallible.bind_ok_iff.mp accepted
  obtain ⟨_, accepted⟩ := Fallible.bind_unit_ok_iff.mp accepted
  obtain ⟨_, accepted⟩ := Fallible.bind_unit_ok_iff.mp accepted
  obtain rfl := Except.ok.inj accepted
  refine ⟨⟨o.ids, ids, set, by simp [Persistent.equalIDs]⟩, ?_⟩
  intro w found
  have found : svcs.schedule = some w := found
  unfold services at made
  split at made
  · obtain rfl := Except.ok.inj made
    obtain rfl := Option.some.inj found
    exact ZonedWeekly.emptyWeekly_settled zones
  · obtain rfl := Except.ok.inj made
    cases found
  · split at made
    · cases made
    · rename_i weekly read
      obtain rfl := Except.ok.inj made
      obtain rfl := Option.some.inj found
      exact ZonedWeekly.read_settled zones read

namespace Records

variable {env : ClientsEnv} {s : Records} {c : ClientRecord}

theorem record_eq_some {uid : UID} :
    s.record uid = some c ↔
      s.storage.index.uidToClient.get uid = some c.toPersistent ∧
        s.settings.get uid = some c.settings := by
  unfold record
  constructor
  · intro found
    split at found
    · rename_i base settings stored kept
      obtain rfl := Option.some.inj found
      exact ⟨stored, kept⟩
    · cases found
  · rintro ⟨stored, kept⟩
    rw [stored, kept]

/-- What is true after every run: each stored client has its settings, was prepared so and has
sorted tags. -/
structure Sound (env : ClientsEnv) (s : Records) : Prop where
  consistent : s.storage.Consistent
  settings : ∀ uid, (s.settings.get uid).isSome =
    (s.storage.index.uidToClient.get uid).isSome
  prepared : ∀ uid c, s.record uid = some c → c.Prepared env
  tags : ∀ uid c, s.record uid = some c → c.tags.mergeSort (· ≤ ·) = c.tags

theorem Sound.empty (env : ClientsEnv) : Sound env new where
  consistent := Storage.Consistent.empty
  settings _ := rfl
  prepared _ _ found := by cases found
  tags _ _ found := by cases found

def storedAs (c : ClientRecord) (uid : UID) : ClientRecord :=
  { c with uid, tags := c.tags.mergeSort (· ≤ ·) }

/-- The records after one client was stored. -/
theorem Sound.store (sound : s.Sound env) (prepared : c.Prepared env) (uid : UID)
    {storage : Storage} (consistent : storage.Consistent)
    (rows : ∀ other, storage.index.uidToClient.get other =
      if other = uid then some (storedAs c uid).toPersistent
      else s.storage.index.uidToClient.get other) :
    let next : Records := ⟨storage, s.settings.set uid c.settings⟩
    next.Sound env ∧ next.record uid = some (storedAs c uid) := by
  intro next
  have here : next.record uid = some (storedAs c uid) := by
    rw [record_eq_some]
    exact ⟨by simp [next, rows], by simp [next, storedAs]⟩
  have elsewhere : ∀ other, other ≠ uid → next.record other = s.record other := by
    intro other different
    simp only [record, next, rows, FiniteMap.get_set, different, if_false]
  refine ⟨⟨consistent, ?_, ?_, ?_⟩, here⟩
  · intro other
    simp only [next, rows, FiniteMap.get_set]
    split
    · rfl
    · exact sound.settings other
  · intro other d found
    by_cases same : other = uid
    · obtain rfl := Option.some.inj (here.symm.trans (same ▸ found))
      exact ⟨prepared.ids, prepared.schedule⟩
    · exact sound.prepared other d (elsewhere other same ▸ found)
  · intro other d found
    by_cases same : other = uid
    · obtain rfl := Option.some.inj (here.symm.trans (same ▸ found))
      exact List.mergeSort_of_pairwise (List.pairwise_mergeSort
        (by simpa using fun a b c => String.le_trans) (by simpa using String.le_total) c.tags)
    · exact sound.tags other d (elsewhere other same ▸ found)

theorem Sound.add (sound : s.Sound env) (prepared : c.Prepared env) :
    (s.add env c).1.Sound env := by
  have safe := Storage.add_sound sound.consistent c.toPersistent (env.parseUpstreams c.upstreams)
  unfold Records.add
  cases done : Storage.add c.toPersistent (env.parseUpstreams c.upstreams) s.storage with
  | error error storage =>
    rw [done] at safe
    obtain rfl : storage = s.storage := safe
    exact sound
  | ok _ storage =>
    rw [done] at safe
    have after : storage.Consistent := safe
    obtain ⟨valid, validated, rfl, _⟩ := Storage.add_ok sound.consistent done
    obtain rfl := Persistent.validate_ok validated
    exact (sound.store prepared c.uid after (FiniteMap.get_set _ _ · _)).1

/-- A successful update stores the client under the UID of the one with the name. -/
theorem Sound.update (sound : s.Sound env) {name : String} (prepared : c.Prepared env) :
    (s.update env name c).1.Sound env ∧
      ∀ uid stored, s.record uid = some stored → stored.name = name →
        (s.update env name c).2 = .ok () →
          (s.update env name c).1.record uid = some (storedAs c uid) := by
  have safe := Storage.update_sound sound.consistent name c.toPersistent
    (env.parseUpstreams c.upstreams)
  unfold Records.update
  cases done : Storage.update name c.toPersistent (env.parseUpstreams c.upstreams) s.storage with
  | error error storage =>
    rw [done] at safe
    obtain rfl : storage = s.storage := safe
    refine ⟨sound, ?_⟩
    intro uid stored _ _ accepted
    cases accepted
  | ok _ storage =>
    rw [done] at safe
    have after : storage.Consistent := safe
    obtain ⟨valid, old, validated, lookup, present, rfl⟩ := Storage.update_ok sound.consistent done
    obtain rfl := Persistent.validate_ok validated
    obtain ⟨uid, known, isOld⟩ := Option.map_eq_some_iff.mp lookup
    have own := sound.consistent.index.keyed uid old isOld
    subst own
    simp only [known]
    have store := sound.store prepared old.uid after (fun other => by
      simp only [Storage.replaced, Index.added, Index.removed, FiniteMap.get_set,
        FiniteMap.get_delete]
      split <;> rfl)
    refine ⟨store.1, ?_⟩
    intro uid stored found named _
    have row := (record_eq_some.mp found).1
    have mine := (sound.consistent.index.names name uid).mpr ⟨_, row, by simp [named]⟩
    obtain rfl := Option.some.inj (mine.symm.trans known)
    exact store.2

theorem Sound.removeByName (sound : s.Sound env) (name : String) :
    (s.removeByName name).1.Sound env := by
  have safe := Storage.removeByName_sound sound.consistent name
  unfold Records.removeByName
  cases done : Storage.removeByName name s.storage with
  | error error storage =>
    rw [done] at safe
    obtain rfl : storage = s.storage := safe
    exact sound
  | ok found storage =>
    rw [done] at safe
    have after : storage.Consistent := safe
    rcases Storage.removeByName_ok sound.consistent done with
      ⟨rfl, rfl⟩ | ⟨rfl, old, lookup, present, rfl⟩
    · exact sound
    · obtain ⟨uid, known, isOld⟩ := Option.map_eq_some_iff.mp lookup
      have own := sound.consistent.index.keyed uid old isOld
      subst own
      simp only [known]
      have kept : ∀ other d, Records.record ⟨s.storage.removed old, s.settings.delete old.uid⟩
          other = some d → s.record other = some d := by
        intro other d found
        obtain ⟨row, settings⟩ := record_eq_some.mp found
        exact record_eq_some.mpr
          ⟨(FiniteMap.of_get_delete row).2, (FiniteMap.of_get_delete settings).2⟩
      refine ⟨after, ?_, fun other d found => sound.prepared other d (kept other d found),
        fun other d found => sound.tags other d (kept other d found)⟩
      intro other
      simp only [Storage.removed, Index.removed, FiniteMap.get_delete]
      split
      · rfl
      · exact sound.settings other

/-- Every client that a request makes is prepared. -/
theorem requested_prepared (zones : env.zones.Documented) {cj : ClientJSON WeeklyConfigJSON}
    {decoded : ClientJSON ZonedWeekly} {fresh : Fresh}
    (decodes : cj.decode env = .ok decoded) (made : jsonToClient env decoded none fresh = .ok c) :
    c.Prepared env := by
  obtain ⟨ids, uid, set, rfl⟩ := jsonToClient_ok made
  obtain ⟨schedule, rfl, _, read⟩ := ClientJSON.decode_settled zones decodes
  exact ClientJSON.made_prepared zones read set uid

theorem Sound.step (zones : env.zones.Documented) (sound : s.Sound env) (event : Event) :
    ((machine env).next s event).Sound env := by
  simp only [Transition.Machine.next, machine]
  cases event with
  | load o fresh =>
    simp only [Records.step, Records.load]
    cases made : o.toPersistent env fresh with
    | error error => exact sound
    | ok c => exact sound.add (ClientObject.toPersistent_prepared zones made)
  | add cj fresh =>
    simp only [Records.step, handleAddClient]
    cases made : requested env cj fresh with
    | error error => exact sound
    | ok c =>
      obtain ⟨decoded, decodes, made⟩ := Fallible.bind_ok_iff.mp made
      exact sound.add (requested_prepared zones decodes made)
  | update name cj fresh =>
    simp only [Records.step, handleUpdateClient]
    cases decodes : cj.decode env with
    | error error => exact sound
    | ok decoded =>
      by_cases unnamed : name = ""
      · simpa only [if_pos unnamed] using sound
      · simp only [if_neg unnamed]
        cases made : jsonToClient env decoded none fresh with
        | error error => exact sound
        | ok c => exact (sound.update (requested_prepared zones decodes made)).1
  | delete name =>
    simp only [Records.step, handleDelClient]
    split
    · exact sound
    · exact sound.removeByName name

theorem sound_run (zones : env.zones.Documented) (events : List Event) :
    ((machine env).run new events).Sound env :=
  (machine env).reachable_invariant (Sound env) (fun _ event sound => sound.step zones event)
    (Sound.empty env) ⟨events, rfl⟩

end Records

namespace Records

/-- The fields that the request leaves out are after the update what they were before. -/
structure KeepsOmitted (cj : ClientJSON WeeklyConfigJSON) (c after : ClientRecord) : Prop where
  ignoreQueryLog : cj.ignoreQueryLog = .nbNull → after.ignoreQueryLog = c.ignoreQueryLog
  ignoreStatistics : cj.ignoreStatistics = .nbNull → after.ignoreStatistics = c.ignoreStatistics
  upstreamsCache : cj.upstreamsCacheEnabled = .nbNull →
    after.upstreamsCacheEnabled = c.upstreamsCacheEnabled ∧
      after.upstreamsCacheSize = c.upstreamsCacheSize
  schedule : cj.schedule = none →
    after.settings.blockedServices.schedule = c.settings.blockedServices.schedule

/-- The fields that the request leaves out have the values that a new client would get, and the
request, if it is the body of the client, has no link-layer address of 8 bytes. -/
structure Harmless (env : ClientsEnv) (cj : ClientJSON WeeklyConfigJSON) (c : ClientRecord) :
    Prop where
  ignoreQueryLog : cj.ignoreQueryLog = .nbNull → c.ignoreQueryLog = false
  ignoreStatistics : cj.ignoreStatistics = .nbNull → c.ignoreStatistics = false
  upstreamsCache : cj.upstreamsCacheEnabled = .nbNull →
    c.upstreamsCacheEnabled = false ∧ c.upstreamsCacheSize = 0
  schedule : cj.schedule = none →
    c.settings.blockedServices.schedule = some (.emptyWeekly env.zones)
  macs : cj = body env c → ∀ mac ∈ c.macs, mac.length ≠ 8

variable {env : ClientsEnv} {s : Records} {c : ClientRecord}

/-- What an accepted update of a stored client stores. -/
theorem Sound.updated (sound : s.Sound env) (zones : env.zones.Documented) {uid : UID}
    (stored : s.record uid = some c) {cj : ClientJSON WeeklyConfigJSON}
    {fresh : Fresh} (accepted : (s.handleUpdateClient env c.name cj fresh).2 = .ok ()) :
    ∃ decoded ids other, cj.decode env = .ok decoded ∧
      Persistent.blank.setIDs env.texts decoded.ids = .ok ids ∧
      (s.handleUpdateClient env c.name cj fresh).1.record uid =
        some (storedAs (decoded.made env ids other) uid) := by
  unfold handleUpdateClient at accepted ⊢
  cases decodes : cj.decode env with
  | error error =>
    rw [decodes] at accepted
    cases accepted
  | ok decoded =>
    simp only [decodes] at accepted ⊢
    by_cases unnamed : c.name = ""
    · rw [if_pos unnamed] at accepted
      cases accepted
    · rw [if_neg unnamed] at accepted ⊢
      cases made : jsonToClient env decoded none fresh with
      | error error =>
        rw [made] at accepted
        cases accepted
      | ok p =>
        simp only [made] at accepted ⊢
        have prepared := requested_prepared zones decodes made
        obtain ⟨ids, other, set, rfl⟩ := jsonToClient_ok made
        exact ⟨decoded, ids, other, rfl, set,
          (sound.update prepared).2 uid c stored rfl accepted⟩

theorem keepsOmitted_iff (env : ClientsEnv) {cj : ClientJSON WeeklyConfigJSON}
    {schedule : Option ZonedWeekly}
    (same : cj.schedule = none ↔ schedule = none) (c : ClientRecord) (ids : Persistent)
    (other uid : UID) :
    KeepsOmitted cj c (storedAs ((cj.withSchedule schedule).made env ids other) uid) ↔
      (cj.ignoreQueryLog = .nbNull → c.ignoreQueryLog = false) ∧
      (cj.ignoreStatistics = .nbNull → c.ignoreStatistics = false) ∧
      (cj.upstreamsCacheEnabled = .nbNull →
        c.upstreamsCacheEnabled = false ∧ c.upstreamsCacheSize = 0) ∧
      (cj.schedule = none →
        c.settings.blockedServices.schedule = some (.emptyWeekly env.zones)) := by
  constructor
  · intro keeps
    refine ⟨fun omitted => ?_, fun omitted => ?_, fun omitted => ?_, fun omitted => ?_⟩
    · rw [← keeps.ignoreQueryLog omitted]
      simp [storedAs, ClientJSON.made, ClientJSON.withSchedule, omitted, NullBool.getD]
    · rw [← keeps.ignoreStatistics omitted]
      simp [storedAs, ClientJSON.made, ClientJSON.withSchedule, omitted, NullBool.getD]
    · rw [← (keeps.upstreamsCache omitted).1, ← (keeps.upstreamsCache omitted).2]
      simp [storedAs, ClientJSON.made, ClientJSON.withSchedule, omitted, NullBool.getD]
    · rw [← keeps.schedule omitted]
      simp [storedAs, ClientJSON.made, ClientJSON.withSchedule, same.mp omitted]
  · rintro ⟨queryLog, statistics, cache, weekly⟩
    constructor
    case ignoreQueryLog =>
      intro omitted
      rw [queryLog omitted]
      simp [storedAs, ClientJSON.made, ClientJSON.withSchedule, omitted, NullBool.getD]
    case ignoreStatistics =>
      intro omitted
      rw [statistics omitted]
      simp [storedAs, ClientJSON.made, ClientJSON.withSchedule, omitted, NullBool.getD]
    case upstreamsCache =>
      intro omitted
      rw [(cache omitted).1, (cache omitted).2]
      simp [storedAs, ClientJSON.made, ClientJSON.withSchedule, omitted, NullBool.getD]
    case schedule =>
      intro omitted
      rw [weekly omitted]
      simp [storedAs, ClientJSON.made, ClientJSON.withSchedule, same.mp omitted]

/-- The body of a client, if it can be decoded, is decoded to what was encoded. -/
theorem decode_body
    (settled : ∀ w, c.settings.blockedServices.schedule = some w → w.Settled env.zones)
    {decoded : ClientJSON ZonedWeekly} (accepted : (body env c).decode env = .ok decoded) :
    decoded = clientToJSON env c := by
  unfold ClientJSON.decode at accepted
  cases schedule : c.settings.blockedServices.schedule with
  | none =>
    simp only [body, ClientJSON.encode, ClientJSON.withSchedule, clientToJSON, schedule,
      Option.map_none] at accepted
    rw [← Except.ok.inj accepted, clientToJSON, schedule]
  | some w =>
    simp only [body, ClientJSON.encode, ClientJSON.withSchedule, clientToJSON, schedule,
      Option.map_some] at accepted
    cases read : ZonedWeekly.unmarshalJSON env.zones w.marshalJSON with
    | error error =>
      rw [read] at accepted
      cases accepted
    | ok other =>
      obtain rfl := ZonedWeekly.unmarshalJSON_marshalJSON (settled w schedule) read
      rw [read] at accepted
      rw [← Except.ok.inj accepted, clientToJSON, schedule]

@[simp] theorem boolToNullBool_ne (cond : Bool) : boolToNullBool cond ≠ .nbNull := by
  cases cond <;> simp [boolToNullBool]

@[simp] theorem getD_boolToNullBool (cond otherwise : Bool) :
    (boolToNullBool cond).getD otherwise = cond := by
  cases cond <;> rfl

/-- A client made from its own body differs from it in the identifiers only. -/
theorem made_body {w : ZonedWeekly} (schedule : c.settings.blockedServices.schedule = some w)
    (sorted : c.tags.mergeSort (· ≤ ·) = c.tags) (ids : Persistent) (other : UID) :
    storedAs ((clientToJSON env c).made env ids other) c.uid =
      { c with
        ips := ids.ips, subnets := ids.subnets, macs := ids.macs, clientIDs := ids.clientIDs } := by
  obtain ⟨base, settings⟩ := c
  obtain ⟨⟨weekly, services⟩, own, filtering, safeBrowsing, parental, ownServices, safeSearch⟩ :=
    settings
  obtain rfl : weekly = some w := schedule
  simp [storedAs, ClientJSON.made, clientToJSON, copySafeSearch, sorted]

theorem made_body_iff {w : ZonedWeekly} (schedule : c.settings.blockedServices.schedule = some w)
    (sorted : c.tags.mergeSort (· ≤ ·) = c.tags) (ids : Persistent) (other : UID) :
    storedAs ((clientToJSON env c).made env ids other) c.uid = c ↔
      ids.equalIDs c.toPersistent = true := by
  rw [made_body schedule sorted, Persistent.equalIDs_iff]
  constructor
  · intro same
    exact ⟨congrArg (fun r : ClientRecord => r.ips) same,
      congrArg (fun r : ClientRecord => r.subnets) same,
      congrArg (fun r : ClientRecord => r.macs) same,
      congrArg (fun r : ClientRecord => r.clientIDs) same⟩
  · rintro ⟨ips, subnets, macs, clientIDs⟩
    rw [ips, subnets, macs, clientIDs]

/-- The identifiers of a stored client come back just where none is a link-layer address of
8 bytes. -/
theorem reset_body_iff (texts : env.texts.Documented) (prepared : c.Prepared env) {ids : Persistent}
    (set : Persistent.blank.setIDs env.texts (c.identifiers env.texts) = .ok ids) :
    ids.equalIDs c.toPersistent = true ↔ ∀ mac ∈ c.macs, mac.length ≠ 8 := by
  obtain ⟨names, d, made, same⟩ := prepared.ids
  obtain ⟨ips, subnets, macs, clientIDs⟩ := Persistent.equalIDs_iff.mp same
  have alike : c.identifiers env.texts = d.identifiers env.texts := by
    simp only [Persistent.identifiers, ips, subnets, macs, clientIDs]
  rw [alike] at set
  rw [macs, ← Persistent.reset_iff texts made]
  have equal : ids.equalIDs c.toPersistent = ids.equalIDs d := by
    simp only [Persistent.equalIDs, ips, subnets, macs, clientIDs]
  rw [equal]
  constructor
  · exact fun resets => ⟨ids, set, resets⟩
  · rintro ⟨e, again, resets⟩
    obtain rfl := Except.ok.inj (set.symm.trans again)
    exact resets

/-- An accepted update keeps what its request leaves out, and leaves a client unchanged whose own
body is sent back, just where the request is harmless for the client. -/
theorem update_keeps_iff (texts : env.texts.Documented) (zones : env.zones.Documented)
    (events : List Event) {uid : UID} {c : ClientRecord} :
    let s := (machine env).run new events
    s.record uid = some c → ∀ (cj : ClientJSON WeeklyConfigJSON) (fresh : Fresh),
      (s.handleUpdateClient env c.name cj fresh).2 = .ok () →
        ∃ after, (s.handleUpdateClient env c.name cj fresh).1.record uid = some after ∧
          (KeepsOmitted cj c after ∧ (cj = body env c → after = c) ↔ Harmless env cj c) := by
  intro s stored cj fresh accepted
  have sound : s.Sound env := sound_run zones events
  have prepared := sound.prepared uid c stored
  have own : c.uid = uid := sound.consistent.index.keyed uid _ (record_eq_some.mp stored).1
  obtain ⟨decoded, ids, other, decodes, set, updated⟩ := sound.updated zones stored accepted
  refine ⟨_, updated, ?_⟩
  have whole : cj = body env c → ∀ w, c.settings.blockedServices.schedule = some w →
      (storedAs (decoded.made env ids other) uid = c ↔ ∀ mac ∈ c.macs, mac.length ≠ 8) := by
    rintro rfl w schedule
    obtain rfl := decode_body prepared.schedule decodes
    rw [← own, made_body_iff schedule (sound.tags uid c stored)]
    exact reset_body_iff texts prepared set
  obtain ⟨schedule, made, omits, _⟩ := ClientJSON.decode_settled zones decodes
  have keeps := keepsOmitted_iff env omits c ids other uid
  rw [← made] at keeps
  have filled : cj = body env c →
      (cj.schedule = none →
        c.settings.blockedServices.schedule = some (.emptyWeekly env.zones)) →
      ∃ w, c.settings.blockedServices.schedule = some w := by
    rintro rfl weekly
    cases present : c.settings.blockedServices.schedule with
    | none =>
      have omitted : (body env c).schedule = none := by
        simp [body, ClientJSON.encode, ClientJSON.withSchedule, clientToJSON, present]
      rw [weekly omitted] at present
      cases present
    | some w => exact ⟨w, rfl⟩
  rw [keeps]
  constructor
  · rintro ⟨⟨queryLog, statistics, cache, weekly⟩, unchanged⟩
    refine ⟨queryLog, statistics, cache, weekly, fun isBody => ?_⟩
    obtain ⟨w, present⟩ := filled isBody weekly
    exact (whole isBody w present).mp (unchanged isBody)
  · intro harmless
    refine ⟨⟨harmless.ignoreQueryLog, harmless.ignoreStatistics, harmless.upstreamsCache,
      harmless.schedule⟩, fun isBody => ?_⟩
    obtain ⟨w, present⟩ := filled isBody harmless.schedule
    exact (whole isBody w present).mpr (harmless.macs isBody)

private def utc : Zone := ⟨"UTC", ⟨fun _ => 0⟩⟩

private def onlyUTC : ZoneDatabase := ⟨fun name => if name = "UTC" then some utc else none, utc⟩

private theorem documented_onlyUTC : onlyUTC.Documented := by
  have loads : ∀ text zone, onlyUTC.loadLocation text = some zone → zone = utc := by
    intro text zone loaded
    simp only [onlyUTC] at loaded
    split at loaded
    · exact (Option.some.inj loaded).symm
    · cases loaded
  constructor
  case loaded =>
    intro text zone loaded other again
    rw [loads text zone loaded, loads _ other again]
  case timeLocal => exact fun other again => loads _ other again

private def phoneEnv : ClientsEnv := ⟨sampleTexts, onlyUTC, fun _ => false, fun _ => none⟩

private def quietPhone : ClientJSON WeeklyConfigJSON where
  safeSearchConf := none
  schedule := none
  name := "Phone"
  blockedServices := []
  ids := ["phone"]
  tags := []
  upstreams := []
  filteringEnabled := true
  parentalEnabled := false
  safeBrowsingEnabled := false
  safeSearchEnabled := false
  useGlobalBlockedServices := true
  useGlobalSettings := true
  ignoreQueryLog := .nbTrue
  ignoreStatistics := .nbNull
  upstreamsCacheSize := 0
  upstreamsCacheEnabled := .nbNull

private def firstUID : Fresh := ⟨.ok 1, none⟩

private def addQuietPhone : List Event := [.add quietPhone firstUID]

private theorem ok_of_isOk {result : Except ClientError Unit} (isOk : result.isOk = true) :
    result = .ok () := by
  cases result with
  | error error => cases isOk
  | ok _ => rfl

private theorem stored_quietPhone :
    ∃ c, ((machine phoneEnv).run new addQuietPhone).record 1 = some c ∧ c.name = "Phone" ∧
      c.ignoreQueryLog = true ∧ c.ignoreStatistics = false ∧ c.upstreamsCacheEnabled = false ∧
        c.upstreamsCacheSize = 0 ∧ c.macs = [] := by
  have facts : ∃ here : (((machine phoneEnv).run new addQuietPhone).record 1).isSome = true,
      let c := (((machine phoneEnv).run new addQuietPhone).record 1).get here
      c.name = "Phone" ∧ c.ignoreQueryLog = true ∧ c.ignoreStatistics = false ∧
        c.upstreamsCacheEnabled = false ∧ c.upstreamsCacheSize = 0 ∧ c.macs = [] := by
    decide +kernel
  obtain ⟨here, same⟩ := facts
  exact ⟨_, (Option.some_get here).symm, same⟩

/-- The phone with a schedule that has no pauses, and with the rest left out. -/
private def plannedPhone : ClientJSON WeeklyConfigJSON :=
  { quietPhone with schedule := some ⟨"UTC", fun _ => none⟩ }

private theorem accepted_quietPhone (cj : ClientJSON WeeklyConfigJSON)
    (either : cj = plannedPhone ∨ cj = { quietPhone with ignoreQueryLog := .nbNull }) :
    (((machine phoneEnv).run new addQuietPhone).handleUpdateClient phoneEnv "Phone" cj
      firstUID).2 = .ok () := by
  apply ok_of_isOk
  rcases either with rfl | rfl <;> decide +kernel

theorem update_keeps_iff_plannedPhone :
    ∃ c after, ((machine phoneEnv).run new addQuietPhone).record 1 = some c ∧
      (((machine phoneEnv).run new addQuietPhone).handleUpdateClient phoneEnv "Phone" plannedPhone
        firstUID).1.record 1 = some after ∧ KeepsOmitted plannedPhone c after := by
  obtain ⟨c, stored, named, _, counted, uncached, size, macs⟩ := stored_quietPhone
  have accepted := accepted_quietPhone plannedPhone (.inl rfl)
  rw [← named] at accepted
  obtain ⟨after, updated, exactly⟩ := update_keeps_iff documented_sampleTexts documented_onlyUTC
    addQuietPhone stored plannedPhone firstUID accepted
  rw [named] at updated
  have harmless : Harmless phoneEnv plannedPhone c :=
    { ignoreQueryLog := fun omitted => by cases omitted
      ignoreStatistics := fun _ => counted
      upstreamsCache := fun _ => ⟨uncached, size⟩
      schedule := fun omitted => by cases omitted
      macs := fun _ mac member => by simp [macs] at member }
  exact ⟨c, after, stored, updated, (exactly.mpr harmless).1⟩

/-- An update that says nothing about the query log makes a quiet client one that is logged. -/
theorem omitted_flag_is_lost :
    ¬ ∀ (env : ClientsEnv), env.texts.Documented → env.zones.Documented →
      ∀ (events : List Event) (uid : UID) (c : ClientRecord),
        ((machine env).run new events).record uid = some c →
          ∀ (cj : ClientJSON WeeklyConfigJSON) (fresh : Fresh),
            (((machine env).run new events).handleUpdateClient env c.name cj fresh).2 = .ok () →
              ∃ after, (((machine env).run new events).handleUpdateClient env c.name cj
                  fresh).1.record uid = some after ∧
                KeepsOmitted cj c after ∧ (cj = body env c → after = c) := by
  intro claim
  obtain ⟨c, stored, named, quiet, _⟩ := stored_quietPhone
  have accepted := accepted_quietPhone _ (.inr rfl)
  rw [← named] at accepted
  obtain ⟨after, updated, keeps, _⟩ := claim phoneEnv documented_sampleTexts documented_onlyUTC
    addQuietPhone 1 c stored _ firstUID accepted
  have logged : ((((machine phoneEnv).run new addQuietPhone).handleUpdateClient phoneEnv "Phone"
      { quietPhone with ignoreQueryLog := .nbNull } firstUID).1.record 1).map
        (fun c => c.ignoreQueryLog) = some false := by
    decide +kernel
  rw [← named, updated, Option.map_some, keeps.ignoreQueryLog rfl, quiet] at logged
  cases logged

end Records

end AdGuardHome.Home
