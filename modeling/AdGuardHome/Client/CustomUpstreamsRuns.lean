import AdGuardHome.Client.CustomUpstreams

namespace AdGuardHome.Client

open Netip

/-- The clients by their UIDs as one knows them who makes the calls and sees the answers: their
names and what their configurations are constructed from. -/
abbrev Roster := UID → Option (String × UpstreamSettings)

def Persistent.named (c : Persistent) : String × UpstreamSettings := (c.name, c.upstreamSettings)

/-- A call that has been answered like this. An edit that failed has changed nothing. -/
def Roster.after (r : Roster) : TimedCall → TimedAnswer → Roster
  | .add p, .edited .done => fun uid => if uid = p.uid then some p.named else r uid
  | .update name p, .edited .done => fun uid =>
    (r uid).map fun entry => if entry.1 = name then p.named else entry
  | .removeByName name, .edited (.ok true) => fun uid => (r uid).filter (·.1 ≠ name)
  | _, _ => r

/-- The roster after the calls with their answers, the latest of which comes first. -/
def roster : List (TimedCall × TimedAnswer) → Roster
  | [] => fun _ => none
  | (call, answer) :: earlier => (roster earlier).after call answer

/-- The call as one on the storage without the times. -/
def TimedCall.edit? (library : UpstreamLibrary) : TimedCall → Option Call
  | .add p => some (.add p (library.parseUpstreamsConfig p.upstreams .zero))
  | .update name p => some (.update name p (library.parseUpstreamsConfig p.upstreams .zero))
  | .removeByName name => some (.removeByName name)
  | .updateCommonUpstreamConfig _ _ => none
  | .customUpstreamConfig _ _ _ => none

def edits (library : UpstreamLibrary) (calls : List TimedCall) : List Call :=
  calls.filterMap (TimedCall.edit? library)

namespace TimedStorage

variable {library : UpstreamLibrary} {updates : List (CommonUpstreamConfig × Int)}
  {s : TimedStorage}

theorem Current.consistent (current : Current library updates s) : s.plain.Consistent where
  index := current.index
  configs := by
    intro uid
    have settings := congrArg Option.isSome (current.settings uid)
    rw [Option.isSome_map, Option.isSome_map] at settings
    rw [plain, FiniteMap.get_filterMap, ← settings]
    cases s.upstreamManager.uidToCustomConf.get uid <;> rfl

/-- A client that a lookup finds is stored under its UID. -/
theorem Current.upstreamClient_stored (current : Current library updates s) {dhcp : DHCP}
    {id : ClientID} {addr : Addr} {c : Persistent}
    (found : s.plain.upstreamClient dhcp id addr = some c) :
    s.index.uidToClient.get c.uid = some c := by
  have one := current.consistent.filteringClient dhcp id addr
  rw [Storage.filteringClient_eq, ← Storage.upstreamClient_eq, found] at one
  have stored : ∀ conditions, s.plain.FirstOf conditions (some c) →
      ∃ uid, s.plain.index.uidToClient.get uid = some c := by
    intro conditions first
    induction conditions with
    | nil => cases first
    | cons condition rest ih =>
      rcases first with ⟨uid, d, present, _, same⟩ | ⟨_, later⟩
      · exact ⟨uid, Option.some.inj same ▸ present⟩
      · exact ih later
  obtain ⟨uid, present⟩ := stored _ one
  have own := current.index.keyed uid c present
  exact own.symm ▸ present

/-- A lookup returns the current configuration of the client it finds, and none without one. -/
theorem Current.customUpstreamConfig (current : Current library updates s)
    (validates : library.Validates) {last : CommonUpstreamConfig × Int}
    (isLast : updates.getLast? = some last) (id : ClientID) (addr : Addr) (dhcp : DHCP) :
    ∃ next returned, s.customUpstreamConfig library id addr dhcp = (next, .ok returned) ∧
      Current library updates next ∧
      (s.plain.upstreamClient dhcp id addr = none → returned = none) ∧
      ∀ c, s.plain.upstreamClient dhcp id addr = some c →
        returned = next.held c.uid ∧ returned.bind (next.proxies.built[·]?) =
          c.upstreamSettings.construction library last.1 := by
  unfold TimedStorage.customUpstreamConfig
  cases found : s.plain.upstreamClient dhcp id addr with
  | none => exact ⟨s, none, rfl, current, fun _ => rfl, by simp⟩
  | some c =>
    obtain ⟨next, looked, sameIndex, after, made⟩ :=
      current.lookup validates isLast (current.upstreamClient_stored found)
    refine ⟨next, next.held c.uid, ?_, after, by simp, ?_⟩
    · simp only [looked, ← sameIndex]
    · intro d same
      obtain rfl := Option.some.inj same
      exact ⟨rfl, made⟩

/-- One call, whose reading of the clock is a new one, and which comes after a common configuration
if it is a lookup. -/
theorem Current.step (current : Current library updates s) (validates : library.Validates)
    (call : TimedCall) (distinct : ∀ update, call.update? = some update →
      update.2 ∉ updates.map Prod.snd)
    (later : ∀ id addr dhcp, call = .customUpstreamConfig id addr dhcp → updates ≠ []) :
    Current library (updates ++ call.update?.toList) ((machine library).next s call) := by
  cases call with
  | add p =>
    have edits := add_edits current.index library p
    rw [TimedCall.update?, Option.toList_none, List.append_nil]
    simp only [Transition.Machine.next, machine, TimedStorage.step]
    cases done : add library p s with
    | error error next =>
      rw [done] at edits
      obtain rfl : next = s := edits
      exact current
    | ok _ next =>
      rw [done] at edits
      obtain ⟨c, valid, fresh, consistent, rfl⟩ := edits
      exact current.store consistent (FiniteMap.get_set _ _ · _) (parsed_of_validate valid)
  | update name p =>
    have edits := update_edits current.index library name p
    rw [TimedCall.update?, Option.toList_none, List.append_nil]
    simp only [Transition.Machine.next, machine, TimedStorage.step]
    cases done : update library name p s with
    | error error next =>
      rw [done] at edits
      obtain rfl : next = s := edits
      exact current
    | ok _ next =>
      rw [done] at edits
      obtain ⟨c, stored, valid, _, present, consistent, rfl⟩ := edits
      have parses := parsed_of_validate valid
      refine current.store consistent (fun uid => ?_) parses
      simp only [Index.added, Index.removed, FiniteMap.get_set, FiniteMap.get_delete]
      split <;> rfl
  | removeByName name =>
    rw [TimedCall.update?, Option.toList_none, List.append_nil]
    simp only [Transition.Machine.next, machine, TimedStorage.step]
    rcases removeByName_run current.index name with ⟨_, done⟩ | ⟨stored, _, _, consistent, done⟩
    · rw [done]
      exact current
    · rw [done]
      exact current.remove consistent
  | updateCommonUpstreamConfig conf now =>
    exact current.updateCommon conf (distinct (conf, now) rfl)
  | customUpstreamConfig id addr dhcp =>
    rw [TimedCall.update?, Option.toList_none, List.append_nil]
    obtain ⟨last, isLast⟩ := Option.isSome_iff_exists.mp
      (List.getLast?_isSome.mpr (later id addr dhcp rfl))
    obtain ⟨next, returned, looked, after, _⟩ :=
      current.customUpstreamConfig validates isLast id addr dhcp
    simp only [Transition.Machine.next, machine, TimedStorage.step, looked]
    exact after

/-- The run lemma, by induction on the calls from the last one back. -/
theorem current_run (validates : library.Validates) (calls : List TimedCall)
    (distinct : ((commonUpdates calls).map Prod.snd).Nodup) (first : commonFirst calls = true) :
    Current library (commonUpdates calls) ((machine library).run new calls) := by
  induction calls using List.reverseRecOn with
  | nil => exact Current.empty library
  | append_singleton calls call ih =>
    obtain ⟨before, later⟩ := commonFirst_append first
    have split : commonUpdates (calls ++ [call]) = commonUpdates calls ++ call.update?.toList := by
      rw [commonUpdates, List.filterMap_append]
      cases brought : call.update? <;> simp [commonUpdates, brought]
    rw [split, List.map_append, List.nodup_append] at distinct
    rw [split, Transition.Machine.run_append]
    refine (ih distinct.1 before).step validates call ?_ later
    intro update brought member
    exact distinct.2.2 _ member update.2 (by simp [brought]) rfl

theorem index_lookup (library : UpstreamLibrary) (s : TimedStorage) (id : ClientID) (addr : Addr)
    (dhcp : DHCP) :
    ((machine library).next s (.customUpstreamConfig id addr dhcp)).index = s.index := by
  have kept : (s.customUpstreamConfig library id addr dhcp).1.index = s.index := by
    unfold TimedStorage.customUpstreamConfig
    split <;> rfl
  simp only [Transition.Machine.next, machine, TimedStorage.step]
  generalize s.customUpstreamConfig library id addr dhcp = looked at kept
  rcases looked with ⟨next, _ | _⟩ <;> exact kept

theorem Agrees.outcome {α : Type} {timed : EStateM.Result Error TimedStorage α}
    {plain : EStateM.Result Error Storage α} (agrees : Agrees timed plain) :
    (∃ value next t, timed = .ok value next ∧ plain = .ok value t ∧ next.Shows t) ∨
      ∃ error next t, timed = .error error next ∧ plain = .error error t ∧ next.Shows t := by
  cases timed with
  | ok value next =>
    cases plain with
    | ok other t =>
      obtain ⟨rfl, shows⟩ := agrees
      exact .inl ⟨value, next, t, rfl, rfl, shows⟩
    | error => exact agrees.elim
  | error error next =>
    cases plain with
    | ok => exact agrees.elim
    | error other t =>
      obtain ⟨rfl, shows⟩ := agrees
      exact .inr ⟨error, next, t, rfl, rfl, shows⟩

/-- An edit is answered as by the storage without the times, and other calls keep the clients. -/
def Follows (library : UpstreamLibrary) (s : TimedStorage) (t : Storage) (call : TimedCall) :
    Prop :=
  (∀ edit, call.edit? library = some edit →
    (machine library).answer s call = .edited (Storage.machine.answer t edit)) ∧
  ((machine library).next s call).Shows (Storage.machine.run t (call.edit? library).toList)

theorem Follows.edited {t plain : Storage} {next : TimedStorage} {call : TimedCall}
    {edit : Call} {answer : Answer} (isEdit : call.edit? library = some edit)
    (timed : TimedStorage.step library s call = (next, .edited answer))
    (stepped : Storage.step t edit = (plain, answer)) (after : next.Shows plain) :
    Follows library s t call := by
  have here : (machine library).step s call = (next, .edited answer) := timed
  have there : Storage.machine.step t edit = (plain, answer) := stepped
  constructor
  · intro other same
    obtain rfl := Option.some.inj (isEdit.symm.trans same)
    rw [Transition.Machine.answer, Transition.Machine.answer, here, there]
  · rw [isEdit, Transition.Machine.next, here, Option.toList_some, Transition.Machine.run_cons,
      Transition.Machine.next, there]
    exact after

theorem Shows.step {t : Storage} (shows : s.Shows t) (call : TimedCall) :
    Follows library s t call := by
  cases call with
  | add p =>
    rcases (add_agrees shows library p).outcome with
      ⟨_, next, plain, timed, stepped, after⟩ | ⟨error, next, plain, timed, stepped, after⟩
    all_goals
      exact .edited rfl (by simp only [TimedStorage.step, timed]; rfl)
        (by simp only [Storage.step, stepped]) after
  | update name p =>
    rcases (update_agrees shows library name p).outcome with
      ⟨_, next, plain, timed, stepped, after⟩ | ⟨error, next, plain, timed, stepped, after⟩
    all_goals
      exact .edited rfl (by simp only [TimedStorage.step, timed]; rfl)
        (by simp only [Storage.step, stepped]) after
  | removeByName name =>
    rcases (removeByName_agrees shows name).outcome with
      ⟨found, next, plain, timed, stepped, after⟩ | ⟨error, next, plain, timed, stepped, after⟩
    all_goals
      exact .edited rfl (by simp only [TimedStorage.step, timed]; rfl)
        (by simp only [Storage.step, stepped]) after
  | updateCommonUpstreamConfig conf now => exact ⟨fun _ absent => (by cases absent), shows⟩
  | customUpstreamConfig id addr dhcp =>
    exact ⟨fun _ absent => (by cases absent), shows.trans (index_lookup library s id addr dhcp).symm⟩

theorem shows_run {t : Storage} (shows : s.Shows t) (calls : List TimedCall) :
    ((machine library).run s calls).Shows (Storage.machine.run t (edits library calls)) := by
  induction calls generalizing s t with
  | nil => exact shows
  | cons call rest ih =>
    have next := ih (@Shows.step library s t shows call).2
    rw [← Storage.machine.run_append] at next
    have split : edits library (call :: rest) =
        (call.edit? library).toList ++ edits library rest := by
      rw [edits, List.filterMap_cons]
      cases call.edit? library <;> rfl
    rwa [split]

/-- The clients of the index are those of the roster. -/
def Lists (s : TimedStorage) (r : Roster) : Prop :=
  ∀ uid, (s.index.uidToClient.get uid).map Persistent.named = r uid

theorem Lists.of_index {next : TimedStorage} {r : Roster} (lists : s.Lists r)
    (same : next.index = s.index) : next.Lists r := fun uid => same ▸ lists uid

/-- A name is that of one client, the one that is found by it. -/
theorem name_iff (consistent : s.index.Consistent) {name : String} {stored : Persistent}
    (lookup : s.index.findByName name = some (some stored))
    {uid : UID} {c : Persistent} (present : s.index.uidToClient.get uid = some c) :
    c.name = name ↔ uid = stored.uid := by
  obtain ⟨own, known, found⟩ := Option.map_eq_some_iff.mp lookup
  obtain ⟨other, isStored, named⟩ := (consistent.names name own).mp known
  obtain rfl := Option.some.inj (found.symm.trans isStored)
  have keyed := consistent.keyed own _ found
  constructor
  · intro same
    have mine := (consistent.names name uid).mpr ⟨c, present, by simp [same]⟩
    exact (Option.some.inj (mine.symm.trans known)).trans keyed.symm
  · intro same
    rw [same, keyed, found] at present
    obtain rfl := Option.some.inj present
    exact (List.mem_singleton.mp named).symm

theorem Lists.step {r : Roster} (lists : s.Lists r) (consistent : s.index.Consistent)
    (call : TimedCall) :
    ((machine library).next s call).Lists (r.after call ((machine library).answer s call)) := by
  cases call with
  | add p =>
    have edits := add_edits consistent library p
    simp only [Transition.Machine.next, Transition.Machine.answer, machine, TimedStorage.step]
    cases done : add library p s with
    | error error next =>
      rw [done] at edits
      obtain rfl : next = s := edits
      exact lists
    | ok _ next =>
      rw [done] at edits
      obtain ⟨c, valid, _, _, rfl⟩ := edits
      obtain rfl := Persistent.validate_ok valid
      intro uid
      simp only [added, Index.added, FiniteMap.get_set, Roster.after, ← lists uid]
      split <;> rfl
  | update name p =>
    have edits := update_edits consistent library name p
    simp only [Transition.Machine.next, Transition.Machine.answer, machine, TimedStorage.step]
    cases done : update library name p s with
    | error error next =>
      rw [done] at edits
      obtain rfl : next = s := edits
      exact lists
    | ok _ next =>
      rw [done] at edits
      obtain ⟨c, stored, valid, lookup, present, _, rfl⟩ := edits
      obtain rfl := Persistent.validate_ok valid
      intro uid
      simp only [replaced, Index.added, Index.removed, FiniteMap.get_set, FiniteMap.get_delete,
        Roster.after, ← lists uid]
      cases found : s.index.uidToClient.get uid with
      | none =>
        have other : uid ≠ stored.uid := by
          rintro rfl
          cases present.symm.trans found
        simp [other]
      | some c =>
        have named := name_iff consistent lookup found
        by_cases same : uid = stored.uid
        · simp [same, Persistent.named, Persistent.upstreamSettings, named.mpr same]
        · have apart : c.name ≠ name := fun names => same (named.mp names)
          simp [same, Persistent.named, apart]
  | removeByName name =>
    simp only [Transition.Machine.next, Transition.Machine.answer, machine, TimedStorage.step]
    rcases removeByName_run consistent name with ⟨_, done⟩ | ⟨stored, lookup, _, _, done⟩
    · rw [done]
      exact lists
    · rw [done]
      intro uid
      simp only [removed, Index.removed, FiniteMap.get_delete, Roster.after, ← lists uid]
      cases found : s.index.uidToClient.get uid with
      | none => simp
      | some c =>
        have named := name_iff consistent lookup found
        by_cases same : uid = stored.uid
        · simp [Option.filter, same, Persistent.named, named.mpr same]
        · have apart : c.name ≠ name := fun names => same (named.mp names)
          simp [Option.filter, same, Persistent.named, apart]
  | updateCommonUpstreamConfig conf now => exact lists.of_index rfl
  | customUpstreamConfig id addr dhcp =>
    exact lists.of_index (index_lookup library s id addr dhcp)

/-- What the storage shows of itself after these calls: its clients are those that the calls have
left, edits are answered as if there were no times, what a lookup returns is constructed for the
listed settings of its client and the latest common configuration and is not closed, and
what is closed is just what no listed client has, once each. -/
structure Serves (library : UpstreamLibrary) (calls : List TimedCall) (s : TimedStorage)
    (listed : Roster) : Prop where
  clients : s.Lists listed
  edits : ∀ call edit, call.edit? library = some edit → (machine library).answer s call =
    .edited (Storage.machine.answer (Storage.machine.run .new (edits library calls)) edit)
  removals : ∀ name, (machine library).answer s (.removeByName name) = .edited (.ok true) ↔
    ∃ uid settings, listed uid = some (name, settings)
  lookups : ∀ id addr dhcp conf now, (commonUpdates calls).getLast? = some (conf, now) →
    let call := TimedCall.customUpstreamConfig id addr dhcp
    let proxies := ((machine library).next s call).proxies
    ∃ returned, (machine library).answer s call = .config returned ∧
      (s.plain.upstreamClient dhcp id addr = none → returned = none) ∧
      ∀ c, s.plain.upstreamClient dhcp id addr = some c →
        (∃ settings, listed c.uid = some (c.name, settings) ∧
          returned.bind (proxies.built[·]?) = settings.construction library conf) ∧
        ∀ proxyConf, returned = some proxyConf →
          proxyConf < proxies.built.length ∧ proxyConf ∉ proxies.closed
  once : s.proxies.closed.Nodup
  closed : ∀ proxyConf, proxyConf ∈ s.proxies.closed ↔ proxyConf < s.proxies.built.length ∧
    ¬ ∃ uid, (listed uid).isSome = true ∧ s.held uid = some proxyConf

theorem removeByName_iff (consistent : s.index.Consistent) {listed : Roster} (lists : s.Lists listed)
    (name : String) :
    (machine library).answer s (.removeByName name) = .edited (.ok true) ↔
      ∃ uid settings, listed uid = some (name, settings) := by
  have listing : (∃ uid settings, listed uid = some (name, settings)) ↔
      (s.index.findByName name).isSome = true := by
    rw [Index.findByName, Option.isSome_map, Option.isSome_iff_exists]
    refine exists_congr fun uid => ?_
    rw [← lists uid]
    constructor
    · rintro ⟨settings, same⟩
      obtain ⟨c, found, named⟩ := Option.map_eq_some_iff.mp same
      have names : name = c.name := (congrArg Prod.fst named).symm
      exact (consistent.names name uid).mpr ⟨c, found, List.mem_singleton.mpr names⟩
    · intro known
      obtain ⟨c, found, named⟩ := (consistent.names name uid).mp known
      refine ⟨c.upstreamSettings, ?_⟩
      rw [found, List.mem_singleton.mp named]
      rfl
  rw [listing]
  simp only [Transition.Machine.answer, machine, TimedStorage.step]
  rcases removeByName_run consistent name with ⟨lookup, done⟩ | ⟨stored, lookup, _, _, done⟩
  · simp [done, lookup]
  · simp [done, lookup]

theorem lists_run (validates : library.Validates) (calls : List TimedCall)
    (distinct : ((commonUpdates calls).map Prod.snd).Nodup) (first : commonFirst calls = true) :
    ((machine library).run new calls).Lists
      (roster ((machine library).recording.run (new, []) calls).2) := by
  induction calls using List.reverseRecOn with
  | nil => exact fun _ => rfl
  | append_singleton calls call ih =>
    obtain ⟨before, _⟩ := commonFirst_append first
    rw [commonUpdates, List.filterMap_append, List.map_append] at distinct
    have earlier := distinct.of_append_left
    have state := (machine library).recording_run (new, []) calls
    have current := current_run validates calls earlier before
    have lists := @Lists.step library _ _ (ih earlier before) current.index call
    rw [Transition.Machine.run_append, Transition.Machine.run_append]
    change ((machine library).next ((machine library).run new calls) call).Lists
      ((roster ((machine library).recording.run (new, []) calls).2).after call
        ((machine library).answer ((machine library).recording.run (new, []) calls).1 call))
    rw [state]
    exact lists

/-- After every run of edits, lookups and common configurations, of which the first one comes
before any lookup and no two read the same time, the storage serves the clients that the edits
have left. -/
theorem custom_upstreams_current (validates : library.Validates) (calls : List TimedCall)
    (distinct : ((commonUpdates calls).map Prod.snd).Nodup) (first : commonFirst calls = true) :
    ((machine library).run new calls).Serves library calls
      (roster ((machine library).recording.run (new, []) calls).2) := by
  have current := current_run validates calls distinct first
  have lists := lists_run validates calls distinct first
  have shows := @shows_run library new .new rfl calls
  generalize (machine library).run new calls = s at current lists shows ⊢
  refine ⟨lists, fun call => (shows.step call).1, removeByName_iff current.index lists, ?_,
    current.balanced.once, ?_⟩
  · intro id addr dhcp conf now isLast call proxies
    obtain ⟨next, returned, looked, after, missing, found⟩ :=
      current.customUpstreamConfig validates isLast id addr dhcp
    have steps : (machine library).step s call = (next, .config returned) := by
      simp only [machine, TimedStorage.step, call, looked]
    have same : proxies = next.proxies := by
      simp only [proxies, Transition.Machine.next, steps]
    refine ⟨returned, by rw [Transition.Machine.answer, steps], missing, ?_⟩
    intro c isClient
    obtain ⟨holds, made⟩ := found c isClient
    rw [same]
    refine ⟨⟨c.upstreamSettings, ?_, made⟩, fun proxyConf isReturned => ?_⟩
    · rw [← lists, current.upstreamClient_stored isClient]
      rfl
    · have held : next.held c.uid = some proxyConf := holds ▸ isReturned
      exact ⟨after.balanced.below c.uid proxyConf held, after.balanced.not_closed held⟩
  · intro proxyConf
    rw [current.balanced.unheld]
    refine and_congr_right fun _ => ?_
    rw [not_exists]
    refine forall_congr' fun uid => ?_
    have stored : (s.held uid = some proxyConf) →
        (roster ((machine library).recording.run (new, []) calls).2 uid).isSome = true := by
      intro holds
      have settings := congrArg Option.isSome (current.settings uid)
      rw [Option.isSome_map, Option.isSome_map] at settings
      rw [← lists, Option.isSome_map, ← settings]
      obtain ⟨conf, found, _⟩ := Option.bind_eq_some_iff.mp holds
      rw [found]
      rfl
    exact not_congr ⟨fun holds => ⟨stored holds, holds⟩, fun both => both.2⟩

private def acceptingLibrary : UpstreamLibrary := ⟨fun _ _ => none, [.http11, .http2]⟩

private def streamed : Persistent :=
  { Persistent.blank with
    name := "Television", clientIDs := ["tv"], uid := 2, upstreams := ["# none", "192.0.2.53"] }

private def common (timeout : Int) : CommonUpstreamConfig := ⟨none, timeout, false, false, false⟩

private def lookup : TimedCall := .customUpstreamConfig "tv" .zero ⟨fun _ => "", fun _ => none⟩

/-- The client is edited under its name, and the common configuration changes. -/
private def televisionCalls : List TimedCall :=
  [.add streamed, .updateCommonUpstreamConfig (common 1) 10, lookup,
    .update "Television" { streamed with name := "TV", uid := 5, upstreams := ["192.0.2.54"] },
    .updateCommonUpstreamConfig (common 2) 20]

private theorem television_listed :
    roster ((machine acceptingLibrary).recording.run (new, []) televisionCalls).2 2 =
      some ("TV", ⟨["192.0.2.54"], 0, false⟩) := by
  decide +kernel

/-- The client has the new settings under its old UID, its removal finds it by the new name only,
and the first configuration is closed once the second one is constructed. -/
theorem custom_upstreams_current_television :
    (((machine acceptingLibrary).run new televisionCalls).index.uidToClient.get 2).map
        Persistent.named = some ("TV", ⟨["192.0.2.54"], 0, false⟩) ∧
      (machine acceptingLibrary).answer ((machine acceptingLibrary).run new televisionCalls)
        (.removeByName "TV") = .edited (.ok true) ∧
      ((machine acceptingLibrary).run new (televisionCalls ++ [lookup])).proxies.closed = [0] ∧
      ((machine acceptingLibrary).run new
        (televisionCalls ++ [lookup, .removeByName "TV"])).proxies.closed = [0, 1] := by
  have serves := @custom_upstreams_current acceptingLibrary (fun _ _ _ => rfl) televisionCalls
    (by decide) rfl
  refine ⟨(serves.clients 2).trans television_listed, ?_, by decide +kernel, by decide +kernel⟩
  exact (serves.removals "TV").mpr ⟨2, _, television_listed⟩

end TimedStorage

end AdGuardHome.Client
