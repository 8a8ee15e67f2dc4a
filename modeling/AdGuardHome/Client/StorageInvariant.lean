import AdGuardHome.Client.Storage
import AdGuardHome.Lib.Fallible

namespace AdGuardHome.Client

open Netip SecondaryIndex

namespace Index

/-- Every lookup of the index mirrors the clients stored under their own UIDs. -/
structure Consistent (ci : Index) : Prop where
  names : Tracks ci.nameToUID.get ci.uidToClient.get fun c => [c.name]
  clientIDs : Tracks ci.clientIDToUID.get ci.uidToClient.get Persistent.clientIDs
  ips : Tracks ci.ipToUID.get ci.uidToClient.get Persistent.ips
  subnets : Tracks ci.subnetToUID.get ci.uidToClient.get Persistent.subnets
  macs : Tracks ci.macToUID.get ci.uidToClient.get Persistent.macKeys
  keyed : ∀ uid c, ci.uidToClient.get uid = some c → c.uid = uid
  hasUID : ∀ uid c, ci.uidToClient.get uid = some c → uid ≠ 0
  validMACs : ∀ uid c, ci.uidToClient.get uid = some c → ∀ mac ∈ c.macs, (macToKey mac).isSome

structure Unclaimed (ci : Index) (c : Persistent) : Prop where
  name : SecondaryIndex.Unclaimed ci.nameToUID.get [c.name] c.uid
  clientIDs : SecondaryIndex.Unclaimed ci.clientIDToUID.get c.clientIDs c.uid
  ips : SecondaryIndex.Unclaimed ci.ipToUID.get c.ips c.uid
  subnets : SecondaryIndex.Unclaimed ci.subnetToUID.get c.subnets c.uid
  macs : SecondaryIndex.Unclaimed ci.macToUID.get c.macKeys c.uid
  validMACs : ∀ mac ∈ c.macs, (macToKey mac).isSome

theorem Consistent.empty : Consistent new where
  names := Tracks.empty _
  clientIDs := Tracks.empty _
  ips := Tracks.empty _
  subnets := Tracks.empty _
  macs := Tracks.empty _
  keyed := by simp [new]
  hasUID := by simp [new]
  validMACs := by simp [new]

private theorem get_set_withRow (table : FiniteMap UID Persistent) (c : Persistent) :
    (table.set c.uid c).get = withRow table.get c.uid (some c) :=
  funext fun uid => table.get_set c.uid uid c

private theorem get_delete_withRow (table : FiniteMap UID Persistent) (uid : UID) :
    (table.delete uid).get = withRow table.get uid none :=
  funext (table.get_delete uid)

private theorem get_setAll {Key : Type} [DecidableEq Key] (table : FiniteMap Key UID)
    (keys : List Key) (uid : UID) :
    (table.setAll keys uid).get = overwrite table.get keys (some uid) :=
  funext (table.get_setAll keys uid)

private theorem get_deleteAll {Key : Type} [DecidableEq Key] (table : FiniteMap Key UID)
    (keys : List Key) : (table.deleteAll keys).get = overwrite table.get keys none :=
  funext (table.get_deleteAll keys)

private theorem get_setOne {Key : Type} [DecidableEq Key] (table : FiniteMap Key UID) (key : Key)
    (uid : UID) : (table.set key uid).get = overwrite table.get [key] (some uid) :=
  get_setAll table [key] uid

private theorem get_deleteOne {Key : Type} [DecidableEq Key] (table : FiniteMap Key UID)
    (key : Key) : (table.delete key).get = overwrite table.get [key] none :=
  get_deleteAll table [key]

private theorem get_setSubnets (table : Aghalg.SortedMap Prefix UID subnetCompare)
    (subnets : List Prefix) (uid : UID) :
    (subnets.foldl (fun table subnet => table.set subnet uid) table).get =
      overwrite table.get subnets (some uid) :=
  get_foldl (fun table key other => table.get_set key other uid) table subnets

private theorem get_delSubnets (table : Aghalg.SortedMap Prefix UID subnetCompare)
    (subnets : List Prefix) :
    (subnets.foldl Aghalg.SortedMap.del table).get = overwrite table.get subnets none :=
  get_foldl Aghalg.SortedMap.get_del table subnets

variable {c : Persistent} {ci : Index}

theorem Consistent.add (consistent : ci.Consistent) (fresh : ci.uidToClient.get c.uid = none)
    (hasUID : c.uid ≠ 0) (free : ci.Unclaimed c) :
    (ci.added c).Consistent where
  names := by
    simp only [added, get_set_withRow, get_setOne]
    exact consistent.names.insert fresh free.name
  clientIDs := by
    simp only [added, get_set_withRow, get_setAll]
    exact consistent.clientIDs.insert fresh free.clientIDs
  ips := by
    simp only [added, get_set_withRow, get_setAll]
    exact consistent.ips.insert fresh free.ips
  subnets := by
    simp only [added, get_set_withRow, get_setSubnets]
    exact consistent.subnets.insert fresh free.subnets
  macs := by
    simp only [added, get_set_withRow, get_setAll]
    exact consistent.macs.insert fresh free.macs
  keyed := by
    intro uid stored found
    rcases FiniteMap.of_get_set found with ⟨same, rfl⟩ | ⟨_, before⟩
    · exact same.symm
    · exact consistent.keyed uid stored before
  hasUID := by
    intro uid stored found
    rcases FiniteMap.of_get_set found with ⟨same, _⟩ | ⟨_, before⟩
    · exact same ▸ hasUID
    · exact consistent.hasUID uid stored before
  validMACs := by
    intro uid stored found
    rcases FiniteMap.of_get_set found with ⟨_, rfl⟩ | ⟨_, before⟩
    · exact free.validMACs
    · exact consistent.validMACs uid stored before

theorem Consistent.remove (consistent : ci.Consistent)
    (stored : ci.uidToClient.get c.uid = some c) : (ci.removed c).Consistent := by
  have kept : ∀ uid other, (ci.removed c).uidToClient.get uid = some other →
      ci.uidToClient.get uid = some other := by
    intro uid other found
    exact (FiniteMap.of_get_delete found).2
  exact {
    names := by
      simp only [removed, get_delete_withRow, get_deleteOne]
      exact consistent.names.erase stored
    clientIDs := by
      simp only [removed, get_delete_withRow, get_deleteAll]
      exact consistent.clientIDs.erase stored
    ips := by
      simp only [removed, get_delete_withRow, get_deleteAll]
      exact consistent.ips.erase stored
    subnets := by
      simp only [removed, get_delete_withRow, get_delSubnets]
      exact consistent.subnets.erase stored
    macs := by
      simp only [removed, get_delete_withRow, get_deleteAll]
      exact consistent.macs.erase stored
    keyed := fun uid other found => consistent.keyed uid other (kept uid other found)
    hasUID := fun uid other found => consistent.hasUID uid other (kept uid other found)
    validMACs := fun uid other found => consistent.validMACs uid other (kept uid other found) }

theorem Unclaimed.remove (free : ci.Unclaimed c)
    (gone : Persistent) : (ci.removed gone).Unclaimed c where
  name := by
    simp only [removed, get_deleteOne]
    exact free.name.overwrite_none
  clientIDs := by
    simp only [removed, get_deleteAll]
    exact free.clientIDs.overwrite_none
  ips := by
    simp only [removed, get_deleteAll]
    exact free.ips.overwrite_none
  subnets := by
    simp only [removed, get_delSubnets]
    exact free.subnets.overwrite_none
  macs := by
    simp only [removed, get_deleteAll]
    exact free.macs.overwrite_none
  validMACs := free.validMACs

variable {Key : Type} {uid : UID} {keys : List Key} {lookup : Key → Except Error (Option UID)}

/-- A walk that meets no clash has seen every key, and none of another client. -/
private theorem firstClash_none (passed : firstClash lookup uid keys = .ok none) :
    ∀ key ∈ keys, ∃ found, lookup key = .ok found ∧ ∀ other, found = some other → other = uid := by
  induction keys with
  | nil => simp
  | cons first rest ih =>
    rw [firstClash] at passed
    cases result : lookup first with
    | error error => simp [result, bind, Except.bind] at passed
    | ok found =>
      simp only [result, bind, Except.bind] at passed
      cases found with
      | none =>
        intro key member
        rcases List.mem_cons.mp member with rfl | later
        · exact ⟨none, result, by simp⟩
        · exact ih passed key later
      | some existing =>
        by_cases same : existing = uid
        · simp only [same, ne_eq, not_true_eq_false, ↓reduceIte] at passed
          intro key member
          rcases List.mem_cons.mp member with rfl | later
          · exact ⟨some existing, result, by simp [same]⟩
          · exact ih passed key later
        · simp [same, pure, Except.pure] at passed

/-- The clash a walk reports is an entry of the lookup. -/
private theorem firstClash_some {existing : UID} {key : Key}
    (clash : firstClash lookup uid keys = .ok (some (key, existing))) :
    lookup key = .ok (some existing) := by
  induction keys with
  | nil => simp [firstClash] at clash
  | cons first rest ih =>
    rw [firstClash] at clash
    cases result : lookup first with
    | error error => simp [result, bind, Except.bind] at clash
    | ok found =>
      simp only [result, bind, Except.bind] at clash
      cases found with
      | none => exact ih clash
      | some other =>
        by_cases same : other = uid
        · simp only [same, ne_eq, not_true_eq_false, ↓reduceIte] at clash
          exact ih clash
        · simp only [ne_eq, same, not_false_eq_true, ↓reduceIte, pure, Except.pure,
            Except.ok.injEq, Option.some.injEq, Prod.mk.injEq] at clash
          obtain ⟨rfl, rfl⟩ := clash
          exact result

/-- Where every owner has a client, a check that returns no client met no clash. -/
private theorem firstClash_of_clashesBy
    (owned : ∀ key existing, lookup key = .ok (some existing) →
      ∃ p, ci.uidToClient.get existing = some p)
    (passed : ci.clashesBy lookup uid keys = .ok none) :
    firstClash lookup uid keys = .ok none := by
  cases result : firstClash lookup uid keys with
  | error error => simp [clashesBy, result, bind, Except.bind] at passed
  | ok clash =>
    cases clash with
    | none => rfl
    | some entry =>
      obtain ⟨key, existing⟩ := entry
      obtain ⟨p, present⟩ := owned key existing (firstClash_some result)
      simp [clashesBy, result, present, bind, Except.bind, pure, Except.pure] at passed

private theorem owner_present {lookup : Key → Option UID}
    {rows : UID → Option Persistent} {listed : Persistent → List Key}
    (tracks : Tracks lookup rows listed) (key : Key) (existing : UID)
    (found : lookup key = some existing) : ∃ p, rows existing = some p := by
  obtain ⟨p, present, _⟩ := (tracks key existing).mp found
  exact ⟨p, present⟩

private theorem unclaimed_of_firstClash {lookup : Key → Option UID}
    (passed : firstClash (fun key => .ok (lookup key)) uid keys = .ok none) :
    SecondaryIndex.Unclaimed lookup keys uid := by
  intro key member other found
  obtain ⟨seen, same, mine⟩ := firstClash_none passed key member
  cases same
  exact mine other found

theorem Consistent.unclaimed_name (consistent : ci.Consistent)
    (passed : ci.clashesName c = .ok none) :
    SecondaryIndex.Unclaimed ci.nameToUID.get [c.name] c.uid := by
  intro name member other found
  obtain rfl := List.mem_singleton.mp member
  obtain ⟨existing, present⟩ := owner_present consistent.names _ _ found
  have mine := consistent.keyed other existing present
  simp only [clashesName, findByName, found, Option.map_some, present] at passed
  by_cases same : existing.uid = c.uid
  · exact mine.symm.trans same
  · simp [same] at passed

theorem Consistent.unclaimed_clientIDs (passed : ci.clashesClientID c = .ok none) :
    SecondaryIndex.Unclaimed ci.clientIDToUID.get c.clientIDs c.uid := by
  apply unclaimed_of_firstClash
  cases result : firstClash (fun id => .ok (ci.clientIDToUID.get id)) c.uid c.clientIDs with
  | error error => simp [clashesClientID, result, bind, Except.bind] at passed
  | ok clash =>
    cases clash with
    | none => rfl
    | some entry =>
      obtain ⟨id, existing⟩ := entry
      simp only [clashesClientID, result, bind, Except.bind] at passed
      split at passed <;> cases passed

theorem Consistent.unclaimed_ips (consistent : ci.Consistent) (passed : ci.clashesIP c = .ok none) :
    SecondaryIndex.Unclaimed ci.ipToUID.get c.ips c.uid := by
  apply unclaimed_of_firstClash
  refine firstClash_of_clashesBy ?_ passed
  intro ip existing found
  exact owner_present consistent.ips ip existing (Except.ok.inj found)

theorem Consistent.unclaimed_subnets (consistent : ci.Consistent)
    (passed : ci.clashesSubnet c = .ok none) :
    SecondaryIndex.Unclaimed ci.subnetToUID.get c.subnets c.uid := by
  apply unclaimed_of_firstClash
  simp only [clashesSubnet, Aghalg.SortedMap.find_entries] at passed
  refine firstClash_of_clashesBy ?_ passed
  intro subnet existing found
  exact owner_present consistent.subnets subnet existing (Except.ok.inj found)

theorem Consistent.unclaimed_macs (consistent : ci.Consistent)
    (passed : ci.clashesMAC c = .ok none) :
    SecondaryIndex.Unclaimed ci.macToUID.get c.macKeys c.uid ∧
      ∀ mac ∈ c.macs, (macToKey mac).isSome := by
  have seen := firstClash_none (firstClash_of_clashesBy (by
    intro mac existing found
    cases result : (macKey mac : Except Error MacKey) with
    | error error => simp [result, bind, Except.bind] at found
    | ok key =>
      simp only [result, bind, Except.bind, pure, Except.pure, Except.ok.injEq] at found
      exact owner_present consistent.macs key existing found) passed)
  constructor
  · intro key member other found
    obtain ⟨mac, listed, same⟩ := List.mem_filterMap.mp member
    obtain ⟨result, looked, mine⟩ := seen mac listed
    simp only [macKey, same, bind, Except.bind, pure, Except.pure, Except.ok.injEq] at looked
    exact mine other (looked ▸ found)
  · intro mac listed
    obtain ⟨result, looked, _⟩ := seen mac listed
    cases key : macToKey mac with
    | some key => rfl
    | none => simp [macKey, key, bind, Except.bind, throw, throwThe, MonadExceptOf.throw] at looked

private theorem reject_passed {α : Type} {check : Except Error (Option α)} {error : α → Error}
    {rest : Except Error Unit}
    (passed : (do reject (← check) error; rest) = .ok ()) : check = .ok none ∧ rest = .ok () := by
  cases result : check with
  | error error => simp [result, bind, Except.bind] at passed
  | ok found =>
    cases found with
    | none => exact ⟨rfl, by simpa [result, reject, bind, Except.bind, pure, Except.pure] using passed⟩
    | some found =>
      simp [result, reject, bind, Except.bind, throw, throwThe, MonadExceptOf.throw] at passed

theorem Consistent.unclaimed (consistent : ci.Consistent)
    (passed : ci.clashes c = .ok ()) : ci.Unclaimed c := by
  obtain ⟨name, passed⟩ := reject_passed passed
  obtain ⟨clientIDs, passed⟩ := reject_passed passed
  obtain ⟨ips, passed⟩ := reject_passed passed
  obtain ⟨subnets, passed⟩ := reject_passed passed
  have macs : ci.clashesMAC c = .ok none := by
    cases result : ci.clashesMAC c with
    | error error => simp [result, bind, Except.bind] at passed
    | ok found =>
      cases found with
      | none => rfl
      | some found =>
        simp [result, reject, bind, Except.bind, throw, throwThe, MonadExceptOf.throw] at passed
  exact {
    name := consistent.unclaimed_name name
    clientIDs := Consistent.unclaimed_clientIDs clientIDs
    ips := consistent.unclaimed_ips ips
    subnets := consistent.unclaimed_subnets subnets
    macs := (consistent.unclaimed_macs macs).1
    validMACs := (consistent.unclaimed_macs macs).2 }

/-- The client a consistent index finds by name is stored under its own UID. -/
theorem Consistent.findByName (consistent : ci.Consistent) {name : String}
    {found : Option Persistent} (lookup : ci.findByName name = some found) :
    ∃ stored, found = some stored ∧ ci.uidToClient.get stored.uid = some stored := by
  obtain ⟨uid, known, rfl⟩ := Option.map_eq_some_iff.mp lookup
  obtain ⟨stored, present, _⟩ := (consistent.names name uid).mp known
  have own := consistent.keyed uid stored present
  exact ⟨stored, present, own.symm ▸ present⟩

end Index

namespace Storage

/-- The index is consistent, and exactly the stored clients have a custom upstream
configuration. -/
structure Consistent (s : Storage) : Prop where
  index : s.index.Consistent
  configs : ∀ uid, (s.upstreamManager.uidToCustomConf.get uid).isSome =
    (s.index.uidToClient.get uid).isSome

theorem Consistent.empty : Consistent new := ⟨Index.Consistent.empty, fun _ => rfl⟩

/-- What a call may do: succeed and keep the storage consistent, or fail and leave it
as it was. -/
def Sound {α : Type} (s : Storage) : EStateM.Result Error Storage α → Prop
  | .ok _ next => next.Consistent
  | .error _ next => next = s

variable {s : Storage}

private theorem Sound.check {α β : Type} {check : Except Error α}
    {rest : α → EStateM Error Storage β}
    (passed : ∀ value, check = .ok value → s.Sound (rest value s)) :
    s.Sound ((ofExcept check >>= rest) s) :=
  Fallible.check_bind s.Sound (fun _ => rfl) passed

private theorem read_run {β : Type} {rest : Storage → EStateM Error Storage β} (s : Storage) :
    (get >>= rest) s = rest s s := rfl

private theorem Sound.read {β : Type} {rest : Storage → EStateM Error Storage β}
    (sound : s.Sound (rest s s)) : s.Sound ((get >>= rest) s) := sound

private theorem onIndex_run {method : EStateM Error Index Unit} {index : Index}
    (runs : method s.index = .ok () index) : onIndex method s = .ok () { s with index } := by
  simp [onIndex, runs]

/-- The storage after its index took a client in. -/
private theorem Consistent.store {ci : Index} {c : Persistent}
    (configs : ∀ uid, uid ≠ c.uid → (s.upstreamManager.uidToCustomConf.get uid).isSome =
      (ci.uidToClient.get uid).isSome)
    (index : (ci.added c).Consistent) :
    Consistent ⟨ci.added c, s.upstreamManager.updateCustomUpstreamConfig c⟩ := by
  refine ⟨index, ?_⟩
  intro uid
  simp only [UpstreamManager.updateCustomUpstreamConfig, Index.added, FiniteMap.get_set]
  by_cases same : uid = c.uid
  · simp [same]
  · simpa [same] using configs uid same

theorem add_sound (consistent : s.Consistent) (p : Persistent)
    (upstreamsError : Option String) : s.Sound (add p upstreamsError s) := by
  refine Sound.check fun p validated => Sound.read ?_
  refine Sound.check fun _ uidFree => ?_
  refine Sound.check fun _ passed => ?_
  have hasUID := Persistent.validate_hasUID validated
  have fresh : s.index.uidToClient.get p.uid = none := by
    unfold Index.clashesUID at uidFree
    split at uidFree
    · cases uidFree
    · assumption
  have free := consistent.index.unclaimed passed
  simp only [bind, EStateM.bind, onIndex_run (Index.add_run hasUID free.validMACs)]
  exact Consistent.store (fun uid _ => consistent.configs uid)
    (consistent.index.add fresh hasUID free)

theorem Consistent.findByName (consistent : s.Consistent) {name : String}
    {found : Option Persistent} (lookup : s.index.findByName name = some found) :
    ∃ stored, found = some stored ∧ s.index.uidToClient.get stored.uid = some stored :=
  consistent.index.findByName lookup

theorem update_sound (consistent : s.Consistent) (name : String) (p : Persistent)
    (upstreamsError : Option String) : s.Sound (update name p upstreamsError s) := by
  refine Sound.check fun p _ => Sound.read ?_
  cases lookup : s.index.findByName name with
  | none => rfl
  | some found =>
    obtain ⟨stored, rfl, present⟩ := consistent.findByName lookup
    refine Sound.check fun _ passed => ?_
    let replaced : Persistent := { p with uid := stored.uid }
    have hasUID : replaced.uid ≠ 0 := consistent.index.hasUID stored.uid stored present
    have free := (consistent.index.unclaimed passed).remove stored
    have removed := consistent.index.remove present
    have gone : (s.index.removed stored).uidToClient.get replaced.uid = none := by
      simp [Index.removed, replaced]
    have validMACs := consistent.index.validMACs stored.uid stored present
    have adds : onIndex (Index.add { p with uid := stored.uid })
        ⟨s.index.removed stored, s.upstreamManager⟩ = .ok () _ :=
      onIndex_run (Index.add_run hasUID free.validMACs)
    simp only [bind, EStateM.bind, onIndex_run (Index.remove_run validMACs), adds]
    refine Consistent.store ?_ (removed.add gone hasUID free)
    intro uid other
    simpa [Index.removed, FiniteMap.get_delete, other] using consistent.configs uid

theorem removeByName_sound (consistent : s.Consistent) (name : String) :
    s.Sound (removeByName name s) := by
  refine Sound.read ?_
  cases lookup : s.index.findByName name with
  | none => exact consistent
  | some found =>
    obtain ⟨stored, rfl, present⟩ := consistent.findByName lookup
    have validMACs := consistent.index.validMACs stored.uid stored present
    simp only [bind, EStateM.bind, onIndex_run (Index.remove_run validMACs)]
    refine ⟨consistent.index.remove present, ?_⟩
    intro uid
    simp only [UpstreamManager.remove, Index.removed, FiniteMap.get_delete]
    split
    · rfl
    · exact consistent.configs uid

private theorem removeByName_false (name : String) {s next : Storage}
    (missing : removeByName name s = .ok false next) : next = s := by
  rw [removeByName, read_run] at missing
  cases lookup : s.index.findByName name with
  | none =>
    simp only [lookup] at missing
    cases missing
    rfl
  | some found =>
    cases found with
    | none =>
      simp only [lookup] at missing
      cases missing
    | some stored =>
      simp only [lookup, bind, EStateM.bind] at missing
      split at missing
      · cases missing
      · cases missing

theorem step_sound (consistent : s.Consistent) (call : Call) :
    (machine.next s call).Consistent ∧
      ((machine.answer s call).isFailure = true → machine.next s call = s) := by
  cases call with
  | add p upstreamsError =>
    have sound := add_sound consistent p upstreamsError
    simp only [Transition.Machine.next, Transition.Machine.answer, machine, step]
    cases result : add p upstreamsError s with
    | ok _ next => exact ⟨by simpa [result, Sound] using sound, by simp [Answer.isFailure]⟩
    | error error next =>
      have same : next = s := by simpa [result, Sound] using sound
      exact ⟨same ▸ consistent, fun _ => same⟩
  | update name p upstreamsError =>
    have sound := update_sound consistent name p upstreamsError
    simp only [Transition.Machine.next, Transition.Machine.answer, machine, step]
    cases result : update name p upstreamsError s with
    | ok _ next => exact ⟨by simpa [result, Sound] using sound, by simp [Answer.isFailure]⟩
    | error error next =>
      have same : next = s := by simpa [result, Sound] using sound
      exact ⟨same ▸ consistent, fun _ => same⟩
  | removeByName name =>
    have sound := removeByName_sound consistent name
    simp only [Transition.Machine.next, Transition.Machine.answer, machine, step]
    cases result : removeByName name s with
    | ok found next =>
      refine ⟨by simpa [result, Sound] using sound, ?_⟩
      intro failure
      have absent : found = false := by simpa [Answer.isFailure] using failure
      exact removeByName_false name (absent ▸ result)
    | error error next =>
      have same : next = s := by simpa [result, Sound] using sound
      exact ⟨same ▸ consistent, fun _ => same⟩

theorem reachable_consistent (reached : machine.Reachable new s) : s.Consistent :=
  machine.reachable_invariant Consistent
    (fun _ call consistent => (step_sound consistent call).1) Consistent.empty reached

/-- After any run of calls each index maps an identifier to a UID exactly when the
client stored under that UID lists it, no identifier has two clients, the custom
upstream configurations are those of the stored clients, and the next call changes
nothing if it fails. -/
theorem indexes_mirror_clients (calls : List Call) :
    let s := machine.run new calls
    (∀ name uid, s.index.nameToUID.get name = some uid ↔
      ∃ c, s.index.uidToClient.get uid = some c ∧ c.name = name) ∧
    (∀ id uid, s.index.clientIDToUID.get id = some uid ↔
      ∃ c, s.index.uidToClient.get uid = some c ∧ id ∈ c.clientIDs) ∧
    (∀ ip uid, s.index.ipToUID.get ip = some uid ↔
      ∃ c, s.index.uidToClient.get uid = some c ∧ ip ∈ c.ips) ∧
    (∀ subnet uid, s.index.subnetToUID.get subnet = some uid ↔
      ∃ c, s.index.uidToClient.get uid = some c ∧ subnet ∈ c.subnets) ∧
    (∀ (key : MacKey) uid, s.index.macToUID.get key = some uid ↔
      ∃ c, s.index.uidToClient.get uid = some c ∧ key.val ∈ c.macs) ∧
    (∀ uid other c d, s.index.uidToClient.get uid = some c →
      s.index.uidToClient.get other = some d →
      (c.name = d.name ∨ (∃ id ∈ c.clientIDs, id ∈ d.clientIDs) ∨ (∃ ip ∈ c.ips, ip ∈ d.ips) ∨
        (∃ subnet ∈ c.subnets, subnet ∈ d.subnets) ∨ ∃ mac ∈ c.macs, mac ∈ d.macs) →
      uid = other) ∧
    (∀ uid, (s.upstreamManager.uidToCustomConf.get uid).isSome =
      (s.index.uidToClient.get uid).isSome) ∧
    ∀ call, (machine.answer s call).isFailure = true → machine.next s call = s := by
  intro s
  have consistent : s.Consistent := reachable_consistent ⟨calls, rfl⟩
  have index := consistent.index
  refine ⟨?_, index.clientIDs, index.ips, index.subnets, ?_, ?_, consistent.configs,
    fun call => (step_sound consistent call).2⟩
  · intro name uid
    simpa [eq_comm] using index.names name uid
  · intro key uid
    simpa [Persistent.mem_macKeys] using index.macs key uid
  · intro uid other c d first second shared
    rcases shared with name | ⟨id, one, two⟩ | ⟨ip, one, two⟩ | ⟨subnet, one, two⟩ | ⟨mac, one, two⟩
    · exact index.names.owner_unique first second (List.mem_singleton.mpr rfl) (by simp [name])
    · exact index.clientIDs.owner_unique first second one two
    · exact index.ips.owner_unique first second one two
    · exact index.subnets.owner_unique first second one two
    · obtain ⟨key, valid⟩ := Option.isSome_iff_exists.mp (index.validMACs uid c first mac one)
      obtain rfl := macToKey_eq_some.mp valid
      exact index.macs.owner_unique first second (Persistent.mem_macKeys.mpr one)
        (Persistent.mem_macKeys.mpr two)

end Storage

end AdGuardHome.Client
