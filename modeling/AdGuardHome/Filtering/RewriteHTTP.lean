import AdGuardHome.Filtering.Rewrites
import AdGuardHome.Lib.Machine

/-! `rewritehttp.go`: the list of legacy rewrites under the requests of the HTTP API. -/
namespace AdGuardHome.Filtering

open Netip Strings Transition

/-- `rewriteEntryJSON`; an absent `enabled` is `NBNull`. -/
structure RewriteEntryJSON where
  domain : Bytes
  answer : Bytes
  enabled : Option Bool
deriving DecidableEq

/-- `rewriteUpdateJSON`. -/
structure RewriteUpdateJSON where
  target : RewriteEntryJSON
  update : RewriteEntryJSON
deriving DecidableEq

structure RewriteConf where
  rewrites : List LegacyRewrite
  rewritesEnabled : Bool
deriving DecidableEq

/-- The errors, all of them with the status of a bad request. -/
inductive RewriteHTTPError where
  | jsonDecode (err : Bytes)
  /-- The target that is not a domain name. -/
  | normalizing (answer : Bytes)
  | targetNotFound
deriving DecidableEq

/-- What a handler leaves: the configuration, the error, and whether `Apply` saves it. -/
structure Handled where
  conf : RewriteConf
  error : Option RewriteHTTPError
  applied : Bool
deriving DecidableEq

namespace LegacyRewrite

/-- `LegacyRewrite.equal`. -/
def equal (rw other : LegacyRewrite) : Bool :=
  rw.domain == other.domain && rw.answer == other.answer

theorem equal_iff {rw other : LegacyRewrite} :
    rw.equal other = true ↔ rw.domain = other.domain ∧ rw.answer = other.answer := by
  simp [equal]

end LegacyRewrite

namespace RewriteEntryJSON

def rewrite (entry : RewriteEntryJSON) (enabled : Bool) : LegacyRewrite :=
  ⟨entry.domain, entry.answer, .zero, 0, enabled⟩

end RewriteEntryJSON

/-- `handleRewriteList`. -/
def handleRewriteList (conf : RewriteConf) : List RewriteEntryJSON :=
  conf.rewrites.map fun ent => ⟨ent.domain, ent.answer, some ent.enabled⟩

/-- `handleRewriteDelete` for what the body is decoded to. -/
def handleRewriteDelete (conf : RewriteConf) (body : Except Bytes RewriteEntryJSON) : Handled :=
  match body with
  | .error err => ⟨conf, some (.jsonDecode err), false⟩
  | .ok jsent =>
    let entDel := jsent.rewrite false
    ⟨{ conf with rewrites := conf.rewrites.filter (!·.equal entDel) }, none, true⟩

/-- `handleRewriteSettingsUpdate`. -/
def handleRewriteSettingsUpdate (conf : RewriteConf) (body : Except Bytes Bool) : Handled :=
  match body with
  | .error err => ⟨conf, some (.jsonDecode err), false⟩
  | .ok enabled => ⟨{ conf with rewritesEnabled := enabled }, none, true⟩

section Handlers

variable (toLower : Bytes → Bytes) (parseAddr : Bytes → Option Addr)
variable (validDomainName : Bytes → Bool)

/-- `prepareRewrites`, with `none` for an invalid entry. -/
def prepareRewrites (rewrites : List LegacyRewrite) : Option (List LegacyRewrite) :=
  rewrites.mapM (·.normalize toLower parseAddr validDomainName)

/-- `handleRewriteAdd`. -/
def handleRewriteAdd (conf : RewriteConf) (body : Except Bytes RewriteEntryJSON) : Handled :=
  match body with
  | .error err => ⟨conf, some (.jsonDecode err), false⟩
  | .ok rwJSON =>
    match (rwJSON.rewrite (rwJSON.enabled.getD true)).normalize toLower parseAddr
      validDomainName with
    | none => ⟨conf, some (.normalizing rwJSON.answer), false⟩
    | some rw => ⟨{ conf with rewrites := conf.rewrites ++ [rw] }, none, true⟩

/-- `handleRewriteUpdate`. -/
def handleRewriteUpdate (conf : RewriteConf) (body : Except Bytes RewriteUpdateJSON) : Handled :=
  match body with
  | .error err => ⟨conf, some (.jsonDecode err), false⟩
  | .ok updateJSON =>
    let rwDel := updateJSON.target.rewrite false
    match (updateJSON.update.rewrite false).normalize toLower parseAddr validDomainName with
    | none => ⟨conf, some (.normalizing updateJSON.update.answer), false⟩
    | some rwAdd =>
      match conf.rewrites.findIdx? rwDel.equal with
      | none => ⟨conf, some .targetNotFound, false⟩
      | some index =>
        let wasEnabled := (conf.rewrites[index]?.map (·.enabled)).getD false
        let rwAdd := { rwAdd with enabled := updateJSON.update.enabled.getD wasEnabled }
        ⟨{ conf with rewrites := conf.rewrites.set index rwAdd }, none, true⟩

/-- A request that changes the rewrites. -/
inductive RewriteRequest where
  | add (body : Except Bytes RewriteEntryJSON)
  | delete (body : Except Bytes RewriteEntryJSON)
  | update (body : Except Bytes RewriteUpdateJSON)
  | settings (body : Except Bytes Bool)

def rewriteAPI : Machine RewriteConf RewriteRequest Handled where
  step conf request :=
    let handled := match request with
      | .add body => handleRewriteAdd toLower parseAddr validDomainName conf body
      | .delete body => handleRewriteDelete conf body
      | .update body => handleRewriteUpdate toLower parseAddr validDomainName conf body
      | .settings body => handleRewriteSettingsUpdate conf body
    (handled.conf, handled)

end Handlers

section Normal

variable {toLower : Bytes → Bytes} {parseAddr : Bytes → Option Addr}
variable {validDomainName : Bytes → Bool}

/-- What normalizing keeps and what it changes. -/
theorem LegacyRewrite.normalize_some {rw normal : LegacyRewrite}
    (accepted : rw.normalize toLower parseAddr validDomainName = some normal) :
    normal.domain = toLower rw.domain ∧ normal.answer = rw.answer ∧
      normal.enabled = rw.enabled := by
  rw [normalize_eq, Option.map_eq_some_iff] at accepted
  obtain ⟨found, _, rfl⟩ := accepted
  exact ⟨rfl, rfl, rfl⟩

variable (toLower parseAddr validDomainName) in
def Normalized (e : LegacyRewrite) : Prop :=
  ∃ raw : LegacyRewrite, raw.normalize toLower parseAddr validDomainName = some e

/-- Preparing the configuration normalizes every entry. -/
theorem prepareRewrites_normalized {rewrites prepared : List LegacyRewrite}
    (done : prepareRewrites toLower parseAddr validDomainName rewrites = some prepared) :
    ∀ e ∈ prepared, Normalized toLower parseAddr validDomainName e := by
  unfold prepareRewrites at done
  induction rewrites generalizing prepared with
  | nil =>
    cases done
    simp
  | cons raw rest ih =>
    simp only [List.mapM_cons, Option.bind_eq_bind, Option.bind_eq_some_iff, Option.pure_def,
      Option.some.injEq] at done
    obtain ⟨first, accepted, others, later, rfl⟩ := done
    intro e member
    rcases List.mem_cons.mp member with rfl | among
    · exact ⟨raw, accepted⟩
    · exact ih later e among

/-- Preparing normalizes the entries one by one. -/
theorem prepareRewrites_eq_some {raws prepared : List LegacyRewrite} :
    prepareRewrites toLower parseAddr validDomainName raws = some prepared ↔
      List.Forall₂ (fun raw e => raw.normalize toLower parseAddr validDomainName = some e)
        raws prepared := by
  unfold prepareRewrites
  induction raws generalizing prepared with
  | nil =>
    rw [List.forall₂_nil_left_iff, List.mapM_nil]
    exact ⟨fun done => (Option.some.inj done).symm, fun empty => congrArg some empty.symm⟩
  | cons raw rest ih =>
    simp only [List.mapM_cons, Option.bind_eq_bind, Option.bind_eq_some_iff, Option.pure_def,
      Option.some.injEq, List.forall₂_cons_left_iff, ih]
    constructor
    · rintro ⟨first, accepted, others, later, rfl⟩
      exact ⟨first, others, accepted, later, rfl⟩
    · rintro ⟨first, others, accepted, later, rfl⟩
      exact ⟨first, accepted, others, later, rfl⟩

end Normal

section Restart

def LegacyRewrite.saved (rw : LegacyRewrite) : LegacyRewrite :=
  { rw with ip := .zero, type := 0 }

variable {toLower : Bytes → Bytes} {parseAddr : Bytes → Option Addr}
variable {validDomainName : Bytes → Bool}

variable (toLower parseAddr validDomainName) in
def Restored (e : LegacyRewrite) : Prop :=
  e.saved.normalize toLower parseAddr validDomainName = some e

/-- The normal form of an entry is restored, with whatever `enabled`. -/
theorem restored_of_normalize (idempotent : ∀ s, toLower (toLower s) = toLower s)
    {raw rw : LegacyRewrite} (decoded : raw.saved = raw) (enabled : Bool)
    (accepted : raw.normalize toLower parseAddr validDomainName = some rw) :
    Restored toLower parseAddr validDomainName { rw with enabled } := by
  rw [← decoded, LegacyRewrite.normalize_eq, Option.map_eq_some_iff] at accepted
  obtain ⟨found, resolved, rfl⟩ := accepted
  rw [Restored, LegacyRewrite.normalize_eq, Option.map_eq_some_iff]
  refine ⟨found, resolved, ?_⟩
  simp only [LegacyRewrite.saved, idempotent]

/-- The requests keep every entry such that it is restored. -/
theorem rewriteAPI_restored (idempotent : ∀ s, toLower (toLower s) = toLower s)
    (conf : RewriteConf) (request : RewriteRequest)
    (restored : ∀ e ∈ conf.rewrites, Restored toLower parseAddr validDomainName e) :
    ∀ e ∈ ((rewriteAPI toLower parseAddr validDomainName).next conf request).rewrites,
      Restored toLower parseAddr validDomainName e := by
  cases request with
  | add body =>
    simp only [Machine.next, rewriteAPI, handleRewriteAdd]
    split
    · exact restored
    · split
      · exact restored
      next rw accepted =>
        intro e member
        rcases List.mem_append.mp member with old | new
        · exact restored e old
        · obtain rfl := List.mem_singleton.mp new
          exact restored_of_normalize idempotent rfl e.enabled accepted
  | delete body =>
    simp only [Machine.next, rewriteAPI, handleRewriteDelete]
    split
    · exact restored
    · exact fun e member => restored e (List.mem_of_mem_filter member)
  | update body =>
    simp only [Machine.next, rewriteAPI, handleRewriteUpdate]
    split
    · exact restored
    · split
      · exact restored
      next rwAdd accepted =>
        split
        · exact restored
        · intro e member
          rcases List.mem_or_eq_of_mem_set member with old | rfl
          · exact restored e old
          · exact restored_of_normalize idempotent rfl _ accepted
  | settings body =>
    simp only [Machine.next, rewriteAPI, handleRewriteSettingsUpdate]
    split <;> exact restored

theorem prepareRewrites_saved_iff {rewrites : List LegacyRewrite} :
    prepareRewrites toLower parseAddr validDomainName (rewrites.map LegacyRewrite.saved) =
        some rewrites ↔
      ∀ e ∈ rewrites, Restored toLower parseAddr validDomainName e := by
  rw [prepareRewrites_eq_some, List.forall₂_map_left_iff, List.forall₂_same]
  rfl

/-- After a start and whatever requests, a restart gives the rewrites back as they are. -/
theorem rewrites_restored (idempotent : ∀ s, toLower (toLower s) = toLower s)
    {rewrites prepared : List LegacyRewrite} {enabled : Bool}
    (started : prepareRewrites toLower parseAddr validDomainName
      (rewrites.map LegacyRewrite.saved) = some prepared)
    {conf : RewriteConf} (reached : (rewriteAPI toLower parseAddr validDomainName).Reachable
      ⟨prepared, enabled⟩ conf) :
    prepareRewrites toLower parseAddr validDomainName (conf.rewrites.map LegacyRewrite.saved) =
      some conf.rewrites := by
  rw [prepareRewrites_saved_iff]
  refine (rewriteAPI toLower parseAddr validDomainName).reachable_invariant
    (fun conf => ∀ e ∈ conf.rewrites, Restored toLower parseAddr validDomainName e)
    (rewriteAPI_restored idempotent) ?_ reached
  rw [prepareRewrites_eq_some, List.forall₂_map_left_iff] at started
  clear reached
  induction started with
  | nil => nofun
  | cons first _ ih =>
    exact List.forall_mem_cons.mpr ⟨restored_of_normalize idempotent rfl _ first, ih⟩

private theorem toLowerASCII_idempotent (s : Bytes) :
    toLowerASCII (toLowerASCII s) = toLowerASCII s := by
  have bytewise : ∀ byte : BitVec 8,
      (let lower := if 65 ≤ byte ∧ byte ≤ 90 then byte + 32 else byte
       if 65 ≤ lower ∧ lower ≤ 90 then lower + 32 else lower) =
      if 65 ≤ byte ∧ byte ≤ 90 then byte + 32 else byte := by decide +kernel
  rw [toLowerASCII, toLowerASCII, List.map_map]
  exact List.map_congr_left fun byte _ => bytewise byte

theorem rewrites_restored_added :
    prepareRewrites toLowerASCII (fun _ => none) (fun _ => true)
        [⟨lit "example.org", lit "example.com", .zero, 0, true⟩] =
      some [⟨lit "example.org", lit "example.com", .zero, .cname, true⟩] :=
  @rewrites_restored _ _ _ toLowerASCII_idempotent [] [] true rfl _
    ⟨[.add (.ok ⟨lit "Example.org", lit "example.com", none⟩)], rfl⟩

end Restart

section Inverse

variable (toLower : Bytes → Bytes) (parseAddr : Bytes → Option Addr)
variable (validDomainName : Bytes → Bool)

def HoldsEqual (rewrites : List LegacyRewrite) (entry : RewriteEntryJSON) : Prop :=
  ∃ e ∈ rewrites, e.equal (entry.rewrite false) = true

/-- Deleting what was added gives the list back, unless it had an equal entry before; and an
update of what was added replaces one entry and keeps the others in their places. -/
structure AddInverse (conf : RewriteConf) (entry : RewriteEntryJSON) : Prop where
  deleted : ¬ HoldsEqual conf.rewrites entry →
    (handleRewriteDelete (handleRewriteAdd toLower parseAddr validDomainName conf (.ok entry)).conf
      (.ok entry)).conf = conf
  replaced : ∀ (update : RewriteEntryJSON) (new : LegacyRewrite),
    (update.rewrite false).normalize toLower parseAddr validDomainName = some new →
    ∃ front old back,
      (handleRewriteAdd toLower parseAddr validDomainName conf (.ok entry)).conf.rewrites =
        front ++ old :: back ∧
      old.equal (entry.rewrite false) = true ∧
      handleRewriteUpdate toLower parseAddr validDomainName
        (handleRewriteAdd toLower parseAddr validDomainName conf (.ok entry)).conf
        (.ok ⟨entry, update⟩) =
        ⟨⟨front ++ { new with enabled := update.enabled.getD old.enabled } :: back,
          conf.rewritesEnabled⟩, none, true⟩

variable {toLower parseAddr validDomainName}
variable {conf : RewriteConf} {entry : RewriteEntryJSON} {rw : LegacyRewrite}

theorem handleRewriteAdd_ok
    (accepted : (entry.rewrite (entry.enabled.getD true)).normalize toLower parseAddr
      validDomainName = some rw) :
    handleRewriteAdd toLower parseAddr validDomainName conf (.ok entry) =
      ⟨{ conf with rewrites := conf.rewrites ++ [rw] }, none, true⟩ := by
  simp only [handleRewriteAdd, accepted]

theorem added_equal_iff
    (accepted : (entry.rewrite (entry.enabled.getD true)).normalize toLower parseAddr
      validDomainName = some rw) :
    rw.equal (entry.rewrite false) = true ↔ toLower entry.domain = entry.domain := by
  obtain ⟨domain, answer, _⟩ := LegacyRewrite.normalize_some accepted
  rw [LegacyRewrite.equal_iff, domain, answer]
  simp [RewriteEntryJSON.rewrite]

theorem filter_of_not_holdsEqual {rewrites : List LegacyRewrite}
    (none : ¬ HoldsEqual rewrites entry) :
    rewrites.filter (!·.equal (entry.rewrite false)) = rewrites := by
  apply List.filter_eq_self.mpr
  intro e member
  by_contra equal
  exact none ⟨e, member, by simpa using equal⟩

/-- An update replaces the first entry that its target names. -/
theorem handleRewriteUpdate_replaces (holds : HoldsEqual conf.rewrites entry)
    {update : RewriteEntryJSON} {new : LegacyRewrite}
    (accepted : (update.rewrite false).normalize toLower parseAddr validDomainName = some new) :
    ∃ front old back, conf.rewrites = front ++ old :: back ∧
      old.equal (entry.rewrite false) = true ∧
      handleRewriteUpdate toLower parseAddr validDomainName conf (.ok ⟨entry, update⟩) =
        ⟨⟨front ++ { new with enabled := update.enabled.getD old.enabled } :: back,
          conf.rewritesEnabled⟩, none, true⟩ := by
  have symmetric : ∀ e : LegacyRewrite,
      (entry.rewrite false).equal e = e.equal (entry.rewrite false) := by
    intro e
    rw [Bool.eq_iff_iff, LegacyRewrite.equal_iff, LegacyRewrite.equal_iff, eq_comm,
      eq_comm (a := (entry.rewrite false).answer)]
  cases position : conf.rewrites.findIdx? (entry.rewrite false).equal with
  | none =>
    obtain ⟨e, member, equal⟩ := holds
    have absent := List.findIdx?_eq_none_iff.mp position e member
    rw [symmetric, equal] at absent
    cases absent
  | some index =>
    obtain ⟨inside, equal, _⟩ := List.findIdx?_eq_some_iff_getElem.mp position
    refine ⟨conf.rewrites.take index, conf.rewrites[index], conf.rewrites.drop (index + 1),
      ?_, ?_, ?_⟩
    · rw [List.getElem_cons_drop, List.take_append_drop]
    · rw [← symmetric]
      exact equal
    · simp only [handleRewriteUpdate, accepted, position, List.getElem?_eq_getElem inside,
        Option.map_some, Option.getD_some, List.set_eq_take_append_cons_drop, if_pos inside]

/-- Adding and deleting are inverse exactly for domains in lower case, and for the entries
that the list holds already as they are written. -/
theorem addInverse_iff (conf : RewriteConf) (entry : RewriteEntryJSON)
    (accepted : (entry.rewrite (entry.enabled.getD true)).normalize toLower parseAddr
      validDomainName = some rw) :
    AddInverse toLower parseAddr validDomainName conf entry ↔
      toLower entry.domain = entry.domain ∨ HoldsEqual conf.rewrites entry := by
  constructor
  · intro inverse
    by_contra neither
    obtain ⟨recased, fresh⟩ := not_or.mp neither
    -- What is stored is not what the request names, and stays.
    have stays : rw.equal (entry.rewrite false) = false :=
      Bool.eq_false_iff.mpr fun equal => recased ((added_equal_iff accepted).mp equal)
    have same := congrArg RewriteConf.rewrites (inverse.deleted fresh)
    rw [handleRewriteAdd_ok accepted] at same
    simp only [handleRewriteDelete, List.filter_append, filter_of_not_holdsEqual fresh,
      List.filter_cons, stays, Bool.not_false, if_true, List.filter_nil] at same
    have lengths := congrArg List.length same
    simp at lengths
  · intro good
    constructor
    · intro fresh
      have equal := (added_equal_iff accepted).mpr (good.resolve_right fresh)
      rw [handleRewriteAdd_ok accepted]
      simp only [handleRewriteDelete, List.filter_append, filter_of_not_holdsEqual fresh,
        List.filter_cons, equal, Bool.not_true, Bool.false_eq_true, if_false, List.filter_nil,
        List.append_nil]
    · intro update new valid
      rw [handleRewriteAdd_ok accepted]
      apply handleRewriteUpdate_replaces _ valid
      rcases good with lower | ⟨e, member, equal⟩
      · exact ⟨rw, List.mem_append_right _ (List.mem_singleton_self rw),
          (added_equal_iff accepted).mpr lower⟩
      · exact ⟨e, List.mem_append_left _ member, equal⟩

end Inverse

section Examples

private def noAddr (_ : Bytes) : Option Addr := none

private def plainEntry : RewriteEntryJSON := ⟨lit "example.org", lit "example.com", none⟩

private def capitalEntry : RewriteEntryJSON := ⟨lit "Example.org", lit "example.com", none⟩

private def otherRewrites : List LegacyRewrite :=
  [⟨lit "www.example.org", lit "example.com", .zero, .cname, true⟩,
    ⟨lit "example.org", lit "example.net", .zero, .cname, false⟩]

theorem addInverse_lower :
    AddInverse toLowerASCII noAddr (fun _ => true) ⟨otherRewrites, true⟩ plainEntry :=
  have accepted : (plainEntry.rewrite (plainEntry.enabled.getD true)).normalize toLowerASCII noAddr
      (fun _ => true) = some ⟨lit "example.org", lit "example.com", .zero, .cname, true⟩ := by decide
  (addInverse_iff ⟨otherRewrites, true⟩ plainEntry accepted).mpr (Or.inl (by decide))

/-- What is added under a capital letter is not found again. -/
theorem capital_is_not_deleted :
    ¬ ∀ (conf : RewriteConf) (entry : RewriteEntryJSON),
      (handleRewriteAdd toLowerASCII noAddr (fun _ => true) conf (.ok entry)).error = none →
      AddInverse toLowerASCII noAddr (fun _ => true) conf entry := by
  intro always
  have inverse := always ⟨[], true⟩ capitalEntry (by decide)
  have same := inverse.deleted (by simp [HoldsEqual])
  revert same
  decide

end Examples

end AdGuardHome.Filtering
