import AdGuardHome.Lib.Machine

/-! Package `home`: the family safe mode that the Telegram bot toggles. It edits the same list of
user rules as the administrator does. -/
namespace AdGuardHome.Home

/-- The flags of the protection in `filtering.Config`. -/
structure ProtectionFlags where
  protectionEnabled : Bool
  filteringEnabled : Bool
  parentalEnabled : Bool
  safeBrowsingEnabled : Bool
  safeSearchEnabled : Bool
deriving DecidableEq

/-- `filtering.Config`, with what the safe mode writes and the flags beside it. -/
structure FilteringConf where
  userRules : List String
  flags : ProtectionFlags
deriving DecidableEq

namespace FilteringConf

/-- `DNSFilter.AddUserRule`. -/
def addUserRule (conf : FilteringConf) (rule : String) : FilteringConf :=
  if rule ∈ conf.userRules then conf else { conf with userRules := conf.userRules ++ [rule] }

/-- `DNSFilter.RemoveUserRules`. -/
def removeUserRules (conf : FilteringConf) (rulesToRemove : List String) : FilteringConf :=
  if rulesToRemove = [] then conf
  else { conf with userRules := conf.userRules.filter (· ∉ rulesToRemove) }

/-- `DNSFilter.SetFamilySafeMode`. -/
def setFamilySafeMode (conf : FilteringConf) (enabled : Bool) : FilteringConf :=
  { conf with flags := { conf.flags with
    safeSearchEnabled := enabled
    parentalEnabled := enabled
    safeBrowsingEnabled := true } }

end FilteringConf

/-- A call that a toggle makes. Each of them takes the locks of its own. -/
inductive SafeModeCall where
  | addUserRule (rule : String)
  | removeUserRules (rulesToRemove : List String)
  | setFamilySafeMode (enabled : Bool)
deriving DecidableEq

def SafeModeCall.run (conf : FilteringConf) : SafeModeCall → FilteringConf
  | .addUserRule rule => conf.addUserRule rule
  | .removeUserRules rulesToRemove => conf.removeUserRules rulesToRemove
  | .setFamilySafeMode enabled => conf.setFamilySafeMode enabled

/-- The rules of `ToggleSafeModeFunc`. -/
def safeModeRules : List String :=
  ["||porn^", "||xxx^", "||adult^", "||slot^", "||judi^", "||gambling^", "||bet88^", "||sbobet^"]

/-- What `ToggleSafeModeFunc` does after it has changed `safeModeState`. -/
def safeModeCalls (enabled : Bool) : List SafeModeCall :=
  if enabled then safeModeRules.map .addUserRule ++ [.setFamilySafeMode true]
  else [.removeUserRules safeModeRules, .setFamilySafeMode false]

/-- `ToggleSafeModeFunc` without anything in between. -/
def toggleSafeMode (safeModeState : Bool) (conf : FilteringConf) : Bool × FilteringConf :=
  (!safeModeState, (safeModeCalls !safeModeState).foldl SafeModeCall.run conf)

/-- The configuration with the toggles in progress, by the calls they have still to make, and
the rules that the administrator has added. -/
structure SafeMode where
  conf : FilteringConf
  safeModeState : Bool
  toggles : List (List SafeModeCall)
  added : List String

namespace SafeMode

/-- A toggle begins or makes its next call, or the administrator adds a rule or saves a list of
them. -/
inductive Event where
  | toggle
  | proceed (toggle : Nat)
  | addUserRule (rule : String)
  | setRules (rules : List String)

/-- A fresh process. The rules of its configuration are those of the administrator. -/
def start (conf : FilteringConf) : SafeMode := ⟨conf, false, [], conf.userRules⟩

def step (s : SafeMode) : Event → SafeMode
  | .toggle =>
    { s with
      safeModeState := !s.safeModeState
      toggles := s.toggles ++ [safeModeCalls !s.safeModeState] }
  | .proceed toggle =>
    match s.toggles[toggle]? with
    | some (call :: rest) => { s with conf := call.run s.conf, toggles := s.toggles.set toggle rest }
    | _ => s
  | .addUserRule rule => { s with conf := s.conf.addUserRule rule, added := rule :: s.added }
  | .setRules rules =>
    { s with
      conf := { s.conf with userRules := rules }
      added := rules.filter fun rule => rule ∈ s.added ∨ rule ∉ s.conf.userRules }

def machine : Transition.Machine SafeMode Event PUnit.{1} := ⟨fun s event => (s.step event, ⟨⟩)⟩

/-- A step of a toggle leaves the rules of the administrator in the list. -/
def Keeps (s : SafeMode) (event : Event) : Prop :=
  ∀ toggle, event = .proceed toggle →
    ∀ rule ∈ s.added, rule ∈ s.conf.userRules → rule ∈ (s.step event).conf.userRules

/-- Where a toggle is to remove its rules, none of them in the list is the administrator's. -/
def Spares (s : SafeMode) (event : Event) : Prop :=
  ∀ toggle rules rest, event = .proceed toggle →
    s.toggles[toggle]? = some (.removeUserRules rules :: rest) →
    ∀ rule ∈ safeModeRules, rule ∈ s.added → rule ∉ s.conf.userRules

/-- The toggles in progress only remove the rules of the safe mode. -/
def Removing (s : SafeMode) : Prop :=
  ∀ calls ∈ s.toggles, ∀ rules, .removeUserRules rules ∈ calls → rules = safeModeRules

end SafeMode

namespace FilteringConf

structure Reversible (conf : FilteringConf) : Prop where
  rules : ∀ rule ∈ safeModeRules, rule ∉ conf.userRules
  parental : conf.flags.parentalEnabled = false
  safeSearch : conf.flags.safeSearchEnabled = false
  safeBrowsing : conf.flags.safeBrowsingEnabled = true

def Restores (conf : FilteringConf) : Prop :=
  toggleSafeMode true (toggleSafeMode false conf).2 = (false, conf)

variable {conf : FilteringConf}

theorem mem_addUserRule {rule other : String} :
    other ∈ (conf.addUserRule rule).userRules ↔ other ∈ conf.userRules ∨ other = rule := by
  unfold addUserRule
  split
  next present =>
    constructor
    · exact .inl
    · intro either
      rcases either with old | new
      · exact old
      · exact new ▸ present
  next => simp only [List.mem_append, List.mem_singleton]

theorem mem_removeUserRules {rules : List String} {rule : String} :
    rule ∈ (conf.removeUserRules rules).userRules ↔ rule ∈ conf.userRules ∧ rule ∉ rules := by
  unfold removeUserRules
  split
  next none => simp [none]
  next => simp only [List.mem_filter, decide_eq_true_eq]

theorem addUserRule_flags (rule : String) : (conf.addUserRule rule).flags = conf.flags := by
  unfold addUserRule
  split <;> rfl

theorem filter_addUserRule {dropped : List String} {rule : String} (within : rule ∈ dropped) :
    (conf.addUserRule rule).userRules.filter (· ∉ dropped) =
      conf.userRules.filter (· ∉ dropped) := by
  unfold addUserRule
  split
  · rfl
  · simp [within]

theorem addUserRules {dropped rules : List String} (within : ∀ rule ∈ rules, rule ∈ dropped)
    (conf : FilteringConf) :
    let made := (rules.map .addUserRule).foldl SafeModeCall.run conf
    made.userRules.filter (· ∉ dropped) = conf.userRules.filter (· ∉ dropped) ∧
      made.flags = conf.flags := by
  induction rules generalizing conf with
  | nil => exact ⟨rfl, rfl⟩
  | cons rule rest ih =>
    obtain ⟨rules, flags⟩ := ih (fun other later => within other (List.mem_cons_of_mem _ later))
      (conf.addUserRule rule)
    exact ⟨rules.trans (filter_addUserRule (within rule List.mem_cons_self)),
      flags.trans (addUserRule_flags rule)⟩

theorem toggled (conf : FilteringConf) :
    toggleSafeMode true (toggleSafeMode false conf).2 =
      (false, ⟨conf.userRules.filter (· ∉ safeModeRules), { conf.flags with
        parentalEnabled := false
        safeBrowsingEnabled := true
        safeSearchEnabled := false }⟩) := by
  obtain ⟨rules, flags⟩ := addUserRules (fun rule (member : rule ∈ safeModeRules) => member) conf
  have on : (toggleSafeMode false conf).2 =
      ((safeModeRules.map .addUserRule).foldl SafeModeCall.run conf).setFamilySafeMode true := by
    simp only [toggleSafeMode, safeModeCalls, Bool.not_false, if_true, List.foldl_append]
    rfl
  have off : ∀ conf, toggleSafeMode true conf =
      (false, (conf.removeUserRules safeModeRules).setFamilySafeMode false) := fun _ => rfl
  have listed : safeModeRules ≠ [] := List.cons_ne_nil _ _
  rw [off, on]
  simp only [setFamilySafeMode, removeUserRules, if_neg listed]
  rw [rules, flags]

theorem restores_iff : conf.Restores ↔ conf.Reversible := by
  obtain ⟨userRules, protection, filtering, parental, safeBrowsing, safeSearch⟩ := conf
  have rules : userRules.filter (· ∉ safeModeRules) = userRules ↔
      ∀ rule ∈ safeModeRules, rule ∉ userRules := by
    rw [List.filter_eq_self]
    simp only [decide_eq_true_eq]
    exact ⟨fun kept rule dropped present => kept rule present dropped,
      fun apart rule present dropped => apart rule dropped present⟩
  rw [Restores, toggled]
  simp only [Prod.mk.injEq, mk.injEq, ProtectionFlags.mk.injEq, true_and, rules]
  constructor
  · intro ⟨apart, parental, safeBrowsing, safeSearch⟩
    exact ⟨apart, parental.symm, safeSearch.symm, safeBrowsing.symm⟩
  · intro ⟨apart, parental, safeSearch, safeBrowsing⟩
    exact ⟨apart, parental.symm, safeBrowsing.symm, safeSearch.symm⟩

end FilteringConf

namespace SafeMode

variable {s : SafeMode} {event : Event}

theorem removes_safeModeCalls {enabled : Bool} {rules : List String}
    (removes : .removeUserRules rules ∈ safeModeCalls enabled) : rules = safeModeRules := by
  cases enabled with
  | true => simp [safeModeCalls] at removes
  | false => simpa [safeModeCalls] using removes

theorem Removing.step (removing : s.Removing) : (s.step event).Removing := by
  cases event with
  | toggle =>
    intro calls member rules removes
    rcases List.mem_append.mp member with old | new
    · exact removing calls old rules removes
    · rw [List.mem_singleton.mp new] at removes
      exact removes_safeModeCalls removes
  | proceed toggle =>
    unfold SafeMode.step
    dsimp only
    split
    next call rest here =>
      intro calls member rules removes
      rcases List.mem_or_eq_of_mem_set member with old | new
      · exact removing calls old rules removes
      · rw [new] at removes
        exact removing _ (List.mem_of_getElem? here) rules (List.mem_cons_of_mem _ removes)
    next => exact removing
  | addUserRule rule => exact removing
  | setRules rules => exact removing

theorem keeps_iff (removing : s.Removing) : s.Keeps event ↔ s.Spares event := by
  constructor
  · intro keeps toggle rules rest proceeds here rule dropped added present
    have kept := keeps toggle proceeds rule added present
    have done : s.step event =
        { s with conf := s.conf.removeUserRules rules, toggles := s.toggles.set toggle rest } := by
      simp only [proceeds, SafeMode.step, here]
      rfl
    rw [done] at kept
    have ours := removing _ (List.mem_of_getElem? here) rules List.mem_cons_self
    exact (FilteringConf.mem_removeUserRules.mp kept).2 (ours ▸ dropped)
  · intro spares toggle proceeds rule added present
    rw [proceeds]
    unfold SafeMode.step
    dsimp only
    split
    next call rest here =>
      cases call with
      | addUserRule other => exact FilteringConf.mem_addUserRule.mpr (.inl present)
      | setFamilySafeMode enabled => exact present
      | removeUserRules rules =>
        refine FilteringConf.mem_removeUserRules.mpr ⟨present, fun dropped => ?_⟩
        have ours := removing _ (List.mem_of_getElem? here) rules List.mem_cons_self
        exact spares toggle rules rest proceeds here rule (ours ▸ dropped) added present
    next => exact present

end SafeMode

open SafeMode in
/-- Toggling on and off gives back exactly the configurations that have none of the rules of the
safe mode and the flags that it leaves behind; the toggles of a run lose no rule of the
administrator exactly if none of those in the list is among the rules that they remove. -/
theorem safeMode_iff (conf : FilteringConf) :
    (conf.Restores ↔ conf.Reversible) ∧
      ∀ events : List SafeMode.Event,
        machine.Allowed Keeps (start conf) events ↔ machine.Allowed Spares (start conf) events := by
  refine ⟨FilteringConf.restores_iff, fun events => ?_⟩
  exact machine.allowed_iff Removing (fun _ _ removing => keeps_iff removing)
    (fun _ _ removing _ => removing.step) (fun _ member => by cases member) events

/-- The button that blocks sites for adults adds two of the rules, and turning the safe mode on and
off removes them; safe search that was on before is off afterwards. -/
theorem safeMode_forgets :
    ¬ (∀ conf : FilteringConf, conf.Restores) ∧
      ¬ ∀ (conf : FilteringConf) (events : List SafeMode.Event),
        SafeMode.machine.Allowed SafeMode.Keeps (SafeMode.start conf) events := by
  constructor
  · intro always
    have reversible := FilteringConf.restores_iff.mp (always ⟨[], true, true, false, true, true⟩)
    exact Bool.noConfusion reversible.safeSearch
  · intro always
    have kept := always ⟨[], true, true, false, true, false⟩
      ([.addUserRule "||porn^", .toggle] ++ List.replicate 9 (.proceed 0) ++
        [.toggle, .proceed 1])
    have last := ((SafeMode.machine.allowed_append _ _ _).mp kept).2.2.1
    exact absurd (last 1 rfl "||porn^" (by decide) (by decide)) (by decide)

end AdGuardHome.Home
