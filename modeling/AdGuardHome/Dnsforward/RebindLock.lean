import AdGuardHome.Dnsforward.Rebind

namespace AdGuardHome.Dnsforward.RebindLock

open Locking Net Strings

/-- What a call returns. -/
inductive Answer where
  | config (conf : RebindConfig)
  | cleared
  | attack (found : Bool)
deriving DecidableEq

/-- A call with its arguments; the time is the one at which an attack is recorded. -/
inductive Call where
  | getRebindConfig
  | setRebindConfig (enabled strictMode : Bool) (whitelisted : List Bytes)
  | clearRebindStats
  | checkDNSRebinding (domain : Bytes) (ip : IP) (clientIP now : Bytes)
deriving DecidableEq

abbrev Body := Program RebindConfig

/-- `GetRebindConfig`. -/
def getRebindConfig : Body RebindConfig :=
  .lock .read <| .work id fun conf => .unlock .read <| .ret conf

section Calls

variable (toLower : Bytes → Bytes)

/-- `SetRebindConfig`: the deferred unlock comes after the call in the return statement. -/
def setRebindConfig (enabled strictMode : Bool) (whitelisted : List Bytes) : Body RebindConfig :=
  .lock .write <| .work (·.configure toLower enabled strictMode whitelisted) fun _ =>
    getRebindConfig.bind fun resp => .unlock .write <| .ret resp

/-- `ClearRebindStats`. -/
def clearRebindStats : Body PUnit.{1} :=
  .lock .write <| .work RebindConfig.clearStats fun _ => .unlock .write <| .ret ⟨⟩

/-- `recordRebindAttack`. -/
def recordRebindAttack (now domain : Bytes) (targetIP : IP) (clientIP : Bytes) :
    Body PUnit.{1} :=
  .lock .write <| .work (·.record now domain targetIP clientIP) fun _ => .unlock .write <| .ret ⟨⟩

/-- `CheckDNSRebinding`. -/
def checkDNSRebinding (domain : Bytes) (ip : IP) (clientIP now : Bytes) : Body Bool :=
  .lock .read <| .work id fun conf => .unlock .read <|
    if !conf.enabled then .ret false
    else if !isPrivateOrLocalIP ip then .ret false
    else if isDomainWhitelistedForRebind toLower domain conf.whitelistedDomains then .ret false
    else (recordRebindAttack now domain ip clientIP).bind fun _ => .ret true

def Call.program : Call → Body Answer
  | getRebindConfig => RebindLock.getRebindConfig.bind fun conf => .ret (.config conf)
  | setRebindConfig enabled strictMode whitelisted =>
    (RebindLock.setRebindConfig toLower enabled strictMode whitelisted).bind fun conf =>
      .ret (.config conf)
  | clearRebindStats => RebindLock.clearRebindStats.bind fun _ => .ret .cleared
  | checkDNSRebinding domain ip clientIP now =>
    (RebindLock.checkDNSRebinding toLower domain ip clientIP now).bind fun found =>
      .ret (.attack found)

def Call.isSet : Call → Bool
  | setRebindConfig .. => true
  | _ => false

def machine : Transition.Machine (System RebindConfig Answer) (Event Call) PUnit.{1} :=
  System.machine (Call.program toLower)

theorem flat {call : Call} (other : call.isSet = false) : (call.program toLower).Flat none := by
  cases call with
  | getRebindConfig =>
    apply Program.Flat.bind
    · exact .lock (.work fun _ => .unlock (.ret _))
    · exact fun _ => .ret _
  | setRebindConfig enabled strictMode whitelisted => cases other
  | clearRebindStats =>
    apply Program.Flat.bind
    · exact .lock (.work fun _ => .unlock (.ret _))
    · exact fun _ => .ret _
  | checkDNSRebinding domain ip clientIP now =>
    apply Program.Flat.bind
    · refine .lock (.work fun conf => .unlock ?_)
      have recorded : (recordRebindAttack now domain ip clientIP).Flat none :=
        .lock (.work fun _ => .unlock (.ret _))
      split
      · exact .ret _
      split
      · exact .ret _
      split
      · exact .ret _
      · exact recorded.bind fun _ => .ret _
    · exact fun _ => .ret _

theorem set_stuck (conf : RebindConfig) {call : Call} (sets : call.isSet = true) :
    ((machine toLower).run (.start conf) [.begin call, .turn 0, .turn 0]).Stuck := by
  cases call with
  | setRebindConfig enabled strictMode whitelisted =>
    refine ⟨⟨_, List.mem_singleton_self _, rfl⟩, ?_⟩
    intro program member _
    obtain rfl := List.mem_singleton.mp member
    rfl
  | getRebindConfig => cases sets
  | clearRebindStats => cases sets
  | checkDNSRebinding domain ip clientIP now => cases sets

/-- Calls from a set of calls never deadlock, however many there are and however they
interleave, exactly when `SetRebindConfig` is not among them. -/
theorem never_stuck_iff (conf : RebindConfig) (calls : Set Call) :
    (∀ events : List (Event Call), (∀ call, .begin call ∈ events → call ∈ calls) →
      ¬ ((machine toLower).run (.start conf) events).Stuck) ↔
    ∀ call ∈ calls, call.isSet = false := by
  constructor
  · intro never call member
    by_contra sets
    apply never [.begin call, .turn 0, .turn 0]
    · intro other begun
      have same : other = call := by simpa using begun
      exact same ▸ member
    · exact set_stuck toLower conf (by simpa using sets)
  · intro others events begun
    have allFlat : ∀ call, call ∈ calls → (call.program toLower).Flat none :=
      fun call member => flat toLower (others call member)
    exact System.never_stuck allFlat conf begun

end Calls

/-- One change of the configuration, and nobody can take the lock any more. -/
theorem set_blocks_itself :
    ¬ ∀ events : List (Event Call),
      ¬ ((machine toLowerASCII).run (.start rebindConf) events).Stuck := by
  intro never
  have sets : (Call.setRebindConfig true true []).isSet = true := rfl
  exact never _ (set_stuck toLowerASCII rebindConf sets)

end AdGuardHome.Dnsforward.RebindLock
