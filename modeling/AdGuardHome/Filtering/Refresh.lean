import AdGuardHome.Filtering.Engine

namespace AdGuardHome.Filtering

open RuleList Strings

/-- The lists, and the engines that were installed, the latest first. -/
structure DNSFilter where
  lists : Lists
  userRules : List Bytes
  engines : List Engine

/-- What a refresh meets: the time and the downloads for either array, the interval in
hours, and whether the rule storages can be made. -/
structure RefreshEnv where
  now : Bool → Int
  interval : Nat
  downloads : Bool → Nat → Download
  opened : Bool × Bool

/-- `updateFilterList`. -/
def updateFilterList (ds : Nat → Download) : Disk → List FilterYAML → Nat → Disk × List Updated
  | disk, [], _ => (disk, [])
  | disk, uf :: rest, i =>
    let u := update disk uf (ds i)
    let (disk, us) := updateFilterList ds u.disk rest (i + 1)
    (disk, u :: us)

/-- What `refreshFiltersArray` leaves and returns. -/
structure ArrayResult where
  lists : Lists
  updateCount : Nat
  isNetErr : Bool

/-- `refreshFiltersArray`. -/
def refreshFiltersArray (s : Lists) (white force : Bool) (env : RefreshEnv) : ArrayResult :=
  let updateFilters := listsToUpdate (s.array white) force (env.now white) env.interval
  if updateFilters.length = 0 then ⟨s, 0, false⟩
  else
    let (disk, us) := updateFilterList (env.downloads white) s.disk updateFilters 0
    let s := { s with disk }
    if us.countP (·.err.isSome) = updateFilters.length then ⟨s, 0, true⟩
    else
      let (filters, updateCount) :=
        syncUpdatedFilters (s.array white) (us.map fun u => (u.flt, u.updated))
      ⟨s.setArray white filters, updateCount, false⟩

def DNSFilter.current (d : DNSFilter) : Engine :=
  buildEngine d.lists.disk (enableParams d.lists.filters d.lists.whitelistFilters d.userRules)

/-- `EnableFilters(false)`. -/
def DNSFilter.enableFilters (d : DNSFilter) (opened : Bool × Bool) : DNSFilter :=
  if opened.1 && opened.2 then { d with engines := d.current :: d.engines } else d

/-- `refreshFiltersIntl`: the lists and engines, the number of updated lists, and whether
there was a network error. -/
def refreshFiltersIntl (d : DNSFilter) (block allow force : Bool) (env : RefreshEnv) :
    DNSFilter × Nat × Bool :=
  let b := if block then refreshFiltersArray d.lists false force env else ⟨d.lists, 0, false⟩
  let a := if allow then refreshFiltersArray b.lists true force env else ⟨b.lists, 0, false⟩
  let d := { d with lists := a.lists }
  let updNum := b.updateCount + a.updateCount
  if b.isNetErr || a.isNetErr then (d, 0, true)
  else if updNum = 0 then (d, 0, false)
  else (d.enableFilters env.opened, updNum, false)

/-- How the update of a list turns out. -/
inductive Outcome where
  | failed
  | unchanged
  | replaced
  | replaceFailed
deriving DecidableEq

def Download.outcome (d : Download) (checksum : BitVec 32) : Outcome :=
  if !d.pending then .failed
  else
    match d.body with
    | none => .failed
    | some body =>
      match parse body with
      | .error _ => .failed
      | .ok res =>
        if res.checksum = checksum then if d.cleanup then .unchanged else .failed
        else if d.replace then .replaced
        else .replaceFailed

namespace Outcome

def isError : Outcome → Bool
  | failed | replaceFailed => true
  | _ => false

def isUpdated : Outcome → Bool
  | replaced | replaceFailed => true
  | _ => false

end Outcome

theorem update_outcome (disk : Disk) (flt : FilterYAML) (d : Download) :
    (update disk flt d).updated = (d.outcome flt.checksum).isUpdated ∧
      (update disk flt d).err.isSome = (d.outcome flt.checksum).isError := by
  simp only [update, updateIntl, Download.outcome]
  cases d.pending with
  | false => exact ⟨rfl, rfl⟩
  | true =>
    cases d.body with
    | none => exact ⟨rfl, rfl⟩
    | some body =>
      simp only [Bool.not_true, Bool.false_eq_true, ↓reduceIte]
      cases parse body with
      | error err => exact ⟨rfl, rfl⟩
      | ok res =>
        simp only
        split
        · cases d.cleanup <;> exact ⟨rfl, rfl⟩
        · cases d.replace <;> exact ⟨rfl, rfl⟩

def outcomes (filters : List FilterYAML) (force : Bool) (now : Int) (interval : Nat)
    (ds : Nat → Download) : List Outcome :=
  (listsToUpdate filters force now interval).mapIdx fun i uf => (ds i).outcome uf.checksum

/-- The outcomes of the updates in one of the arrays, if it is to be refreshed. -/
def DNSFilter.outcomes (d : DNSFilter) (requested white force : Bool) (env : RefreshEnv) :
    List Outcome :=
  if requested then
    Filtering.outcomes (d.lists.array white) force (env.now white) env.interval
      (env.downloads white)
  else []

end AdGuardHome.Filtering
