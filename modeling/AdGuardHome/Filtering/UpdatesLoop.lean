import AdGuardHome.Filtering.EngineFresh
import AdGuardHome.Lib.Machine

namespace AdGuardHome.Filtering

open Transition (Machine)

namespace UpdatesLoop

/-- The interval that `updatesLoop` starts with. -/
def firstInterval : Int := 5 * 1000000000

/-- `maxInterval`. -/
def maxInterval : Int := 3600 * 1000000000

/-- What a round of the loop meets: `FiltersUpdateIntervalHours`, whether `refreshLock` is
held, and what `refreshFiltersIntl` says of the network. -/
structure Attempt where
  intervalHours : Nat
  locked : Bool
  isNetErr : Bool
deriving DecidableEq

/-- `tryRefreshFilters`: whether there was a network error, and whether it has run. -/
def tryRefreshFilters (a : Attempt) : Bool × Bool :=
  if a.locked then (false, false) else (a.isNetErr, true)

/-- `periodicallyRefreshFilters`. The doubled interval wraps around. -/
def periodicallyRefreshFilters (ivl : Int) (a : Attempt) : Int :=
  if a.intervalHours = 0 then ivl
  else
    let (isNetErr, ok) := tryRefreshFilters a
    if ok && !isNetErr then maxInterval
    else if isNetErr then max ((ivl * 2).bmod (2 ^ 64)) maxInterval
    else ivl

/-- The timer's part of the loop: each round sets the interval of the next one. -/
def machine : Machine Int Attempt Int where
  step ivl a := (periodicallyRefreshFilters ivl a, periodicallyRefreshFilters ivl a)

def Attempt.NetworkError (a : Attempt) : Prop :=
  a.intervalHours ≠ 0 ∧ tryRefreshFilters a = (true, true)

instance (a : Attempt) : Decidable a.NetworkError := inferInstanceAs (Decidable (_ ∧ _))

/-- A back-off: after an interval and an attempt, the next interval is positive and at most
an hour, and twice as long after a network error as long as that is no more than an hour. -/
structure BacksOff (ivl : Int) (a : Attempt) : Prop where
  positive : 0 < machine.answer ivl a
  capped : machine.answer ivl a ≤ maxInterval
  doubled : a.NetworkError → machine.answer ivl a = min (2 * ivl) maxInterval

theorem next_of_noError {a : Attempt} (fine : ¬ a.NetworkError) (ivl : Int) :
    machine.next ivl a = ivl ∨ machine.next ivl a = maxInterval := by
  change periodicallyRefreshFilters ivl a = ivl ∨ periodicallyRefreshFilters ivl a = maxInterval
  by_cases off : a.intervalHours = 0
  · exact .inl (if_pos off)
  · obtain ⟨hours, locked, isNetErr⟩ := a
    simp only [periodicallyRefreshFilters, off, ↓reduceIte]
    cases locked with
    | true => exact .inl rfl
    | false =>
      cases isNetErr with
      | true => exact absurd ⟨off, rfl⟩ fine
      | false => exact .inr rfl

theorem next_of_error {a : Attempt} (failed : a.NetworkError) (ivl : Int) :
    machine.next ivl a = max ((ivl * 2).bmod (2 ^ 64)) maxInterval := by
  obtain ⟨on, tried⟩ := failed
  change periodicallyRefreshFilters ivl a = _
  simp [periodicallyRefreshFilters, tried, on]

theorem backsOff_iff {ivl : Int} (positive : 0 < ivl) (capped : ivl ≤ maxInterval) (a : Attempt) :
    BacksOff ivl a ↔ (a.NetworkError → 2 * ivl = maxInterval) := by
  by_cases failed : a.NetworkError
  · have doubled : (ivl * 2).bmod (2 ^ 64) = 2 * ivl := by
      simp only [maxInterval] at capped
      rw [Int.bmod_eq_of_le] <;> omega
    have next : machine.answer ivl a = max (2 * ivl) maxInterval := by
      rw [← doubled]
      exact next_of_error failed ivl
    constructor
    · intro backsOff _
      have kept := backsOff.doubled failed
      omega
    · intro half
      have half := half failed
      exact ⟨by omega, by omega, fun _ => by omega⟩
  · refine ⟨fun _ error => absurd error failed, fun _ => ?_⟩
    have next : machine.answer ivl a = ivl ∨ machine.answer ivl a = maxInterval :=
      next_of_noError failed ivl
    have hour : 0 < maxInterval := by decide
    exact ⟨by omega, by omega, fun error => absurd error failed⟩

def Usual (ivl : Int) : Prop := ivl = firstInterval ∨ ivl = maxInterval

theorem backsOff_usual {ivl : Int} (usual : Usual ivl) (a : Attempt) :
    BacksOff ivl a ↔ ¬ a.NetworkError := by
  have within : 0 < ivl ∧ ivl ≤ maxInterval ∧ 2 * ivl ≠ maxInterval := by
    rcases usual with rfl | rfl <;> decide
  rw [backsOff_iff within.1 within.2.1]
  exact ⟨fun half error => within.2.2 (half error), fun fine error => absurd error fine⟩

theorem usual_next {ivl : Int} (usual : Usual ivl) {a : Attempt} (fine : ¬ a.NetworkError) :
    Usual (machine.next ivl a) := by
  rcases next_of_noError fine ivl with same | hour
  · rwa [same]
  · exact .inr hour

theorem allowed_iff {ivl : Int} (usual : Usual ivl) (attempts : List Attempt) :
    machine.Allowed BacksOff ivl attempts ↔ ∀ a ∈ attempts, ¬ a.NetworkError := by
  induction attempts generalizing ivl with
  | nil => simp [Machine.Allowed]
  | cons a rest ih =>
    rw [Machine.Allowed, List.forall_mem_cons, backsOff_usual usual]
    exact and_congr_right fun fine => ih (usual_next usual fine)

/-- The loop backs off in every round of a run iff no round of it ends with a network error. -/
theorem backsOff_run_iff (attempts : List Attempt) :
    machine.Allowed BacksOff firstInterval attempts ↔ ∀ a ∈ attempts, ¬ a.NetworkError :=
  allowed_iff (.inl rfl) attempts

/-- Two failures in a row: the first one is followed by an hour and not by ten seconds, and
the second by two hours. -/
theorem second_failure_waits_two_hours :
    let failed : Attempt := ⟨24, false, true⟩
    machine.answer firstInterval failed = 720 * firstInterval ∧
      machine.answer (machine.next firstInterval failed) failed = 2 * maxInterval ∧
        ¬ machine.Allowed BacksOff firstInterval [failed, failed] := by
  refine ⟨by decide, by decide, ?_⟩
  rintro ⟨first, -⟩
  have doubled := first.doubled (by decide)
  revert doubled
  decide

end UpdatesLoop

end AdGuardHome.Filtering
