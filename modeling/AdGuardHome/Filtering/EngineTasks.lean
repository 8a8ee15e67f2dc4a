import AdGuardHome.Filtering.Engine
import AdGuardHome.Lib.SecondaryIndex
import AdGuardHome.Lib.Machine

namespace AdGuardHome.Filtering.EngineTasks

open Strings Transition

/-- The lists of a call of `EnableFilters`. Calls are numbered in the order in which they
read the lists. -/
structure Task where
  number : Nat
  params : Params
deriving DecidableEq

/-- What is still to be done with a task that is not in the channel. -/
inductive Stage where
  /-- `setFilters` is to put it into the channel. -/
  | push
  /-- The caller, or the loop, is to make the rule storages. -/
  | build (byLoop : Bool)
  /-- The engines are to be installed under `engineLock`. -/
  | install (byLoop : Bool)
deriving DecidableEq

structure Job where
  task : Task
  stage : Stage
deriving DecidableEq

namespace Job

/-- The job of a call that holds `filtersMu` for reading. -/
def locksLists (job : Job) : Bool :=
  match job.stage with
  | .push => true
  | .build byLoop | .install byLoop => !byLoop

def inLoop (job : Job) : Bool :=
  match job.stage with
  | .push => false
  | .build byLoop | .install byLoop => byLoop

end Job

/-- The lists, the installed engines, `filtersInitializerChan` and the jobs; the number of
calls and the lists that the last of them has read. -/
structure State where
  filters : List FilterYAML
  whitelistFilters : List FilterYAML
  userRules : List Bytes
  installed : Task
  channel : Option Task
  jobs : List Job
  calls : Nat
  last : Params

inductive Event where
  /-- An edit of the lists and the rules under `filtersMu`. -/
  | edit (filters whitelistFilters : List FilterYAML) (userRules : List Bytes)
  /-- `handleFilteringSetRules`, which takes no lock. -/
  | setRules (userRules : List Bytes)
  | enableFilters (async : Bool)
  | push (job : Nat)
  /-- The loop takes the pending task. -/
  | take
  /-- `initFiltering` up to the engines; `opened` tells whether the storages can be made. -/
  | build (job : Nat) (opened : Bool × Bool)
  | install (job : Nat)

namespace State

def start (filters whitelistFilters : List FilterYAML) (userRules : List Bytes) : State where
  filters := filters
  whitelistFilters := whitelistFilters
  userRules := userRules
  installed := ⟨0, enableParams filters whitelistFilters userRules⟩
  channel := none
  jobs := []
  calls := 0
  last := enableParams filters whitelistFilters userRules

/-- The lists as `enableFiltersLocked` reads them. -/
def params (s : State) : Params := enableParams s.filters s.whitelistFilters s.userRules

/-- `EnableFilters` up to the end of `enableFiltersLocked`'s loops. -/
def enableFilters (s : State) (async : Bool) : State :=
  { s with
    jobs := s.jobs ++ [⟨⟨s.calls + 1, s.params⟩, if async then .push else .build false⟩]
    calls := s.calls + 1
    last := s.params }

/-- The asynchronous part of `setFilters`: a task that is pending is dropped. -/
def push (s : State) (i : Nat) : State :=
  match s.jobs[i]? with
  | some ⟨task, .push⟩ => { s with jobs := s.jobs.eraseIdx i, channel := some task }
  | _ => s

def take (s : State) : State :=
  match s.channel with
  | some task =>
    if s.jobs.any (·.inLoop) then s
    else { s with jobs := s.jobs ++ [⟨task, .build true⟩], channel := none }
  | none => s

def build (s : State) (i : Nat) (opened : Bool × Bool) : State :=
  match s.jobs[i]? with
  | some ⟨task, .build byLoop⟩ =>
    if opened.1 && opened.2 then { s with jobs := s.jobs.set i ⟨task, .install byLoop⟩ }
    else { s with jobs := s.jobs.eraseIdx i }
  | _ => s

def install (s : State) (i : Nat) : State :=
  match s.jobs[i]? with
  | some ⟨task, .install _⟩ => { s with jobs := s.jobs.eraseIdx i, installed := task }
  | _ => s

def next (s : State) : Event → State
  | .edit filters whitelistFilters userRules =>
    if s.jobs.any (·.locksLists) then s else { s with filters, whitelistFilters, userRules }
  | .setRules userRules => { s with userRules }
  | .enableFilters async => s.enableFilters async
  | .push i => s.push i
  | .take => s.take
  | .build i opened => s.build i opened
  | .install i => s.install i

def Quiet (s : State) : Prop := s.channel = none ∧ s.jobs = []

def tasks (s : State) : List Task := s.channel.toList ++ s.jobs.map (·.task)

end State

def machine : Machine State Event PUnit.{1} := ⟨fun s event => (s.next event, ⟨⟩)⟩

/-- The lists as each call of `EnableFilters` of a run reads them. -/
def readings : State → List Event → List Params
  | _, [] => []
  | s, .enableFilters async :: rest => s.params :: readings (s.next (.enableFilters async)) rest
  | s, event :: rest => readings (s.next event) rest

/-- Once all tasks of a run are finished, the engines are those of its last call, whichever the
number of this is, and no engines replace later ones before. -/
structure LastWins (s : State) (events : List Event) : Prop where
  upToDate : (machine.run s events).Quiet → (machine.run s events).installed =
    ⟨(readings s events).length, (readings s events).getLastD s.params⟩
  forward : ∀ steps, (machine.run s (events.take steps)).installed.number ≤
    (machine.run s (events.take (steps + 1))).installed.number

/-- A task never drops a later one from the channel, the loop never takes a task when the
engines of a later one are installed, no build overtakes an earlier one, and the last call's
build never fails. -/
def InOrder (s : State) : Event → Prop
  | .push i => ∀ job, s.jobs[i]? = some job → ∀ pending, s.channel = some pending →
      pending.number ≤ job.task.number
  | .take => ∀ pending, s.channel = some pending →
      s.jobs.any (·.inLoop) = true ∨ s.installed.number < pending.number
  | .build i opened => ∀ job, s.jobs[i]? = some job → (opened.1 && opened.2) = true ∨
      job.task.number < s.calls
  | .install i => ∀ job, s.jobs[i]? = some job → ∀ other ∈ s.jobs, other.stage = .push ∨
      job.task.number ≤ other.task.number
  | _ => True

instance (s : State) (event : Event) : Decidable (InOrder s event) :=
  match event with
  | .push _ => inferInstanceAs (Decidable (∀ job, _ = some job → ∀ pending, _ = some pending → _))
  | .take => inferInstanceAs (Decidable (∀ pending, _ = some pending → _))
  | .build _ _ => inferInstanceAs (Decidable (∀ job, _ = some job → _))
  | .install _ => inferInstanceAs (Decidable (∀ job, _ = some job → ∀ other ∈ s.jobs, _))
  | .edit .. | .setRules _ | .enableFilters _ => .isTrue trivial

/-- Every build that is going on is later than the installed one. -/
def BuildsLater (s : State) : Prop :=
  ∀ job ∈ s.jobs, job.stage = .push ∨ s.installed.number < job.task.number

/-- The calls are numbered, and the last call's task is either installed or still there. -/
structure Ordered (s : State) : Prop where
  distinct : (s.tasks.map (·.number)).Nodup
  bounded : ∀ task ∈ s.tasks, task.number ≤ s.calls
  below : s.installed.number ≤ s.calls
  present : s.installed.number = s.calls ∨ ∃ task ∈ s.tasks, task.number = s.calls
  latest : s.installed.number = s.calls → s.installed.params = s.last
  lists : ∀ task ∈ s.tasks, task.number = s.calls → task.params = s.last
  later : BuildsLater s

namespace Ordered

variable {s : State}

theorem installed_eq (ordered : Ordered s) (quiet : s.Quiet) : s.installed = ⟨s.calls, s.last⟩ := by
  have nothing : s.tasks = [] := by simp [State.tasks, quiet.1, quiet.2]
  rcases ordered.present with installed | ⟨task, member, _⟩
  · rw [← installed, ← ordered.latest installed]
  · simp [nothing] at member

theorem perm (ordered : Ordered s) {s' : State} (same : s'.tasks.Perm s.tasks)
    (kept : (s'.installed, s'.calls, s'.last) = (s.installed, s.calls, s.last))
    (later : BuildsLater s') : Ordered s' := by
  simp only [Prod.mk.injEq] at kept
  obtain ⟨installed, calls, last⟩ := kept
  constructor
  · exact (same.map _).nodup_iff.mpr ordered.distinct
  · intro task member
    rw [calls]
    exact ordered.bounded task (same.mem_iff.mp member)
  · rw [installed, calls]
    exact ordered.below
  · rw [installed, calls]
    refine ordered.present.imp id ?_
    intro ⟨task, member, number⟩
    exact ⟨task, same.mem_iff.mpr member, number⟩
  · rw [installed, calls, last]
    exact ordered.latest
  · intro task member
    rw [calls, last]
    exact ordered.lists task (same.mem_iff.mp member)
  · exact later

/-- A task that is dropped must not be the last call's. -/
theorem drop (ordered : Ordered s) {s' : State} {dropped : Task}
    (split : s.tasks.Perm (dropped :: s'.tasks)) (older : dropped.number < s.calls)
    (kept : (s'.installed, s'.calls, s'.last) = (s.installed, s.calls, s.last))
    (later : BuildsLater s') : Ordered s' := by
  simp only [Prod.mk.injEq] at kept
  obtain ⟨installed, calls, last⟩ := kept
  have from_ : ∀ task ∈ s'.tasks, task ∈ s.tasks := fun task member =>
    split.mem_iff.mpr (List.mem_cons_of_mem _ member)
  constructor
  · have nodup := (split.map (·.number)).nodup_iff.mp ordered.distinct
    exact (List.nodup_cons.mp nodup).2
  · intro task member
    rw [calls]
    exact ordered.bounded task (from_ task member)
  · rw [installed, calls]
    exact ordered.below
  · rw [installed, calls]
    refine ordered.present.imp id ?_
    intro ⟨task, member, number⟩
    rcases List.mem_cons.mp (split.mem_iff.mp member) with rfl | rest
    · omega
    · exact ⟨task, rest, number⟩
  · rw [installed, calls, last]
    exact ordered.latest
  · intro task member
    rw [calls, last]
    exact ordered.lists task (from_ task member)
  · exact later

/-- A later build is installed. -/
theorem installed (ordered : Ordered s) {s' : State} {task : Task}
    (split : s.tasks.Perm (task :: s'.tasks)) (newer : s.installed.number < task.number)
    (kept : (s'.installed, s'.calls, s'.last) = (task, s.calls, s.last))
    (later : BuildsLater s') : Ordered s' := by
  simp only [Prod.mk.injEq] at kept
  obtain ⟨installed, calls, last⟩ := kept
  have from_ : ∀ task ∈ s'.tasks, task ∈ s.tasks := fun task member =>
    split.mem_iff.mpr (List.mem_cons_of_mem _ member)
  have here : task ∈ s.tasks := split.mem_iff.mpr List.mem_cons_self
  have bound := ordered.bounded task here
  constructor
  · have nodup := (split.map (·.number)).nodup_iff.mp ordered.distinct
    exact (List.nodup_cons.mp nodup).2
  · intro other member
    rw [calls]
    exact ordered.bounded other (from_ other member)
  · rw [installed, calls]
    exact bound
  · rw [installed, calls]
    rcases ordered.present with former | ⟨latest, member, number⟩
    · omega
    · rcases List.mem_cons.mp (split.mem_iff.mp member) with rfl | rest
      · exact Or.inl number
      · exact Or.inr ⟨latest, rest, number⟩
  · rw [installed, calls, last]
    exact ordered.lists task here
  · intro other member
    rw [calls, last]
    exact ordered.lists other (from_ other member)
  · exact later

end Ordered

section Jobs

variable {s : State} {i : Nat} {job : Job}

theorem map_eraseIdx (found : s.jobs[i]? = some job) :
    (s.jobs.map (·.task)).Perm (job.task :: (s.jobs.eraseIdx i).map (·.task)) :=
  (KeyedList.perm_eraseIdx found).map (·.task)

theorem tasks_eraseIdx (found : s.jobs[i]? = some job) :
    s.tasks.Perm (job.task :: (s.channel.toList ++ (s.jobs.eraseIdx i).map (·.task))) :=
  ((map_eraseIdx found).append_left _).trans List.perm_middle

theorem job_mem (found : s.jobs[i]? = some job) : job.task ∈ s.tasks :=
  (tasks_eraseIdx found).mem_iff.mpr List.mem_cons_self

theorem other_number (distinct : (s.tasks.map (·.number)).Nodup) (found : s.jobs[i]? = some job)
    {other : Job} (member : other ∈ s.jobs.eraseIdx i) : other.task.number ≠ job.task.number := by
  have jobs : (s.jobs.map fun job => job.task.number).Nodup := by
    simp only [State.tasks, List.map_append, List.map_map] at distinct
    exact distinct.of_append_right
  exact (KeyedList.mem_eraseIdx jobs found member).2

end Jobs

namespace Ordered

variable {s : State}

theorem enableFilters (ordered : Ordered s) (async : Bool) : Ordered (s.enableFilters async) := by
  have grown : (s.enableFilters async).tasks = s.tasks ++ [⟨s.calls + 1, s.params⟩] := by
    simp [State.tasks, State.enableFilters]
  constructor
  · rw [grown, List.map_append, List.nodup_append]
    refine ⟨ordered.distinct, by simp, ?_⟩
    intro number member other last
    obtain ⟨task, listed, rfl⟩ := List.mem_map.mp member
    have bound := ordered.bounded task listed
    obtain rfl : other = s.calls + 1 := by simpa using last
    omega
  · intro task member
    rw [grown] at member
    rcases List.mem_append.mp member with former | new
    · exact (ordered.bounded task former).trans (Nat.le_succ _)
    · obtain rfl := List.mem_singleton.mp new
      exact le_rfl
  · exact ordered.below.trans (Nat.le_succ _)
  · refine Or.inr ⟨⟨s.calls + 1, s.params⟩, ?_, rfl⟩
    simp [grown]
  · intro same
    have below := ordered.below
    have same' : s.installed.number = s.calls + 1 := same
    omega
  · intro task member number
    rw [grown] at member
    rcases List.mem_append.mp member with former | new
    · have bound := ordered.bounded task former
      have number' : task.number = s.calls + 1 := number
      omega
    · obtain rfl := List.mem_singleton.mp new
      rfl
  · intro job member
    rcases List.mem_append.mp member with former | new
    · exact ordered.later job former
    · obtain rfl := List.mem_singleton.mp new
      exact Or.inr (Nat.lt_succ_of_le ordered.below)

theorem push (ordered : Ordered s) {i : Nat} (allowed : InOrder s (.push i)) :
    Ordered (s.push i) := by
  unfold State.push
  split
  next task found =>
    have split := map_eraseIdx found
    have later : BuildsLater { s with jobs := s.jobs.eraseIdx i, channel := some task } :=
      fun job member => ordered.later job (List.mem_of_mem_eraseIdx member)
    cases pending : s.channel with
    | none =>
      refine ordered.perm ?_ rfl later
      simpa [State.tasks, pending] using split.symm
    | some dropped =>
      have both : s.tasks.Perm (dropped :: task :: (s.jobs.eraseIdx i).map (·.task)) := by
        simpa [State.tasks, pending] using split
      refine ordered.drop both ?_ rfl later
      · have notLater := allowed ⟨task, .push⟩ found dropped pending
        have bound := ordered.bounded task (job_mem found)
        have different := (both.map (·.number)).nodup_iff.mp ordered.distinct
        simp only [List.map_cons, List.nodup_cons, List.mem_cons, not_or] at different
        exact lt_of_lt_of_le (lt_of_le_of_ne notLater different.1.1) bound
  next => exact ordered

theorem take (ordered : Ordered s) (allowed : InOrder s .take) : Ordered s.take := by
  unfold State.take
  cases pending : s.channel with
  | none => exact ordered
  | some task =>
    dsimp only
    split
    next => exact ordered
    next free =>
      refine ordered.perm ?_ rfl ?_
      · simp [State.tasks, pending]
      · intro job member
        rcases List.mem_append.mp member with former | new
        · exact ordered.later job former
        · obtain rfl := List.mem_singleton.mp new
          exact Or.inr ((allowed task pending).resolve_left free)

theorem build (ordered : Ordered s) {i : Nat} {opened : Bool × Bool}
    (allowed : InOrder s (.build i opened)) : Ordered (s.build i opened) := by
  unfold State.build
  split
  next task byLoop found =>
    split
    next =>
      refine ordered.perm ?_ rfl ?_
      · have kept : (s.jobs.set i ⟨task, .install byLoop⟩).map (·.task) = s.jobs.map (·.task) :=
          KeyedList.map_set found rfl
        exact ((List.Perm.of_eq kept).append_left _)
      · intro job member
        rcases List.mem_or_eq_of_mem_set member with former | rfl
        · exact ordered.later job former
        · have going := ordered.later _ (List.mem_of_getElem? found)
          simpa using going
    next failed =>
      refine ordered.drop (tasks_eraseIdx found) ?_ rfl ?_
      · exact (allowed _ found).resolve_left failed
      · exact fun job member => ordered.later job (List.mem_of_mem_eraseIdx member)
  next => exact ordered

theorem install (ordered : Ordered s) {i : Nat} (allowed : InOrder s (.install i)) :
    Ordered (s.install i) := by
  unfold State.install
  split
  next task byLoop found =>
    have newer := ordered.later _ (List.mem_of_getElem? found)
    refine ordered.installed (tasks_eraseIdx found) (by simpa using newer) rfl ?_
    intro other member
    refine (allowed _ found other (List.mem_of_mem_eraseIdx member)).imp id ?_
    intro notEarlier
    exact lt_of_le_of_ne notEarlier (other_number ordered.distinct found member).symm
  next => exact ordered

theorem next (ordered : Ordered s) {event : Event} (allowed : InOrder s event) :
    Ordered (s.next event) := by
  cases event with
  | edit filters whitelistFilters userRules =>
    simp only [State.next]
    split
    · exact ordered
    · exact ordered.perm (List.Perm.refl _) rfl ordered.later
  | setRules userRules => exact ordered.perm (List.Perm.refl _) rfl ordered.later
  | enableFilters async => exact ordered.enableFilters async
  | push i => exact ordered.push allowed
  | take => exact ordered.take allowed
  | build i opened => exact ordered.build allowed
  | install i => exact ordered.install allowed

theorem start (filters whitelistFilters : List FilterYAML) (userRules : List Bytes) :
    Ordered (.start filters whitelistFilters userRules) := by
  constructor <;> simp [State.start, State.tasks, BuildsLater]

end Ordered

section Calls

variable {s : State}

theorem calls_next {event : Event} (other : ∀ async, event ≠ .enableFilters async) :
    (s.next event).calls = s.calls ∧ (s.next event).last = s.last := by
  cases event with
  | edit filters whitelistFilters userRules =>
    simp only [State.next]
    split <;> exact ⟨rfl, rfl⟩
  | setRules userRules => exact ⟨rfl, rfl⟩
  | enableFilters async => exact absurd rfl (other async)
  | push i =>
    simp only [State.next, State.push]
    split <;> exact ⟨rfl, rfl⟩
  | take =>
    simp only [State.next, State.take]
    split
    · split <;> exact ⟨rfl, rfl⟩
    · exact ⟨rfl, rfl⟩
  | build i opened =>
    simp only [State.next, State.build]
    split
    · split <;> exact ⟨rfl, rfl⟩
    · exact ⟨rfl, rfl⟩
  | install i =>
    simp only [State.next, State.install]
    split <;> exact ⟨rfl, rfl⟩

theorem readings_cons {event : Event} (other : ∀ async, event ≠ .enableFilters async)
    (rest : List Event) : readings s (event :: rest) = readings (s.next event) rest := by
  cases event <;> first | rfl | exact absurd rfl (other _)

theorem calls_run (s : State) (events : List Event) :
    (machine.run s events).calls = s.calls + (readings s events).length ∧
      (machine.run s events).last = (readings s events).getLastD s.last := by
  induction events generalizing s with
  | nil => exact ⟨rfl, rfl⟩
  | cons event rest ih =>
    obtain ⟨calls, last⟩ := ih (s.next event)
    rw [machine.run_cons]
    change (machine.run (s.next event) rest).calls = _ ∧ (machine.run (s.next event) rest).last = _
    rw [calls, last]
    by_cases called : ∃ async, event = .enableFilters async
    · obtain ⟨async, rfl⟩ := called
      refine ⟨?_, List.getLastD_cons.symm⟩
      simp only [readings, List.length_cons, State.next, State.enableFilters]
      omega
    · have other : ∀ async, event ≠ .enableFilters async := fun async same => called ⟨async, same⟩
      rw [readings_cons other, (calls_next other).1, (calls_next other).2]
      exact ⟨rfl, rfl⟩

/-- Only a build that is later than the installed one is installed. -/
theorem Ordered.forward (ordered : Ordered s) (event : Event) :
    s.installed.number ≤ (s.next event).installed.number := by
  cases event with
  | edit filters whitelistFilters userRules =>
    simp only [State.next]
    split <;> exact Nat.le_refl _
  | setRules userRules => exact Nat.le_refl _
  | enableFilters async => exact Nat.le_refl _
  | push i =>
    simp only [State.next, State.push]
    split <;> exact Nat.le_refl _
  | take =>
    simp only [State.next, State.take]
    split
    · split <;> exact Nat.le_refl _
    · exact Nat.le_refl _
  | build i opened =>
    simp only [State.next, State.build]
    split
    · split <;> exact Nat.le_refl _
    · exact Nat.le_refl _
  | install i =>
    simp only [State.next, State.install]
    split
    next task byLoop found =>
      have newer := ordered.later _ (List.mem_of_getElem? found)
      exact Nat.le_of_lt (by simpa using newer)
    next => exact Nat.le_refl _

end Calls

/-- In a run whose tasks are handled in order, the engines that are left are those of the
last call. -/
theorem last_configuration_wins (filters whitelistFilters : List FilterYAML)
    (userRules : List Bytes) (events : List Event)
    (inOrder : machine.Allowed InOrder (.start filters whitelistFilters userRules) events) :
    LastWins (.start filters whitelistFilters userRules) events := by
  have ordered {part : List Event}
      (allowed : machine.Allowed InOrder (.start filters whitelistFilters userRules) part) :
      Ordered (machine.run (.start filters whitelistFilters userRules) part) :=
    machine.run_invariant Ordered (fun _ _ ordered allowed => Ordered.next ordered allowed)
      (Ordered.start filters whitelistFilters userRules) allowed
  constructor
  · intro quiet
    obtain ⟨calls, last⟩ := calls_run (.start filters whitelistFilters userRules) events
    rw [(ordered inOrder).installed_eq quiet, calls, last]
    exact congrArg (Task.mk · _) (Nat.zero_add _)
  · intro steps
    have first : machine.Allowed InOrder (.start filters whitelistFilters userRules)
        (events.take steps) := by
      rw [← List.take_append_drop steps events] at inOrder
      exact ((machine.allowed_append _ _ _).mp inOrder).1
    rw [List.take_add_one, machine.run_append]
    cases events[steps]? with
    | none => exact Nat.le_refl _
    | some event => exact (ordered first).forward event

section Examples

private def one : List FilterYAML :=
  [⟨true, lit "http://one.example/", lit "One", 0, zeroTime, 0, false, 1⟩]

private def other : List FilterYAML :=
  [⟨true, lit "http://other.example/", lit "Other", 0, zeroTime, 0, false, 2⟩]

/-- The loop finishes before the refresh installs what it has built. The refresh has brought new
contents of the lists, which are the same as before. -/
private def refreshed : List Event :=
  [.edit one [] [], .enableFilters true, .push 0, .take, .build 0 (true, true), .install 0,
    .enableFilters false, .build 0 (true, true), .install 0]

theorem last_configuration_wins_refreshed :
    LastWins (.start [] [] []) refreshed ∧
      (machine.run (.start [] [] []) refreshed).installed = ⟨2, enableParams one [] []⟩ := by
  have wins := last_configuration_wins [] [] [] refreshed (by decide +kernel)
  refine ⟨wins, ?_⟩
  have quiet : (machine.run (.start [] [] []) refreshed).Quiet :=
    ⟨by decide +kernel, by decide +kernel⟩
  exact wins.upToDate quiet

/-- The loop takes a task that has been pending since before the refresh, whose engines it
replaces by those of the former lists. -/
private def staleTask : List Event :=
  [.edit one [] [], .enableFilters true, .push 0, .edit other [] [], .enableFilters false,
    .build 0 (true, true), .install 0, .take, .build 0 (true, true), .install 0]

theorem stale_task_wins :
    ¬ ∀ (filters whitelistFilters : List FilterYAML) (userRules : List Bytes)
      (events : List Event), LastWins (.start filters whitelistFilters userRules) events := by
  intro always
  have latest := (always [] [] [] staleTask).upToDate ⟨by decide +kernel, by decide +kernel⟩
  revert latest
  decide +kernel

end Examples

end AdGuardHome.Filtering.EngineTasks
