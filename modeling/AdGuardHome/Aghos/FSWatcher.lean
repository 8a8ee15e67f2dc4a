import AdGuardHome.Lib.FiniteMap
import AdGuardHome.Lib.Schedule

/-! Package `aghos`: the watcher of the file system. Its event loop works beside the watcher
beneath it, the reader of its notifications and the call that shuts it down. -/
namespace AdGuardHome.Aghos

open Transition

/-- `fsnotify.Op`, one flag for each of its bits. -/
structure Op where
  create : Bool
  write : Bool
  remove : Bool
  rename : Bool
  chmod : Bool
deriving DecidableEq

/-- `fsnotify.Event`. -/
structure FSEvent where
  name : String
  op : Op
deriving DecidableEq

/-- Where `handleEvents` is: at the head of its loop, with an event, in `skipDuplicates`, at the
`select` that notifies, or done, with the channel of notifications closed. -/
inductive EventLoop where
  | waiting
  | received (e : FSEvent)
  | draining
  | sending
  | finished
deriving DecidableEq

/-- `OSWatcher`. The channel of the watcher beneath has no buffer: `offered` is the event that
its sender holds out. `slot` tells whether the one-slot channel of notifications is full. -/
structure OSWatcher where
  files : FiniteMap String (List String)
  offered : Option FSEvent
  chClosed : Bool
  loop : EventLoop
  slot : Bool

/-- A step of one of the parties. The watcher beneath drops what it holds out when it is
closed. -/
inductive Event where
  | handle
  | offer (e : FSEvent)
  | close
  | read
deriving DecidableEq

def Op.hasChangeEvent (op : Op) : Bool := op.write || op.create || op.rename || op.remove

namespace OSWatcher

def start (files : FiniteMap String (List String)) : OSWatcher :=
  ⟨files, none, false, .waiting, false⟩

variable (dirName : String → String)

/-- `OSWatcher.isTrackedEvent`, where `dirName` is `filepath.Dir`. -/
def isTrackedEvent (w : OSWatcher) (e : FSEvent) : Bool :=
  if !e.op.hasChangeEvent then false
  else match w.files.get e.name with
    | some names => names.contains e.name
    | none => ((w.files.get (dirName e.name)).getD []).contains e.name

/-- The next step of `OSWatcher.handleEvents`. A receive from the closed channel gives a zero
event at once, so that `skipDuplicates` never gets to its default case then. -/
def handle (w : OSWatcher) : OSWatcher :=
  match w.loop with
  | .waiting =>
    match w.offered with
    | some e => { w with offered := none, loop := .received e }
    | none => if w.chClosed then { w with loop := .finished } else w
  | .received e => { w with loop := if w.isTrackedEvent dirName e then .draining else .waiting }
  | .draining =>
    match w.offered with
    | some _ => { w with offered := none }
    | none => if w.chClosed then w else { w with loop := .sending }
  | .sending => { w with loop := .waiting, slot := true }
  | .finished => w

def step (w : OSWatcher) : Event → OSWatcher
  | .handle => w.handle dirName
  | .offer e => if w.chClosed || w.offered.isSome then w else { w with offered := some e }
  | .close => { w with chClosed := true, offered := none }
  | .read => { w with slot := false }

def machine : Machine OSWatcher Event PUnit.{1} := ⟨fun w event => (w.step dirName event, ⟨⟩)⟩

/-- The step receives a tracked event, at the head of the loop or in `skipDuplicates`. -/
def ReceivesTracked (w : OSWatcher) (event : Event) : Prop :=
  event = .handle ∧ (w.loop = .waiting ∨ w.loop = .draining) ∧
    ∃ e, w.offered = some e ∧ w.isTrackedEvent dirName e = true

/-- The loop has received a tracked event and has not drained the channel yet. -/
def Catching (w : OSWatcher) : Prop :=
  w.loop = .draining ∨ ∃ e, w.loop = .received e ∧ w.isTrackedEvent dirName e = true

/-- The step finds no event ready in `skipDuplicates`. -/
def Pauses (w : OSWatcher) (event : Event) : Prop :=
  event = .handle ∧ w.loop = .draining ∧ w.offered = none ∧ w.chClosed = false

variable {dirName} {w : OSWatcher} {event : Event}

theorem next_eq : (machine dirName).next w event = w.step dirName event := rfl

theorem files_step : (w.step dirName event).files = w.files := by
  cases event with
  | handle =>
    simp only [step, handle]
    split
    next => split <;> (try split) <;> rfl
    next => rfl
    next => split <;> (try split) <;> rfl
    next => rfl
    next => rfl
  | offer e =>
    simp only [step]
    split <;> rfl
  | close => rfl
  | read => rfl

theorem isTrackedEvent_step (e : FSEvent) :
    (w.step dirName event).isTrackedEvent dirName e = w.isTrackedEvent dirName e := by
  rw [isTrackedEvent, isTrackedEvent, files_step]

theorem loop_step (other : event ≠ .handle) : (w.step dirName event).loop = w.loop := by
  cases event with
  | handle => exact absurd rfl other
  | offer e =>
    simp only [step]
    split <;> rfl
  | close => rfl
  | read => rfl

theorem chClosed_step :
    (w.step dirName event).chClosed = true ↔ w.chClosed = true ∨ event = .close := by
  cases event with
  | handle =>
    simp only [step, handle, reduceCtorEq, or_false]
    split
    next => split <;> (try split) <;> rfl
    next => rfl
    next => split <;> (try split) <;> rfl
    next => rfl
    next => rfl
  | offer e =>
    simp only [step, reduceCtorEq, or_false]
    split <;> rfl
  | close => simp only [step, or_true]
  | read => simp only [step, reduceCtorEq, or_false]

theorem slot_step (empty : w.slot = false) (elsewhere : w.loop ≠ .sending) :
    (w.step dirName event).slot = false := by
  cases event with
  | handle =>
    simp only [step, handle]
    split
    next => split <;> (try split) <;> exact empty
    next => exact empty
    next => split <;> (try split) <;> exact empty
    next sends => exact absurd sends elsewhere
    next => exact empty
  | offer e =>
    simp only [step]
    split <;> exact empty
  | close => exact empty
  | read => rfl

theorem Catching.congr {v : OSWatcher} (loop : v.loop = w.loop)
    (same : ∀ e, v.isTrackedEvent dirName e = w.isTrackedEvent dirName e)
    (catching : w.Catching dirName) : v.Catching dirName := by
  rcases catching with draining | ⟨e, received, tracked⟩
  · exact .inl (loop.trans draining)
  · exact .inr ⟨e, loop.trans received, (same e).trans tracked⟩

theorem Catching.step (catching : w.Catching dirName) (goesOn : ¬ w.Pauses event) :
    (w.step dirName event).Catching dirName := by
  by_cases handles : event = .handle
  · subst handles
    rcases catching with draining | ⟨e, received, tracked⟩
    · left
      cases offered : w.offered with
      | some e => simp only [OSWatcher.step, handle, draining, offered]
      | none =>
        cases closed : w.chClosed with
        | true => simp only [OSWatcher.step, handle, draining, offered, closed, if_true]
        | false => exact absurd ⟨rfl, draining, offered, closed⟩ goesOn
    · left
      simp only [OSWatcher.step, handle, received, tracked, if_true]
  · exact catching.congr (loop_step handles) isTrackedEvent_step

theorem ReceivesTracked.catching (receives : w.ReceivesTracked dirName event) :
    (w.step dirName event).Catching dirName ∧ (w.step dirName event).slot = w.slot := by
  obtain ⟨rfl, place, e, offered, tracked⟩ := receives
  have same : (w.step dirName .handle).isTrackedEvent dirName e = w.isTrackedEvent dirName e :=
    isTrackedEvent_step e
  rcases place with waiting | draining
  · have taken : w.step dirName .handle = { w with offered := none, loop := .received e } := by
      simp only [step, handle, waiting, offered]
    rw [taken] at same ⊢
    exact ⟨.inr ⟨e, rfl, same.trans tracked⟩, rfl⟩
  · have dropped : w.step dirName .handle = { w with offered := none } := by
      simp only [step, handle, draining, offered]
    rw [dropped]
    exact ⟨.inl draining, rfl⟩

theorem Pauses.sending (pauses : w.Pauses event) : (w.step dirName event).loop = .sending := by
  obtain ⟨rfl, draining, offered, closed⟩ := pauses
  simp only [step, handle, draining, offered, closed, Bool.false_eq_true, if_false]

/-- The channel is closed, and the loop is not in the middle of a catch. -/
structure Leaving (w : OSWatcher) (dirName : String → String) : Prop where
  closed : w.chClosed = true
  nothing : w.offered = none
  free : ¬ w.Catching dirName

theorem offered_step (closed : w.chClosed = true) (nothing : w.offered = none) :
    (w.step dirName event).offered = none := by
  cases event with
  | handle =>
    simp only [step, handle]
    split
    next =>
      split
      next => rfl
      next => split <;> exact nothing
    next => exact nothing
    next =>
      split
      next => rfl
      next => split <;> exact nothing
    next => exact nothing
    next => exact nothing
  | offer e => simp only [step, closed, Bool.true_or, if_true, nothing]
  | close => rfl
  | read => exact nothing

theorem Leaving.handle_cases (leaving : w.Leaving dirName) :
    (∃ e, w.loop = .received e ∧ w.handle dirName = { w with loop := .waiting }) ∨
      w.loop = .sending ∧ w.handle dirName = { w with loop := .waiting, slot := true } ∨
      (w.loop = .waiting ∨ w.loop = .finished) ∧
        w.handle dirName = { w with loop := .finished } := by
  rcases place : w.loop with _ | e | _ | _ | _
  · right; right
    simp only [handle, place, leaving.nothing, leaving.closed, if_true, true_or, true_and]
  · left
    have untracked : ¬ w.isTrackedEvent dirName e = true :=
      fun tracked => leaving.free (.inr ⟨e, place, tracked⟩)
    refine ⟨e, rfl, ?_⟩
    simp only [handle, place, if_neg untracked]
  · exact absurd (.inl place) leaving.free
  · right; left
    exact ⟨rfl, by simp only [handle, place]⟩
  · right; right
    refine ⟨.inr rfl, ?_⟩
    simp only [handle, place]
    rw [← place]

theorem Leaving.step (leaving : w.Leaving dirName) : (w.step dirName event).Leaving dirName where
  closed := chClosed_step.mpr (.inl leaving.closed)
  nothing := offered_step leaving.closed leaving.nothing
  free catching := by
    by_cases handles : event = .handle
    · subst handles
      have moved : (w.handle dirName).loop = .waiting ∨ (w.handle dirName).loop = .finished := by
        rcases leaving.handle_cases with ⟨e, _, done⟩ | ⟨_, done⟩ | ⟨_, done⟩
        · left; rw [done]
        · left; rw [done]
        · right; rw [done]
      change (w.handle dirName).Catching dirName at catching
      rcases catching with draining | ⟨e, received, _⟩
      · rcases moved with place | place <;> rw [place] at draining <;> cases draining
      · rcases moved with place | place <;> rw [place] at received <;> cases received
    · exact leaving.free (catching.congr (loop_step handles).symm
        fun e => (isTrackedEvent_step e).symm)

end OSWatcher

open OSWatcher Machine

/-- What the watcher promises along a schedule: after the receipt of a tracked event the slot is
full at some time, and once the channel is closed `handleEvents` ends. -/
structure Reports (dirName : String → String) (files : FiniteMap String (List String))
    (schedule : ℕ → Event) : Prop where
  notifies : ∀ time,
    ((machine dirName).along (start files) schedule time).ReceivesTracked dirName
      (schedule time) →
    ∃ later, time < later ∧ ((machine dirName).along (start files) schedule later).slot = true
  stops : ∀ time, ((machine dirName).along (start files) schedule time).chClosed = true →
    ∃ later, time ≤ later ∧
      ((machine dirName).along (start files) schedule later).loop = .finished

/-- When it keeps the promise: no close falls into a catch, and the catch of an event that comes
while the slot is empty finds no further event ready at some time. -/
structure Orderly (dirName : String → String) (files : FiniteMap String (List String))
    (schedule : ℕ → Event) : Prop where
  closes : ∀ time, schedule time = .close →
    ¬ ((machine dirName).along (start files) schedule time).Catching dirName
  pauses : ∀ time,
    ((machine dirName).along (start files) schedule time).ReceivesTracked dirName
      (schedule time) →
    ((machine dirName).along (start files) schedule time).slot = false →
    ∃ later, time < later ∧
      ((machine dirName).along (start files) schedule later).Pauses (schedule later)

variable {dirName : String → String} {files : FiniteMap String (List String)}
variable {schedule : ℕ → Event}

abbrev Handles (event : Event) : Prop := event = .handle

namespace Orderly

/-- In an orderly schedule a closed channel finds the loop leaving. -/
theorem leaving (orderly : Orderly dirName files schedule) {time : ℕ}
    (closed : ((machine dirName).along (start files) schedule time).chClosed = true) :
    ((machine dirName).along (start files) schedule time).Leaving dirName := by
  induction time with
  | zero => cases closed
  | succ time ih =>
    rw [along_succ, next_eq] at closed ⊢
    rcases chClosed_step.mp closed with before | closes
    · exact (ih before).step
    · refine ⟨closed, ?_, ?_⟩
      · rw [closes]
        rfl
      · intro catching
        apply orderly.closes time closes
        rw [closes] at catching
        exact catching.congr rfl fun e => rfl

/-- A loop that leaves ends. -/
theorem finishes (fair : Fair Handles schedule) {time : ℕ}
    (leaving : ((machine dirName).along (start files) schedule time).Leaving dirName) :
    ∃ later, time ≤ later ∧
      ((machine dirName).along (start files) schedule later).loop = .finished := by
  -- From the head of the loop the next step ends it, from elsewhere the next step leads there.
  have stays : ∀ (w : OSWatcher) (event : Event), w.Leaving dirName → ¬ Handles event →
      (w.step dirName event).Leaving dirName ∧ (w.step dirName event).loop = w.loop :=
    fun w event leaving other => ⟨leaving.step, loop_step other⟩
  have last : ∀ {time}, ((machine dirName).along (start files) schedule time).Leaving dirName →
      ((machine dirName).along (start files) schedule time).loop = .waiting ∨
        ((machine dirName).along (start files) schedule time).loop = .finished →
      ∃ later, time < later ∧
        ((machine dirName).along (start files) schedule later).loop = .finished := by
    intro time leaving place
    refine fair.leads (fun w : OSWatcher => w.Leaving dirName ∧ (w.loop = .waiting ∨ w.loop = .finished))
      (fun w : OSWatcher => w.loop = .finished) ?_ ?_ ⟨leaving, place⟩
    · intro w event ⟨leaving, place⟩ other
      obtain ⟨kept, same⟩ := stays w event leaving other
      exact ⟨kept, same ▸ place⟩
    · intro w event ⟨leaving, place⟩ handles
      cases handles
      change (w.handle dirName).loop = .finished
      rcases leaving.handle_cases with ⟨e, elsewhere, _⟩ | ⟨elsewhere, _⟩ | ⟨_, done⟩
      · rw [elsewhere] at place
        rcases place with place | place <;> cases place
      · rw [elsewhere] at place
        rcases place with place | place <;> cases place
      · rw [done]
  obtain ⟨next, after, kept, place⟩ : ∃ next, time < next ∧
      ((machine dirName).along (start files) schedule next).Leaving dirName ∧
      (((machine dirName).along (start files) schedule next).loop = .waiting ∨
        ((machine dirName).along (start files) schedule next).loop = .finished) := by
    refine fair.leads (fun w : OSWatcher => w.Leaving dirName)
      (fun w : OSWatcher => w.Leaving dirName ∧ (w.loop = .waiting ∨ w.loop = .finished)) ?_ ?_ leaving
    · exact fun w event leaving other => (stays w event leaving other).1
    · intro w event leaving handles
      cases handles
      change (w.step dirName .handle).Leaving dirName ∧
        ((w.handle dirName).loop = .waiting ∨ (w.handle dirName).loop = .finished)
      refine ⟨leaving.step, ?_⟩
      rcases leaving.handle_cases with ⟨e, _, done⟩ | ⟨_, done⟩ | ⟨_, done⟩
      · left; rw [done]
      · left; rw [done]
      · right; rw [done]
  obtain ⟨later, beyond, done⟩ := last kept place
  exact ⟨later, Nat.le_of_lt (Nat.lt_trans after beyond), done⟩

/-- From the `select` the slot gets full. -/
theorem fills (fair : Fair Handles schedule) {time : ℕ}
    (sends : ((machine dirName).along (start files) schedule time).loop = .sending) :
    ∃ later, time < later ∧
      ((machine dirName).along (start files) schedule later).slot = true := by
  refine fair.leads (fun w : OSWatcher => w.loop = .sending) (fun w : OSWatcher => w.slot = true)
    ?_ ?_ sends
  · exact fun w event sends other => (loop_step other).trans sends
  · intro w event sends handles
    cases handles
    change (w.handle dirName).slot = true
    simp only [handle, sends]

theorem reports (orderly : Orderly dirName files schedule) (fair : Fair Handles schedule) :
    Reports dirName files schedule where
  notifies time receives := by
    cases slot : ((machine dirName).along (start files) schedule time).slot with
    | true =>
      refine ⟨time + 1, Nat.lt_succ_self _, ?_⟩
      rw [along_succ, next_eq, receives.catching.2, slot]
    | false =>
      obtain ⟨pause, after, pauses⟩ := orderly.pauses time receives slot
      have sends : ((machine dirName).along (start files) schedule (pause + 1)).loop =
          .sending := pauses.sending
      obtain ⟨later, beyond, full⟩ := fills fair sends
      exact ⟨later, by omega, full⟩
  stops _ closed := finishes fair (orderly.leaving closed)

end Orderly

namespace Reports

theorem orderly (reports : Reports dirName files schedule) : Orderly dirName files schedule where
  closes time closes catching := by
    -- The receive from the closed channel never lets the drain end.
    have spins : ∀ later, time + 1 ≤ later →
        ((machine dirName).along (start files) schedule later).chClosed = true ∧
          ((machine dirName).along (start files) schedule later).Catching dirName := by
      intro later after
      refine along_stays (fun w : OSWatcher => w.chClosed = true ∧ w.Catching dirName) ?_ ?_ after
      · intro now _ ⟨closed, catching⟩
        rw [along_succ, next_eq]
        refine ⟨chClosed_step.mpr (.inl closed), catching.step fun pauses => ?_⟩
        have opened := pauses.2.2.2
        rw [closed] at opened
        cases opened
      · rw [along_succ, next_eq]
        refine ⟨chClosed_step.mpr (.inr closes), catching.step fun pauses => ?_⟩
        have handles := pauses.1
        rw [closes] at handles
        cases handles
    obtain ⟨later, after, done⟩ := reports.stops (time + 1) (spins (time + 1) le_rfl).1
    rcases (spins later after).2 with draining | ⟨e, received, _⟩
    · rw [done] at draining
      cases draining
    · rw [done] at received
      cases received
  pauses time receives empty := by
    by_contra never
    have goesOn : ∀ later, time < later →
        ¬ ((machine dirName).along (start files) schedule later).Pauses (schedule later) :=
      fun later after pauses => never ⟨later, after, pauses⟩
    have waits : ∀ later, time + 1 ≤ later →
        ((machine dirName).along (start files) schedule later).Catching dirName ∧
          ((machine dirName).along (start files) schedule later).slot = false := by
      intro later after
      refine along_stays (fun w : OSWatcher => w.Catching dirName ∧ w.slot = false) ?_ ?_ after
      · intro now after ⟨catching, empty⟩
        rw [along_succ, next_eq]
        refine ⟨catching.step (goesOn now after), slot_step empty fun sends => ?_⟩
        rcases catching with draining | ⟨e, received, _⟩
        · rw [sends] at draining
          cases draining
        · rw [sends] at received
          cases received
      · rw [along_succ, next_eq, receives.catching.2]
        exact ⟨receives.catching.1, empty⟩
    obtain ⟨later, after, full⟩ := reports.notifies time receives
    rw [(waits later after).2] at full
    cases full

end Reports

/-- In every schedule that keeps running the loop, the watcher keeps its promise exactly if the
schedule is orderly. -/
theorem reports_iff (dirName : String → String) (files : FiniteMap String (List String))
    {schedule : ℕ → Event} (fair : Fair Handles schedule) :
    Reports dirName files schedule ↔ Orderly dirName files schedule :=
  ⟨Reports.orderly, fun orderly => orderly.reports fair⟩

section Examples

private def etc : String → String := fun _ => "/etc"

private def hostsFile : FiniteMap String (List String) :=
  FiniteMap.set ∅ "/etc" ["/etc/hosts"]

private def saved : FSEvent := ⟨"/etc/hosts", ⟨false, true, false, false, false⟩⟩

/-- The hosts file is saved, and the watcher is shut down at the given time. -/
private def saveAndClose (closing : ℕ) (time : ℕ) : Event :=
  if time = 0 then .offer saved else if time = closing then .close else .handle

private theorem fair_saveAndClose (closing : ℕ) : Fair Handles (saveAndClose closing) := by
  intro time
  refine ⟨time + closing + 1, by omega, ?_⟩
  rw [saveAndClose, if_neg (by omega), if_neg (by omega)]

private def between (closing time : ℕ) : OSWatcher :=
  (machine etc).along (start hostsFile) (saveAndClose closing) time

private theorem finished_late (time : ℕ) (later : 7 ≤ time) : (between 5 time).loop = .finished := by
  refine along_stays (fun w : OSWatcher => w.loop = .finished) ?_ (by decide) later
  intro time _ done
  rw [along_succ, next_eq]
  by_cases handles : saveAndClose 5 time = .handle
  · rw [handles]
    simp only [OSWatcher.step, handle, done]
  · exact (loop_step handles).trans done

theorem reports_iff_saveAndClose : Reports etc hostsFile (saveAndClose 5) := by
  refine (reports_iff etc hostsFile (fair_saveAndClose 5)).mpr ⟨?_, ?_⟩
  · intro time closes
    have five : time = 5 := by
      simp only [saveAndClose] at closes
      split at closes
      · cases closes
      · split at closes
        · assumption
        · cases closes
    rw [five]
    rintro (draining | ⟨e, received, _⟩)
    · exact absurd draining (by decide)
    · have place : (between 5 5).loop = .waiting := by decide
      exact EventLoop.noConfusion (place.symm.trans received)
  · intro time receives _
    have early : time < 7 := by
      by_contra late
      have done := finished_late time (Nat.le_of_not_lt late)
      rcases receives.2.1 with place | place
      · exact EventLoop.noConfusion (done.symm.trans place)
      · exact EventLoop.noConfusion (done.symm.trans place)
    have first : time = 1 := by
      have once : ∀ time < 7, (between 5 time).offered.isSome = true → time = 1 := by decide
      obtain ⟨_, _, e, offered, _⟩ := receives
      exact once time early (Option.isSome_of_mem offered)
    rw [first]
    exact ⟨3, by decide, by decide, by decide, by decide, by decide⟩

/-- A shutdown that falls into `skipDuplicates` leaves it spinning. -/
theorem shutdown_in_drain_spins :
    ¬ ∀ schedule, Fair Handles schedule → Reports etc hostsFile schedule := by
  intro always
  have orderly := (always (saveAndClose 3) (fair_saveAndClose 3)).orderly
  exact orderly.closes 3 (by decide) (.inl (by decide))

end Examples

end AdGuardHome.Aghos
