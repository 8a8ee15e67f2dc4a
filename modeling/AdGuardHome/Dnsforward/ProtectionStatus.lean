import AdGuardHome.Lib.Machine
import Mathlib.Data.BitVec

namespace AdGuardHome.Dnsforward.Protection

/-- `time.Duration(count) * unit`, which wraps around. -/
def duration (count unit : BitVec 64) : Int := (count * unit).toInt

def millisecond : BitVec 64 := 1000000
def minute : BitVec 64 := 60000000000

/-- `UpdatedProtectionStatus` on the two variables at a time. -/
def updatedProtectionStatus (enabled : Bool) (disabledUntil : Option Int) (now : Int) :
    Bool × Option Int :=
  match disabledUntil with
  | none => (enabled, none)
  | some until_ => if now < until_ then (false, some until_) else (true, none)

/-- What a user command asks for. -/
inductive Asked where
  | forGood (enabled : Bool)
  | disabledUntil (endTime : Int)
deriving DecidableEq

def Asked.answer : Asked → Int → Bool × Option Int
  | forGood enabled, _ => (enabled, none)
  | disabledUntil endTime, now => if now < endTime then (false, some endTime) else (true, none)

def Asked.enabledAt (asked : Asked) (now : Int) : Bool := (asked.answer now).1

def Asked.of (enabled : Bool) : Option Int → Asked
  | none => forGood enabled
  | some endTime => disabledUntil endTime

/-- A goroutine at its next atomic step. `pause` numbers the context of a pause; `since` is
how many commands had been written when the goroutine came by its information. -/
inductive Task where
  | setProtection (enabled : Bool) (disabledUntil : Option Int)
  | setConfig (enabled : Bool)
  | pauseTime (pause : Nat) (minutes : BitVec 64)
  | pauseWrite (pause : Nat) (minutes : BitVec 64) (endTime : Int)
  | pauseTimer (pause : Nat) (minutes : BitVec 64) (since : Nat)
  | timer (pause : Nat) (deadline : Int) (since : Nat)
  | timerClear (since : Nat)
  | timerWrite (since : Nat)
  | resume
  | read (enabled : Bool) (disabledUntil : Option Int) (since : Nat)
  | enableWrite (since : Nat)
  | enableDone
  | finished
deriving DecidableEq

/-- The variables, the goroutines, and the last command with the number of commands. -/
structure State where
  now : Int
  protectionEnabled : Bool
  protectionDisabledUntil : Option Int
  protectionUpdateInProgress : Bool
  pauseCancelFunc : Option Nat
  pauses : Nat
  canceled : List Nat
  tasks : List Task
  asked : Asked
  commands : Nat
deriving DecidableEq

inductive Event where
  | tick (elapsed : Nat)
  | setProtection (enabled : Bool) (duration : BitVec 64)
  | setConfig (enabled : Bool)
  | pause (minutes : BitVec 64)
  | resume
  | read
  /-- A goroutine takes its next step; a timer goroutine takes the branch of its timer. -/
  | turn (task : Nat)
  /-- A timer goroutine takes the branch of its canceled context. -/
  | stop (task : Nat)
deriving DecidableEq

namespace State

def start (now : Int) (enabled : Bool) (disabledUntil : Option Int) : State where
  now := now
  protectionEnabled := enabled
  protectionDisabledUntil := disabledUntil
  protectionUpdateInProgress := false
  pauseCancelFunc := none
  pauses := 0
  canceled := []
  tasks := []
  asked := .of enabled disabledUntil
  commands := 0

def replace (s : State) (i : Nat) (task : Task) : State := { s with tasks := s.tasks.set i task }

def spawn (s : State) (task : Task) : State := { s with tasks := s.tasks ++ [task] }

/-- `SetProtectionStatus`. -/
def setProtectionStatus (s : State) (status : Bool) (disabledUntil : Option Int) : State :=
  { s with protectionEnabled := status, protectionDisabledUntil := disabledUntil }

/-- `SetProtectionEnabled`. -/
def setProtectionEnabled (s : State) (status : Bool) : State := { s with protectionEnabled := status }

def command (s : State) (asked : Asked) : State := { s with asked, commands := s.commands + 1 }

/-- A call of `UpdatedProtectionStatus` holds `serverLock`, which the HTTP handlers and
`enableProtectionAfterPause` take for writing. -/
def reading (s : State) : Bool := s.tasks.any fun
  | .read .. => true
  | _ => false

/-- The call under `pauseCancelMu` of the last cancel function. -/
def cancelPause (s : State) : State := { s with canceled := s.pauseCancelFunc.toList ++ s.canceled }

/-- `handleSetProtection` up to the lock: a duration is only taken with disabling. -/
def handleSetProtection (s : State) (enabled : Bool) (count : BitVec 64) : State :=
  if count = 0 then s.spawn (.setProtection enabled none)
  else if enabled then s
  else s.spawn (.setProtection enabled (some (s.now + duration count millisecond)))

/-- `PauseProtectionFunc` under `pauseCancelMu`. -/
def pauseProtection (s : State) (minutes : BitVec 64) : State :=
  { s.cancelPause with
    pauseCancelFunc := some s.pauses
    pauses := s.pauses + 1
    tasks := s.tasks ++ [.pauseTime s.pauses minutes] }

/-- `ResumeProtectionFunc` under `pauseCancelMu`. -/
def resumeProtection (s : State) : State :=
  { s.cancelPause with pauseCancelFunc := none, tasks := s.tasks ++ [.resume] }

/-- The end of `UpdatedProtectionStatus`: after a pause it starts
`enableProtectionAfterPause`, unless that is already in progress. -/
def decide (s : State) (i : Nat) (disabledUntil : Option Int) (since : Nat) : State :=
  match disabledUntil with
  | none => s.replace i .finished
  | some endTime =>
    if s.now < endTime then s.replace i .finished
    else if s.protectionUpdateInProgress then s.replace i .finished
    else { (s.replace i .finished).spawn (.enableWrite since) with
      protectionUpdateInProgress := true }

def turn (s : State) (i : Nat) : State :=
  match s.tasks[i]? with
  | none => s
  | some .finished => s
  | some (.setProtection enabled disabledUntil) =>
    if s.reading then s
    else ((s.replace i .finished).setProtectionStatus enabled disabledUntil).command
      (.of enabled disabledUntil)
  | some (.setConfig enabled) =>
    if s.reading then s
    else ((s.replace i .finished).setProtectionEnabled enabled).command (.forGood enabled)
  | some (.pauseTime pause minutes) =>
    s.replace i (.pauseWrite pause minutes (s.now + duration minutes minute))
  | some (.pauseWrite pause minutes endTime) =>
    ((s.replace i (.pauseTimer pause minutes (s.commands + 1))).setProtectionStatus false
      (some endTime)).command (.disabledUntil endTime)
  | some (.pauseTimer pause minutes since) =>
    s.replace i (.timer pause (s.now + duration minutes minute) since)
  | some (.timer _ deadline since) =>
    if deadline ≤ s.now then s.replace i (.timerClear since) else s
  | some (.timerClear since) => { s.replace i (.timerWrite since) with pauseCancelFunc := none }
  | some (.timerWrite _) => (s.replace i .finished).setProtectionStatus true none
  | some .resume => ((s.replace i .finished).setProtectionStatus true none).command (.forGood true)
  | some (.read _ disabledUntil since) => s.decide i disabledUntil since
  | some (.enableWrite _) =>
    if s.reading then s else (s.replace i .enableDone).setProtectionStatus true none
  | some .enableDone => { s.replace i .finished with protectionUpdateInProgress := false }

/-- The other branch of a timer goroutine's `select`. -/
def stop (s : State) (i : Nat) : State :=
  match s.tasks[i]? with
  | some (.timer pause _ _) => if pause ∈ s.canceled then s.replace i .finished else s
  | _ => s

def next (s : State) : Event → State
  | .tick elapsed => { s with now := s.now + elapsed }
  | .setProtection enabled count => s.handleSetProtection enabled count
  | .setConfig enabled => s.spawn (.setConfig enabled)
  | .pause minutes => s.pauseProtection minutes
  | .resume => s.resumeProtection
  | .read => s.spawn (.read s.protectionEnabled s.protectionDisabledUntil s.commands)
  | .turn i => s.turn i
  | .stop i => s.stop i

/-- What the step returns: a call of `UpdatedProtectionStatus` that ends returns a status. -/
def returned (s : State) : Event → Option (Bool × Option Int)
  | .turn i =>
    match s.tasks[i]? with
    | some (.read enabled disabledUntil _) =>
      some (updatedProtectionStatus enabled disabledUntil s.now)
    | _ => none
  | _ => none

end State

def machine : Transition.Machine State Event (Option (Bool × Option Int)) :=
  ⟨fun s event => (s.next event, s.returned event)⟩

namespace Asked

theorem answer_of (enabled : Bool) (disabledUntil : Option Int) (now : Int) :
    updatedProtectionStatus enabled disabledUntil now = (Asked.of enabled disabledUntil).answer now := by
  cases disabledUntil <;> rfl

theorem enabledAt_mono {asked : Asked} {early late : Int} (enabled : asked.enabledAt early = true)
    (later : early ≤ late) : asked.enabledAt late = true := by
  cases asked with
  | forGood status => exact enabled
  | disabledUntil endTime =>
    simp only [enabledAt, answer] at enabled ⊢
    by_cases before : early < endTime
    · simp [before] at enabled
    · have expired : ¬ late < endTime := by omega
      simp [expired]

theorem answer_of_enabledAt {asked : Asked} {now : Int} (enabled : asked.enabledAt now = true) :
    asked.answer now = (true, none) := by
  cases asked with
  | forGood status => simpa [enabledAt, answer] using enabled
  | disabledUntil endTime =>
    simp only [enabledAt, answer] at enabled ⊢
    by_cases before : now < endTime
    · simp [before] at enabled
    · simp [before]

end Asked

/-- From now on the two variables give the answers that were asked for. -/
def Means (enabled : Bool) (disabledUntil : Option Int) (asked : Asked) (now : Int) : Prop :=
  ∀ time, now ≤ time →
    updatedProtectionStatus enabled disabledUntil time = asked.answer time

theorem Means.later {enabled : Bool} {disabledUntil : Option Int} {asked : Asked}
    {early late : Int} (means : Means enabled disabledUntil asked early) (later : early ≤ late) :
    Means enabled disabledUntil asked late :=
  fun time after => means time (by omega)

theorem Means.enable {asked : Asked} {now : Int} (enabled : asked.enabledAt now = true) :
    Means true none asked now := by
  intro time after
  rw [Asked.answer_of_enabledAt (Asked.enabledAt_mono enabled after)]
  rfl

/-- What a goroutine knows is right, unless a command was written since. -/
def Task.Fresh (s : State) : Task → Prop
  | .pauseTimer _ minutes since => since ≤ s.commands ∧ (since = s.commands →
      s.asked.enabledAt (s.now + duration minutes minute) = true)
  | .timer _ deadline since => since ≤ s.commands ∧ (since = s.commands →
      s.asked.enabledAt deadline = true)
  | .timerClear since | .timerWrite since | .enableWrite since => since ≤ s.commands ∧
      (since = s.commands → s.asked.enabledAt s.now = true)
  | .read enabled disabledUntil since => since ≤ s.commands ∧ (since = s.commands →
      Means enabled disabledUntil s.asked s.now)
  -- The end time of a pause in progress has already been computed.
  | .pauseWrite _ minutes endTime => endTime ≤ s.now + duration minutes minute
  | _ => True

/-- The variables say what was asked for, and so do the goroutines that are up to date. -/
structure Sound (s : State) : Prop where
  means : Means s.protectionEnabled s.protectionDisabledUntil s.asked s.now
  fresh : ∀ task ∈ s.tasks, task.Fresh s

/-- A timer or `enableProtectionAfterPause` that is outdated by a command finds that
protection is to be enabled anyway, and `setConfig` finds no end time, or enables the
protection after one. -/
def Undisturbed (s : State) : Event → Prop
  | .turn i =>
    match s.tasks[i]? with
    | some (.timerWrite since) => since = s.commands ∨ s.asked.enabledAt s.now = true
    | some (.enableWrite since) => s.reading = true ∨ since = s.commands ∨
        s.asked.enabledAt s.now = true
    | some (.setConfig enabled) => s.reading = true ∨
        match s.protectionDisabledUntil with
        | none => True
        | some endTime => enabled = true ∧ endTime ≤ s.now
    | _ => True
  | _ => True

instance (s : State) (event : Event) : Decidable (Undisturbed s event) := by
  unfold Undisturbed
  split
  · split
    · infer_instance
    · infer_instance
    · split <;> infer_instance
    · infer_instance
  · infer_instance

namespace Sound

variable {s : State}

theorem tick (sound : Sound s) (elapsed : Nat) : Sound { s with now := s.now + elapsed } := by
  have later : s.now ≤ s.now + elapsed := by omega
  constructor
  · exact sound.means.later later
  · intro task member
    have fresh := sound.fresh task member
    cases task with
    | pauseTimer pause minutes since =>
      refine ⟨fresh.1, ?_⟩
      intro last
      exact Asked.enabledAt_mono (fresh.2 last) (by simp only; omega)
    | timerClear since => exact ⟨fresh.1, fun last => Asked.enabledAt_mono (fresh.2 last) later⟩
    | timerWrite since => exact ⟨fresh.1, fun last => Asked.enabledAt_mono (fresh.2 last) later⟩
    | enableWrite since => exact ⟨fresh.1, fun last => Asked.enabledAt_mono (fresh.2 last) later⟩
    | read enabled disabledUntil since => exact ⟨fresh.1, fun last => (fresh.2 last).later later⟩
    | pauseWrite pause minutes endTime => exact Int.le_trans fresh (by simp only; omega)
    | timer pause deadline since => exact fresh
    | setProtection | setConfig | pauseTime | resume | enableDone | finished => trivial

/-- A step of the goroutines that writes no command and gives both variables their meaning. -/
theorem write (sound : Sound s) {s' : State}
    (same : (s'.now, s'.asked, s'.commands) = (s.now, s.asked, s.commands))
    (means : Means s'.protectionEnabled s'.protectionDisabledUntil s.asked s.now)
    (fresh : ∀ task ∈ s'.tasks, task ∈ s.tasks ∨ task.Fresh s) : Sound s' := by
  obtain ⟨now, enabled, disabledUntil, pending, cancel, pauses, canceled, tasks, asked,
    commands⟩ := s'
  simp only [Prod.mk.injEq] at same
  obtain ⟨rfl, rfl, rfl⟩ := same
  constructor
  · exact means
  · intro task member
    have old : task.Fresh s := by
      rcases fresh task member with kept | new
      · exact sound.fresh task kept
      · exact new
    cases task <;> exact old

/-- A step of the goroutines that leaves the variables alone. -/
theorem keep (sound : Sound s) {s' : State}
    (same : (s'.now, s'.asked, s'.commands) = (s.now, s.asked, s.commands))
    (settings : (s'.protectionEnabled, s'.protectionDisabledUntil) =
      (s.protectionEnabled, s.protectionDisabledUntil))
    (fresh : ∀ task ∈ s'.tasks, task ∈ s.tasks ∨ task.Fresh s) : Sound s' := by
  obtain ⟨enabled, disabledUntil⟩ := Prod.mk.injEq .. ▸ settings
  exact sound.write same (by rw [enabled, disabledUntil]; exact sound.means) fresh

/-- A command outdates every goroutine of before. -/
theorem command (sound : Sound s) {s' : State} (now : s'.now = s.now)
    (commands : s'.commands = s.commands + 1)
    (means : Means s'.protectionEnabled s'.protectionDisabledUntil s'.asked s'.now)
    (fresh : ∀ task ∈ s'.tasks, task ∈ s.tasks ∨ task.Fresh s') : Sound s' := by
  constructor
  · exact means
  · intro task member
    rcases fresh task member with kept | new
    · have old := sound.fresh task kept
      have outdated : ∀ {since : Nat} {P : Prop}, since ≤ s.commands →
          since ≤ s'.commands ∧ (since = s'.commands → P) := by
        intro since P bound
        exact ⟨by omega, fun last => by omega⟩
      cases task with
      | pauseTimer pause minutes since => exact outdated old.1
      | timer pause deadline since => exact outdated old.1
      | timerClear since => exact outdated old.1
      | timerWrite since => exact outdated old.1
      | enableWrite since => exact outdated old.1
      | read enabled disabledUntil since => exact outdated old.1
      | pauseWrite pause minutes endTime =>
        have computed : endTime ≤ s.now + duration minutes minute := old
        exact (now ▸ computed : endTime ≤ s'.now + duration minutes minute)
      | setProtection | setConfig | pauseTime | resume | enableDone | finished => trivial
    · exact new

theorem spawn (sound : Sound s) {task : Task} (fresh : task.Fresh s) : Sound (s.spawn task) := by
  refine sound.keep rfl rfl ?_
  intro other member
  rcases List.mem_append.mp member with old | new
  · exact Or.inl old
  · exact Or.inr (List.mem_singleton.mp new ▸ fresh)

theorem replace (sound : Sound s) (i : Nat) {task : Task} (fresh : task.Fresh s) :
    Sound (s.replace i task) := by
  refine sound.keep rfl rfl ?_
  intro other member
  rcases List.mem_or_eq_of_mem_set member with old | rfl
  · exact Or.inl old
  · exact Or.inr fresh

private theorem mem_replace {tasks : List Task} {i : Nat} {new : Task} {P : Task → Prop}
    (holds : P new) : ∀ task ∈ tasks.set i new, task ∈ tasks ∨ P task := by
  intro task member
  rcases List.mem_or_eq_of_mem_set member with old | rfl
  · exact Or.inl old
  · exact Or.inr holds

theorem decide (sound : Sound s) (i : Nat) {enabled : Bool} {disabledUntil : Option Int}
    {since : Nat} (fresh : (Task.read enabled disabledUntil since).Fresh s) :
    Sound (s.decide i disabledUntil since) := by
  have done : Sound (s.replace i .finished) := sound.replace i trivial
  cases disabledUntil with
  | none => exact done
  | some endTime =>
    simp only [State.decide]
    split
    · exact done
    rename_i expired
    split
    · exact done
    · have started : (Task.enableWrite since).Fresh (s.replace i .finished) := by
        refine ⟨fresh.1, ?_⟩
        intro last
        have now := fresh.2 last s.now (Int.le_refl _)
        simp only [updatedProtectionStatus, expired, ↓reduceIte] at now
        simp only [State.replace, Asked.enabledAt, ← now]
      exact (done.spawn started).keep rfl rfl fun _ member => Or.inl member

theorem turn (sound : Sound s) (i : Nat) (undisturbed : Undisturbed s (.turn i)) :
    Sound (s.turn i) := by
  simp only [Undisturbed] at undisturbed
  unfold State.turn
  cases here : s.tasks[i]? with
  | none => exact sound
  | some task =>
    have fresh := sound.fresh task (List.mem_of_getElem? here)
    rw [here] at undisturbed
    cases task with
    | finished => exact sound
    | setProtection enabled disabledUntil =>
      cases reading : s.reading with
      | true => simpa only [↓reduceIte] using sound
      | false =>
        simp only [Bool.false_eq_true, ↓reduceIte]
        refine sound.command rfl rfl ?_ (mem_replace trivial)
        intro time _
        exact Asked.answer_of enabled disabledUntil time
    | setConfig enabled =>
      cases reading : s.reading with
      | true => simpa only [↓reduceIte] using sound
      | false =>
        simp only [Bool.false_eq_true, ↓reduceIte]
        refine sound.command rfl rfl ?_ (mem_replace trivial)
        have noEnd := undisturbed.resolve_left (by simp [reading])
        simp only [State.command, State.setProtectionEnabled, State.replace]
        cases given : s.protectionDisabledUntil with
        | none => exact fun _ _ => rfl
        | some endTime =>
          rw [given] at noEnd
          intro time later
          have expired : ¬ time < endTime := by
            have passed := noEnd.2
            omega
          simp [updatedProtectionStatus, expired, Asked.answer, noEnd.1]
    | pauseTime pause minutes => exact sound.replace i (Int.le_refl _)
    | pauseWrite pause minutes endTime =>
      refine sound.command rfl rfl (fun _ _ => rfl) (mem_replace ?_)
      refine ⟨Nat.le_refl _, ?_⟩
      intro _
      have computed : ¬ s.now + duration minutes minute < endTime := Int.not_lt.mpr fresh
      simp [State.command, State.setProtectionStatus, State.replace, Asked.enabledAt, Asked.answer,
        computed]
    | pauseTimer pause minutes since => exact sound.replace i fresh
    | timer pause deadline since =>
      by_cases due : deadline ≤ s.now
      · simp only [due, ↓reduceIte]
        exact sound.replace i ⟨fresh.1, fun last => Asked.enabledAt_mono (fresh.2 last) due⟩
      · simpa only [due, ↓reduceIte] using sound
    | timerClear since =>
      exact sound.keep rfl rfl (mem_replace fresh)
    | timerWrite since =>
      have enabled : s.asked.enabledAt s.now = true := undisturbed.elim fresh.2 id
      exact sound.write rfl (Means.enable enabled) (mem_replace trivial)
    | resume => exact sound.command rfl rfl (fun _ _ => rfl) (mem_replace trivial)
    | read enabled disabledUntil since => exact sound.decide i fresh
    | enableWrite since =>
      cases reading : s.reading with
      | true => simpa only [↓reduceIte] using sound
      | false =>
        simp only [Bool.false_eq_true, ↓reduceIte]
        have enabled : s.asked.enabledAt s.now = true :=
          (undisturbed.resolve_left (by simp [reading])).elim fresh.2 id
        exact sound.write rfl (Means.enable enabled) (mem_replace trivial)
    | enableDone => exact sound.keep rfl rfl (mem_replace trivial)

theorem stop (sound : Sound s) (i : Nat) : Sound (s.stop i) := by
  unfold State.stop
  cases here : s.tasks[i]? with
  | none => exact sound
  | some task =>
    cases task with
    | timer pause deadline since =>
      simp only
      split
      · exact sound.replace i trivial
      · exact sound
    | setProtection | setConfig | pauseTime | pauseWrite | pauseTimer | timerClear | timerWrite
    | resume | read | enableWrite | enableDone | finished => exact sound

theorem next (s : State) (event : Event) (sound : Sound s) (undisturbed : Undisturbed s event) :
    Sound (machine.next s event) := by
  cases event with
  | tick elapsed => exact sound.tick elapsed
  | setProtection enabled count =>
    simp only [Transition.Machine.next, machine, State.next, State.handleSetProtection]
    split
    · exact sound.spawn trivial
    split
    · exact sound
    · exact sound.spawn trivial
  | setConfig enabled => exact sound.spawn trivial
  | pause minutes =>
    refine sound.keep rfl rfl ?_
    intro task member
    rcases List.mem_append.mp member with old | new
    · exact Or.inl old
    · exact Or.inr (List.mem_singleton.mp new ▸ trivial)
  | resume =>
    refine sound.keep rfl rfl ?_
    intro task member
    rcases List.mem_append.mp member with old | new
    · exact Or.inl old
    · exact Or.inr (List.mem_singleton.mp new ▸ trivial)
  | read => exact sound.spawn ⟨Nat.le_refl _, fun _ => sound.means⟩
  | turn i => exact sound.turn i undisturbed
  | stop i => exact sound.stop i

end Sound

/-- What a request asks for that arrives at a time; the end of a pause is reckoned from a time
after that. -/
def Event.Asks (asked : Asked) (arrival present : Int) : Event → Prop
  | .setProtection enabled count => if count = 0 then asked = .forGood enabled else
      enabled = false ∧ asked = .disabledUntil (arrival + duration count millisecond)
  | .setConfig enabled => asked = .forGood enabled
  | .pause minutes => ∃ time, arrival ≤ time ∧ time ≤ present ∧
      asked = .disabledUntil (time + duration minutes minute)
  | .resume => asked = .forGood true
  | .tick _ | .read | .turn _ | .stop _ => False

/-- What the run starts with, or what one of its requests asks for. -/
def Requested (initial : State) (events : List Event) (asked : Asked) : Prop :=
  asked = initial.asked ∨ ∃ before event after, events = before ++ event :: after ∧
    event.Asks asked (machine.run initial before).now (machine.run initial events).now

def Task.Requested (initial : State) (events : List Event) : Task → Prop
  | .setProtection enabled disabledUntil =>
    Protection.Requested initial events (.of enabled disabledUntil)
  | .setConfig enabled => Protection.Requested initial events (.forGood enabled)
  | .pauseTime _ minutes => .pause minutes ∈ events
  | .pauseWrite _ _ endTime => Protection.Requested initial events (.disabledUntil endTime)
  | .resume => Protection.Requested initial events (.forGood true)
  | _ => True

structure AsRequested (initial : State) (events : List Event) (s : State) : Prop where
  asked : Requested initial events s.asked
  tasks : ∀ task ∈ s.tasks, task.Requested initial events

section Requests

variable {initial s : State} {events : List Event}

theorem State.turn_now (s : State) (i : Nat) : (s.turn i).now = s.now := by
  unfold State.turn State.decide
  repeat' split
  all_goals rfl

theorem State.stop_now (s : State) (i : Nat) : (s.stop i).now = s.now := by
  unfold State.stop
  repeat' split
  all_goals rfl

theorem now_le_next (s : State) (event : Event) : s.now ≤ (machine.next s event).now := by
  cases event with
  | tick elapsed => exact Int.le_add_of_nonneg_right (Int.natCast_nonneg elapsed)
  | setProtection enabled count =>
    simp only [Transition.Machine.next, machine, State.next, State.handleSetProtection]
    repeat' split
    all_goals exact Int.le_refl _
  | turn i => exact Int.le_of_eq (State.turn_now s i).symm
  | stop i => exact Int.le_of_eq (State.stop_now s i).symm
  | setConfig | pause | resume | read => exact Int.le_refl _

theorem now_le_run (s : State) (events : List Event) : s.now ≤ (machine.run s events).now := by
  induction events generalizing s with
  | nil => exact Int.le_refl _
  | cons event rest ih => exact Int.le_trans (now_le_next s event) (ih _)

theorem now_le_append (initial : State) (early late : List Event) :
    (machine.run initial early).now ≤ (machine.run initial (early ++ late)).now := by
  rw [Transition.Machine.run_append]
  exact now_le_run _ late

theorem Event.Asks.later {event : Event} {asked : Asked} {arrival present after : Int}
    (asks : event.Asks asked arrival present) (later : present ≤ after) :
    event.Asks asked arrival after := by
  cases event with
  | pause minutes =>
    obtain ⟨time, arrived, past, same⟩ := asks
    exact ⟨time, arrived, Int.le_trans past later, same⟩
  | setProtection | setConfig | resume => exact asks
  | tick | read | turn | stop => exact asks.elim

theorem Requested.snoc {asked : Asked} (requested : Requested initial events asked)
    (event : Event) : Requested initial (events ++ [event]) asked := by
  rcases requested with start | ⟨before, request, after, rfl, asks⟩
  · exact Or.inl start
  · exact Or.inr ⟨before, request, after ++ [event], by simp,
      asks.later (now_le_append initial _ [event])⟩

theorem requested_last {event : Event} {asked : Asked}
    (asks : event.Asks asked (machine.run initial events).now (machine.run initial events).now) :
    Requested initial (events ++ [event]) asked :=
  Or.inr ⟨events, event, [], rfl, asks.later (now_le_append initial events [event])⟩

/-- A pause that was asked for and takes its time now. -/
theorem requested_pause {minutes : BitVec 64} (asked : .pause minutes ∈ events) :
    Requested initial events
      (.disabledUntil ((machine.run initial events).now + duration minutes minute)) := by
  obtain ⟨before, after, rfl⟩ := List.append_of_mem asked
  exact Or.inr ⟨before, .pause minutes, after, rfl, _, now_le_append initial before _,
    Int.le_refl _, rfl⟩

theorem AsRequested.snoc (held : AsRequested initial events s) (event : Event) :
    AsRequested initial (events ++ [event]) s := by
  refine ⟨held.asked.snoc event, ?_⟩
  intro task member
  have old := held.tasks task member
  cases task with
  | pauseTime pause minutes => exact List.mem_append_left _ old
  | setProtection | setConfig | pauseWrite | resume => exact Requested.snoc old event
  | pauseTimer | timer | timerClear | timerWrite | read | enableWrite | enableDone | finished =>
    trivial

theorem AsRequested.put (held : AsRequested initial events s) {s' : State}
    (asked : Requested initial events s'.asked)
    (tasks : ∀ task ∈ s'.tasks, task ∈ s.tasks ∨ task.Requested initial events) :
    AsRequested initial events s' := by
  refine ⟨asked, ?_⟩
  intro task member
  exact (tasks task member).elim (held.tasks task) id

theorem AsRequested.spawn (held : AsRequested initial events s) {task : Task}
    (requested : task.Requested initial events) : AsRequested initial events (s.spawn task) := by
  refine held.put held.asked ?_
  intro other member
  rcases List.mem_append.mp member with old | new
  · exact Or.inl old
  · exact Or.inr (List.mem_singleton.mp new ▸ requested)

theorem AsRequested.turn (held : AsRequested initial events s)
    (present : (machine.run initial events).now = s.now) (i : Nat) :
    AsRequested initial events (s.turn i) := by
  have put : ∀ {s' : State} {task : Task}, Requested initial events s'.asked →
      s'.tasks = s.tasks.set i task → task.Requested initial events →
      AsRequested initial events s' := fun asked tasks requested =>
    held.put asked (tasks ▸ Sound.mem_replace requested)
  unfold State.turn
  cases here : s.tasks[i]? with
  | none => exact held
  | some task =>
    have requested := held.tasks task (List.mem_of_getElem? here)
    cases task with
    | finished => exact held
    | setProtection | setConfig =>
      simp only
      split
      · exact held
      · exact put requested rfl trivial
    | pauseTime pause minutes =>
      exact put held.asked rfl (present ▸ requested_pause requested)
    | pauseWrite | resume => exact put requested rfl trivial
    | pauseTimer | timerClear | timerWrite | enableDone => exact put held.asked rfl trivial
    | timer =>
      simp only
      split
      · exact put held.asked rfl trivial
      · exact held
    | enableWrite =>
      simp only
      split
      · exact held
      · exact put held.asked rfl trivial
    | read enabled disabledUntil since =>
      have done : AsRequested initial events (s.replace i .finished) := put held.asked rfl trivial
      have begun : AsRequested initial events ((s.replace i .finished).spawn (.enableWrite since)) :=
        done.spawn trivial
      simp only [State.decide]
      repeat' split
      any_goals exact done
      exact begun.put held.asked fun _ => Or.inl

theorem AsRequested.next (held : AsRequested initial events (machine.run initial events))
    (event : Event) :
    AsRequested initial (events ++ [event]) (machine.next (machine.run initial events) event) := by
  have longer := held.snoc event
  cases event with
  | tick elapsed => exact longer.put longer.asked fun _ => Or.inl
  | setProtection enabled count =>
    change AsRequested _ _ ((machine.run initial events).handleSetProtection enabled count)
    unfold State.handleSetProtection
    split
    case isTrue zero => exact longer.spawn (requested_last (by simp [Event.Asks, Asked.of, zero]))
    case isFalse nonzero =>
      cases enabled with
      | true => exact longer
      | false =>
        refine longer.spawn (requested_last ?_)
        simp only [Event.Asks, if_neg nonzero]
        exact ⟨trivial, rfl⟩
  | setConfig enabled => exact longer.spawn (requested_last rfl)
  | pause minutes =>
    have spawned : AsRequested initial (events ++ [.pause minutes])
        ((machine.run initial events).spawn
          (.pauseTime (machine.run initial events).pauses minutes)) :=
      longer.spawn (List.mem_append_right events (List.mem_singleton.mpr rfl))
    exact spawned.put longer.asked fun _ => Or.inl
  | resume =>
    have spawned : AsRequested initial (events ++ [.resume])
        ((machine.run initial events).spawn .resume) := longer.spawn (requested_last rfl)
    exact spawned.put longer.asked fun _ => Or.inl
  | read => exact longer.spawn trivial
  | turn i =>
    refine longer.turn ?_ i
    rw [Transition.Machine.run_append]
    exact State.turn_now _ i
  | stop i =>
    change AsRequested _ _ ((machine.run initial events).stop i)
    unfold State.stop
    repeat' split
    any_goals exact longer
    exact longer.put longer.asked (Sound.mem_replace trivial)

theorem asRequested_run (initial : State) (idle : initial.tasks = []) (events : List Event) :
    AsRequested initial events (machine.run initial events) := by
  induction events using List.reverseRecOn with
  | nil => exact ⟨Or.inl rfl, fun task member => by simp [idle] at member⟩
  | append_singleton events event ih =>
    rw [Transition.Machine.run_append]
    exact ih.next event

end Requests

/-- What a call of `UpdatedProtectionStatus` returns in a state, and what one returns that
is in progress and was begun after the last command. -/
structure LastCommandWins (s : State) : Prop where
  status : updatedProtectionStatus s.protectionEnabled s.protectionDisabledUntil s.now =
    s.asked.answer s.now
  inProgress : ∀ i enabled disabledUntil,
    s.tasks[i]? = some (.read enabled disabledUntil s.commands) →
      machine.answer s (.turn i) = some (s.asked.answer s.now)

theorem Sound.wins {s : State} (sound : Sound s) : LastCommandWins s := by
  constructor
  · exact sound.means _ (Int.le_refl _)
  · intro i enabled disabledUntil here
    have fresh := sound.fresh _ (List.mem_of_getElem? here)
    simp only [Transition.Machine.answer, machine, State.returned, here]
    exact congrArg some (fresh.2 rfl _ (Int.le_refl _))

/-- A pause of a minute that ends by its timer, and a status asked for after it. -/
private def onePause : List Event :=
  [.pause 1, .turn 0, .turn 0, .turn 0, .tick 60000000000, .turn 0, .turn 0, .turn 0, .read, .turn 1]

end AdGuardHome.Dnsforward.Protection
