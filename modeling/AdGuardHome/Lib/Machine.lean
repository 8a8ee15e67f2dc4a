import Mathlib.Data.List.Basic

/-! Event-driven machines: one step answers one event, a run folds the steps, and
an invariant is proved once from what a single allowed step preserves. -/
namespace Transition

universe u v w

/-- A component that turns a state and an event into a new state and an answer. -/
structure Machine (State : Type u) (Event : Type v) (Output : Type w) where
  step : State → Event → State × Output

/-- What holds of the value that is there, if any. -/
instance decidableForallSome {α : Type u} {P : α → Prop} [decidable : DecidablePred P]
    (found : Option α) : Decidable (∀ value, found = some value → P value) :=
  match found with
  | none => .isTrue fun _ absent => nomatch absent
  | some value =>
    match decidable value with
    | .isTrue holds => .isTrue fun _ present => Option.some.inj present ▸ holds
    | .isFalse fails => .isFalse fun all => fails (all value rfl)

namespace Machine

variable {State : Type u} {Event : Type v} {Output : Type w}
variable (machine : Machine State Event Output)

def next (state : State) (event : Event) : State := (machine.step state event).1

def answer (state : State) (event : Event) : Output := (machine.step state event).2

/-- The state after a whole list of events. -/
def run : State → List Event → State
  | state, [] => state
  | state, event :: rest => run (machine.next state event) rest

/-- Every event of the run meets `allowed` in the state it arrives in. -/
def Allowed (allowed : State → Event → Prop) : State → List Event → Prop
  | _, [] => True
  | state, event :: rest =>
    allowed state event ∧ Allowed allowed (machine.next state event) rest

/-- Whether a run is allowed can be computed by running it. -/
instance decidableAllowed {allowed : State → Event → Prop}
    [decidable : ∀ state event, Decidable (allowed state event)] (state : State)
    (events : List Event) : Decidable (machine.Allowed allowed state events) :=
  match events with
  | [] => .isTrue trivial
  | event :: rest =>
    match decidable state event, decidableAllowed (machine.next state event) rest with
    | .isTrue now, .isTrue later => .isTrue ⟨now, later⟩
    | .isFalse never, _ => .isFalse fun both => never both.1
    | _, .isFalse never => .isFalse fun both => never both.2

/-- The states some run from `initial` ends in. -/
def Reachable (initial state : State) : Prop := ∃ events, machine.run initial events = state

@[simp] theorem run_nil (state : State) : machine.run state [] = state := rfl

@[simp] theorem run_cons (state : State) (event : Event) (rest : List Event) :
    machine.run state (event :: rest) = machine.run (machine.next state event) rest := rfl

theorem run_append (state : State) (first second : List Event) :
    machine.run state (first ++ second) = machine.run (machine.run state first) second := by
  induction first generalizing state with
  | nil => rfl
  | cons event rest ih => exact ih (machine.next state event)

theorem allowed_append {allowed : State → Event → Prop} (state : State)
    (first second : List Event) :
    machine.Allowed allowed state (first ++ second) ↔
      machine.Allowed allowed state first ∧
        machine.Allowed allowed (machine.run state first) second := by
  induction first generalizing state with
  | nil => simp [Allowed]
  | cons event rest ih =>
    simp only [List.cons_append, Allowed, run_cons, ih, and_assoc]

theorem allowed_of_forall {allowed : State → Event → Prop}
    (always : ∀ state event, allowed state event) (state : State) (events : List Event) :
    machine.Allowed allowed state events := by
  induction events generalizing state with
  | nil => trivial
  | cons event rest ih => exact ⟨always state event, ih _⟩

variable {events : List Event} {state : State}

theorem allowed_imp {first second : State → Event → Prop}
    (implies : ∀ state event, first state event → second state event)
    (good : machine.Allowed first state events) :
    machine.Allowed second state events := by
  induction events generalizing state with
  | nil => trivial
  | cons event rest ih => exact ⟨implies state event good.1, ih good.2⟩

/-- What every allowed step preserves holds after every allowed run. -/
theorem run_invariant {allowed : State → Event → Prop} (inv : State → Prop)
    (preserved : ∀ state event, inv state → allowed state event → inv (machine.next state event))
    (initially : inv state)
    (good : machine.Allowed allowed state events) : inv (machine.run state events) := by
  induction events generalizing state with
  | nil => exact initially
  | cons event rest ih => exact ih (preserved state event initially good.1) good.2

/-- The unconditional case: every step preserves the invariant. -/
theorem reachable_invariant (inv : State → Prop)
    (preserved : ∀ state event, inv state → inv (machine.next state event))
    {initial state : State} (initially : inv initial) (reached : machine.Reachable initial state) :
    inv state := by
  obtain ⟨events, rfl⟩ := reached
  exact machine.run_invariant inv (fun state event holds _ => preserved state event holds) initially
    (machine.allowed_of_forall (fun _ _ => trivial) initial events)

/-- Two machines that answer the same events stay related where every allowed step keeps them so. -/
theorem run_related {State' : Type*} {Output' : Type*} (other : Machine State' Event Output')
    {allowed : State → Event → Prop} (related : State → State' → Prop)
    (preserved : ∀ state state' event, related state state' → allowed state event →
      related (machine.next state event) (other.next state' event))
    {state' : State'} (initially : related state state')
    (good : machine.Allowed allowed state events) :
    related (machine.run state events) (other.run state' events) := by
  induction events generalizing state state' with
  | nil => exact initially
  | cons event rest ih => exact ih (preserved state state' event initially good.1) good.2

/-- Where an invariant goes on holding exactly after allowed steps, the allowed runs are
those that never leave it. -/
theorem run_invariant_iff {allowed : State → Event → Prop} {inv : State → Prop}
    (exactly : ∀ state event, inv state → (inv (machine.next state event) ↔ allowed state event))
    (state : State) (events : List Event) :
    (∀ steps, inv (machine.run state (events.take steps))) ↔
      inv state ∧ machine.Allowed allowed state events := by
  induction events generalizing state with
  | nil => simp [Allowed]
  | cons event rest ih =>
    constructor
    · intro always
      have now : inv state := by simpa using always 0
      have later := (ih (machine.next state event)).mp fun steps => by
        simpa using always (steps + 1)
      exact ⟨now, (exactly state event now).mp later.1, later.2⟩
    · rintro ⟨now, good, rest_good⟩ steps
      cases steps with
      | zero => simpa using now
      | succ steps =>
        have later := (ih (machine.next state event)).mpr
          ⟨(exactly state event now).mpr good, rest_good⟩
        simpa using later steps

/-- Two conditions on a step allow the same runs if they agree where an invariant holds that the
steps so allowed preserve. -/
theorem allowed_iff {first second : State → Event → Prop} (inv : State → Prop)
    (agree : ∀ state event, inv state → (first state event ↔ second state event))
    (preserved : ∀ state event, inv state → second state event → inv (machine.next state event))
    (initially : inv state) (events : List Event) :
    machine.Allowed first state events ↔ machine.Allowed second state events := by
  induction events generalizing state with
  | nil => exact Iff.rfl
  | cons event rest ih =>
    constructor
    · rintro ⟨now, later⟩
      have good := (agree state event initially).mp now
      exact ⟨good, (ih (preserved state event initially good)).mp later⟩
    · rintro ⟨good, later⟩
      exact ⟨(agree state event initially).mpr good,
        (ih (preserved state event initially good)).mpr later⟩

theorem Reachable.refl (initial : State) : machine.Reachable initial initial := ⟨[], rfl⟩

/-- The machine with all events so far and their answers, the last of them first. -/
def recording : Machine (State × List (Event × Output)) Event Output where
  step recorded event :=
    let (state, answer) := machine.step recorded.1 event
    ((state, (event, answer) :: recorded.2), answer)

theorem recording_run (recorded : State × List (Event × Output)) (events : List Event) :
    (machine.recording.run recorded events).1 = machine.run recorded.1 events := by
  induction events generalizing recorded with
  | nil => rfl
  | cons event rest ih => exact ih (machine.recording.next recorded event)

/-- Where an invariant of the record makes two conditions on a step agree, one that reads the
record and one that does not, they allow the same runs. -/
theorem recording_allowed_iff {allowed : State × List (Event × Output) → Event → Prop}
    {plain : State → Event → Prop} (inv : State × List (Event × Output) → Prop)
    (preserved : ∀ recorded event, inv recorded → inv (machine.recording.next recorded event))
    (agree : ∀ recorded event, inv recorded → (allowed recorded event ↔ plain recorded.1 event))
    {recorded : State × List (Event × Output)} (initially : inv recorded) (events : List Event) :
    machine.recording.Allowed allowed recorded events ↔
      machine.Allowed plain recorded.1 events := by
  induction events generalizing recorded with
  | nil => exact Iff.rfl
  | cons event rest ih =>
    exact and_congr (agree recorded event initially) (ih (preserved recorded event initially))

end Machine

end Transition
