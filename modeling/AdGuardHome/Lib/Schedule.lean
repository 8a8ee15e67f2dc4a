import AdGuardHome.Lib.Machine
import Mathlib.Data.Nat.Find

/-! Machines that are never done: the states along an infinite schedule of events, and what a
party that is scheduled again and again gets to. -/
namespace Transition.Machine

universe u v w

variable {State : Type u} {Event : Type v} {Output : Type w}
variable (machine : Machine State Event Output)

/-- The state in which the event number `time` of a schedule arrives. -/
def along (initial : State) (schedule : ℕ → Event) : ℕ → State
  | 0 => initial
  | time + 1 => machine.next (along initial schedule time) (schedule time)

/-- Events of the kind come again and again. -/
def Fair (kind : Event → Prop) (schedule : ℕ → Event) : Prop :=
  ∀ time, ∃ later, time ≤ later ∧ kind (schedule later)

variable {machine} {initial : State} {schedule : ℕ → Event}

theorem along_succ (time : ℕ) :
    machine.along initial schedule (time + 1) =
      machine.next (machine.along initial schedule time) (schedule time) := rfl

/-- What each step of the schedule preserves from some time on holds from then on. -/
theorem along_stays (inv : State → Prop) {start : ℕ}
    (preserved : ∀ time, start ≤ time → inv (machine.along initial schedule time) →
      inv (machine.along initial schedule (time + 1)))
    (initially : inv (machine.along initial schedule start)) {time : ℕ} (later : start ≤ time) :
    inv (machine.along initial schedule time) := by
  induction time, later using Nat.le_induction with
  | base => exact initially
  | succ time later ih => exact preserved time later ih

/-- Where a place is only left by events of a kind that keeps coming, one of them arrives in that
place. -/
theorem Fair.arrives {kind : Event → Prop} (fair : Fair kind schedule) (place : State → Prop)
    (stays : ∀ state event, place state → ¬ kind event → place (machine.next state event))
    {time : ℕ} (here : place (machine.along initial schedule time)) :
    ∃ later, time ≤ later ∧ kind (schedule later) ∧
      place (machine.along initial schedule later) := by
  obtain ⟨first, now, others⟩ : ∃ first, kind (schedule (time + first)) ∧
      ∀ earlier < first, ¬ kind (schedule (time + earlier)) := by
    classical
    have some_time : ∃ first, kind (schedule (time + first)) := by
      obtain ⟨later, after, now⟩ := fair time
      exact ⟨later - time, by rwa [Nat.add_sub_cancel' after]⟩
    exact ⟨Nat.find some_time, Nat.find_spec some_time, fun earlier less =>
      Nat.find_min some_time less⟩
  refine ⟨time + first, Nat.le_add_right _ _, now, ?_⟩
  have waits : ∀ waited ≤ first, place (machine.along initial schedule (time + waited)) := by
    intro waited
    induction waited with
    | zero => exact fun _ => here
    | succ waited ih =>
      intro within
      exact stays _ _ (ih (Nat.le_of_succ_le within)) (others waited within)
  exact waits first le_rfl

/-- Such an event takes the machine to where it leads from that place. -/
theorem Fair.leads {kind : Event → Prop} (fair : Fair kind schedule) (place goal : State → Prop)
    (stays : ∀ state event, place state → ¬ kind event → place (machine.next state event))
    (goes : ∀ state event, place state → kind event → goal (machine.next state event))
    {time : ℕ} (here : place (machine.along initial schedule time)) :
    ∃ later, time < later ∧ goal (machine.along initial schedule later) := by
  obtain ⟨later, after, now, there⟩ := fair.arrives place stays here
  exact ⟨later + 1, Nat.lt_succ_of_le after, goes _ _ there now⟩

end Transition.Machine
