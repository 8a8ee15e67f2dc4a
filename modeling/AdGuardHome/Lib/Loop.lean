import Mathlib.Data.Finset.Card

/-! Loops with several exits: a round either goes on with a new state or leaves with a
result. Fuel makes a run computable; `Ends` says that the loop leaves at all. -/
namespace Looping

universe u v w

variable {State : Type u} {Result : Type v}

/-- The rounds of a loop, at most as many as there is fuel. -/
def run (round : State → State ⊕ Result) : Nat → State → Option Result
  | 0, _ => none
  | fuel + 1, state =>
    match round state with
    | .inl next => run round fuel next
    | .inr result => some result

/-- The loop that starts in a state leaves with a result. -/
inductive Ends (round : State → State ⊕ Result) : State → Result → Prop where
  | leave {state : State} {result : Result} (left : round state = .inr result) :
      Ends round state result
  | again {state next : State} {result : Result} (goes : round state = .inl next)
      (rest : Ends round next result) : Ends round state result

variable {round : State → State ⊕ Result} {result : Result} {state : State}

theorem run_leave (left : round state = .inr result)
    (fuel : Nat) : run round (fuel + 1) state = some result := by
  rw [run, left]

theorem run_again {state next : State} (goes : round state = .inl next) (fuel : Nat) :
    run round (fuel + 1) state = run round fuel next := by
  rw [run, goes]

theorem run_mono {fuel more : Nat} (done : run round fuel state = some result)
    (enough : fuel ≤ more) :
    run round more state = some result := by
  induction fuel generalizing more state with
  | zero => nomatch done
  | succ fuel ih =>
    obtain ⟨spare, rfl⟩ : ∃ spare, more = spare + 1 := ⟨more - 1, by omega⟩
    rcases stepped : round state with next | left
    · rw [run_again stepped] at done ⊢
      exact ih done (by omega)
    · rw [run_leave stepped] at done ⊢
      exact done

theorem ends_iff_run :
    Ends round state result ↔ ∃ fuel, run round fuel state = some result := by
  constructor
  · intro ends
    induction ends with
    | leave left => exact ⟨1, run_leave left 0⟩
    | again goes _ ih =>
      obtain ⟨fuel, done⟩ := ih
      exact ⟨fuel + 1, (run_again goes fuel).trans done⟩
  · intro ⟨fuel, done⟩
    induction fuel generalizing state with
    | zero => nomatch done
    | succ fuel ih =>
      rcases stepped : round state with next | left
      · rw [run_again stepped] at done
        exact .again stepped (ih done)
      · rw [run_leave stepped] at done
        exact Option.some.inj done ▸ .leave stepped

theorem Ends.unique {first second : Result} (one : Ends round state first)
    (other : Ends round state second) : first = second := by
  induction one with
  | leave left =>
    cases other with
    | leave again => exact Sum.inr.inj (left.symm.trans again)
    | again goes _ => nomatch left.symm.trans goes
  | again goes _ ih =>
    cases other with
    | leave left => nomatch goes.symm.trans left
    | again same rest => exact ih (Sum.inl.inj (goes.symm.trans same) ▸ rest)

theorem ends_leave {result other : Result} (left : round state = .inr result) :
    Ends round state other ↔ result = other :=
  ⟨fun ends => (Ends.leave left).unique ends, fun same => same ▸ .leave left⟩

theorem ends_again {state next : State} (goes : round state = .inl next) :
    Ends round state result ↔ Ends round next result := by
  constructor
  · intro ends
    cases ends with
    | leave left => nomatch goes.symm.trans left
    | again same rest => exact Sum.inl.inj (goes.symm.trans same) ▸ rest
  · exact .again goes

theorem Ends.after {first last : State} (ends : Ends round last result)
    (path : Relation.ReflTransGen (fun one next => round one = .inl next) first last) :
    Ends round first result := by
  induction path using Relation.ReflTransGen.head_induction_on with
  | refl => exact ends
  | head goes _ ih => exact .again goes ih

theorem ends_iff_reaches :
    Ends round state result ↔
      ∃ last, Relation.ReflTransGen (fun one next => round one = .inl next) state last ∧
        round last = .inr result := by
  constructor
  · intro ends
    induction ends with
    | leave left => exact ⟨_, .refl, left⟩
    | again goes _ ih =>
      obtain ⟨last, path, left⟩ := ih
      exact ⟨last, .head goes path, left⟩
  · rintro ⟨last, path, left⟩
    exact (Ends.leave left).after path

/-- What holds before the loop and after each round, and what follows of it where a round
leaves. -/
theorem Ends.post (ends : Ends round state result) (inv : State → Prop) (post : Result → Prop)
    (initially : inv state)
    (preserved : ∀ state next, inv state → round state = .inl next → inv next)
    (leaves : ∀ state result, inv state → round state = .inr result → post result) :
    post result := by
  induction ends with
  | leave left => exact leaves _ _ initially left
  | again goes _ ih => exact ih (preserved _ _ initially goes)

/-- Where each round that goes on makes a measure smaller, fuel for one round more than the
measure is enough. -/
theorem run_of_measure (measure : State → Nat) (inv : State → Prop)
    (decreases : ∀ state next, inv state → round state = .inl next →
      inv next ∧ measure next < measure state)
    {fuel : Nat} (initially : inv state) (enough : measure state < fuel) :
    ∃ result, run round fuel state = some result := by
  induction fuel generalizing state with
  | zero => omega
  | succ fuel ih =>
    rcases stepped : round state with next | left
    · obtain ⟨kept, smaller⟩ := decreases _ _ initially stepped
      rw [run_again stepped]
      exact ih kept (by omega)
    · exact ⟨left, run_leave stepped fuel⟩

/-- A loop whose rounds make a measure smaller leaves. -/
theorem ends_of_measure (measure : State → Nat) (inv : State → Prop)
    (decreases : ∀ state next, inv state → round state = .inl next →
      inv next ∧ measure next < measure state)
    (initially : inv state) : ∃ result, Ends round state result := by
  obtain ⟨result, done⟩ :=
    run_of_measure measure inv decreases initially (Nat.lt_succ_self (measure state))
  exact ⟨result, ends_iff_run.mpr ⟨_, done⟩⟩

section Seen

variable {Value : Type w} [DecidableEq Value]

/-- A round that goes on sees a value of a finite set that was not seen before: the number of
values still to see bounds the rounds. -/
theorem run_of_seen (values : Finset Value) (seen : State → Finset Value) (inv : State → Prop)
    (grows : ∀ state next, inv state → round state = .inl next →
      inv next ∧ ∃ value ∈ values, value ∉ seen state ∧ seen next = insert value (seen state))
    {state : State} (initially : inv state) :
    ∃ result, run round ((values \ seen state).card + 1) state = some result := by
  refine run_of_measure (fun state => (values \ seen state).card) inv ?_ initially
    (Nat.lt_succ_self _)
  intro state next holds goes
  obtain ⟨kept, value, among, fresh, added⟩ := grows state next holds goes
  refine ⟨kept, Finset.card_lt_card ?_⟩
  rw [added, Finset.ssubset_iff_of_subset
    (Finset.sdiff_subset_sdiff subset_rfl (Finset.subset_insert _ _))]
  exact ⟨value, by simp [among, fresh], by simp⟩

end Seen

section Cycles

open Relation

/-- Where there is at most one way on, who is on a cycle comes to no end. -/
theorem no_end_of_cycle {Name : Type u} {hop : Name → Name → Prop}
    (deterministic : ∀ name first second, hop name first → hop name second → first = second)
    {name last : Name} (cycle : TransGen hop name name) (path : ReflTransGen hop name last) :
    ∃ next, hop last next := by
  induction path using ReflTransGen.head_induction_on with
  | refl =>
    obtain ⟨next, goes, _⟩ := TransGen.head'_iff.mp cycle
    exact ⟨next, goes⟩
  | head first _ ih =>
    obtain ⟨next, goes, back⟩ := TransGen.head'_iff.mp cycle
    obtain rfl := deterministic _ _ _ goes first
    exact ih (TransGen.tail' back first)

end Cycles

end Looping
