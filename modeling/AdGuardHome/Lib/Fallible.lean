/-! Sequences of steps that may fail. -/
namespace Fallible

universe u v
variable {ε : Type u} {α β : Type v}

theorem bind_ok_iff {x : Except ε α} {f : α → Except ε β} {b : β} :
    x >>= f = .ok b ↔ ∃ a, x = .ok a ∧ f a = .ok b := by
  cases x with
  | error err =>
    constructor
    · intro same
      have same : Except.error err = .ok b := same
      nomatch same
    · intro ⟨_, same, _⟩
      nomatch same
  | ok a =>
    constructor
    · exact fun done => ⟨a, rfl, done⟩
    · intro ⟨a', same, done⟩
      obtain rfl := Except.ok.inj same
      exact done

theorem bind_unit_ok_iff {x : Except ε PUnit} {f : PUnit → Except ε β} {b : β} :
    x >>= f = .ok b ↔ x = .ok ⟨⟩ ∧ f ⟨⟩ = .ok b := by
  rw [bind_ok_iff]
  constructor
  · intro ⟨⟨⟩, first, later⟩
    exact ⟨first, later⟩
  · intro ⟨first, later⟩
    exact ⟨⟨⟩, first, later⟩

theorem map_ok_iff {x : Except ε α} {f : α → β} {b : β} :
    x.map f = .ok b ↔ ∃ a, x = .ok a ∧ f a = b := by
  cases x with
  | error err => simp [Except.map]
  | ok a => simp [Except.map]

theorem map_error_iff {x : Except ε α} {f : α → β} {err : ε} :
    x.map f = .error err ↔ x = .error err := by
  cases x with
  | error other => simp [Except.map]
  | ok a => simp [Except.map]

theorem mapError_ok_iff {ε' : Type u} {x : Except ε α} {f : ε → ε'} {a : α} :
    x.mapError f = .ok a ↔ x = .ok a := by
  cases x with
  | error err =>
    constructor
    · intro same
      cases same
    · intro same
      cases same
  | ok b =>
    constructor
    · intro same
      exact congrArg Except.ok (Except.ok.inj same)
    · intro same
      exact congrArg Except.ok (Except.ok.inj same)

theorem mapM_ok_mem {γ : Type u} {f : γ → Except ε β} {xs : List γ} {ys : List β}
    (done : xs.mapM f = .ok ys) : ∀ y ∈ ys, ∃ x ∈ xs, f x = .ok y := by
  induction xs generalizing ys with
  | nil =>
    cases done
    intro y member
    cases member
  | cons first rest ih =>
    rw [List.mapM_cons] at done
    obtain ⟨head, here, later⟩ := bind_ok_iff.mp done
    obtain ⟨tail, others, made⟩ := bind_ok_iff.mp later
    cases made
    intro y member
    rcases List.mem_cons.mp member with rfl | among
    · exact ⟨first, List.mem_cons_self, here⟩
    · obtain ⟨x, inside, result⟩ := ih others y among
      exact ⟨x, List.mem_cons_of_mem _ inside, result⟩

theorem forM_ok_iff {γ : Type u} {f : γ → Except ε PUnit} {xs : List γ} :
    xs.forM f = .ok ⟨⟩ ↔ ∀ x ∈ xs, f x = .ok ⟨⟩ := by
  induction xs with
  | nil =>
    constructor
    · intro _ x member
      nomatch member
    · exact fun _ => rfl
  | cons first rest ih =>
    have step : (first :: rest).forM f = (f first >>= fun _ => rest.forM f) := rfl
    rw [step, bind_unit_ok_iff, ih, List.forall_mem_cons]

/-- What holds of a failed check, and of the rest after one that passes, holds of both in turn. -/
theorem check_bind {σ : Type} {Failure Value Result : Type} {state : σ}
    (holds : EStateM.Result Failure σ Result → Prop) (fails : ∀ error, holds (.error error state))
    {check : Except Failure Value} {rest : Value → EStateM Failure σ Result}
    (passed : ∀ value, check = .ok value → holds (rest value state)) :
    holds ((ofExcept check >>= rest) state) := by
  cases result : check with
  | error error => exact fails error
  | ok value => exact passed value result

end Fallible
