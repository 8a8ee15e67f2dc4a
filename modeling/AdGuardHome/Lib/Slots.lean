import Mathlib.Data.List.Nodup

/-! Resources that are made one after the other, held in slots and closed: every one of them is
held by one slot or was closed once. -/
namespace Slots

universe u

/-- The resources are numbered in the order they are made in.  A slot holds no other slot's
resource, and those that no slot holds were closed, once each. -/
structure Balanced {Slot : Type u} (held : Slot → Option Nat) (made : Nat) (closed : List Nat) :
    Prop where
  below : ∀ slot resource, held slot = some resource → resource < made
  owner : ∀ slot other resource, held slot = some resource → held other = some resource →
    slot = other
  unheld : ∀ resource, resource ∈ closed ↔
    resource < made ∧ ∀ slot, held slot ≠ some resource
  once : closed.Nodup

variable {Slot : Type u} {held : Slot → Option Nat} {made : Nat} {closed : List Nat}

theorem Balanced.empty : Balanced (fun _ : Slot => none) 0 [] where
  below := by simp
  owner := by simp
  unheld := by simp
  once := List.nodup_nil

theorem Balanced.not_closed (balanced : Balanced held made closed) {slot : Slot} {resource : Nat}
    (holds : held slot = some resource) : resource ∉ closed := by
  intro member
  exact ((balanced.unheld resource).mp member).2 slot holds

variable [DecidableEq Slot]

theorem Balanced.release (balanced : Balanced held made closed) (slot : Slot) :
    Balanced (Function.update held slot none) made (closed ++ (held slot).toList) := by
  have kept : ∀ other resource, Function.update held slot none other = some resource →
      other ≠ slot ∧ held other = some resource := by
    intro other resource holds
    by_cases same : other = slot
    · subst same
      simp at holds
    · rw [Function.update_of_ne same] at holds
      exact ⟨same, holds⟩
  constructor
  case below =>
    intro other resource holds
    exact balanced.below other resource (kept other resource holds).2
  case owner =>
    intro first second resource one two
    exact balanced.owner first second resource (kept first resource one).2
      (kept second resource two).2
  case unheld =>
    intro resource
    rw [List.mem_append, balanced.unheld, Option.mem_toList]
    constructor
    · rintro (⟨below, unheld⟩ | released)
      · exact ⟨below, fun other holds => unheld other (kept other resource holds).2⟩
      · refine ⟨balanced.below slot resource released, fun other holds => ?_⟩
        obtain ⟨different, still⟩ := kept other resource holds
        exact different (balanced.owner other slot resource still released)
    · rintro ⟨below, unheld⟩
      by_cases released : held slot = some resource
      · exact .inr released
      · refine .inl ⟨below, fun other holds => ?_⟩
        by_cases same : other = slot
        · exact released (same ▸ holds)
        · exact unheld other (by rw [Function.update_of_ne same, holds])
  case once =>
    cases holds : held slot with
    | none => simpa using balanced.once
    | some resource =>
      rw [Option.toList_some, List.nodup_append]
      refine ⟨balanced.once, List.nodup_singleton resource, ?_⟩
      intro member isClosed other alone same
      obtain rfl := List.mem_singleton.mp alone
      exact balanced.not_closed holds (same ▸ isClosed)

theorem Balanced.acquire (balanced : Balanced held made closed) {slot : Slot}
    (free : held slot = none) :
    Balanced (Function.update held slot (some made)) (made + 1) closed := by
  have cases_of : ∀ other resource, Function.update held slot (some made) other = some resource →
      other = slot ∧ resource = made ∨ other ≠ slot ∧ held other = some resource := by
    intro other resource holds
    by_cases same : other = slot
    · subst same
      rw [Function.update_self] at holds
      exact .inl ⟨rfl, (Option.some.inj holds).symm⟩
    · rw [Function.update_of_ne same] at holds
      exact .inr ⟨same, holds⟩
  constructor
  case below =>
    intro other resource holds
    rcases cases_of other resource holds with ⟨_, rfl⟩ | ⟨_, old⟩
    · exact Nat.lt_succ_self _
    · exact Nat.lt_succ_of_lt (balanced.below other resource old)
  case owner =>
    intro first second resource one two
    rcases cases_of first resource one with ⟨rfl, rfl⟩ | ⟨_, old⟩
    · rcases cases_of second _ two with ⟨rfl, _⟩ | ⟨_, older⟩
      · rfl
      · exact absurd (balanced.below second _ older) (Nat.lt_irrefl _)
    · rcases cases_of second resource two with ⟨_, rfl⟩ | ⟨_, older⟩
      · exact absurd (balanced.below first _ old) (Nat.lt_irrefl _)
      · exact balanced.owner first second resource old older
  case unheld =>
    intro resource
    rw [balanced.unheld]
    constructor
    · rintro ⟨below, unheld⟩
      refine ⟨Nat.lt_succ_of_lt below, fun other holds => ?_⟩
      rcases cases_of other resource holds with ⟨_, rfl⟩ | ⟨_, old⟩
      · exact Nat.lt_irrefl _ below
      · exact unheld other old
    · rintro ⟨below, unheld⟩
      have older : resource ≠ made := by
        rintro rfl
        exact unheld slot (Function.update_self slot _ held)
      refine ⟨by omega, fun other holds => ?_⟩
      have different : other ≠ slot := by
        rintro rfl
        rw [free] at holds
        cases holds
      exact unheld other (by rw [Function.update_of_ne different, holds])
  case once => exact balanced.once

end Slots
