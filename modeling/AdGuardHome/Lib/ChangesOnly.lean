import Mathlib.Order.Basic

/-! Passing on only what has changed. A producer knows something of a key and tells a consumer of
it; the consumer keeps what it was last told. Where the producer keeps silent only of what the
consumer holds, it might as well tell everything it knows. -/
namespace ChangesOnly

universe u
variable {Info : Type u} {told plain known held before after : Option Info}

/-- What is told stands for what is known: it is that, or nothing where that is held already. -/
def Stands (told known held : Option Info) : Prop := told = known ∨ told = none ∧ held = known

/-- What is known of a key, if anything, is on its way to the consumer or held there. -/
def Settled (known told held : Option Info) : Prop := known = none ∨ Stands told known held

/-- What a lookup tells, beside what it could tell, if it knew `before` and now knows `after`. -/
structure Filtered (before after told plain : Option Info) : Prop where
  tells : told = plain ∨ told = none ∧ plain = before
  learns : after = told ∨ told = none ∧ after = before

theorem Stands.refl (known held : Option Info) : Stands known known held := .inl rfl

theorem Stands.or_eq (stands : Stands told plain held) : plain.or held = told.or held := by
  obtain rfl | ⟨rfl, rfl⟩ := stands
  · rfl
  · cases held <;> rfl

theorem Settled.or_eq (settled : Settled known told held) :
    Settled known none (told.or held) := by
  obtain nothing | rfl | ⟨rfl, rfl⟩ := settled
  · exact .inl nothing
  · cases told with
    | none => exact .inl rfl
    | some info => exact .inr (.inr ⟨rfl, rfl⟩)
  · exact .inr (.inr ⟨rfl, rfl⟩)

theorem Settled.quiet (settled : Settled known none held) : known = none ∨ held = known := by
  obtain nothing | same | ⟨_, same⟩ := settled
  · exact .inl nothing
  · exact .inl same.symm
  · exact .inr same

theorem Filtered.nothing : Filtered before before none none :=
  ⟨.inl rfl, .inr ⟨rfl, rfl⟩⟩

theorem Filtered.silent : Filtered before before none before := ⟨.inr ⟨rfl, rfl⟩, .inr ⟨rfl, rfl⟩⟩

theorem Filtered.all : Filtered before told told told := ⟨.inl rfl, .inl rfl⟩

theorem Filtered.stands (filtered : Filtered before after told plain)
    (settled : Settled before none held) : Stands told plain held := by
  obtain rfl | ⟨rfl, rfl⟩ := filtered.tells
  · exact .refl _ _
  · obtain rfl | same := settled.quiet
    · exact .refl _ _
    · exact .inr ⟨rfl, same⟩

theorem Filtered.settled (filtered : Filtered before after told plain)
    (settled : Settled before none held) : Settled after told held := by
  obtain rfl | ⟨rfl, rfl⟩ := filtered.learns
  · exact .inr (.refl _ _)
  · exact settled

end ChangesOnly
