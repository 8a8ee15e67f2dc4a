import Mathlib.Data.List.Count

/-! A loop that removes elements by moving the last one into the free place. Each element is
compared twice: one that matches first is removed, and the one that comes into its place is
only compared the second way, as is one that does not match first. A fixed match stops the
loop. -/

universe u

/-- The list without the element at the index, whose place the last one takes. -/
def swapRemove {α : Type u} (list : List α) (i : Nat) : List α :=
  if i + 1 = list.length then list.dropLast
  else match list.getLast? with
    | some last => (list.set i last).dropLast
    | none => list

theorem swapRemove_last {α : Type u} (front : List α) (x : α) :
    swapRemove (front ++ [x]) front.length = front := by
  simp [swapRemove]

theorem swapRemove_inner {α : Type u} (front mid : List α) (x last : α) :
    swapRemove (front ++ x :: mid ++ [last]) front.length = front ++ last :: mid := by
  have inner : ¬ front.length + 1 = (front ++ x :: mid ++ [last]).length := by simp
  have found : (front ++ x :: mid ++ [last]).getLast? = some last := List.getLast?_concat
  have placed : (front ++ x :: mid ++ [last]).set front.length last =
      (front ++ last :: mid) ++ [last] := by simp
  rw [swapRemove, if_neg inner, found]
  dsimp only
  rw [placed, List.dropLast_concat]

/-- How a sweep divides a list: what it keeps and removes, and whether it stopped. -/
inductive SwapSweep {α : Type u} (first second fixed : α → Bool) :
    List α → List α → List α → Bool → Prop
  | done : SwapSweep first second fixed [] [] [] false
  | pass {x : α} {rest kept removed : List α} {refused : Bool} (other : first x = false)
      (different : second x = false) (next : SwapSweep first second fixed rest kept removed refused) :
      SwapSweep first second fixed (x :: rest) (x :: kept) removed refused
  | refuse {x : α} {rest : List α} (same : (first x || second x) = true) (stays : fixed x = true) :
      SwapSweep first second fixed (x :: rest) (x :: rest) [] true
  | last {x : α} (same : (first x || second x) = true) (loose : fixed x = false) :
      SwapSweep first second fixed [x] [] [x] false
  /-- The last element takes the place of one that matched first. -/
  | move {x b : α} {rest kept removed : List α} {refused : Bool} (same : first x = true)
      (loose : fixed x = false) (different : second b = false)
      (next : SwapSweep first second fixed rest kept removed refused) :
      SwapSweep first second fixed (x :: rest ++ [b]) (b :: kept) (x :: removed) refused
  | moveRefuse {x b : α} {rest : List α} (same : first x = true) (loose : fixed x = false)
      (again : second b = true) (stays : fixed b = true) :
      SwapSweep first second fixed (x :: rest ++ [b]) (b :: rest) [x] true
  | moveLast {x b : α} (same : first x = true) (loose : fixed x = false)
      (again : second b = true) (looseToo : fixed b = false) :
      SwapSweep first second fixed [x, b] [] [x, b] false
  /-- The element that took the place is removed as well. -/
  | moveTwice {x b c : α} {rest kept removed : List α} {refused : Bool} (same : first x = true)
      (loose : fixed x = false) (again : second b = true) (looseToo : fixed b = false)
      (next : SwapSweep first second fixed rest kept removed refused) :
      SwapSweep first second fixed (x :: rest ++ [c, b]) (c :: kept) (x :: b :: removed) refused
  /-- The last element takes the place of one that matched only the second way. -/
  | replace {x b : α} {rest kept removed : List α} {refused : Bool} (other : first x = false)
      (same : second x = true) (loose : fixed x = false)
      (next : SwapSweep first second fixed rest kept removed refused) :
      SwapSweep first second fixed (x :: rest ++ [b]) (b :: kept) (x :: removed) refused

namespace SwapSweep

variable {α : Type u} {first second fixed : α → Bool} {list kept removed : List α}
  {refused : Bool}

private theorem perm_move {rest : List α} (x b : α) (shared : (kept ++ removed).Perm rest) :
    (b :: kept ++ x :: removed).Perm (x :: rest ++ [b]) :=
  calc (b :: kept ++ x :: removed).Perm (b :: x :: (kept ++ removed)) := List.perm_middle.cons b
    _ |>.Perm (b :: x :: rest) := (shared.cons x).cons b
    _ |>.Perm (x :: rest ++ [b]) := (List.perm_append_singleton b (x :: rest)).symm

theorem perm (swept : SwapSweep first second fixed list kept removed refused) :
    (kept ++ removed).Perm list := by
  induction swept with
  | done => exact .refl []
  | @pass x rest kept removed refused other different next ih => exact ih.cons x
  | @refuse x rest same stays => simp
  | @last x same loose => exact .refl [x]
  | @move x b rest kept removed refused same loose different next ih => exact perm_move x b ih
  | @moveRefuse x b rest same loose again stays =>
    exact perm_move x b (by rw [List.append_nil])
  | @moveLast x b same loose again looseToo => exact .refl [x, b]
  | @moveTwice x b c rest kept removed refused same loose again looseToo next ih =>
    have inner : (c :: kept ++ b :: removed).Perm (b :: rest ++ [c]) := perm_move b c ih
    calc (c :: kept ++ x :: b :: removed).Perm (x :: (c :: kept ++ b :: removed)) :=
          List.perm_middle
      _ |>.Perm (x :: (b :: rest ++ [c])) := inner.cons x
      _ |>.Perm (x :: (rest ++ [c] ++ [b])) :=
          ((List.perm_append_singleton b (rest ++ [c])).symm).cons x
      _ |>.Perm (x :: rest ++ [c, b]) := by simp
  | @replace x b rest kept removed refused other same loose next ih => exact perm_move x b ih

theorem removed_match (swept : SwapSweep first second fixed list kept removed refused) :
    ∀ x ∈ removed, (first x || second x) = true ∧ fixed x = false := by
  induction swept with
  | done => simp
  | pass other different next ih => exact ih
  | refuse same stays => simp
  | last same loose =>
    intro y member
    rw [List.mem_singleton.mp member]
    exact ⟨same, loose⟩
  | move same loose different next ih => simpa [same, loose] using ih
  | moveRefuse same loose again stays => simp [same, loose]
  | moveLast same loose again looseToo => simp [same, loose, again, looseToo]
  | moveTwice same loose again looseToo next ih => simpa [same, loose, again, looseToo] using ih
  | replace other same loose next ih => simpa [other, same, loose] using ih

theorem refused_fixed (swept : SwapSweep first second fixed list kept removed refused)
    (stopped : refused = true) :
    ∃ x ∈ list, (first x || second x) = true ∧ fixed x = true := by
  induction swept with
  | done => cases stopped
  | pass other different next ih =>
    obtain ⟨y, member, stops⟩ := ih stopped
    exact ⟨y, .tail _ member, stops⟩
  | @refuse x rest same stays => exact ⟨x, .head rest, same, stays⟩
  | last same loose => cases stopped
  | move same loose different next ih =>
    obtain ⟨y, member, stops⟩ := ih stopped
    exact ⟨y, by simp [member], stops⟩
  | @moveRefuse x b rest same loose again stays => exact ⟨b, by simp, by simp [again], stays⟩
  | moveLast same loose again looseToo => cases stopped
  | moveTwice same loose again looseToo next ih =>
    obtain ⟨y, member, stops⟩ := ih stopped
    exact ⟨y, by simp [member], stops⟩
  | replace other same loose next ih =>
    obtain ⟨y, member, stops⟩ := ih stopped
    exact ⟨y, by simp [member], stops⟩

section Reach

variable (first second fixed)

/-- Behind an element there is one for each match before it and for the second kind of match
behind it. -/
def Reached (front back : List α) : Prop :=
  front.countP (fun x => first x || second x) + back.countP second ≤ back.length

/-- The sweep reaches each match of the first kind before it could be moved. -/
def AllReached (list : List α) : Prop :=
  ∀ front x back, list = front ++ x :: back → first x = true → second x = false →
    Reached first second front back

/-- The sweep reaches a fixed match. -/
def FixedReached (list : List α) : Prop :=
  ∃ front x back, list = front ++ x :: back ∧ fixed x = true ∧
    (second x = true ∨ first x = true ∧ Reached first second front back)

end Reach

theorem AllReached.tail {x : α} {rest : List α} (reached : AllReached first second (x :: rest))
    (other : (first x || second x) = false) : AllReached first second rest := by
  intro front y back split match_ different
  have whole := reached (x :: front) y back (by rw [split]; rfl) match_ different
  simpa [Reached, other] using whole

theorem sole_pair {a b : α} {l : List α} (sole : l.countP second ≤ 1)
    (pair : [a, b].Sublist l) : second a = false ∨ second b = false := by
  have both := pair.countP_le (p := second)
  rcases Bool.eq_false_or_eq_true (second a) with here | other
  · rcases Bool.eq_false_or_eq_true (second b) with there | other
    · simp only [List.countP_cons, here, there, ↓reduceIte, List.countP_nil] at both
      omega
    · exact .inr other
  · exact .inl other

theorem pair_ends (x b : α) (rest : List α) : [x, b].Sublist (x :: rest ++ [b]) :=
  (List.sublist_append_right rest [b]).cons_cons x

theorem sole_inner {x : α} {rest back : List α} (sole : (x :: rest ++ back).countP second ≤ 1) :
    rest.countP second ≤ 1 := by
  simp only [List.countP_cons, List.countP_append] at sole
  omega

/-- What is left when a match is removed and the last elements are moved. -/
theorem AllReached.inner {x : α} {rest back : List α}
    (reached : AllReached first second (x :: rest ++ back))
    (same : (first x || second x) = true) (cost : back.length ≤ back.countP second + 1) :
    AllReached first second rest := by
  intro front y later split match_ different
  have whole := reached (x :: front) y (later ++ back) (by rw [split]; simp) match_ different
  simp only [Reached, List.countP_cons, same, ↓reduceIte, List.countP_append,
    List.length_append] at whole
  simp only [Reached]
  omega

theorem not_reached {x : α} (same : (first x || second x) = true) (rest : List α)
    {back : List α} (cost : back.length ≤ back.countP second) :
    ¬ Reached first second (x :: rest) back := by
  simp only [Reached, List.countP_cons, same, ↓reduceIte]
  omega

/-- An element that a removal moves does not match the first way only. -/
theorem AllReached.moved {x b : α} {rest back : List α}
    (reached : AllReached first second (x :: rest ++ b :: back))
    (same : (first x || second x) = true) (cost : back.length ≤ back.countP second)
    (different : second b = false) : first b = false := by
  by_contra match_
  exact not_reached same rest cost (reached (x :: rest) b back rfl (by simpa using match_) different)

theorem clean (swept : SwapSweep first second fixed list kept removed refused)
    (sole : list.countP second ≤ 1) (reached : AllReached first second list) :
    refused = true ∨ ∀ x ∈ kept, first x = false ∧ second x = false := by
  induction swept with
  | done => exact .inr (by simp)
  | @pass x rest kept removed refused other different next ih =>
    rw [List.countP_cons_of_neg (by simp [different])] at sole
    refine (ih sole (reached.tail (by simp [other, different]))).imp id fun clean => ?_
    exact List.forall_mem_cons.mpr ⟨⟨other, different⟩, clean⟩
  | refuse same stays => exact .inl rfl
  | last same loose => exact .inr (by simp)
  | @move x b rest kept removed refused same loose different next ih =>
    have match_ : (first x || second x) = true := by simp [same]
    have other := reached.moved match_ (by simp) different
    refine (ih (sole_inner sole) (reached.inner match_ (by simp))).imp id fun clean => ?_
    exact List.forall_mem_cons.mpr ⟨⟨other, different⟩, clean⟩
  | moveRefuse same loose again stays => exact .inl rfl
  | moveLast same loose again looseToo => exact .inr (by simp)
  | @moveTwice x b c rest kept removed refused same loose again looseToo next ih =>
    have match_ : (first x || second x) = true := by simp [same]
    have different : second c = false :=
      (sole_pair sole (List.sublist_append_right (x :: rest) [c, b])).resolve_right (by simp [again])
    have other := reached.moved match_ (by simp [again]) different
    refine (ih (sole_inner sole) (reached.inner match_ (by simp [again]))).imp id fun clean => ?_
    exact List.forall_mem_cons.mpr ⟨⟨other, different⟩, clean⟩
  | @replace x b rest kept removed refused other same loose next ih =>
    have match_ : (first x || second x) = true := by simp [same]
    have different : second b = false :=
      (sole_pair sole (pair_ends x b rest)).resolve_left (by simp [same])
    have first_ := reached.moved match_ (by simp) different
    refine (ih (sole_inner sole) (reached.inner match_ (by simp))).imp id fun clean => ?_
    exact List.forall_mem_cons.mpr ⟨⟨first_, different⟩, clean⟩

theorem FixedReached.exists (reached : FixedReached first second fixed list) :
    ∃ x ∈ list, fixed x = true := by
  obtain ⟨front, x, back, rfl, stays, _⟩ := reached
  exact ⟨x, by simp, stays⟩

theorem FixedReached.tail {x : α} {rest : List α}
    (reached : FixedReached first second fixed (x :: rest))
    (other : (first x || second x) = false) : FixedReached first second fixed rest := by
  obtain ⟨front, y, back, split, stays, same⟩ := reached
  cases front with
  | nil =>
    obtain ⟨rfl, rfl⟩ : x = y ∧ rest = back := by simpa using split
    rw [Bool.or_eq_false_iff] at other
    rcases same with again | ⟨match_, _⟩
    · rw [other.2] at again
      cases again
    · rw [other.1] at match_
      cases match_
  | cons z front =>
    obtain ⟨rfl, rfl⟩ : x = z ∧ rest = front ++ y :: back := by simpa using split
    refine ⟨front, y, back, rfl, stays, same.imp id fun ⟨match_, whole⟩ => ⟨match_, ?_⟩⟩
    simpa [Reached, other] using whole

/-- What is left when a match is removed and none of the last elements is the fixed one. -/
theorem FixedReached.inner {x : α} {rest back : List α}
    (reached : FixedReached first second fixed (x :: rest ++ back))
    (same : (first x || second x) = true) (loose : fixed x = false)
    (cost : back.length ≤ back.countP second + 1)
    (behind : ∀ front y later, back = front ++ y :: later → fixed y = true →
      ¬ (second y = true ∨ first y = true ∧ Reached first second (x :: rest ++ front) later)) :
    FixedReached first second fixed rest := by
  obtain ⟨front, y, later, split, stays, found⟩ := reached
  cases front with
  | nil =>
    obtain ⟨rfl, _⟩ : x = y ∧ rest ++ back = later := by simpa using split
    rw [loose] at stays
    cases stays
  | cons z front =>
    obtain ⟨rfl, parts⟩ : x = z ∧ rest ++ back = front ++ y :: later := by simpa using split
    rcases List.append_eq_append_iff.mp parts with ⟨mid, rfl, moved⟩ | ⟨mid, rfl, moved⟩
    · exact absurd found (behind mid y later moved stays)
    · cases mid with
      | nil =>
        refine absurd found (behind [] y later moved.symm stays ∘ ?_)
        simp
      | cons w mid =>
        obtain ⟨rfl, rfl⟩ : y = w ∧ later = mid ++ back := by simpa using moved
        refine ⟨front, y, mid, rfl, stays, found.imp id fun ⟨match_, whole⟩ => ⟨match_, ?_⟩⟩
        simp only [Reached, List.countP_cons, same, ↓reduceIte, List.countP_append,
          List.length_append] at whole ⊢
        omega

/-- The element that a removal moves and those removed with it are not a fixed match that is
reached. -/
theorem not_reached_moved {x c : α} {gone : List α} (same : (first x || second x) = true)
    (rest : List α) (different : second c = false) (cost : gone.length ≤ gone.countP second)
    (loose : ∀ y ∈ gone, fixed y = false) :
    ∀ front y later, c :: gone = front ++ y :: later → fixed y = true →
      ¬ (second y = true ∨ first y = true ∧ Reached first second (x :: rest ++ front) later) := by
  intro front y later split stays
  cases front with
  | nil =>
    obtain ⟨rfl, rfl⟩ : c = y ∧ gone = later := by simpa using split
    rw [different, List.append_nil]
    rintro (again | ⟨_, whole⟩)
    · cases again
    · exact not_reached same rest cost whole
  | cons z front =>
    obtain ⟨_, rfl⟩ : c = z ∧ gone = front ++ y :: later := by simpa using split
    rw [loose y (by simp)] at stays
    cases stays

theorem stops (swept : SwapSweep first second fixed list kept removed refused)
    (sole : list.countP second ≤ 1) (reached : FixedReached first second fixed list) :
    refused = true := by
  induction swept with
  | done =>
    obtain ⟨x, member, _⟩ := reached.exists
    cases member
  | @pass x rest kept removed refused other different next ih =>
    rw [List.countP_cons_of_neg (by simp [different])] at sole
    exact ih sole (reached.tail (by simp [other, different]))
  | refuse same stays => rfl
  | @last x same loose =>
    obtain ⟨y, member, stays⟩ := reached.exists
    rw [List.mem_singleton.mp member, loose] at stays
    cases stays
  | @move x b rest kept removed refused same loose different next ih =>
    have match_ : (first x || second x) = true := by simp [same]
    exact ih (sole_inner sole) (reached.inner match_ loose (by simp)
      (not_reached_moved match_ rest different (by simp) (by simp)))
  | moveRefuse same loose again stays => rfl
  | @moveLast x b same loose again looseToo =>
    obtain ⟨y, member, stays⟩ := reached.exists
    simp only [List.mem_cons, List.not_mem_nil, or_false] at member
    rcases member with rfl | rfl
    · rw [loose] at stays
      cases stays
    · rw [looseToo] at stays
      cases stays
  | @moveTwice x b c rest kept removed refused same loose again looseToo next ih =>
    have match_ : (first x || second x) = true := by simp [same]
    have different : second c = false :=
      (sole_pair sole (List.sublist_append_right (x :: rest) [c, b])).resolve_right (by simp [again])
    exact ih (sole_inner sole) (reached.inner match_ loose (by simp [again])
      (not_reached_moved match_ rest different (by simp [again]) (by simp [looseToo])))
  | @replace x b rest kept removed refused other same loose next ih =>
    have match_ : (first x || second x) = true := by simp [same]
    have different : second b = false :=
      (sole_pair sole (pair_ends x b rest)).resolve_left (by simp [same])
    exact ih (sole_inner sole)
      (reached.inner match_ loose (by simp)
        (not_reached_moved match_ rest different (by simp) (by simp)))

end SwapSweep
