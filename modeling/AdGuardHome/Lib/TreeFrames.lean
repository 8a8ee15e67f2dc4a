import Mathlib.Data.List.Basic

/-! Frames of changes to a tree: which of the paths into it a change leaves alone. A path is
a list of segments, and a pattern of paths a list of slots, each of which some segments fit. -/
namespace TreeFrames

universe u v w

variable {Tree : Type u} {Seg : Type v} {Slot : Type w}

/-- The tree that a path leads to. -/
def follow (child : Tree → Seg → Option Tree) : Option Tree → List Seg → Option Tree
  | tree, [] => tree
  | none, _ :: _ => none
  | some tree, seg :: path => follow child (child tree seg) path

/-- The path leads to an instance of the pattern, into it or towards it. -/
def Meets (fits : Slot → Seg → Prop) : List Slot → List Seg → Prop
  | [], _ => True
  | _ :: _, [] => True
  | slot :: pattern, seg :: path => fits slot seg ∧ Meets fits pattern path

/-- The path leads strictly into an instance of the pattern. -/
def Below (fits : Slot → Seg → Prop) : List Slot → List Seg → Prop
  | _, [] => False
  | [], _ :: _ => True
  | slot :: pattern, seg :: path => fits slot seg ∧ Below fits pattern path

/-- The path meets one of the patterns. -/
def Named (fits : Slot → Seg → Prop) (names : List (List Slot)) (path : List Seg) : Prop :=
  ∃ name ∈ names, Meets fits name path

/-- The path leads into an instance of one of the patterns. -/
def Inside (fits : Slot → Seg → Prop) (fresh : List (List Slot)) (path : List Seg) : Prop :=
  ∃ section' ∈ fresh, Below fits section' path

section paths

variable {child : Tree → Seg → Option Tree} {fits : Slot → Seg → Prop}
variable {names : List (List Slot)} {seg : Seg} {path : List Seg} {slot : Slot}

@[simp] theorem follow_nil (tree : Option Tree) : follow child tree [] = tree := by
  cases tree <;> rfl

@[simp] theorem follow_none (path : List Seg) : follow child none path = none := by
  cases path <;> rfl

@[simp] theorem follow_cons (tree : Tree) (seg : Seg) (path : List Seg) :
    follow child (some tree) (seg :: path) = follow child (child tree seg) path := rfl

theorem meets_nil (pattern : List Slot) : Meets fits pattern [] := by
  cases pattern <;> trivial

theorem named_nil (nonempty : names ≠ []) : Named fits names [] := by
  obtain ⟨name, rest, rfl⟩ := List.exists_cons_of_ne_nil nonempty
  exact ⟨name, List.mem_cons_self, meets_nil name⟩

theorem Named.mono {more : List (List Slot)} (named : Named fits names path)
    (all : ∀ name ∈ names, name ∈ more) : Named fits more path := by
  obtain ⟨name, member, meets⟩ := named
  exact ⟨name, all name member, meets⟩

theorem named_under : Named fits (names.map (slot :: ·)) (seg :: path) ↔
    fits slot seg ∧ Named fits names path := by
  constructor
  · intro ⟨_, member, meets⟩
    obtain ⟨name, inside, rfl⟩ := List.mem_map.mp member
    exact ⟨meets.1, name, inside, meets.2⟩
  · intro ⟨here, name, member, meets⟩
    exact ⟨slot :: name, List.mem_map_of_mem member, here, meets⟩

theorem not_inside_root {fresh : List (List Slot)} : ¬ Inside fits fresh [] := by
  intro ⟨pattern, _, below⟩
  cases pattern <;> exact below

theorem not_inside_nil : ¬ Inside fits [] path := by
  intro ⟨_, member, _⟩
  nomatch member

theorem inside_under {fresh : List (List Slot)} :
    Inside fits (fresh.map (slot :: ·)) (seg :: path) ↔ fits slot seg ∧ Inside fits fresh path := by
  constructor
  · intro ⟨_, member, below⟩
    obtain ⟨pattern, inside, rfl⟩ := List.mem_map.mp member
    exact ⟨below.1, pattern, inside, below.2⟩
  · intro ⟨here, pattern, member, below⟩
    exact ⟨slot :: pattern, List.mem_map_of_mem member, here, below⟩

theorem inside_append {fresh later : List (List Slot)} :
    Inside fits (fresh ++ later) path ↔ Inside fits fresh path ∨ Inside fits later path := by
  constructor
  · intro ⟨pattern, member, below⟩
    rcases List.mem_append.mp member with first | second
    · exact .inl ⟨pattern, first, below⟩
    · exact .inr ⟨pattern, second, below⟩
  · rintro (⟨pattern, member, below⟩ | ⟨pattern, member, below⟩)
    · exact ⟨pattern, List.mem_append_left _ member, below⟩
    · exact ⟨pattern, List.mem_append_right _ member, below⟩

end paths

/-- A change names some patterns and puts fresh trees in the place of others: what no name
meets is gone from a fresh tree, and is as before anywhere else. -/
structure Frame (child : Tree → Seg → Option Tree) (fits : Slot → Seg → Prop)
    (names fresh : List (List Slot)) (before after : Option Tree) : Prop where
  kept : ∀ path, ¬ Named fits names path → ¬ Inside fits fresh path →
    follow child after path = follow child before path
  lost : ∀ path, ¬ Named fits names path → Inside fits fresh path → follow child after path = none

namespace Frame

variable {child : Tree → Seg → Option Tree} {fits : Slot → Seg → Prop}
variable {names more fresh later : List (List Slot)} {a b c : Option Tree}

theorem refl (names : List (List Slot)) (a : Option Tree) : Frame child fits names [] a a where
  kept _ _ _ := rfl
  lost _ _ inside := absurd inside not_inside_nil

theorem root (a b : Option Tree) : Frame child fits [[]] [] a b where
  kept _ unnamed _ := absurd ⟨[], List.mem_singleton_self _, trivial⟩ unnamed
  lost _ unnamed _ := absurd ⟨[], List.mem_singleton_self _, trivial⟩ unnamed

theorem mono (frame : Frame child fits names fresh a b) (all : ∀ name ∈ names, name ∈ more) :
    Frame child fits more fresh a b where
  kept path unnamed := frame.kept path fun named => unnamed (named.mono all)
  lost path unnamed := frame.lost path fun named => unnamed (named.mono all)

theorem trans (first : Frame child fits names fresh a b)
    (second : Frame child fits names later b c) :
    Frame child fits names (fresh ++ later) a c where
  kept path unnamed outside := by
    rw [inside_append, not_or] at outside
    rw [second.kept path unnamed outside.2, first.kept path unnamed outside.1]
  lost path unnamed inside := by
    by_cases again : Inside fits later path
    · exact second.lost path unnamed again
    · rw [second.kept path unnamed again]
      rcases inside_append.mp inside with early | late
      · exact first.lost path unnamed early
      · exact absurd late again

/-- A fresh tree may take the place of one that has nothing in it. -/
theorem absent (frame : Frame child fits names [] a b)
    (none_there : ∀ path, ¬ Named fits names path → Inside fits fresh path →
      follow child a path = none) : Frame child fits names fresh a b where
  kept path unnamed _ := frame.kept path unnamed not_inside_nil
  lost path unnamed inside := by
    rw [frame.kept path unnamed not_inside_nil]
    exact none_there path unnamed inside

theorem replaced {made : Tree} (nothing : ∀ seg, child made seg = none) (nonempty : names ≠ [])
    (frame : Frame child fits names [] (some made) b) : Frame child fits names [[]] a b where
  kept path unnamed outside := by
    cases path with
    | nil => exact absurd (named_nil nonempty) unnamed
    | cons seg path => exact absurd ⟨[], List.mem_singleton_self _, trivial⟩ outside
  lost path unnamed inside := by
    cases path with
    | nil => exact absurd (named_nil nonempty) unnamed
    | cons seg path =>
      rw [frame.kept _ unnamed not_inside_nil, follow_cons, nothing, follow_none]

/-- Only the children in one slot have changed. -/
theorem under {slot : Slot} {old new : Tree} (nonempty : names ≠ [])
    (others : ∀ seg, ¬ fits slot seg → child new seg = child old seg)
    (inner : ∀ seg, fits slot seg → Frame child fits names fresh (child old seg) (child new seg)) :
    Frame child fits (names.map (slot :: ·)) (fresh.map (slot :: ·)) (some old) (some new) where
  kept path unnamed outside := by
    cases path with
    | nil => exact absurd (named_nil (by simpa using nonempty)) unnamed
    | cons seg path =>
      rw [named_under, not_and] at unnamed
      rw [inside_under, not_and] at outside
      rw [follow_cons, follow_cons]
      by_cases here : fits slot seg
      · exact (inner seg here).kept path (unnamed here) (outside here)
      · rw [others seg here]
  lost path unnamed inside := by
    cases path with
    | nil => exact absurd inside not_inside_root
    | cons seg path =>
      rw [named_under, not_and] at unnamed
      obtain ⟨here, within⟩ := inside_under.mp inside
      exact (inner seg here).lost path (unnamed here) within

end Frame

/-- A run of changes, each with its names and its fresh trees. -/
structure Run (child : Tree → Seg → Option Tree) (fits : Slot → Seg → Prop) (first last : Nat)
    (names fresh : Nat → List (List Slot)) (state : Nat → Option Tree) : Prop where
  step : ∀ i, first ≤ i → i < last →
    Frame child fits (names i) (fresh i) (state i) (state (i + 1))

namespace Run

variable {child : Tree → Seg → Option Tree} {fits : Slot → Seg → Prop} {first last : Nat}
variable {names fresh : Nat → List (List Slot)} {state : Nat → Option Tree} {path : List Seg}

/-- A change names the path. -/
def NamedIn (fits : Slot → Seg → Prop) (first last : Nat) (names : Nat → List (List Slot))
    (path : List Seg) : Prop := ∃ i, first ≤ i ∧ i < last ∧ Named fits (names i) path

/-- What no change names can only be lost, and does not come back. -/
theorem kept_or_lost (run : Run child fits first last names fresh state)
    (unnamed : ¬ NamedIn fits first last names path) {i j : Nat} (from_first : first ≤ i)
    (later : i ≤ j) (before_last : j ≤ last) :
    follow child (state j) path = follow child (state i) path ∨
      follow child (state j) path = none := by
  induction later with
  | refl => exact .inl rfl
  | @step j later ih =>
    have quiet : ¬ Named fits (names j) path :=
      fun named => unnamed ⟨j, Nat.le_trans from_first later, before_last, named⟩
    have frame := run.step j (Nat.le_trans from_first later) before_last
    by_cases inside : Inside fits (fresh j) path
    · exact .inr (frame.lost path quiet inside)
    · rw [frame.kept path quiet inside]
      exact ih (Nat.le_of_succ_le before_last)

/-- A path that no change names is kept by the run exactly when there is nothing at it
whenever a fresh tree takes its place. -/
theorem kept_iff (run : Run child fits first last names fresh state) (ordered : first ≤ last)
    (unnamed : ¬ NamedIn fits first last names path) :
    follow child (state last) path = follow child (state first) path ↔
      ∀ i, first ≤ i → i < last → Inside fits (fresh i) path →
        follow child (state i) path = none := by
  constructor
  · intro kept i from_first before_last inside
    have gone := (run.step i from_first before_last).lost path
      (fun named => unnamed ⟨i, from_first, before_last, named⟩) inside
    rcases run.kept_or_lost unnamed (Nat.le_refl first) from_first
      (Nat.le_of_lt before_last) with same | none
    · rcases run.kept_or_lost unnamed (Nat.le_succ_of_le from_first) before_last
        (Nat.le_refl last) with still | lost
      · rw [same, ← kept, still, gone]
      · rw [same, ← kept, lost]
    · exact none
  · intro absent
    have prefix_kept : ∀ j, first ≤ j → j ≤ last →
        follow child (state j) path = follow child (state first) path := by
      intro j later
      induction later with
      | refl => exact fun _ => rfl
      | @step j later ih =>
        intro before_last
        have quiet : ¬ Named fits (names j) path :=
          fun named => unnamed ⟨j, later, before_last, named⟩
        have frame := run.step j later before_last
        rw [← ih (Nat.le_of_succ_le before_last)]
        by_cases inside : Inside fits (fresh j) path
        · rw [frame.lost path quiet inside, absent j later before_last inside]
        · exact frame.kept path quiet inside
    exact prefix_kept last ordered (Nat.le_refl last)

end Run

end TreeFrames
