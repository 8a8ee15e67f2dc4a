import Mathlib.Data.List.Nodup
import Mathlib.Data.Set.Basic

/-! Worklists: a list that grows while a loop goes through it. Every element is a root or a
successor of one before it, so what the loop ends with is what the roots lead to. -/
namespace Worklist

universe u
variable {Node : Type u}

/-- What the roots lead to: the least set with the roots and the successors of its elements. -/
inductive Reached (roots : Set Node) (next : Node → Set Node) : Node → Prop where
  | root {node : Node} (member : node ∈ roots) : Reached roots next node
  | step {node other : Node} (earlier : Reached roots next node) (member : other ∈ next node) :
      Reached roots next other

/-- The successors of every node but one. -/
def without (next : Node → Set Node) (through node : Node) : Set Node :=
  {other | node ≠ through ∧ other ∈ next node}

/-- The roots lead to a node, but not without another one. -/
def OnlyThrough (roots : Set Node) (next : Node → Set Node) (through node : Node) : Prop :=
  Reached roots next node ∧ ¬ Reached roots (without next through) node

/-- Every element is a root or a successor of an element before it. -/
inductive Grounded (roots : Set Node) (next : Node → Set Node) : List Node → Prop where
  | nil : Grounded roots next []
  | snoc {list : List Node} {node : Node} (earlier : Grounded roots next list)
      (found : node ∈ roots ∨ ∃ before ∈ list, node ∈ next before) :
      Grounded roots next (list ++ [node])

variable {roots : Set Node} {next : Node → Set Node} {list : List Node}

theorem Reached.least (set : Set Node) {node : Node} (reached : Reached roots next node)
    (base : ∀ root ∈ roots, root ∈ set) (closed : ∀ node ∈ set, ∀ other ∈ next node, other ∈ set) :
    node ∈ set := by
  induction reached with
  | root member => exact base _ member
  | step _ member ih => exact closed _ ih _ member

namespace Grounded

theorem append (grounded : Grounded roots next list) {more : List Node}
    (found : ∀ node ∈ more, node ∈ roots ∨ ∃ before ∈ list, node ∈ next before) :
    Grounded roots next (list ++ more) := by
  induction more generalizing list with
  | nil => rwa [List.append_nil]
  | cons first rest ih =>
    rw [List.append_cons]
    apply ih (grounded.snoc (found first List.mem_cons_self))
    intro node later
    rcases found node (List.mem_cons_of_mem _ later) with root | ⟨before, member, successor⟩
    · exact .inl root
    · exact .inr ⟨before, List.mem_append_left _ member, successor⟩

theorem mono {more : Node → Set Node} (grounded : Grounded roots next list)
    (within : ∀ node ∈ list, ∀ other ∈ next node, other ∈ more node) :
    Grounded roots more list := by
  induction grounded with
  | nil => exact .nil
  | snoc _ found ih =>
    refine .snoc (ih fun node member => within node (List.mem_append_left _ member)) ?_
    rcases found with root | ⟨before, member, successor⟩
    · exact .inl root
    · exact .inr ⟨before, member, within before (List.mem_append_left _ member) _ successor⟩

theorem reached (grounded : Grounded roots next list) : ∀ node ∈ list, Reached roots next node := by
  induction grounded with
  | nil => exact fun _ member => nomatch member
  | snoc _ found ih =>
    intro node member
    rcases List.mem_append.mp member with before | last
    · exact ih node before
    · rw [List.mem_singleton.mp last]
      rcases found with root | ⟨before, earlier, successor⟩
      · exact .root root
      · exact .step (ih before earlier) successor

theorem avoids {through : Node} (grounded : Grounded roots next list) (absent : through ∉ list) :
    Grounded roots (without next through) list := by
  apply grounded.mono
  intro node member other successor
  exact ⟨fun same => absent (same ▸ member), successor⟩

theorem behind {through node : Node} (grounded : Grounded roots next list) (member : node ∈ list)
    (only : ¬ Reached roots (without next through) node) : [through, node].Sublist list := by
  induction grounded with
  | nil => nomatch member
  | @snoc list last earlier found ih =>
    rcases List.mem_append.mp member with before | here
    · exact (ih before).trans (List.sublist_append_left _ _)
    · obtain rfl := List.mem_singleton.mp here
      have present : through ∈ list := by
        by_contra absent
        have avoiding : Grounded roots (without next through) (list ++ [node]) := by
          refine (earlier.avoids absent).snoc ?_
          rcases found with root | ⟨before, member, successor⟩
          · exact .inl root
          · exact .inr ⟨before, member, fun same => absent (same ▸ member), successor⟩
        exact only (avoiding.reached node (List.mem_append_right _ (List.mem_singleton_self _)))
      exact (List.singleton_sublist.mpr present).append (.refl [node])

end Grounded

/-- A loop that is done with the first elements of the list, each of which has its successors
in the list. -/
structure Search (roots : Set Node) (next : Node → Set Node) (list : List Node) (done : Nat) :
    Prop where
  grounded : Grounded roots next list
  nodup : list.Nodup
  roots : ∀ node ∈ roots, node ∈ list
  next : ∀ node ∈ list.take done, ∀ other ∈ next node, other ∈ list

namespace Search

variable {done : Nat}

/-- The next element is done when its successors that are not in the list yet come to its end. -/
theorem advance {node : Node} {fresh : List Node} (search : Search roots next list done)
    (here : list[done]? = some node) (distinct : fresh.Nodup) (new : ∀ other ∈ fresh, other ∉ list)
    (sound : ∀ other ∈ fresh, other ∈ next node)
    (all : ∀ other ∈ next node, other ∈ list ∨ other ∈ fresh) :
    Search roots next (list ++ fresh) (done + 1) where
  grounded := search.grounded.append fun other member =>
    .inr ⟨node, List.mem_of_getElem? here, sound other member⟩
  nodup := List.Nodup.append search.nodup distinct fun other old member => new other member old
  roots other member := List.mem_append_left _ (search.roots other member)
  next other member successor inside := by
    have inList : done < list.length := (List.getElem?_eq_some_iff.mp here).1
    rw [List.take_append_of_le_length inList, List.take_add_one, here] at member
    rcases List.mem_append.mp member with before | last
    · exact List.mem_append_left _ (search.next other before successor inside)
    · rw [Option.toList_some, List.mem_singleton] at last
      exact List.mem_append.mpr (all successor (last ▸ inside))

theorem next_new {node : Node} (search : Search roots next list done)
    (here : list[done]? = some node) : node ∉ list.take done := by
  intro earlier
  obtain ⟨inList, same⟩ := List.getElem?_eq_some_iff.mp here
  have parts := search.nodup
  rw [← List.take_append_drop done list, List.nodup_append] at parts
  refine parts.2.2 node earlier node ?_ rfl
  rw [List.drop_eq_getElem_cons inList, same]
  exact List.mem_cons_self

theorem mem_iff_reached (search : Search roots next list done) (all : list[done]? = none)
    {node : Node} : node ∈ list ↔ Reached roots next node := by
  constructor
  · exact search.grounded.reached node
  · intro reached
    have whole : list.take done = list := List.take_of_length_le (List.getElem?_eq_none_iff.mp all)
    have closed := search.next
    rw [whole] at closed
    exact reached.least {node | node ∈ list} search.roots closed

end Search

end Worklist
