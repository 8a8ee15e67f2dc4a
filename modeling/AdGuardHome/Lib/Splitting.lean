import Mathlib.Data.List.Basic
import Mathlib.Data.Nat.Basic

/-! Texts of lines that each end with a separator, and the scans that find where the line
around a place starts and ends. -/
namespace Lines

universe u
variable {α : Type u}

/-- The text of lines that are listed from the last one on. -/
def text (separator : α) : List (List α) → List α
  | [] => []
  | line :: before => text separator before ++ line ++ [separator]

/-- The length of such a text, from the lengths of its lines. -/
def textLength : List Nat → Nat
  | [] => 0
  | length :: before => textLength before + length + 1

theorem length_text (separator : α) (lines : List (List α)) :
    (text separator lines).length = textLength (lines.map List.length) := by
  induction lines with
  | nil => rfl
  | cons line before ih =>
    rw [text, List.length_append, List.length_append, ih]
    rfl

theorem text_getElem?_last (separator : α) {lines : List (List α)} (some_ : lines ≠ []) :
    (text separator lines)[(text separator lines).length - 1]? = some separator := by
  cases lines with
  | nil => exact absurd rfl some_
  | cons line before => simp [text]

/-- The elements from one place up to another. -/
def slice (xs : List α) (start stop : Nat) : List α := (xs.drop start).take (stop - start)

variable [DecidableEq α]

/-- The scan to the left, from just before a place: where the line at the place starts. -/
def startOf (separator : α) (xs : List α) : Nat → Nat
  | 0 => 0
  | i + 1 => if xs[i]? = some separator then i + 1 else startOf separator xs i

/-- The scan stops after the last separator, or at the start. -/
theorem startOf_eq {separator : α} {xs : List α} {start place : Nat} (before : start ≤ place)
    (clear : ∀ i, start ≤ i → i < place → xs[i]? ≠ some separator)
    (edge : start = 0 ∨ xs[start - 1]? = some separator) : startOf separator xs place = start := by
  induction place with
  | zero => exact (Nat.le_zero.mp before).symm
  | succ i ih =>
    rw [startOf]
    by_cases here : start = i + 1
    · have found : xs[i]? = some separator := by
        rcases edge with zero | found
        · omega
        · rwa [here] at found
      rw [if_pos found, here]
    · rw [if_neg (clear i (by omega) (Nat.lt_succ_self i))]
      exact ih (by omega) fun j low high => clear j low (by omega)

/-- The scan to the right: the first separator from a place on. -/
def endOf (separator : α) (xs : List α) (place : Nat) : Option Nat :=
  ((xs.drop place).findIdx? (· = separator)).map (place + ·)

theorem endOf_eq_some {separator : α} {xs : List α} {place stop : Nat} (after : place ≤ stop)
    (clear : ∀ i, place ≤ i → i < stop → xs[i]? ≠ some separator)
    (found : xs[stop]? = some separator) : endOf separator xs place = some stop := by
  have offset : place + (stop - place) = stop := Nat.add_sub_cancel' after
  have index : (xs.drop place).findIdx? (· = separator) = some (stop - place) := by
    rw [List.findIdx?_eq_some_iff_getElem]
    have inside : stop < xs.length := (List.getElem?_eq_some_iff.mp found).1
    refine ⟨by rw [List.length_drop]; omega, ?_, ?_⟩
    · rw [List.getElem_drop]
      have value := (List.getElem?_eq_some_iff.mp found).2
      simp only [offset, value, decide_true]
    · intro j less
      rw [List.getElem_drop]
      have other := clear (place + j) (by omega) (by omega)
      rw [List.getElem?_eq_getElem (by omega)] at other
      simpa using other
  rw [endOf, index, Option.map_some, offset]

theorem endOf_eq_none {separator : α} {xs : List α} {place : Nat}
    (clear : ∀ i, place ≤ i → xs[i]? ≠ some separator) : endOf separator xs place = none := by
  rw [endOf, Option.map_eq_none_iff, List.findIdx?_eq_none_iff]
  intro x member
  obtain ⟨j, inside, rfl⟩ := List.getElem_of_mem member
  have other := clear (place + j) (Nat.le_add_right _ _)
  rw [List.length_drop] at inside
  rw [List.getElem?_eq_getElem (by omega)] at other
  rw [List.getElem_drop]
  simpa using other

end Lines

namespace Splitting

universe u

variable {α : Type u} {p : α → Bool}

theorem mem_splitOnP {l part : List α} (member : part ∈ l.splitOnP p) {a : α}
    (present : a ∈ part) : p a = false ∧ a ∈ l := by
  induction l generalizing part with
  | nil =>
    rw [List.splitOnP_nil, List.mem_singleton] at member
    rw [member] at present
    cases present
  | cons head rest ih =>
    rw [List.splitOnP_cons_eq_if_modifyHead] at member
    by_cases separates : p head = true
    · rw [if_pos separates, List.mem_cons] at member
      rcases member with rfl | later
      · cases present
      · exact ⟨(ih later present).1, List.mem_cons_of_mem _ (ih later present).2⟩
    · rw [if_neg separates] at member
      obtain ⟨first, others, parts⟩ := List.exists_cons_of_ne_nil (List.splitOnP_ne_nil p rest)
      rw [parts] at ih member
      rw [List.modifyHead_cons, List.mem_cons] at member
      rcases member with rfl | later
      · rw [List.mem_cons] at present
        rcases present with rfl | inFirst
        · exact ⟨by simpa using separates, List.mem_cons_self⟩
        · have old := ih List.mem_cons_self inFirst
          exact ⟨old.1, List.mem_cons_of_mem _ old.2⟩
      · have old := ih (List.mem_cons_of_mem _ later) present
        exact ⟨old.1, List.mem_cons_of_mem _ old.2⟩

theorem mem_intercalate {sep a : α} {parts : List (List α)}
    (member : a ∈ [sep].intercalate parts) : a = sep ∨ ∃ part ∈ parts, a ∈ part := by
  induction parts with
  | nil => cases member
  | cons part rest ih =>
    cases rest with
    | nil =>
      rw [List.intercalate_singleton] at member
      exact .inr ⟨part, List.mem_cons_self, member⟩
    | cons next later =>
      simp only [List.intercalate_cons_cons, List.mem_append, List.mem_singleton] at member
      rcases member with (inPart | isSep) | beyond
      · exact .inr ⟨part, List.mem_cons_self, inPart⟩
      · exact .inl isSep
      · rcases ih beyond with isSep | ⟨other, present, inOther⟩
        · exact .inl isSep
        · exact .inr ⟨other, List.mem_cons_of_mem _ present, inOther⟩

theorem splitOnP_intercalate {sep : α} (separates : p sep = true) {parts : List (List α)}
    (some : parts ≠ []) (clean : ∀ part ∈ parts, ∀ a ∈ part, p a = false) :
    ([sep].intercalate parts).splitOnP p = parts := by
  induction parts with
  | nil => exact absurd rfl some
  | cons part rest ih =>
    have first := clean part List.mem_cons_self
    cases rest with
    | nil => rw [List.intercalate_singleton, List.splitOnP_eq_singleton first]
    | cons next later =>
      have beyond := ih (by simp) fun other present =>
        clean other (List.mem_cons_of_mem _ present)
      simp only [List.intercalate_cons_cons, List.append_assoc, List.singleton_append]
      rw [List.splitOnP_append_cons_of_forall_mem first sep separates, beyond]

theorem getLast?_intercalate {sep a : α} {parts : List (List α)}
    (nonempty : ∀ part ∈ parts, part ≠ []) (last : ([sep].intercalate parts).getLast? = some a) :
    ∃ part ∈ parts, a ∈ part := by
  induction parts with
  | nil => cases last
  | cons part rest ih =>
    cases rest with
    | nil =>
      rw [List.intercalate_singleton] at last
      exact ⟨part, List.mem_cons_self, List.mem_of_getLast? last⟩
    | cons next later =>
      have some : [sep].intercalate (next :: later) ≠ [] := by
        intro empty
        have inNext := nonempty next (by simp)
        cases later with
        | nil => exact inNext (by simpa using empty)
        | cons _ _ => simp [List.intercalate_cons_cons] at empty
      rw [List.intercalate_cons_cons, List.getLast?_append_of_ne_nil _ some] at last
      obtain ⟨other, present, inOther⟩ := ih
        (fun other present => nonempty other (List.mem_cons_of_mem _ present)) last
      exact ⟨other, List.mem_cons_of_mem _ present, inOther⟩

end Splitting
