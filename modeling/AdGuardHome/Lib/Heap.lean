import Mathlib.Data.List.Basic

/-! Objects behind references: what several places point at is one object, and a write
through one of them is seen by all. -/

universe u

/-- The objects allocated so far. Nothing is ever freed. -/
structure Heap (α : Type u) where
  cells : List α

namespace Heap

variable {α : Type u} [Inhabited α]

abbrev Ref := Nat

def empty : Heap α := ⟨[]⟩

def size (heap : Heap α) : Nat := heap.cells.length

def read (heap : Heap α) (ref : Ref) : α := heap.cells.getD ref default

def alloc (heap : Heap α) (object : α) : Heap α × Ref := (⟨heap.cells ++ [object]⟩, heap.size)

def write (heap : Heap α) (ref : Ref) (object : α) : Heap α := ⟨heap.cells.set ref object⟩

def modify (heap : Heap α) (ref : Ref) (change : α → α) : Heap α :=
  heap.write ref (change (heap.read ref))

theorem read_write {heap : Heap α} {ref : Ref} (known : ref < heap.size) (object : α)
    (other : Ref) :
    (heap.write ref object).read other = if other = ref then object else heap.read other := by
  by_cases same : other = ref
  · subst same
    simp [read, write, List.getD_eq_getElem?_getD, show other < heap.cells.length from known]
  · simp [read, write, List.getD_eq_getElem?_getD, List.getElem?_set_ne (Ne.symm same), same]

theorem read_modify {heap : Heap α} {ref : Ref} (known : ref < heap.size) (change : α → α)
    (other : Ref) :
    (heap.modify ref change).read other =
      if other = ref then change (heap.read ref) else heap.read other :=
  read_write known _ other

theorem read_modify_ne {ref other : Ref} (different : other ≠ ref) (heap : Heap α)
    (change : α → α) : (heap.modify ref change).read other = heap.read other := by
  simp [read, modify, write, List.getD_eq_getElem?_getD,
    List.getElem?_set_ne (Ne.symm different)]

omit [Inhabited α] in
theorem write_unknown {heap : Heap α} {ref : Ref} (unknown : heap.size ≤ ref) (object : α) :
    heap.write ref object = heap := by
  rw [write, List.set_eq_of_length_le unknown]

theorem read_alloc (heap : Heap α) (object : α) (other : Ref) :
    (heap.alloc object).1.read other =
      if other = heap.size then object else heap.read other := by
  simp only [read, alloc, size, List.getD_eq_getElem?_getD]
  rcases Nat.lt_trichotomy other heap.cells.length with old | rfl | beyond
  · simp [List.getElem?_append_left old, Nat.ne_of_lt old]
  · simp
  · have outside : (heap.cells ++ [object])[other]? = none := by
      rw [List.getElem?_eq_none_iff, List.length_append, List.length_singleton]
      omega
    simp [outside, List.getElem?_eq_none_iff.mpr (Nat.le_of_lt beyond), Nat.ne_of_gt beyond]

omit [Inhabited α] in
@[simp] theorem alloc_ref (heap : Heap α) (object : α) : (heap.alloc object).2 = heap.size := rfl

omit [Inhabited α] in

omit [Inhabited α] in
@[simp] theorem size_alloc (heap : Heap α) (object : α) :
    (heap.alloc object).1.size = heap.size + 1 := by
  simp [size, alloc]

omit [Inhabited α] in
@[simp] theorem size_write (heap : Heap α) (ref : Ref) (object : α) :
    (heap.write ref object).size = heap.size := by
  simp [size, write]

@[simp] theorem size_modify (heap : Heap α) (ref : Ref) (change : α → α) :
    (heap.modify ref change).size = heap.size :=
  size_write heap ref _

end Heap
