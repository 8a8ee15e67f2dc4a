import Mathlib.Data.List.Perm.Basic
import Mathlib.Data.Option.Basic
import Mathlib.Data.String.Basic

/-! Finite maps as lists of entries in the order of their keys. -/
namespace SortedEntries

universe u v

variable {Key : Type u} {Value : Type v} [LinearOrder Key]

def set (key : Key) (value : Value) : List (Key × Value) → List (Key × Value)
  | [] => [(key, value)]
  | entry :: rest =>
    if key < entry.1 then (key, value) :: entry :: rest
    else if key = entry.1 then (key, value) :: rest
    else entry :: set key value rest

def erase (key : Key) (entries : List (Key × Value)) : List (Key × Value) :=
  entries.filter fun entry => entry.1 ≠ key

variable {entries : List (Key × Value)} {key : Key} {value : Value}

theorem lookup_cons (first : Key × Value) (rest : List (Key × Value)) (key : Key) :
    (first :: rest).lookup key = if key = first.1 then some first.2 else rest.lookup key := by
  rw [List.lookup_cons]
  by_cases same : key = first.1
  · simp [same]
  · rw [beq_false_of_ne same, if_neg same]

theorem lookup_set (entries : List (Key × Value)) (key other : Key) (value : Value) :
    (set key value entries).lookup other =
      if other = key then some value else entries.lookup other := by
  induction entries with
  | nil => rw [set, lookup_cons]
  | cons first rest ih =>
    rw [set]
    split
    next => rw [lookup_cons]
    next =>
      split
      next here => rw [lookup_cons, lookup_cons, here]; split <;> rfl
      next different =>
        rw [lookup_cons, lookup_cons, ih]
        by_cases same : other = key
        · rw [same, if_neg different, if_pos rfl, if_pos rfl]
        · rw [if_neg same, if_neg same]

theorem lookup_erase (entries : List (Key × Value)) (key other : Key) :
    (erase key entries).lookup other = if other = key then none else entries.lookup other := by
  induction entries with
  | nil => exact (ite_self _).symm
  | cons first rest ih =>
    rw [erase] at ih ⊢
    by_cases here : first.1 = key
    · rw [List.filter_cons_of_neg (by simpa using here), ih, lookup_cons, here]
      split <;> rfl
    · rw [List.filter_cons_of_pos (by simpa using here), lookup_cons, lookup_cons, ih]
      by_cases same : other = key
      · rw [same, if_neg (Ne.symm here), if_pos rfl, if_pos rfl]
      · rw [if_neg same, if_neg same]

end SortedEntries
