import AdGuardHome.Lib.BinarySearch
import AdGuardHome.Lib.FiniteMap
import Std.Data.TreeMap

/-! Package `aghalg`: the map that keeps its keys in the order of a comparison
function. -/
namespace AdGuardHome.Aghalg

open Std

universe u v
variable {Key : Type u} {Value : Type v} [DecidableEq Key] {cmp : Key → Key → Ordering}

/-- `SortedMap`: the values by key, and the keys of those values in strict order. -/
structure SortedMap (Key : Type u) (Value : Type v) [DecidableEq Key]
    (cmp : Key → Key → Ordering) where
  vals : FiniteMap Key Value
  keys : List Key
  sorted : keys.Pairwise (fun a b => cmp a b = .lt)
  domain : ∀ key, key ∈ keys ↔ ∃ value, vals.get key = some value

/-- `slices.BinarySearchFunc(keys, key, cmp)`: where the key is or belongs, and
whether it is there. -/
def binarySearchFunc (cmp : Key → Key → Ordering) (keys : List Key) (key : Key) : Nat × Bool :=
  let i := BinarySearch.lowerBound (fun other => cmp other key == .lt) keys
  (i, keys[i]?.any (fun other => cmp other key == .eq))

section Search
variable [TransCmp cmp] [LawfulEqCmp cmp] {keys : List Key}

omit [DecidableEq Key] [LawfulEqCmp cmp] in
private theorem partitioned_of_sorted (sorted : keys.Pairwise (fun a b => cmp a b = .lt))
    (key : Key) :
    BinarySearch.Partitioned (fun other => cmp other key == .lt) keys := by
  intro i j order late
  have bound : j < keys.length := by
    by_contra outside
    simp [List.getElem?_eq_none_iff.mpr (Nat.le_of_not_lt outside)] at late
  have before : cmp keys[j] key = .lt := by simpa [List.getElem?_eq_getElem bound] using late
  rw [List.getElem?_eq_getElem (by omega)]
  simp only [Option.any_some, beq_iff_eq]
  rcases Nat.lt_or_eq_of_le order with earlier | rfl
  · exact TransCmp.lt_trans (List.pairwise_iff_getElem.mp sorted i j (by omega) bound earlier) before
  · exact before

omit [DecidableEq Key] [TransCmp cmp] in
private theorem not_lt_self (key : Key) : cmp key key ≠ .lt := by
  have equal : cmp key key = .eq := ReflCmp.compare_self
  simp [equal]

omit [DecidableEq Key] [LawfulEqCmp cmp] in
theorem take_search_lt (sorted : keys.Pairwise (fun a b => cmp a b = .lt)) (key other : Key)
    (member : other ∈ keys.take (binarySearchFunc cmp keys key).1) :
    cmp other key = .lt := by
  have front := (BinarySearch.mem_take_lowerBound _ keys (partitioned_of_sorted sorted key)).1
  simpa using front other member

omit [DecidableEq Key] [LawfulEqCmp cmp] in
theorem drop_search_ge (sorted : keys.Pairwise (fun a b => cmp a b = .lt)) (key other : Key)
    (member : other ∈ keys.drop (binarySearchFunc cmp keys key).1) :
    cmp other key ≠ .lt := by
  have back := (BinarySearch.mem_take_lowerBound _ keys (partitioned_of_sorted sorted key)).2
  simpa using back other member

omit [DecidableEq Key] in
theorem drop_search_of_mem (sorted : keys.Pairwise (fun a b => cmp a b = .lt)) {key : Key}
    (member : key ∈ keys) :
    ∃ rest, keys.drop (binarySearchFunc cmp keys key).1 = key :: rest := by
  have inDrop : key ∈ keys.drop (binarySearchFunc cmp keys key).1 := by
    have split := List.take_append_drop (binarySearchFunc cmp keys key).1 keys
    rw [← split] at member
    rcases List.mem_append.mp member with front | back
    · exact False.elim (not_lt_self key (take_search_lt sorted key key front))
    · exact back
  obtain ⟨first, rest, shape⟩ := List.exists_cons_of_ne_nil (List.ne_nil_of_mem inDrop)
  refine ⟨rest, ?_⟩
  rw [shape] at inDrop
  rcases List.mem_cons.mp inDrop with same | later
  · rw [shape, same]
  · have order : (first :: rest).Pairwise (fun a b => cmp a b = .lt) :=
      shape ▸ sorted.sublist (List.drop_sublist _ keys)
    have smaller := (List.pairwise_cons.mp order).1 key later
    exact False.elim (drop_search_ge sorted key first (by rw [shape]; simp) smaller)

end Search

namespace SortedMap

def get (table : SortedMap Key Value cmp) (key : Key) : Option Value := table.vals.get key

/-- What `Range` hands to its callback, in this order. -/
def entries (table : SortedMap Key Value cmp) : List (Key × Value) :=
  table.keys.filterMap fun key => (table.vals.get key).map fun value => (key, value)

/-- `NewSortedMapFunc`. -/
def new : SortedMap Key Value cmp := ⟨∅, [], .nil, by simp⟩

variable [TransCmp cmp] [LawfulEqCmp cmp]

/-- The keys after `Set`: the key is written over itself or inserted in place. -/
private def setKeys (cmp : Key → Key → Ordering) (keys : List Key) (key : Key) : List Key :=
  let (i, has) := binarySearchFunc cmp keys key
  if has then keys.set i key else keys.take i ++ key :: keys.drop i

variable {keys : List Key}

omit [DecidableEq Key] in
private theorem setKeys_of_mem (sorted : keys.Pairwise (fun a b => cmp a b = .lt)) {key : Key}
    (member : key ∈ keys) :
    setKeys cmp keys key = keys := by
  obtain ⟨rest, shape⟩ := drop_search_of_mem sorted member
  have atIndex : keys[(binarySearchFunc cmp keys key).1]? = some key := by
    rw [← Nat.add_zero (binarySearchFunc cmp keys key).1, ← List.getElem?_drop, shape]
    rfl
  obtain ⟨bound, found⟩ := List.getElem?_eq_some_iff.mp atIndex
  have has : (binarySearchFunc cmp keys key).2 = true := by
    have value : keys[(binarySearchFunc cmp keys key).1]?.any
        (fun other => cmp other key == .eq) = true := by
      rw [atIndex]
      simp [ReflCmp.compare_self]
    exact value
  simp only [setKeys, has, ↓reduceIte]
  have unchanged := List.set_getElem_self bound
  rwa [found] at unchanged

omit [DecidableEq Key] [TransCmp cmp] in
private theorem setKeys_of_not_mem {key : Key} (missing : key ∉ keys) :
    setKeys cmp keys key = keys.take (binarySearchFunc cmp keys key).1 ++
      key :: keys.drop (binarySearchFunc cmp keys key).1 := by
  have absent : (binarySearchFunc cmp keys key).2 = false := by
    have value : keys[(binarySearchFunc cmp keys key).1]?.any
        (fun other => cmp other key == .eq) = false := by
      cases found : keys[(binarySearchFunc cmp keys key).1]? with
      | none => rfl
      | some other =>
        have member := List.mem_of_getElem? found
        have different : other ≠ key := fun same => missing (same ▸ member)
        simpa [LawfulEqCmp.compare_eq_iff_eq] using different
    exact value
  simp [setKeys, absent]

private theorem mem_setKeys (sorted : keys.Pairwise (fun a b => cmp a b = .lt)) (key other : Key) :
    other ∈ setKeys cmp keys key ↔ other = key ∨ other ∈ keys := by
  by_cases member : key ∈ keys
  · rw [setKeys_of_mem sorted member]
    constructor
    · exact Or.inr
    · rintro (rfl | present)
      · exact member
      · exact present
  · rw [setKeys_of_not_mem member]
    have split := List.take_append_drop (binarySearchFunc cmp keys key).1 keys
    constructor
    · intro present
      rcases List.mem_append.mp present with front | back
      · exact .inr (List.mem_of_mem_take front)
      · rcases List.mem_cons.mp back with same | later
        · exact .inl same
        · exact .inr (List.mem_of_mem_drop later)
    · rintro (rfl | present)
      · simp
      · rw [← split] at present
        rcases List.mem_append.mp present with front | back
        · exact List.mem_append_left _ front
        · exact List.mem_append_right _ (List.mem_cons_of_mem _ back)

private theorem sorted_setKeys (sorted : keys.Pairwise (fun a b => cmp a b = .lt)) (key : Key) :
    (setKeys cmp keys key).Pairwise (fun a b => cmp a b = .lt) := by
  by_cases member : key ∈ keys
  · rwa [setKeys_of_mem sorted member]
  · rw [setKeys_of_not_mem member]
    have later : ∀ other ∈ keys.drop (binarySearchFunc cmp keys key).1, cmp key other = .lt := by
      intro other present
      have notSmaller := drop_search_ge sorted key other present
      have different : cmp other key ≠ .eq := by
        rw [ne_eq, LawfulEqCmp.compare_eq_iff_eq]
        exact fun same => member (same ▸ List.mem_of_mem_drop present)
      have mirrored : cmp key other = (cmp other key).swap := OrientedCmp.eq_swap
      cases result : cmp other key <;> simp_all
    refine List.pairwise_append.mpr ⟨sorted.sublist (List.take_sublist _ _),
      List.pairwise_cons.mpr ⟨later, sorted.sublist (List.drop_sublist _ _)⟩, ?_⟩
    intro first early second late
    have smaller := take_search_lt sorted key first early
    rcases List.mem_cons.mp late with rfl | behind
    · exact smaller
    · exact TransCmp.lt_trans smaller (later second behind)

/-- `SortedMap.Set`. -/
def set (table : SortedMap Key Value cmp) (key : Key) (value : Value) :
    SortedMap Key Value cmp where
  vals := table.vals.set key value
  keys := setKeys cmp table.keys key
  sorted := sorted_setKeys table.sorted key
  domain := by
    intro other
    rw [mem_setKeys table.sorted, FiniteMap.get_set]
    by_cases same : other = key
    · simp [same]
    · simpa [same] using table.domain other

private theorem erase_at_search (sorted : keys.Pairwise (fun a b => cmp a b = .lt)) {key : Key}
    (member : key ∈ keys) :
    keys.eraseIdx (binarySearchFunc cmp keys key).1 = keys.erase key := by
  obtain ⟨rest, shape⟩ := drop_search_of_mem sorted member
  have notFront : key ∉ keys.take (binarySearchFunc cmp keys key).1 := by
    intro front
    exact not_lt_self key (take_search_lt sorted key key front)
  have split := List.take_append_drop (binarySearchFunc cmp keys key).1 keys
  rw [List.eraseIdx_eq_take_drop_succ, ← List.drop_drop, shape]
  conv_rhs => rw [← split, shape, List.erase_append_right _ notFront]
  simp

/-- `SortedMap.Del`: without the key it does nothing. -/
def del (table : SortedMap Key Value cmp) (key : Key) : SortedMap Key Value cmp :=
  if has : (table.vals.get key).isSome then
    { vals := table.vals.delete key
      keys := table.keys.eraseIdx (binarySearchFunc cmp table.keys key).1
      sorted := table.sorted.sublist (List.eraseIdx_sublist _ _)
      domain := by
        have member := (table.domain key).mpr (Option.isSome_iff_exists.mp has)
        have nodup : table.keys.Nodup := table.sorted.imp (by
          intro a b smaller same
          subst same
          exact not_lt_self a smaller)
        intro other
        rw [erase_at_search table.sorted member, nodup.mem_erase_iff, FiniteMap.get_delete]
        by_cases same : other = key
        · simp [same]
        · simpa [same] using table.domain other }
  else table

theorem get_set (table : SortedMap Key Value cmp) (key other : Key) (value : Value) :
    (table.set key value).get other = if other = key then some value else table.get other :=
  FiniteMap.get_set table.vals key other value

theorem get_del (table : SortedMap Key Value cmp) (key other : Key) :
    (table.del key).get other = if other = key then none else table.get other := by
  unfold del
  split
  · exact FiniteMap.get_delete table.vals key other
  · rename_i absent
    by_cases same : other = key
    · subst other
      simpa [get] using absent
    · simp [same]

omit [TransCmp cmp] [LawfulEqCmp cmp] in

omit [TransCmp cmp] [LawfulEqCmp cmp] in
theorem mem_entries (table : SortedMap Key Value cmp) (key : Key) (value : Value) :
    (key, value) ∈ table.entries ↔ table.get key = some value := by
  simp only [entries, List.mem_filterMap, Option.map_eq_some_iff, Prod.mk.injEq]
  constructor
  · rintro ⟨other, _, found, lookup, rfl, rfl⟩
    exact lookup
  · intro lookup
    exact ⟨key, (table.domain key).mpr ⟨value, lookup⟩, value, lookup, rfl, rfl⟩

omit [TransCmp cmp] [LawfulEqCmp cmp] in
theorem entries_sorted (table : SortedMap Key Value cmp) :
    table.entries.Pairwise fun first second => cmp first.1 second.1 = .lt := by
  unfold entries
  rw [List.pairwise_filterMap]
  apply table.sorted.imp
  intro first second smaller entry found other foundAlso
  obtain ⟨_, _, rfl⟩ := Option.map_eq_some_iff.mp found
  obtain ⟨_, _, rfl⟩ := Option.map_eq_some_iff.mp foundAlso
  exact smaller

omit [TransCmp cmp] [LawfulEqCmp cmp] in
/-- Where a walk stops first, every other such entry comes later. -/
theorem find_entries_least (table : SortedMap Key Value cmp) {wanted : Key × Value → Bool}
    {entry other : Key × Value} (found : table.entries.find? wanted = some entry)
    (member : other ∈ table.entries) (meets : wanted other = true) :
    other = entry ∨ cmp entry.1 other.1 = .lt := by
  obtain ⟨_, front, back, shape, early⟩ := List.find?_eq_some_iff_append.mp found
  have sorted := table.entries_sorted
  rw [shape] at member sorted
  rcases List.mem_append.mp member with before | after
  · have fails := early other before
    simp [meets] at fails
  · rcases List.mem_cons.mp after with rfl | later
    · exact .inl rfl
    · exact .inr ((List.pairwise_cons.mp (List.pairwise_append.mp sorted).2.1).1 other later)

omit [TransCmp cmp] [LawfulEqCmp cmp] in
theorem find_entries (table : SortedMap Key Value cmp) (key : Key) :
    (table.entries.find? fun entry => entry.1 = key).map Prod.snd = table.get key := by
  cases found : table.entries.find? fun entry => entry.1 = key with
  | none =>
    cases lookup : table.get key with
    | none => rfl
    | some value =>
      have absent := List.find?_eq_none.mp found _ ((table.mem_entries key value).mpr lookup)
      simp at absent
  | some entry =>
    obtain ⟨other, value⟩ := entry
    have same : other = key := by simpa using List.find?_some found
    subst same
    simpa using ((table.mem_entries other value).mp (List.mem_of_find?_eq_some found)).symm

end SortedMap

end AdGuardHome.Aghalg
