import Mathlib.Data.List.AList
import Mathlib.Data.List.Perm.Basic

/-! Finite maps with an insertion order nobody may rely on, and the arbitrary
order in which a runtime walks over such a map. -/

universe u v

/-- A finite map from keys to values. -/
abbrev FiniteMap (Key : Type u) (Value : Type v) := AList (fun _ : Key => Value)

namespace FiniteMap

variable {Key : Type u} {Value : Type v} [DecidableEq Key]

def get (table : FiniteMap Key Value) (key : Key) : Option Value := table.lookup key

def set (table : FiniteMap Key Value) (key : Key) (value : Value) : FiniteMap Key Value :=
  AList.insert key value table

def delete (table : FiniteMap Key Value) (key : Key) : FiniteMap Key Value :=
  AList.erase key table

@[simp] theorem get_empty (key : Key) : get (∅ : FiniteMap Key Value) key = none :=
  AList.lookup_empty key

variable (table : FiniteMap Key Value)

theorem get_set (key other : Key) (value : Value) :
    (table.set key value).get other = if other = key then some value else table.get other := by
  by_cases same : other = key
  · subst other
    simp [get, set, AList.lookup_insert]
  · simp [get, set, same, AList.lookup_insert_ne same]

theorem get_delete (key other : Key) :
    (table.delete key).get other = if other = key then none else table.get other := by
  by_cases same : other = key
  · subst other
    simp [get, delete, AList.lookup_erase]
  · simp [get, delete, same, AList.lookup_erase_ne same]

theorem of_get_set {table : FiniteMap Key Value} {key other : Key} {new value : Value}
    (found : (table.set key new).get other = some value) :
    other = key ∧ new = value ∨ other ≠ key ∧ table.get other = some value := by
  rw [get_set] at found
  split at found
  · rename_i same
    exact .inl ⟨same, Option.some.inj found⟩
  · rename_i different
    exact .inr ⟨different, found⟩

theorem of_get_delete {table : FiniteMap Key Value} {key other : Key} {value : Value}
    (found : (table.delete key).get other = some value) :
    other ≠ key ∧ table.get other = some value := by
  rw [get_delete] at found
  split at found
  · cases found
  · rename_i different
    exact ⟨different, found⟩

theorem set_set (key : Key) (first second : Value) :
    (table.set key first).set key second = table.set key second :=
  AList.insert_insert table

@[simp] theorem get_set_self (key : Key) (value : Value) :
    (table.set key value).get key = some value := by simp [get_set]

@[simp] theorem get_delete_self (key : Key) :
    (table.delete key).get key = none := by simp [get_delete]

/-- Writes one value under every key of a list. -/
def setAll (table : FiniteMap Key Value) (keys : List Key) (value : Value) :
    FiniteMap Key Value :=
  keys.foldl (fun table key => table.set key value) table

/-- Deletes every key of a list. -/
def deleteAll (table : FiniteMap Key Value) (keys : List Key) : FiniteMap Key Value :=
  keys.foldl delete table

theorem get_setAll (keys : List Key) (value : Value) (other : Key) :
    (table.setAll keys value).get other = if other ∈ keys then some value else table.get other := by
  induction keys generalizing table with
  | nil => simp [setAll]
  | cons first rest ih =>
    have step := ih (table.set first value)
    rw [setAll, List.foldl_cons, ← setAll, step, get_set]
    by_cases later : other ∈ rest <;> by_cases here : other = first <;> simp [later, here]

theorem get_deleteAll (keys : List Key) (other : Key) :
    (table.deleteAll keys).get other = if other ∈ keys then none else table.get other := by
  induction keys generalizing table with
  | nil => simp [deleteAll]
  | cons first rest ih =>
    have step := ih (table.delete first)
    rw [deleteAll, List.foldl_cons, ← deleteAll, step, get_delete]
    by_cases later : other ∈ rest <;> by_cases here : other = first <;> simp [later, here]

/-- Entries that each change the value of their own key from what it was. -/
theorem get_foldl_set {Entry : Type*} (name : Entry → Key) (f : Option Value → Entry → Value)
    (entries : List Entry) (table : FiniteMap Key Value) (key : Key) :
    (entries.foldl (fun table e => table.set (name e) (f (table.get (name e)) e)) table).get key =
      (entries.filter (name · = key)).foldl (fun value e => some (f value e)) (table.get key) := by
  induction entries generalizing table with
  | nil => rfl
  | cons e rest ih =>
    rw [List.foldl_cons, ih, get_set]
    by_cases same : name e = key
    · rw [List.filter_cons_of_pos (by simpa using same), List.foldl_cons, if_pos same.symm, same]
    · rw [List.filter_cons_of_neg (by simpa using same), if_neg (Ne.symm same)]

theorem mem_keys (key : Key) :
    key ∈ AList.keys table ↔ ∃ value, table.get key = some value := by
  rw [← AList.mem_keys, ← AList.lookup_isSome, Option.isSome_iff_exists]
  rfl

/-- The table of what `f` makes of the entries. -/
def filterMap {Other : Type*} (table : FiniteMap Key Value) (f : Key → Value → Option Other) :
    FiniteMap Key Other :=
  (AList.keys table).foldl (fun made key =>
    match (table.get key).bind (f key) with
    | some value => made.set key value
    | none => made) ∅

theorem get_filterMap {Other : Type*} (f : Key → Value → Option Other)
    (key : Key) : (table.filterMap f).get key = (table.get key).bind (f key) := by
  have walk : ∀ (keys : List Key) (made : FiniteMap Key Other),
      (keys.foldl (fun made key =>
        match (table.get key).bind (f key) with
        | some value => made.set key value
        | none => made) made).get key =
        if key ∈ keys then ((table.get key).bind (f key)).or (made.get key) else made.get key := by
    intro keys
    induction keys with
    | nil => intro made; simp
    | cons first rest ih =>
      intro made
      rw [List.foldl_cons, ih]
      by_cases here : key = first
      · subst here
        cases (table.get key).bind (f key) <;> simp
      · cases (table.get first).bind (f first) <;> simp [here, get_set]
  rw [filterMap, walk, get_empty, Option.or_none]
  split
  next => rfl
  next outside =>
    cases found : table.get key with
    | none => rfl
    | some value =>
      exact absurd (by rw [mem_keys]; exact ⟨value, found⟩) outside

/-- What `f` makes of the values, in the order of the keys. -/
def listing {Other : Type*} (table : FiniteMap Key Value) (f : Value → Option Other) : List Other :=
  (AList.keys table).filterMap fun key => (table.get key).bind f

theorem listing_congr {Other : Type*} {f g : Value → Option Other}
    (same : ∀ key value, table.get key = some value → f value = g value) :
    table.listing f = table.listing g := by
  apply List.filterMap_congr
  intro key _
  cases found : table.get key with
  | none => rfl
  | some value => exact same key value found

private theorem filterMap_other {Other : Type*} (table other : FiniteMap Key Value)
    (f : Value → Option Other) {keys : List Key}
    (same : ∀ key ∈ keys, other.get key = table.get key) :
    (keys.filterMap fun key => (other.get key).bind f) =
      keys.filterMap fun key => (table.get key).bind f := by
  apply List.filterMap_congr
  intro key member
  rw [same key member]

theorem listing_delete {Other : Type*} (key : Key)
    (f : Value → Option Other) :
    (table.listing f).Perm (((table.get key).bind f).toList ++ (table.delete key).listing f) := by
  have keys : AList.keys (table.delete key) = (AList.keys table).erase key :=
    AList.keys_erase key table
  have nodup : (AList.keys table).Nodup := AList.nodupKeys table
  have rest : (table.delete key).listing f =
      ((AList.keys table).erase key).filterMap fun other => (table.get other).bind f := by
    rw [listing, keys]
    apply filterMap_other
    intro other member
    rw [get_delete, if_neg ((nodup.mem_erase_iff).mp member).1]
  rw [rest]
  by_cases present : key ∈ AList.keys table
  · refine ((List.perm_cons_erase present).filterMap _).trans (.of_eq ?_)
    rw [List.filterMap_cons]
    cases (table.get key).bind f <;> rfl
  · have absent : table.get key = none := by
      rw [mem_keys] at present
      cases found : table.get key with
      | none => rfl
      | some value => exact absurd ⟨value, found⟩ present
    rw [absent, List.erase_of_not_mem present]
    exact .refl _

theorem listing_set {Other : Type*} (key : Key) (value : Value)
    (f : Value → Option Other) :
    ((table.set key value).listing f).Perm ((f value).toList ++ (table.delete key).listing f) := by
  have step := listing_delete (table.set key value) key f
  rw [get_set_self, Option.bind_some] at step
  refine step.trans (List.Perm.append_left _ (.of_eq ?_))
  have keys : AList.keys ((table.set key value).delete key) = AList.keys (table.delete key) := by
    change AList.keys (AList.erase key (AList.insert key value table)) =
      AList.keys (AList.erase key table)
    rw [AList.keys_erase, AList.keys_insert, AList.keys_erase, List.erase_cons_head]
  rw [listing, keys, listing]
  apply filterMap_other
  intro other _
  rw [get_delete, get_delete, get_set]
  split <;> rfl

end FiniteMap

/-- The order in which one walk visits the keys of a map: any permutation. -/
structure WalkOrder (Key : Type u) where
  arrange : List Key → List Key
  perm : ∀ keys, (arrange keys).Perm keys

namespace WalkOrder

variable {Key : Type u}

/-- The walk in insertion order. -/
def inserted : WalkOrder Key := ⟨id, fun keys => List.Perm.refl keys⟩

theorem mem_arrange (order : WalkOrder Key) (keys : List Key) (key : Key) :
    key ∈ order.arrange keys ↔ key ∈ keys := (order.perm keys).mem_iff

end WalkOrder
