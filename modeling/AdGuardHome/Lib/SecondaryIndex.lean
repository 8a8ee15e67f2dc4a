import Mathlib.Data.List.Nodup
import Mathlib.Data.List.Perm.Basic

/-! Lists as tables: entries with distinct keys that are replaced or removed by their
position. -/
namespace KeyedList

universe u v

variable {Entry : Type u} {Key : Type v} {key : Entry → Key}
variable {table : List Entry} {i : Nat} {old new entry : Entry}

theorem perm_eraseIdx (here : table[i]? = some old) : table.Perm (old :: table.eraseIdx i) := by
  obtain ⟨inside, rfl⟩ := List.getElem?_eq_some_iff.mp here
  exact (List.getElem_cons_eraseIdx_perm inside).symm

theorem perm_set (here : table[i]? = some old) :
    (table.set i new).Perm (new :: table.eraseIdx i) := by
  obtain ⟨inside, _⟩ := List.getElem?_eq_some_iff.mp here
  have replaced : (table.set i new)[i]? = some new := List.getElem?_set_self inside
  have moved := perm_eraseIdx replaced
  rwa [List.eraseIdx_set_eq] at moved

theorem map_set (here : table[i]? = some old) (same : key new = key old) :
    (table.set i new).map key = table.map key := by
  obtain ⟨inside, rfl⟩ := List.getElem?_eq_some_iff.mp here
  rw [List.map_set, same]
  refine List.ext_getElem (by simp) ?_
  intro j bound bound'
  rw [List.getElem_set, List.getElem_map]
  split
  next position => subst position; rfl
  next => rfl

theorem mem_eraseIdx (distinct : (table.map key).Nodup) (here : table[i]? = some old)
    (member : entry ∈ table.eraseIdx i) : entry ∈ table ∧ key entry ≠ key old := by
  have nodup := ((perm_eraseIdx here).map key).nodup_iff.mp distinct
  refine ⟨List.mem_of_mem_eraseIdx member, ?_⟩
  intro same
  have listed : key entry ∈ (table.eraseIdx i).map key := List.mem_map_of_mem member
  rw [same] at listed
  exact (List.nodup_cons.mp nodup).1 listed

theorem mem_set (distinct : (table.map key).Nodup) (here : table[i]? = some old)
    (member : entry ∈ table.set i new) : entry = new ∨ (entry ∈ table ∧ key entry ≠ key old) := by
  rcases List.mem_cons.mp ((perm_set here).mem_iff.mp member) with rfl | other
  · exact Or.inl rfl
  · exact Or.inr (mem_eraseIdx distinct here other)

end KeyedList

namespace SecondaryIndex

universe u v w
variable {Key : Type u} {Owner : Type v} {Row : Type w}

/-- The lookup names an owner for a key exactly when that owner's row lists the key. -/
def Tracks (lookup : Key → Option Owner) (rows : Owner → Option Row) (listed : Row → List Key) :
    Prop :=
  ∀ key owner, lookup key = some owner ↔ ∃ row, rows owner = some row ∧ key ∈ listed row

/-- Keys that no owner but the given one holds. -/
def Unclaimed (lookup : Key → Option Owner) (keys : List Key) (owner : Owner) : Prop :=
  ∀ key ∈ keys, ∀ other, lookup key = some other → other = owner

theorem Tracks.empty (listed : Row → List Key) :
    Tracks (fun _ => none) (fun _ : Owner => none) listed := by
  intro key owner
  simp

variable {listed : Row → List Key} {lookup : Key → Option Owner} {rows : Owner → Option Row}

/-- No key is listed by two owners. -/
theorem Tracks.owner_unique (tracks : Tracks lookup rows listed) {key : Key} {first second : Owner}
    {firstRow secondRow : Row} (firstFound : rows first = some firstRow)
    (secondFound : rows second = some secondRow) (firstLists : key ∈ listed firstRow)
    (secondLists : key ∈ listed secondRow) : first = second := by
  have one := (tracks key first).mpr ⟨firstRow, firstFound, firstLists⟩
  have two := (tracks key second).mpr ⟨secondRow, secondFound, secondLists⟩
  exact Option.some.inj (one.symm.trans two)

variable [DecidableEq Key] [DecidableEq Owner]

/-- The lookup after writing one value under a list of keys. -/
def overwrite (lookup : Key → Option Owner) (keys : List Key) (value : Option Owner) :
    Key → Option Owner :=
  fun key => if key ∈ keys then value else lookup key

omit [DecidableEq Owner] in
/-- Writing key after key into a table amounts to one overwrite of its lookup. -/
theorem get_foldl {Table : Type*} {get : Table → Key → Option Owner} {write : Table → Key → Table}
    {value : Option Owner}
    (written : ∀ table key other,
      get (write table key) other = if other = key then value else get table other)
    (table : Table) (keys : List Key) :
    get (keys.foldl write table) = overwrite (get table) keys value := by
  funext key
  induction keys generalizing table with
  | nil => simp [overwrite]
  | cons first rest ih =>
    rw [List.foldl_cons, ih (write table first)]
    simp only [overwrite, written, List.mem_cons]
    by_cases later : key ∈ rest <;> by_cases here : key = first <;> simp [later, here]

def withRow (rows : Owner → Option Row) (owner : Owner) (row : Option Row) :
    Owner → Option Row :=
  fun other => if other = owner then row else rows other

/-- Adding a row for a fresh owner and assigning its unclaimed keys. -/
theorem Tracks.insert (tracks : Tracks lookup rows listed) {owner : Owner} {row : Row}
    (fresh : rows owner = none) (unclaimed : Unclaimed lookup (listed row) owner) :
    Tracks (overwrite lookup (listed row) (some owner)) (withRow rows owner (some row)) listed := by
  have unowned : ∀ key, lookup key ≠ some owner := by
    intro key found
    obtain ⟨old, present, _⟩ := (tracks key owner).mp found
    simp [fresh] at present
  intro key other
  by_cases same : other = owner
  · subst same
    by_cases mine : key ∈ listed row
    · simp [overwrite, withRow, mine]
    · simp [overwrite, withRow, mine, unowned]
  · by_cases mine : key ∈ listed row
    · have nobody : ¬ ∃ old, rows other = some old ∧ key ∈ listed old := by
        intro holds
        exact same (unclaimed key mine other ((tracks key other).mpr holds))
      simpa [overwrite, withRow, mine, same, Ne.symm same] using nobody
    · simpa [overwrite, withRow, mine, same] using tracks key other

/-- Dropping a row and every key it lists. -/
theorem Tracks.erase (tracks : Tracks lookup rows listed) {owner : Owner} {row : Row}
    (found : rows owner = some row) :
    Tracks (overwrite lookup (listed row) none) (withRow rows owner none) listed := by
  intro key other
  by_cases same : other = owner
  · subst same
    by_cases mine : key ∈ listed row
    · simp [overwrite, withRow, mine]
    · have notMine : lookup key ≠ some other := by
        intro lookupFound
        obtain ⟨old, present, lists⟩ := (tracks key other).mp lookupFound
        rw [found, Option.some.injEq] at present
        exact mine (present ▸ lists)
      simp [overwrite, withRow, mine, notMine]
  · by_cases mine : key ∈ listed row
    · have nobody : ¬ ∃ old, rows other = some old ∧ key ∈ listed old := by
        rintro ⟨old, present, lists⟩
        exact same (tracks.owner_unique present found lists mine)
      simpa [overwrite, withRow, mine, same] using nobody
    · simpa [overwrite, withRow, mine, same] using tracks key other

omit [DecidableEq Owner] in
theorem Unclaimed.overwrite_none {keys dropped : List Key} {owner : Owner}
    (unclaimed : Unclaimed lookup keys owner) :
    Unclaimed (overwrite lookup dropped none) keys owner := by
  intro key member other found
  apply unclaimed key member other
  by_cases gone : key ∈ dropped
  · simp [overwrite, gone] at found
  · simpa [overwrite, gone] using found

end SecondaryIndex
