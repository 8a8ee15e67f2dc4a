import AdGuardHome.Configmigrate.Steps
import AdGuardHome.Lib.TreeFrames

namespace AdGuardHome.Configmigrate

open Fallible SortedEntries TreeFrames

/-- One segment of a path into a configuration. -/
inductive Seg where
  | key (name : String)
  | index (i : Nat)

/-- One segment of a pattern of paths, where `each` is any index of an array. -/
inductive Slot where
  | key (name : String)
  | index (i : Nat)
  | each
deriving DecidableEq

abbrev Path := List Seg

abbrev Pattern := List Slot

def Slot.Fits : Slot → Seg → Prop
  | .key name, .key other => name = other
  | .index i, .index j => i = j
  | .each, .index _ => True
  | _, _ => False

def Val.child : Val → Seg → Option Val
  | .obj entries, .key name => YObj.lookup entries name
  | .arr values, .index i => values[i]?
  | _, _ => none

abbrev Val.Frame (names fresh : List Pattern) : Option Val → Option Val → Prop :=
  TreeFrames.Frame Val.child Slot.Fits names fresh

def YObj.follow (obj : YObj) (path : Path) : Option Val :=
  TreeFrames.follow Val.child (some (.obj obj)) path

/-- The section under a key, which a null stands for as a nil map. -/
def YObj.HasSection (obj : YObj) (key : String) (entries : YObj) : Prop :=
  obj.lookup key = some (.obj entries) ∨ obj.lookup key = some .null ∧ entries = none

namespace YObj

variable {obj obj' entries entries' : YObj} {key other : String} {value : Val} {path : Path}

theorem follow_key (obj : YObj) (key : String) (path : Path) :
    obj.follow (.key key :: path) = TreeFrames.follow Val.child (obj.lookup key) path := rfl

theorem set_ok (done : obj.set key value = .ok obj') :
    obj ≠ none ∧ obj' ≠ none ∧
      ∀ other, obj'.lookup other = if other = key then some value else obj.lookup other := by
  cases obj with
  | none => nomatch done
  | some entries =>
    obtain rfl := Except.ok.inj done
    exact ⟨nofun, nofun, fun other => lookup_set entries key other value⟩

theorem lookup_delete (obj : YObj) (key other : String) :
    (obj.delete key).lookup other = if other = key then none else obj.lookup other := by
  cases obj with
  | none => exact (ite_self _).symm
  | some entries => exact lookup_erase entries key other

theorem delete_eq_none : obj.delete key = none ↔ obj = none := by
  cases obj with
  | none => exact Iff.rfl
  | some entries => exact ⟨nofun, nofun⟩

theorem update_eq_none : obj.update key entries = none ↔ obj = none := by
  cases entries with
  | none => exact Iff.rfl
  | some made =>
    cases obj with
    | none => exact Iff.rfl
    | some entries => exact ⟨nofun, nofun⟩

theorem lookup_update_self (found : obj.lookup key ≠ none) (made : entries ≠ none) :
    (obj.update key entries).lookup key = some (.obj entries) := by
  cases obj with
  | none => exact absurd rfl found
  | some fields =>
    cases entries with
    | none => exact absurd rfl made
    | some entries => exact (lookup_set _ _ _ _).trans (if_pos rfl)

theorem lookup_update_of_ne (ne : other ≠ key) :
    (obj.update key entries).lookup other = obj.lookup other := by
  cases entries with
  | none => rfl
  | some entries =>
    cases obj with
    | none => rfl
    | some fields => exact (lookup_set _ _ _ _).trans (if_neg ne)

theorem lookup_updateArr {values : YArr} (found : obj.lookup key ≠ none) (nonempty : values ≠ []) :
    (obj.updateArr key values).lookup key = some (.arr values) := by
  cases obj with
  | none => exact absurd rfl found
  | some fields =>
    cases values with
    | nil => exact absurd rfl nonempty
    | cons first rest => exact (lookup_set _ _ _ _).trans (if_pos rfl)

theorem lookup_updateArr_of_ne {values : YArr} (ne : other ≠ key) :
    (obj.updateArr key values).lookup other = obj.lookup other := by
  cases values with
  | nil => rfl
  | cons first rest =>
    cases obj with
    | none => rfl
    | some fields => exact (lookup_set _ _ _ _).trans (if_neg ne)

theorem updateArr_eq_none {values : YArr} : obj.updateArr key values = none ↔ obj = none := by
  cases values with
  | nil => exact Iff.rfl
  | cons first rest =>
    cases obj with
    | none => exact Iff.rfl
    | some entries => exact ⟨nofun, nofun⟩

namespace HasSection

theorem found (has : obj.HasSection key entries) : obj.lookup key ≠ none := by
  rcases has with here | ⟨null, _⟩
  · rw [here]
    exact nofun
  · rw [null]
    exact nofun

theorem follow (has : obj.HasSection key entries) (seg : Seg) (path : Path) :
    obj.follow (.key key :: seg :: path) = entries.follow (seg :: path) := by
  rw [follow_key]
  rcases has with here | ⟨null, rfl⟩
  · rw [here]
    rfl
  · rw [null]
    cases seg <;> exact (follow_none _).trans (follow_none _).symm

theorem congr (has : obj.HasSection key entries) (same : obj'.lookup key = obj.lookup key) :
    obj'.HasSection key entries := by
  rw [HasSection, same]
  exact has

theorem set (has : obj.HasSection key entries) (done : obj.set other value = .ok obj')
    (ne : key ≠ other) : obj'.HasSection key entries := by
  apply has.congr
  rw [(set_ok done).2.2 key, if_neg ne]

theorem update_of_ne (has : obj.HasSection key entries) (ne : key ≠ other) :
    (obj.update other entries').HasSection key entries :=
  has.congr (lookup_update_of_ne ne)

theorem update (has : obj.HasSection key entries) (nil : entries = none ↔ entries' = none) :
    (obj.update key entries').HasSection key entries' := by
  by_cases empty : entries' = none
  · rw [empty]
    rw [nil.mpr empty] at has
    exact has
  · exact .inl (lookup_update_self has.found empty)

/-- Two sections have been changed. -/
theorem both {made made' : YObj} (has : obj.HasSection key entries)
    (has' : obj.HasSection other made) (nil : entries = none ↔ entries' = none)
    (nil' : made = none ↔ made' = none) (ne : key ≠ other) :
    ((obj.update key entries').update other made').HasSection key entries' ∧
      ((obj.update key entries').update other made').HasSection other made' :=
  ⟨(has.update nil).update_of_ne ne, (has'.update_of_ne ne.symm).update nil'⟩

theorem of_set (done : obj.set key (.obj entries) = .ok obj') : obj'.HasSection key entries := by
  left
  rw [(set_ok done).2.2 key, if_pos rfl]

end HasSection

end YObj

variable {α : Type} {T : GoType α} {obj : YObj} {key : String}

theorem fieldVal_none (read : fieldVal T obj key = .ok none) : obj.lookup key = none := by
  rw [fieldVal] at read
  cases found : obj.lookup key with
  | none => rfl
  | some val =>
    rw [found] at read
    obtain ⟨v, _, same⟩ := map_ok_iff.mp read
    nomatch same

theorem fieldVal_some {v : α} (read : fieldVal T obj key = .ok (some v)) :
    ∃ val, obj.lookup key = some val ∧ readVal T key val = .ok v := by
  rw [fieldVal] at read
  cases found : obj.lookup key with
  | none =>
    rw [found] at read
    nomatch read
  | some val =>
    rw [found] at read
    obtain ⟨w, made, same⟩ := map_ok_iff.mp read
    obtain rfl := Option.some.inj same
    exact ⟨val, rfl, made⟩

theorem readVal_yobj {val : Val} {entries : YObj} (read : readVal .yobj key val = .ok entries) :
    val = .obj entries ∨ val = .null ∧ entries = none := by
  cases val with
  | null => exact .inr ⟨rfl, (Except.ok.inj read).symm⟩
  | obj fields => exact .inl (congrArg _ (Except.ok.inj read))
  | _ => nomatch read

theorem readVal_yarr {val : Val} {values : YArr} (read : readVal .yarr key val = .ok values) :
    val = .arr values ∨ val = .null ∧ values = [] := by
  cases val with
  | null => exact .inr ⟨rfl, (Except.ok.inj read).symm⟩
  | arr fields => exact .inl (congrArg _ (Except.ok.inj read))
  | _ => nomatch read

theorem fieldVal_section {entries : YObj} (read : fieldVal .yobj obj key = .ok (some entries)) :
    obj.HasSection key entries := by
  obtain ⟨val, found, made⟩ := fieldVal_some read
  rcases readVal_yobj made with rfl | ⟨rfl, rfl⟩
  · exact .inl found
  · exact .inr ⟨found, rfl⟩

/-- There is nothing to name in a value without children. -/
theorem nothing_below {names fresh : List Pattern} {v : Val} (leaf : ∀ seg, v.child seg = none)
    (nonempty : names ≠ []) (path : Path) (unnamed : ¬ Named Slot.Fits names path)
    (_inside : Inside Slot.Fits fresh path) :
    TreeFrames.follow Val.child (some v) path = none := by
  cases path with
  | nil => exact absurd (named_nil nonempty) unnamed
  | cons seg path => rw [follow_cons, leaf, follow_none]

theorem frame_at {names fresh : List Pattern} {values values' : YArr}
    (inner : List.Forall₂ (fun v w => Val.Frame names fresh (some v) (some w)) values values')
    (i : Nat) : Val.Frame names fresh values[i]? values'[i]? := by
  induction inner generalizing i with
  | nil =>
    exact (Frame.refl names _).absent fun path _ _ => follow_none path
  | cons head _ ih =>
    cases i with
    | zero => exact head
    | succ i => exact ih i

structure Kept (names fresh : List Pattern) (a b : YObj) : Prop where
  frame : Val.Frame names fresh (some (.obj a)) (some (.obj b))
  nil : a = none ↔ b = none

abbrev under (slot : Slot) (patterns : List Pattern) : List Pattern := patterns.map (slot :: ·)

namespace Kept

variable {names more fresh later : List Pattern} {a b c s s' : YObj} {k : String} {v : Val}

theorem refl (names : List Pattern) (a : YObj) : Kept names [] a a := ⟨.refl names _, Iff.rfl⟩

theorem mono (kept : Kept names fresh a b) (all : ∀ name ∈ names, name ∈ more) :
    Kept more fresh a b := ⟨kept.frame.mono all, kept.nil⟩

theorem trans (first : Kept names fresh a b) (second : Kept names later b c) :
    Kept names (fresh ++ later) a c :=
  ⟨first.frame.trans second.frame, first.nil.trans second.nil⟩

theorem andThen (first : Kept names fresh a b) (second : Kept names [] b c) :
    Kept names fresh a c := by
  have both := first.trans second
  rwa [List.append_nil] at both

/-- Only the value under one key has changed. -/
theorem underKey (nonempty : names ≠ []) (nil : a = none ↔ b = none)
    (others : ∀ j, j ≠ k → b.lookup j = a.lookup j)
    (inner : Val.Frame names fresh (a.lookup k) (b.lookup k)) :
    Kept (under (.key k) names) (under (.key k) fresh) a b := by
  refine ⟨Frame.under nonempty ?_ ?_, nil⟩
  · intro seg outside
    cases seg with
    | key name => exact others name fun same => outside same.symm
    | index i => rfl
  · intro seg inside
    cases seg with
    | key name =>
      obtain rfl : k = name := inside
      exact inner
    | index i => cases inside

theorem setWith (done : a.set k v = .ok b) (nonempty : names ≠ [])
    (inner : Val.Frame names fresh (a.lookup k) (some v)) :
    Kept (under (.key k) names) (under (.key k) fresh) a b := by
  obtain ⟨there, still, looked⟩ := YObj.set_ok done
  apply underKey nonempty ⟨fun none => absurd none there, fun none => absurd none still⟩
  · intro j ne
    rw [looked j, if_neg ne]
  · rw [looked k, if_pos rfl]
    exact inner

theorem set (done : a.set k v = .ok b) : Kept [[.key k]] [] a b :=
  setWith done (List.cons_ne_nil _ _) (.root _ _)

theorem delete (a : YObj) (k : String) : Kept [[.key k]] [] a (a.delete k) := by
  have only : Kept (under (.key k) [[]]) (under (.key k) []) a (a.delete k) := by
    apply underKey (List.cons_ne_nil _ _) YObj.delete_eq_none.symm
    · intro j ne
      rw [YObj.lookup_delete, if_neg ne]
    · exact .root _ _
  exact only

theorem update (has : a.HasSection k s) (inner : Kept names fresh s s') (nonempty : names ≠ []) :
    Kept (under (.key k) names) (under (.key k) fresh) a (a.update k s') := by
  apply underKey nonempty YObj.update_eq_none.symm fun j ne => YObj.lookup_update_of_ne ne
  rcases has with here | ⟨null, rfl⟩
  · have after : (a.update k s').lookup k = some (.obj s') := by
      by_cases empty : s' = none
      · obtain rfl := empty
        obtain rfl := inner.nil.mpr rfl
        exact here
      · exact YObj.lookup_update_self (by rw [here]; exact nofun) empty
    rw [here, after]
    exact inner.frame
  · rw [inner.nil.mp rfl]
    -- Nothing has changed, and there is nothing to lose in a null.
    show Val.Frame names fresh (a.lookup k) (a.lookup k)
    rw [null]
    exact (Frame.refl names _).absent (nothing_below (fun _ => rfl) nonempty)

/-- Two sections have been changed. -/
theorem updateBoth {j : String} {t t' : YObj} (has : a.HasSection k s) (has' : a.HasSection j t)
    (inner : Kept names [] s s') (inner' : Kept more [] t t') (ne : k ≠ j) (some : names ≠ [])
    (some' : more ≠ []) :
    Kept (under (.key k) names ++ under (.key j) more) []
      a ((a.update k s').update j t') := by
  have first := (update has inner some).mono fun name member =>
    List.mem_append_left (under (.key j) more) member
  have middle : (a.update k s').HasSection j t := has'.update_of_ne ne.symm
  have second := (update middle inner' some').mono fun name member =>
    List.mem_append_right (under (.key k) names) member
  exact first.andThen second

/-- Elements of an array have been changed. -/
theorem updateArr {values values' : YArr} (here : a.lookup k = some (.arr values))
    (inner : List.Forall₂ (fun v w => Val.Frame names fresh (some v) (some w)) values values')
    (nonempty : names ≠ []) :
    Kept (under (.key k) (under .each names)) (under (.key k) (under .each fresh)) a
      (a.updateArr k values') := by
  apply underKey (by simpa using nonempty) YObj.updateArr_eq_none.symm
    fun j ne => YObj.lookup_updateArr_of_ne ne
  have after : (a.updateArr k values').lookup k = some (.arr values') := by
    cases inner with
    | nil => exact here
    | cons => exact YObj.lookup_updateArr (by rw [here]; exact nofun) (List.cons_ne_nil _ _)
  rw [here, after]
  apply Frame.under nonempty
  · intro seg outside
    cases seg with
    | key name => rfl
    | index i => exact absurd trivial outside
  · intro seg inside
    cases seg with
    | key name => cases inside
    | index i => exact frame_at inner i

theorem fresh_frame (made : Kept names [] .empty s) (nonempty : names ≠ []) (old : Option Val) :
    Val.Frame names [[]] old (some (.obj s)) :=
  Frame.replaced (fun seg => by cases seg <;> rfl) nonempty made.frame

end Kept

end AdGuardHome.Configmigrate
