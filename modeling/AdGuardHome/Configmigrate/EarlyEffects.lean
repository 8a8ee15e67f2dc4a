import AdGuardHome.Configmigrate.Footprint

namespace AdGuardHome.Configmigrate

open Fallible SortedEntries TreeFrames

/-- A step has left alone what it does not name, and has moved what it moves. -/
structure Footprint.Describes (f : Footprint) (a b : YObj) : Prop where
  kept : Kept f.names (f.freshIn a) a b
  lands : ∀ mv ∈ f.moves, mv.Lands a b

structure Versioned (a conf : YObj) : Prop where
  kept : Kept [schemaVersion] [] a conf
  same : ∀ key, key ≠ "schema_version" → conf.lookup key = a.lookup key

theorem versioned {a conf : YObj} {v : Val} (done : a.set "schema_version" v = .ok conf) :
    Versioned a conf where
  kept := .set done
  same key other := by rw [(YObj.set_ok done).2.2 key, if_neg other]

def freeKeys : List String → Bool
  | [] => false
  | key :: _ => key ≠ "schema_version"

def Pattern.free : Pattern → Bool
  | .key key :: _ => key ≠ "schema_version"
  | _ => false

def MovedVal.free (mv : MovedVal) : Bool :=
  mv.src.free && mv.dst.free && mv.needs.all freeKeys && mv.keptWith.all freeKeys

/-- The version is among the names and nothing else of the footprint depends on it. -/
def Footprint.free (f : Footprint) : Bool :=
  decide (schemaVersion ∈ f.names) && f.moves.all MovedVal.free &&
    f.fresh.all fun made => made.whenAny.all freeKeys

namespace Versioned

variable {a conf b : YObj}

theorem follow_keys (v : Versioned a conf) {keys : List String} (free : freeKeys keys = true) :
    conf.follow (keyPath keys) = a.follow (keyPath keys) := by
  cases keys with
  | nil => nomatch free
  | cons key rest =>
    show conf.follow (.key key :: _) = a.follow (.key key :: _)
    rw [YObj.follow_key, YObj.follow_key, v.same key (of_decide_eq_true free)]

theorem follow_path (v : Versioned a conf) {pattern : Pattern} (free : pattern.free = true)
    (i : Nat) : conf.follow (pattern.path i) = a.follow (pattern.path i) := by
  cases pattern with
  | nil => nomatch free
  | cons slot rest =>
    cases slot with
    | key key =>
      show conf.follow (.key key :: _) = a.follow (.key key :: _)
      rw [YObj.follow_key, YObj.follow_key, v.same key (of_decide_eq_true free)]
    | index j => nomatch free
    | each => nomatch free

theorem present_iff (v : Versioned a conf) {paths : List (List String)}
    (free : paths.all freeKeys = true) :
    MovedVal.present conf paths ↔ MovedVal.present a paths := by
  apply forall₂_congr
  intro keys member
  rw [v.follow_keys (List.all_eq_true.mp free keys member)]

theorem made_eq (v : Versioned a conf) {made : FreshMap}
    (free : made.whenAny.all freeKeys = true) : made.made conf = made.made a := by
  have same : ∀ keys ∈ made.whenAny,
      (conf.follow (keyPath keys)).isSome = (a.follow (keyPath keys)).isSome := by
    intro keys member
    rw [v.follow_keys (List.all_eq_true.mp free keys member)]
  rw [FreshMap.made, FreshMap.made, Bool.eq_iff_iff, Bool.or_eq_true, Bool.or_eq_true,
    List.any_eq_true, List.any_eq_true]
  refine or_congr Iff.rfl (exists_congr fun keys => and_congr_right fun member => ?_)
  rw [same keys member]

theorem lands (v : Versioned a conf) {mv : MovedVal} (free : mv.free = true)
    (lands : mv.Lands conf b) : mv.Lands a b := by
  simp only [MovedVal.free, Bool.and_eq_true] at free
  obtain ⟨⟨⟨src, dst⟩, needs⟩, keptWith⟩ := free
  have moves : ∀ i w, mv.Moves a i w → mv.Moves conf i w := by
    intro i w ⟨here, takes, there⟩
    exact ⟨(v.follow_path src i).trans here, takes, (v.present_iff needs).mpr there⟩
  refine ⟨?_, ?_, fun i w moved => lands.gone i w (moves i w moved)⟩
  · intro i w moved kept
    exact lands.kept i w (moves i w moved) ((v.present_iff keptWith).mpr kept)
  · intro i w moved dropped
    rw [← v.follow_path dst i]
    exact lands.dropped i w (moves i w moved) (mt (v.present_iff keptWith).mp dropped)

theorem describes (v : Versioned a conf) {f : Footprint} (free : f.free = true)
    (rest : f.Describes conf b) : f.Describes a b := by
  simp only [Footprint.free, Bool.and_eq_true, decide_eq_true_eq] at free
  obtain ⟨⟨named, moves⟩, fresh⟩ := free
  have same : f.freshIn conf = f.freshIn a := by
    rw [Footprint.freshIn, Footprint.freshIn]
    cases made : f.fresh with
    | none => rfl
    | some made' =>
      rw [made] at fresh
      rw [Option.filter_some, Option.filter_some, v.made_eq fresh]
  constructor
  · rw [← same]
    have first : Kept f.names [] a conf := v.kept.mono fun name member => by
      rw [List.mem_singleton.mp member]
      exact named
    exact first.trans rest.kept
  · intro mv member
    exact v.lands (List.all_eq_true.mp moves mv member) (rest.lands mv member)

end Versioned

variable {a b : YObj} {f : Footprint} {key : String} {moves : List (Kind × String × String)}

theorem Footprint.Describes.plain (fresh : f.fresh = none) (moves : f.moves = [])
    (kept : Kept f.names [] a b) : f.Describes a b := by
  refine ⟨?_, ?_⟩
  · rw [Footprint.freshIn, fresh]
    exact kept
  · rw [moves]
    exact nofun

/-- A step that puts its fresh section in place. -/
theorem Footprint.Describes.made {made : FreshMap} (fresh : f.fresh = some made)
    (there : made.made a = true) (kept : Kept f.names [made.place] a b)
    (lands : ∀ mv ∈ f.moves, mv.Lands a b) :
    f.Describes a b := by
  refine ⟨?_, lands⟩
  rw [Footprint.freshIn, fresh, Option.filter_some, if_pos there]
  exact kept

/-- A step that has no cause to put its fresh section in place. -/
theorem Footprint.Describes.unmade {made : FreshMap} (fresh : f.fresh = some made)
    (absent : made.made a = false) (kept : Kept f.names [] a b)
    (lands : ∀ mv ∈ f.moves, mv.Lands a b) : f.Describes a b := by
  refine ⟨?_, lands⟩
  rw [Footprint.freshIn, fresh, Option.filter_some, if_neg (by rw [absent]; decide)]
  exact kept

/-- A step that has changed nothing where its fresh section would be. -/
theorem Footprint.Describes.either {made : FreshMap} (fresh : f.fresh = some made)
    (kept : Kept f.names [] a b) (kept' : Kept f.names [made.place] a b)
    (lands : ∀ mv ∈ f.moves, mv.Lands a b) :
    f.Describes a b := by
  by_cases there : made.made a = true
  · exact .made fresh there kept' lands
  · exact .unmade fresh (Bool.eq_false_iff.mpr there) kept lands

/-- What `fieldVal` finds of a section. -/
theorem section_cases {obj : YObj} {read : Option YObj}
    (found : fieldVal .yobj obj key = .ok read) :
    read = none ∧ obj.lookup key = none ∨
      ∃ entries, read = some entries ∧ obj.HasSection key entries := by
  cases read with
  | none => exact .inl ⟨rfl, fieldVal_none found⟩
  | some entries => exact .inr ⟨entries, rfl, fieldVal_section found⟩

@[simp] theorem YObj.follow_one (obj : YObj) (key : String) :
    obj.follow [.key key] = obj.lookup key := by rw [YObj.follow_key, follow_nil]

theorem YObj.HasSection.follow_one {obj entries : YObj} (has : obj.HasSection key entries)
    (name : String) :
    obj.follow [.key key, .key name] = entries.lookup name := by
  rw [has.follow, YObj.follow_one]

theorem YObj.follow_absent {obj : YObj} (absent : obj.lookup key = none)
    (path : Path) : obj.follow (.key key :: path) = none := by
  rw [YObj.follow_key, absent, follow_none]

@[simp] theorem path_keys (names : List String) (i : Nat) :
    (keys names).path i = keyPath names := by
  induction names with
  | nil => rfl
  | cons name rest ih => exact congrArg (Seg.key name :: ·) ih

theorem present_nil (a : YObj) : MovedVal.present a [] := nofun

theorem MovedVal.goneFrom_of_none {mv : MovedVal} {b : YObj} {i : Nat} {v : Val}
    (none : b.follow (mv.src.path i) = none) : mv.GoneFrom b i v :=
  ⟨by rw [none]; exact nofun, fun _ => none⟩

/-- A value that is no longer where it was and is kept in any case. -/
theorem MovedVal.Lands.of_gone {mv : MovedVal} (always : mv.keptWith = [])
    (landed : ∀ i v, mv.Moves a i v →
      b.follow (mv.src.path i) = none ∧ b.follow (mv.dst.path i) = some (mv.kind.moved v)) :
    mv.Lands a b where
  kept i v moves _ := (landed i v moves).2
  dropped i v moves dropped := by
    rw [always] at dropped
    exact absurd (present_nil a) dropped
  gone i v moves := goneFrom_of_none (landed i v moves).1

/-- A value that has been put into a section of its own name. -/
theorem MovedVal.Lands.of_nested {mv : MovedVal} (always : mv.keptWith = [])
    (nested : mv.src.isPrefixOf mv.dst = true)
    (landed : ∀ i v, mv.Moves a i v →
      b.follow (mv.src.path i) ≠ some v ∧ b.follow (mv.dst.path i) = some (mv.kind.moved v)) :
    mv.Lands a b where
  kept i v moves _ := (landed i v moves).2
  dropped i v moves dropped := by
    rw [always] at dropped
    exact absurd (present_nil a) dropped
  gone i v moves := ⟨(landed i v moves).1, fun apart => by rw [nested] at apart; cases apart⟩

theorem lands_between {src dst : List String}
    (landed : ∀ move ∈ moves, ∀ v, a.follow (keyPath (src ++ [move.2.1])) = some v →
      b.follow (keyPath (src ++ [move.2.1])) = none ∧
        b.follow (keyPath (dst ++ [move.2.2])) = some (move.1.moved v)) :
    ∀ mv ∈ movesBetween src dst moves, mv.Lands a b := by
  intro mv member
  obtain ⟨move, inside, rfl⟩ := List.mem_map.mp member
  apply MovedVal.Lands.of_gone rfl
  intro i v ⟨here, _, _⟩
  rw [path_keys] at here ⊢
  rw [path_keys]
  exact landed move inside v here

/-- Nothing is found in what does not pass for a section. -/
theorem YObj.follow_not_section {obj : YObj}
    (not_section : ∀ entries, fieldVal .yobj obj key = .ok (some entries) → False) (name : String)
    (path : Path) : obj.follow (.key key :: .key name :: path) = none := by
  rw [YObj.follow_key]
  cases found : obj.lookup key with
  | none => exact follow_none _
  | some val =>
    cases val with
    | obj entries =>
      apply (not_section entries _).elim
      rw [fieldVal, found]
      rfl
    | _ => exact follow_none _

/-- A section within what does not pass for a section is not there to be replaced. -/
theorem Kept.notSection {names : List Pattern} {key name : String} (kept : Kept names [] a b)
    (not_section : ∀ entries, fieldVal .yobj a key = .ok (some entries) → False) :
    Kept names [keys [key, name]] a b := by
  refine ⟨kept.frame.absent ?_, kept.nil⟩
  intro path _ inside
  obtain ⟨pattern, member, below⟩ := inside
  rw [List.mem_singleton.mp member] at below
  match path, below with
  | .key _ :: .key _ :: path, ⟨rfl, rfl, _⟩ => exact YObj.follow_not_section not_section _ _

theorem lands_absent {dst : List String} (absent : a.lookup key = none) :
    ∀ mv ∈ movesBetween [key] dst moves, mv.Lands a b := by
  apply lands_between
  intro move _ v here
  have nowhere : a.follow (keyPath ([key] ++ [move.2.1])) = none := YObj.follow_absent absent _
  rw [nowhere] at here
  nomatch here

theorem lands_not_section {dst : List String}
    (not_section : ∀ entries, fieldVal .yobj a key = .ok (some entries) → False) :
    ∀ mv ∈ movesBetween [key] dst moves, mv.Lands a b := by
  apply lands_between
  intro move _ v here
  have nowhere : a.follow (keyPath ([key] ++ [move.2.1])) = none :=
    YObj.follow_not_section not_section _ _
  rw [nowhere] at here
  nomatch here

theorem Transfer.lands {s s' t t' a b : YObj} {src dst : List String}
    (transfer : Transfer moves s s' t t')
    (from_src : ∀ key ∈ srcKeys moves, a.follow (keyPath (src ++ [key])) = s.lookup key)
    (left : ∀ key ∈ srcKeys moves, b.follow (keyPath (src ++ [key])) = s'.lookup key)
    (into : ∀ key, b.follow (keyPath (dst ++ [key])) = t'.lookup key) :
    ∀ mv ∈ movesBetween src dst moves, mv.Lands a b := by
  apply lands_between
  intro move member v here
  rw [from_src _ (List.mem_map_of_mem member)] at here
  rw [left _ (List.mem_map_of_mem member), into]
  exact transfer.moved move member v here

namespace Kept

variable {a b : YObj} {names fresh : List Pattern}

theorem ofKeys {changed : List String} (nonempty : changed ≠ []) (nil : a = none ↔ b = none)
    (others : ∀ key, key ∉ changed → b.lookup key = a.lookup key) :
    Kept (keysIn [] changed) [] a b := by
  refine ⟨⟨?_, fun _ _ inside => absurd inside not_inside_nil⟩, nil⟩
  intro path unnamed _
  cases path with
  | nil => exact absurd (named_nil (by simpa [keysIn] using nonempty)) unnamed
  | cons seg path =>
    cases seg with
    | index i => rfl
    | key name =>
      show b.follow (.key name :: path) = a.follow (.key name :: path)
      rw [YObj.follow_key, YObj.follow_key, others]
      intro member
      exact unnamed ⟨keys [name], List.mem_map_of_mem member, rfl, trivial⟩

theorem updateWhole (a : YObj) (key : String) (entries : YObj) :
    Kept [[.key key]] [] a (a.update key entries) := by
  have only : Kept (under (.key key) [[]]) (under (.key key) []) a (a.update key entries) :=
    underKey (List.cons_ne_nil _ _) YObj.update_eq_none.symm
      (fun j ne => YObj.lookup_update_of_ne ne) (.root _ _)
  exact only

theorem updateArrWhole (a : YObj) (key : String) (values : YArr) :
    Kept [[.key key]] [] a (a.updateArr key values) := by
  have only : Kept (under (.key key) [[]]) (under (.key key) []) a (a.updateArr key values) :=
    underKey (List.cons_ne_nil _ _) YObj.updateArr_eq_none.symm
      (fun j ne => YObj.lookup_updateArr_of_ne ne) (.root _ _)
  exact only

theorem ofList {entries : List (String × Val)} {made : List String}
    (same : entries.map (·.1) = made) (nonempty : made ≠ []) :
    Kept (keysIn [] made) [] .empty (.ofList entries) := by
  rw [← same] at nonempty ⊢
  apply ofKeys nonempty (show YObj.empty = none ↔ YObj.ofList entries = none from ⟨nofun, nofun⟩)
  have from_made : ∀ (entries made : List (String × Val)) (key : String),
      key ∉ entries.map (·.1) →
      (entries.foldl (fun made entry => SortedEntries.set entry.1 entry.2 made) made).lookup key =
        made.lookup key := by
    intro entries
    induction entries with
    | nil => exact fun _ _ _ => rfl
    | cons first rest ih =>
      intro made key other
      obtain ⟨ne, later⟩ := not_or.mp (mt List.mem_cons.mpr other)
      exact (ih _ key later).trans ((lookup_set _ _ _ _).trans (if_neg ne))
  exact from_made entries []

/-- A map literal takes the place of what was there. -/
theorem setLiteral {key : String} {entries : List (String × Val)} {made : List String}
    (done : a.set key (.obj (YObj.ofList entries)) = .ok b) (same : entries.map (·.1) = made)
    (nonempty : made ≠ []) : Kept (keysIn [key] made) [keys [key]] a b := by
  have some_key : keysIn [] made ≠ [] := by simpa [keysIn] using nonempty
  have kept := Kept.setWith done some_key (Kept.fresh_frame (.ofList same nonempty) some_key _)
  have names : under (.key key) (keysIn [] made) = keysIn [key] made := by
    rw [under, keysIn, List.map_map]
    rfl
  rwa [names] at kept

theorem vacuous (kept : Kept names [] a b)
    (nothing : ∀ path, Inside Slot.Fits fresh path → a.follow path = none) :
    Kept names fresh a b := ⟨kept.frame.absent fun path _ => nothing path, kept.nil⟩

theorem absentKey {key : String} {rest : Pattern} (kept : Kept names [] a b)
    (absent : a.lookup key = none) : Kept names [.key key :: rest] a b := by
  apply kept.vacuous
  intro path inside
  obtain ⟨pattern, member, below⟩ := inside
  rw [List.mem_singleton.mp member] at below
  match path, below with
  | .key _ :: path, ⟨rfl, _⟩ => exact YObj.follow_absent absent path

end Kept

theorem mapM_forall₂ {β γ : Type} {f : β → Go γ} {R : β → γ → Prop} {xs : List β} {ys : List γ}
    (done : xs.mapM f = .ok ys) (step : ∀ x y, f x = .ok y → R x y) : List.Forall₂ R xs ys := by
  induction xs generalizing ys with
  | nil =>
    cases done
    exact .nil
  | cons x rest ih =>
    rw [List.mapM_cons] at done
    obtain ⟨y, here, later⟩ := bind_ok_iff.mp done
    obtain ⟨ys', others, made⟩ := bind_ok_iff.mp later
    cases made
    exact .cons (step x y here) (ih others)

theorem mapM_zipIdx_forall₂ {β γ : Type} {f : β × Nat → Go γ} {R : β → γ → Prop} {xs : List β}
    {ys : List γ} (done : xs.zipIdx.mapM f = .ok ys) (step : ∀ x i y, f (x, i) = .ok y → R x y) :
    List.Forall₂ R xs ys := by
  have indexed : List.Forall₂ (fun x y => R x.1 y) xs.zipIdx ys :=
    mapM_forall₂ done fun x y => step x.1 x.2 y
  have values := List.forall₂_map_left_iff.mpr indexed
  rwa [List.zipIdx_map_fst] at values

/-- The array under a key has been changed in place, or there was none to change. -/
theorem Kept.array {a : YObj} {names fresh : List Pattern} {values values' : YArr}
    (read : fieldVal .yarr a key = .ok (some values))
    (inner : List.Forall₂ (fun v w => Val.Frame names fresh (some v) (some w)) values values')
    (nonempty : names ≠ []) :
    Kept (under (.key key) (under .each names)) (under (.key key) (under .each fresh)) a
      (a.updateArr key values') := by
  obtain ⟨val, found, made⟩ := fieldVal_some read
  rcases readVal_yarr made with rfl | ⟨rfl, rfl⟩
  · exact .updateArr found inner nonempty
  · cases inner
    have nested : under .each names ≠ [] := by simpa using nonempty
    apply Kept.underKey (by simpa using nonempty) Iff.rfl fun _ _ => rfl
    show Val.Frame _ _ (a.lookup key) (a.lookup key)
    rw [found]
    exact (Frame.refl _ _).absent (nothing_below (fun _ => rfl) nested)

theorem Transfer.keptSrc {s s' t t' : YObj} (transfer : Transfer moves s s' t t')
    (nonempty : moves ≠ []) :
    Kept (keysIn [] (srcKeys moves)) [] s s' :=
  .ofKeys (by simpa [srcKeys] using nonempty) transfer.srcNil transfer.srcOthers

theorem Transfer.keptDst {s s' t t' : YObj} (transfer : Transfer moves s s' t t')
    (nonempty : moves ≠ []) :
    Kept (keysIn [] (dstKeys moves)) [] t t' :=
  .ofKeys (by simpa [dstKeys] using nonempty) transfer.dstNil transfer.dstOthers

/-- A call of `moveVal` inside one map. -/
theorem renameVal_moves {α : Type} {T : GoType α} {kind : Kind} (as : T.MovesAs kind)
    {obj obj' : YObj} {srcKey dstKey : String} (ne : srcKey ≠ dstKey)
    (done : renameVal T obj srcKey dstKey = .ok obj') :
    Kept (keysIn [] [srcKey, dstKey]) [] obj obj' ∧
      ∀ v, obj.lookup srcKey = some v →
        obj'.lookup srcKey = none ∧ obj'.lookup dstKey = some (kind.moved v) := by
  obtain ⟨read, found, done⟩ := bind_ok_iff.mp done
  cases read with
  | none =>
    cases done
    refine ⟨.refl _ _, fun v here => ?_⟩
    rw [fieldVal_none found] at here
    nomatch here
  | some w =>
    obtain ⟨val, here, read⟩ := fieldVal_some found
    obtain ⟨made, put, done⟩ := bind_ok_iff.mp done
    cases done
    constructor
    · have deleted : Kept _ [] made (made.delete srcKey) := .delete made srcKey
      exact ((Kept.set put).mono (by simp [keysIn, keys])).andThen
        (deleted.mono (by simp [keysIn, keys]))
    · intro v found
      rw [here] at found
      rw [YObj.lookup_delete, if_pos rfl, YObj.lookup_delete, if_neg ne.symm,
        (YObj.set_ok put).2.2, if_pos rfl, as _ _ _ read, Option.some.inj found]
      exact ⟨rfl, rfl⟩

variable {a b : YObj} {m : Migrator}

theorem migrateTo1_describes (done : migrateTo1 a = .ok b) : Footprint.to1.Describes a b := by
  apply (versioned done).describes (by decide)
  exact .plain rfl rfl (.refl _ _)

theorem migrateTo3_describes (done : migrateTo3 a = .ok b) : Footprint.to3.Describes a b := by
  obtain ⟨conf, set, done⟩ := bind_ok_iff.mp done
  apply (versioned set).describes (by decide)
  apply Footprint.Describes.plain rfl rfl
  obtain ⟨_, read, done⟩ := bind_ok_iff.mp done
  rcases section_cases read with ⟨rfl, _⟩ | ⟨dns, rfl, has⟩
  · cases done
    exact .refl _ _
  obtain ⟨bootstrap, read, done⟩ := bind_ok_iff.mp done
  cases bootstrap with
  | none =>
    cases done
    exact .refl _ _
  | some bootstrap =>
    obtain ⟨dns', put, done⟩ := bind_ok_iff.mp done
    cases done
    exact (Kept.update has (.set put) (by decide)).mono (by decide)

theorem migrateTo2_describes (done : migrateTo2 a = .ok b) : Footprint.to2.Describes a b := by
  obtain ⟨conf, set, done⟩ := bind_ok_iff.mp done
  apply (versioned set).describes (by decide)
  obtain ⟨kept, moved⟩ := renameVal_moves GoType.any_movesAs (by decide) done
  constructor
  · exact kept.mono (by decide)
  · apply lands_between
    intro move member v here
    rw [List.mem_singleton.mp member] at here ⊢
    exact moved v ((conf.follow_one "coredns").symm.trans here) |>.imp
      (b.follow_one "coredns").trans (b.follow_one "dns").trans

theorem useGlobalBlockedServices_frame {v w : Val} (done : useGlobalBlockedServices v = .ok w) :
    Val.Frame [keys ["use_global_blocked_services"]] [] (some v) (some w) := by
  cases v with
  | obj c =>
    obtain ⟨c', put, rfl⟩ := map_ok_iff.mp done
    exact (Kept.set put).frame
  | _ =>
    cases done
    exact .refl _ _

theorem migrateTo4_describes (done : migrateTo4 a = .ok b) : Footprint.to4.Describes a b := by
  obtain ⟨conf, set, done⟩ := bind_ok_iff.mp done
  apply (versioned set).describes (by decide)
  apply Footprint.Describes.plain rfl rfl
  split at done
  next clients read =>
    obtain ⟨clients', walked, done⟩ := bind_ok_iff.mp done
    cases done
    have each := mapM_forall₂ walked fun _ _ => useGlobalBlockedServices_frame
    exact (Kept.array read each (by decide)).mono (by decide)
  next =>
    cases done
    exact .refl _ _

theorem newUser_frame {user : YObj} (made : Kept (keysIn [] ["name", "password"]) [] .empty user)
    (old : Option Val) :
    Val.Frame [[.index 0, .key "name"], [.index 0, .key "password"]] [[]] old
      (some (.arr [.obj user])) where
  kept path unnamed outside := by
    cases path with
    | nil => exact absurd (named_nil (List.cons_ne_nil _ _)) unnamed
    | cons seg path => exact absurd ⟨[], List.mem_singleton_self _, trivial⟩ outside
  lost path unnamed inside := by
    cases path with
    | nil => exact absurd inside not_inside_root
    | cons seg path =>
      cases seg with
      | key name => exact follow_none _
      | index i =>
        cases i with
        | succ i => exact follow_none _
        | zero =>
          have unnamed' : ¬ Named Slot.Fits (keysIn [] ["name", "password"]) path := by
            intro named
            have inside : Named Slot.Fits (under (.index 0) (keysIn [] ["name", "password"]))
                (.index 0 :: path) := named_under.mpr ⟨rfl, named⟩
            exact unnamed inside
          have kept := made.frame.kept path unnamed' not_inside_nil
          cases path with
          | nil => exact absurd (named_nil (List.cons_ne_nil _ _)) unnamed'
          | cons seg path =>
            refine Eq.trans kept ?_
            cases seg <;> exact follow_none _

theorem migrateTo5_describes (done : migrateTo5 m a = .ok b) : Footprint.to5.Describes a b := by
  obtain ⟨conf, set, done⟩ := bind_ok_iff.mp done
  apply (versioned set).describes (by decide)
  obtain ⟨⟨conf', user⟩, named, done⟩ := bind_ok_iff.mp done
  have transfer := moveVal_transfer GoType.string_movesAs named
  obtain ⟨read, found, done⟩ := bind_ok_iff.mp done
  have pass_same : conf'.lookup "auth_pass" = conf.lookup "auth_pass" :=
    transfer.srcOthers _ (by decide)
  have users_same : conf'.lookup "users" = conf.lookup "users" :=
    transfer.srcOthers _ (by decide)
  have src_kept := transfer.keptSrc (List.cons_ne_nil _ _)
  cases read with
  | none =>
    cases done
    have absent : conf.lookup "auth_pass" = none := pass_same.symm.trans (fieldVal_none found)
    apply Footprint.Describes.unmade rfl
    · simp [FreshMap.made, keyPath, absent]
    · exact src_kept.mono (by decide)
    · intro mv member
      rw [List.mem_singleton.mp member]
      refine ⟨?_, ?_, ?_⟩
      · intro i v _ kept
        exact absurd ((conf.follow_one _).trans absent) (kept _ (List.mem_singleton_self _))
      · intro i v _ _
        show b.follow (.key "users" :: _) = conf.follow (.key "users" :: _)
        rw [YObj.follow_key, YObj.follow_key, users_same]
      · intro i v ⟨here, _, _⟩
        have gone := (transfer.moved _ (List.mem_singleton_self _) v
          ((conf.follow_one _).symm.trans here)).1
        exact MovedVal.goneFrom_of_none ((b.follow_one _).trans gone)
  | some pass =>
    have there : conf.lookup "auth_pass" ≠ none := by
      obtain ⟨val, here, _⟩ := fieldVal_some found
      rw [← pass_same, here]
      exact nofun
    dsimp only at done
    split at done
    next => nomatch done
    next hash generated =>
    obtain ⟨user', put, done⟩ := bind_ok_iff.mp done
    have looked := (YObj.set_ok done).2.2
    have user_kept : Kept (keysIn [] ["name", "password"]) [] .empty user' :=
      ((transfer.keptDst (List.cons_ne_nil _ _)).mono (by decide)).andThen
        ((Kept.set put).mono (by decide))
    apply Footprint.Describes.made rfl
    · simp [FreshMap.made, keyPath, Option.isSome_iff_ne_none, there]
    · have deleted : Kept _ [] conf' (conf'.delete "auth_pass") := .delete conf' "auth_pass"
      have users := Kept.setWith done (List.cons_ne_nil _ _) (newUser_frame user_kept _)
      exact ((src_kept.mono (by decide)).andThen (deleted.mono (by decide))).trans
        (users.mono (by decide))
    · intro mv member
      rw [List.mem_singleton.mp member]
      refine ⟨?_, ?_, ?_⟩
      · intro i v ⟨here, _, _⟩ _
        have landed := (transfer.moved _ (List.mem_singleton_self _) v
          ((conf.follow_one _).symm.trans here)).2
        show b.follow [.key "users", .index 0, .key "name"] = _
        rw [YObj.follow_key, looked, if_pos rfl]
        show user'.follow [.key "name"] = _
        rw [YObj.follow_one, (YObj.set_ok put).2.2, if_neg (by decide), landed]
      · intro i v _ dropped
        refine absurd ?_ dropped
        intro keys member
        rw [List.mem_singleton.mp member]
        exact (conf.follow_one _).trans_ne there
      · intro i v ⟨here, _, _⟩
        have gone := (transfer.moved _ (List.mem_singleton_self _) v
          ((conf.follow_one _).symm.trans here)).1
        apply MovedVal.goneFrom_of_none
        show b.follow [.key "auth_name"] = none
        rw [YObj.follow_one, looked, if_neg (by decide), YObj.lookup_delete, if_neg (by decide),
          gone]

theorem collectIDs_frame {v w : Val} {i : Nat} (done : collectIDs (v, i) = .ok w) :
    Val.Frame [keys ["ids"]] [] (some v) (some w) := by
  cases v with
  | obj c =>
    obtain ⟨ids, _, done⟩ := bind_ok_iff.mp done
    obtain ⟨c', put, rfl⟩ := map_ok_iff.mp done
    exact (Kept.set put).frame
  | _ => nomatch done

theorem migrateTo6_describes (done : migrateTo6 a = .ok b) : Footprint.to6.Describes a b := by
  obtain ⟨conf, set, done⟩ := bind_ok_iff.mp done
  apply (versioned set).describes (by decide)
  apply Footprint.Describes.plain rfl rfl
  obtain ⟨clients, read, done⟩ := bind_ok_iff.mp done
  cases clients with
  | none =>
    cases done
    exact .refl _ _
  | some clients =>
    obtain ⟨clients', walked, done⟩ := bind_ok_iff.mp done
    cases done
    have each := mapM_zipIdx_forall₂ walked fun _ _ _ => collectIDs_frame
    exact (Kept.array read each (by decide)).mono (by decide)

theorem migrateTo7_describes (done : migrateTo7 a = .ok b) : Footprint.to7.Describes a b := by
  obtain ⟨conf, set, done⟩ := bind_ok_iff.mp done
  apply (versioned set).describes (by decide)
  split at done
  next dhcp read =>
    have has := fieldVal_section read
    obtain ⟨⟨dhcp', dhcpv4⟩, moved, done⟩ := bind_ok_iff.mp done
    obtain ⟨dhcp'', put, done⟩ := bind_ok_iff.mp done
    cases done
    have transfer : Transfer dhcpMoves dhcp dhcp' .empty dhcpv4 :=
      joinMoves_transfer (by decide) moved
    have fresh := Kept.setWith put (List.cons_ne_nil _ _)
      (Kept.fresh_frame (transfer.keptDst (by decide)) (by decide) _)
    have inner : Kept (keysIn [] (srcKeys dhcpMoves) ++ keysIn ["dhcpv4"] (dstKeys dhcpMoves))
        [keys ["dhcpv4"]] dhcp dhcp'' :=
      ((transfer.keptSrc (by decide)).mono (by decide)).trans (fresh.mono (by decide))
    have has' := has.update inner.nil
    apply Footprint.Describes.made rfl rfl
    · exact (Kept.update has inner (by decide)).mono (by decide)
    · apply transfer.lands fun key _ => has.follow_one key
      · intro key member
        have other : key ≠ "dhcpv4" := fun same => by rw [same] at member; revert member; decide
        exact (has'.follow_one key).trans (((YObj.set_ok put).2.2 key).trans (if_neg other))
      · intro key
        refine (has'.follow _ _).trans ?_
        exact (YObj.HasSection.of_set put).follow_one key
  next not_section =>
    cases done
    apply Footprint.Describes.made rfl rfl
    · exact (Kept.refl _ _).notSection not_section
    · exact lands_not_section not_section

theorem migrateTo8_describes (done : migrateTo8 a = .ok b) : Footprint.to8.Describes a b := by
  obtain ⟨conf, set, done⟩ := bind_ok_iff.mp done
  apply (versioned set).describes (by decide)
  apply Footprint.Describes.plain rfl rfl
  obtain ⟨_, read, done⟩ := bind_ok_iff.mp done
  rcases section_cases read with ⟨rfl, _⟩ | ⟨dns, rfl, has⟩
  · cases done
    exact .refl _ _
  obtain ⟨bindHost, read, done⟩ := bind_ok_iff.mp done
  cases bindHost with
  | none =>
    cases done
    exact .refl _ _
  | some bindHost =>
    obtain ⟨dns', put, done⟩ := bind_ok_iff.mp done
    cases done
    have inner : Kept (keysIn [] ["bind_host", "bind_hosts"]) [] dns dns' :=
      ((Kept.delete dns "bind_host").mono (by decide)).andThen ((Kept.set put).mono (by decide))
    exact (Kept.update has inner (by decide)).mono (by decide)

theorem migrateTo9_describes (done : migrateTo9 a = .ok b) : Footprint.to9.Describes a b := by
  obtain ⟨conf, set, done⟩ := bind_ok_iff.mp done
  apply (versioned set).describes (by decide)
  obtain ⟨_, read, done⟩ := bind_ok_iff.mp done
  rcases section_cases read with ⟨rfl, absent⟩ | ⟨dns, rfl, has⟩
  · cases done
    exact ⟨.refl _ _, lands_absent absent⟩
  obtain ⟨dns', renamed, done⟩ := bind_ok_iff.mp done
  cases done
  obtain ⟨inner, moved⟩ := renameVal_moves GoType.string_movesAs (by decide) renamed
  have has' := has.update inner.nil
  constructor
  · exact (Kept.update has inner (by decide)).mono (by decide)
  · apply lands_between
    intro move member v here
    rw [List.mem_singleton.mp member] at here ⊢
    exact moved v ((has.follow_one _).symm.trans here) |>.imp
      (has'.follow_one _).trans (has'.follow_one _).trans

theorem addQUICPortsIn_kept {dns dns' : YObj} {field : String}
    (done : addQUICPortsIn m dns field = .ok dns') : Kept [keys [field]] [] dns dns' := by
  obtain ⟨ups, _, done⟩ := bind_ok_iff.mp done
  cases ups with
  | none =>
    cases done
    exact .refl _ _
  | some ups =>
    obtain ⟨ups', _, done⟩ := bind_ok_iff.mp done
    exact .set done

theorem migrateTo10_describes (done : migrateTo10 m a = .ok b) : Footprint.to10.Describes a b := by
  obtain ⟨conf, set, done⟩ := bind_ok_iff.mp done
  apply (versioned set).describes (by decide)
  apply Footprint.Describes.plain rfl rfl
  obtain ⟨_, read, done⟩ := bind_ok_iff.mp done
  rcases section_cases read with ⟨rfl, _⟩ | ⟨dns, rfl, has⟩
  · cases done
    exact .refl _ _
  obtain ⟨dns', upstreams, done⟩ := bind_ok_iff.mp done
  obtain ⟨dns'', local_ptr, done⟩ := bind_ok_iff.mp done
  cases done
  have inner : Kept (keysIn [] ["upstream_dns", "local_ptr_upstreams"]) [] dns dns'' :=
    ((addQUICPortsIn_kept upstreams).mono (by decide)).andThen
      ((addQUICPortsIn_kept local_ptr).mono (by decide))
  exact (Kept.update has inner (by decide)).mono (by decide)

theorem migrateTo11_describes (done : migrateTo11 a = .ok b) : Footprint.to11.Describes a b := by
  obtain ⟨conf, set, done⟩ := bind_ok_iff.mp done
  apply (versioned set).describes (by decide)
  obtain ⟨rlimit, read, put⟩ := bind_ok_iff.mp done
  apply Footprint.Describes.made rfl rfl
  · have os := Kept.setLiteral put (rfl : _ = ["group", "rlimit_nofile", "user"]) (by decide)
    exact ((Kept.delete conf "rlimit_nofile").mono (by decide)).trans (os.mono (by decide))
  · apply lands_between
    intro move member v here
    rw [List.mem_singleton.mp member] at here ⊢
    have here : conf.lookup "rlimit_nofile" = some v := (conf.follow_one _).symm.trans here
    constructor
    · show b.follow [.key "rlimit_nofile"] = none
      rw [YObj.follow_one, (YObj.set_ok put).2.2, if_neg (by decide), YObj.lookup_delete,
        if_pos rfl]
    · refine ((YObj.HasSection.of_set put).follow_one _).trans ?_
      rw [fieldVal, here] at read
      obtain ⟨n, made, rfl⟩ := map_ok_iff.mp read
      rw [← GoType.int_movesAs _ _ _ made]
      simp [YObj.ofList, YObj.lookup, lookup_set, GoType.int]

theorem migrateTo12_describes (done : migrateTo12 a = .ok b) : Footprint.to12.Describes a b := by
  obtain ⟨conf, set, done⟩ := bind_ok_iff.mp done
  apply (versioned set).describes (by decide)
  apply Footprint.Describes.plain rfl rfl
  obtain ⟨_, read, done⟩ := bind_ok_iff.mp done
  rcases section_cases read with ⟨rfl, _⟩ | ⟨dns, rfl, has⟩
  · cases done
    exact .refl _ _
  obtain ⟨qlogIvl, _, done⟩ := bind_ok_iff.mp done
  obtain ⟨dns', put, done⟩ := bind_ok_iff.mp done
  cases done
  exact (Kept.update has (.set put) (by decide)).mono (by decide)

theorem migrateTo13_describes (done : migrateTo13 a = .ok b) : Footprint.to13.Describes a b := by
  obtain ⟨conf, set, done⟩ := bind_ok_iff.mp done
  apply (versioned set).describes (by decide)
  obtain ⟨_, read, done⟩ := bind_ok_iff.mp done
  rcases section_cases read with ⟨rfl, absent⟩ | ⟨dns, rfl, has⟩
  · cases done
    refine ⟨.refl _ _, ?_⟩
    intro mv member
    rw [List.mem_singleton.mp member]
    apply MovedVal.Lands.of_gone rfl
    intro i v ⟨here, _, _⟩
    exact nomatch (YObj.follow_absent absent _).symm.trans here
  obtain ⟨_, read, done⟩ := bind_ok_iff.mp done
  rcases section_cases read with ⟨rfl, absent⟩ | ⟨dhcp, rfl, has_dhcp⟩
  · cases done
    refine ⟨.refl _ _, ?_⟩
    intro mv member
    rw [List.mem_singleton.mp member]
    apply MovedVal.Lands.of_gone rfl
    intro i v ⟨_, _, needs⟩
    exact absurd (YObj.follow_absent absent _) (needs _ (List.mem_singleton_self _))
  obtain ⟨⟨dns', dhcp'⟩, moved, done⟩ := bind_ok_iff.mp done
  cases done
  have transfer := moveVal_transfer GoType.string_movesAs moved
  obtain ⟨has_dns', has_dhcp'⟩ :=
    has.both has_dhcp transfer.srcNil transfer.dstNil (by decide)
  constructor
  · have both := Kept.updateBoth has has_dhcp (transfer.keptSrc (by decide))
      (transfer.keptDst (by decide)) (by decide) (by decide) (by decide)
    exact both.mono (by decide)
  · intro mv member
    rw [List.mem_singleton.mp member]
    apply MovedVal.Lands.of_gone rfl
    intro i v ⟨here, _, _⟩
    exact transfer.moved _ (List.mem_singleton_self _) v ((has.follow_one _).symm.trans here)
      |>.imp (has_dns'.follow_one _).trans (has_dhcp'.follow_one _).trans

/-- The section that `migrateTo14` puts in the place of the clients. -/
abbrev clientsSection (persistent : Option YArr) (runtimeClients : YObj) : YObj := YObj.ofList
  [("persistent", .arr (persistent.getD [])), ("runtime_sources", .obj runtimeClients)]

theorem persistentMoved {conf : YObj} {persistent : Option YArr} {runtimeClients : YObj}
    (read : fieldVal .yarr conf "clients" = .ok persistent)
    (there : b.lookup "clients" = some (.obj (clientsSection persistent runtimeClients))) :
    ∀ mv ∈ movesBetween [] ["clients"] [(.yarr, "clients", "persistent")], mv.Lands conf b := by
  intro mv member
  rw [List.mem_singleton.mp member]
  apply MovedVal.Lands.of_nested rfl (by decide)
  intro i v ⟨here, takes, _⟩
  have here : conf.lookup "clients" = some v := (conf.follow_one _).symm.trans here
  constructor
  · intro same
    have same := (b.follow_one _).symm.trans same
    rw [there] at same
    rw [← Option.some.inj same] at takes
    nomatch takes
  · have has : b.HasSection "clients" (clientsSection persistent runtimeClients) := .inl there
    refine (has.follow_one _).trans ?_
    rw [fieldVal, here] at read
    obtain ⟨values, made, rfl⟩ := map_ok_iff.mp read
    rw [← GoType.yarr_movesAs _ _ _ made]
    simp [YObj.ofList, YObj.lookup, lookup_set, GoType.yarr]

theorem migrateTo14_describes (done : migrateTo14 a = .ok b) : Footprint.to14.Describes a b := by
  obtain ⟨conf, set, done⟩ := bind_ok_iff.mp done
  apply (versioned set).describes (by decide)
  obtain ⟨persistent, read, done⟩ := bind_ok_iff.mp done
  obtain ⟨conf', put, done⟩ := bind_ok_iff.mp done
  have clients_kept : Kept Footprint.to14.names [] conf conf' := (Kept.set put).mono (by decide)
  have clients_there := (YObj.set_ok put).2.2 "clients"
  have dns_same := (YObj.set_ok put).2.2 "dns"
  rw [if_pos rfl] at clients_there
  rw [if_neg (by decide)] at dns_same
  obtain ⟨_, read_dns, done⟩ := bind_ok_iff.mp done
  rcases section_cases read_dns with ⟨rfl, absent⟩ | ⟨dns, rfl, has⟩
  · cases done
    refine ⟨clients_kept, ?_⟩
    intro mv member
    rcases List.mem_append.mp member with first | second
    · exact persistentMoved read clients_there mv first
    · exact lands_absent (dns_same.symm.trans absent) mv second
  obtain ⟨⟨dns', runtimeClients⟩, moved, done⟩ := bind_ok_iff.mp done
  cases done
  have transfer := moveVal_transfer GoType.bool_movesAs moved
  let conf'' := (conf'.update "dns" dns').update "clients" (clientsSection persistent runtimeClients)
  have found : (conf'.update "dns" dns').lookup "clients" ≠ none := by
    rw [YObj.lookup_update_of_ne (by decide), clients_there]
    exact nofun
  have clients_there' :
      conf''.lookup "clients" = some (.obj (clientsSection persistent runtimeClients)) :=
    YObj.lookup_update_self found nofun
  constructor
  · have dns_kept := Kept.update has (transfer.keptSrc (by decide)) (by decide)
    have all_kept : Kept [keys ["clients"]] [] (conf'.update "dns" dns') conf'' :=
      .updateWhole _ _ _
    exact (clients_kept.andThen (dns_kept.mono (by decide))).andThen (all_kept.mono (by decide))
  · have has_before : conf.HasSection "dns" dns := has.congr dns_same.symm
    have has_dns : conf''.HasSection "dns" dns' :=
      (has.update transfer.srcNil).update_of_ne (by decide)
    have has_clients : conf''.HasSection "clients" (clientsSection persistent runtimeClients) :=
      .inl clients_there'
    have has_sources : (clientsSection persistent runtimeClients).HasSection "runtime_sources"
        runtimeClients := by
      left
      simp [YObj.ofList, YObj.lookup, lookup_set]
    have second : ∀ mv ∈ movesBetween ["dns"] ["clients", "runtime_sources"]
        [(.bool, "resolve_clients", "rdns")], mv.Lands conf conf'' :=
      transfer.lands (fun key _ => has_before.follow_one key) (fun key _ => has_dns.follow_one key)
        fun key => (has_clients.follow _ _).trans (has_sources.follow_one key)
    intro mv member
    rcases List.mem_append.mp member with here | there
    · exact persistentMoved read clients_there' mv here
    · exact second mv there

theorem migrateTo15_describes (done : migrateTo15 a = .ok b) : Footprint.to15.Describes a b := by
  obtain ⟨conf, set, done⟩ := bind_ok_iff.mp done
  apply (versioned set).describes (by decide)
  obtain ⟨_, read, done⟩ := bind_ok_iff.mp done
  rcases section_cases read with ⟨rfl, absent⟩ | ⟨dns, rfl, has⟩
  · cases done
    apply Footprint.Describes.unmade rfl
    · simp [FreshMap.made, keyPath, absent]
    · exact .refl _ _
    · exact lands_absent absent
  obtain ⟨conf', put, done⟩ := bind_ok_iff.mp done
  obtain ⟨⟨dns', qlog'⟩, moved, done⟩ := bind_ok_iff.mp done
  cases done
  have transfer : Transfer querylogMoves dns dns' _ qlog' := joinMoves_transfer (by decide) moved
  have has_dns := has.set put (by decide)
  have has_qlog := YObj.HasSection.of_set put
  obtain ⟨has_dns', has_qlog'⟩ :=
    has_dns.both has_qlog transfer.srcNil transfer.dstNil (by decide)
  apply Footprint.Describes.made rfl
  · simp [FreshMap.made, keyPath, Option.isSome_iff_ne_none, has.found]
  · have fresh := Kept.setLiteral put
      (rfl : _ = ["ignored", "enabled", "file_enabled", "interval", "size_memory"]) (by decide)
    have both := Kept.updateBoth has_dns has_qlog (transfer.keptSrc (by decide))
      (transfer.keptDst (by decide)) (by decide) (by decide) (by decide)
    exact (fresh.mono (by decide)).andThen (both.mono (by decide))
  · apply transfer.lands fun key _ => has.follow_one key
    · exact fun key _ => has_dns'.follow_one key
    · exact has_qlog'.follow_one

/-- The section that `migrateTo16` puts in the place of the old one. -/
abbrev statsDefaults : YObj :=
  YObj.ofList [("enabled", .bool true), ("interval", .int 1), ("ignored", .arr [])]

theorem migrateTo16_describes (done : migrateTo16 a = .ok b) : Footprint.to16.Describes a b := by
  obtain ⟨conf, set, done⟩ := bind_ok_iff.mp done
  apply (versioned set).describes (by decide)
  obtain ⟨_, read, done⟩ := bind_ok_iff.mp done
  rcases section_cases read with ⟨rfl, absent⟩ | ⟨dns, rfl, has⟩
  · cases done
    apply Footprint.Describes.unmade rfl
    · simp [FreshMap.made, keyPath, absent]
    · exact .refl _ _
    · exact lands_absent absent
  obtain ⟨conf', put, done⟩ := bind_ok_iff.mp done
  have fresh := Kept.setLiteral put (rfl : _ = ["enabled", "interval", "ignored"]) (by decide)
  obtain ⟨statsIvl, read, done⟩ := bind_ok_iff.mp done
  cases statsIvl with
  | none =>
    cases done
    apply Footprint.Describes.made rfl
    · simp [FreshMap.made, keyPath, Option.isSome_iff_ne_none, has.found]
    · exact fresh.mono (by decide)
    · apply lands_between
      intro move member v here
      rw [List.mem_singleton.mp member] at here
      have absent := (fieldVal_none read).symm.trans ((has.follow_one _).symm.trans here)
      cases absent
  | some statsIvl =>
    have changed : ∃ stats', Kept (keysIn [] ["enabled", "interval"]) [] statsDefaults stats' ∧
        (statsIvl ≠ 0 → stats'.lookup "interval" = some (.int statsIvl)) ∧
        b = (conf'.update "statistics" stats').update "dns" (dns.delete "statistics_interval") := by
      dsimp only at done
      split at done
      next zero =>
        obtain ⟨stats', put, done⟩ := bind_ok_iff.mp done
        cases done
        exact ⟨stats', (Kept.set put).mono (by decide), fun nonzero => absurd zero nonzero, rfl⟩
      next =>
        obtain ⟨stats', put, done⟩ := bind_ok_iff.mp done
        cases done
        exact ⟨stats', (Kept.set put).mono (by decide),
          fun _ => ((YObj.set_ok put).2.2 _).trans (if_pos rfl), rfl⟩
    obtain ⟨stats', stats_kept, interval, rfl⟩ := changed
    have dns_kept : Kept _ [] dns (dns.delete "statistics_interval") := .delete _ _
    have has_dns := has.set put (by decide)
    have has_stats : conf'.HasSection "statistics" statsDefaults := .of_set put
    obtain ⟨has_stats', has_dns'⟩ := has_stats.both has_dns stats_kept.nil dns_kept.nil (by decide)
    apply Footprint.Describes.made rfl
    · simp [FreshMap.made, keyPath, Option.isSome_iff_ne_none, has.found]
    · have both := Kept.updateBoth has_stats has_dns stats_kept dns_kept (by decide) (by decide)
        (by decide)
      exact (fresh.mono (by decide)).andThen (both.mono (by decide))
    · intro mv member
      rw [List.mem_singleton.mp member]
      apply MovedVal.Lands.of_gone rfl
      intro i v present
      obtain ⟨here, takes, _⟩ := present
      have here := (has.follow_one _).symm.trans here
      rw [fieldVal, here] at read
      constructor
      · refine (has_dns'.follow_one _).trans ?_
        rw [YObj.lookup_delete, if_pos rfl]
      · refine (has_stats'.follow_one _).trans ?_
        cases v with
        | int n =>
          obtain ⟨_, made, same⟩ := map_ok_iff.mp read
          cases made
          cases same
          exact interval (of_decide_eq_true takes)
        | _ => cases takes

theorem fieldOrZero_moved {obj : YObj} {v : Val} (here : obj.lookup key = some v)
    (takes : Kind.bool.takes v = true) :
    .bool (fieldOrZero .bool obj key) = Kind.bool.moved v := by
  rw [fieldOrZero, fieldVal, here]
  cases v with
  | null => rfl
  | bool value => rfl
  | _ => cases takes

theorem migrateTo17_describes (done : migrateTo17 a = .ok b) : Footprint.to17.Describes a b := by
  obtain ⟨conf, set, done⟩ := bind_ok_iff.mp done
  apply (versioned set).describes (by decide)
  obtain ⟨_, read, done⟩ := bind_ok_iff.mp done
  rcases section_cases read with ⟨rfl, absent⟩ | ⟨dns, rfl, has⟩
  · cases done
    exact ⟨.refl _ _, lands_absent absent⟩
  obtain ⟨dns', put, done⟩ := bind_ok_iff.mp done
  cases done
  have kept := Kept.set put
  have has' := has.update kept.nil
  constructor
  · exact (Kept.update has kept (by decide)).mono (by decide)
  · intro mv member
    rw [List.mem_singleton.mp member]
    apply MovedVal.Lands.of_nested rfl (by decide)
    intro i v ⟨here, takes, _⟩
    have here : dns.lookup "edns_client_subnet" = some v := (has.follow_one _).symm.trans here
    have there := (YObj.set_ok put).2.2 "edns_client_subnet"
    rw [if_pos rfl] at there
    constructor
    · intro same
      have same := (has'.follow_one _).symm.trans same
      rw [there] at same
      rw [← Option.some.inj same] at takes
      nomatch takes
    · refine ((has'.follow _ _).trans ((YObj.HasSection.of_set put).follow_one _)).trans ?_
      show _ = some (Kind.bool.moved v)
      rw [← fieldOrZero_moved here takes]
      simp [YObj.ofList, YObj.lookup, lookup_set]

end AdGuardHome.Configmigrate
