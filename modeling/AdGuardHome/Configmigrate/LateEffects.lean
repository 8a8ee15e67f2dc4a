import AdGuardHome.Configmigrate.EarlyEffects

namespace AdGuardHome.Configmigrate

open Fallible SortedEntries TreeFrames

variable {a b : YObj} {m : Migrator}

theorem migrateTo18_describes (done : migrateTo18 a = .ok b) : Footprint.to18.Describes a b := by
  obtain ⟨conf, set, done⟩ := bind_ok_iff.mp done
  apply (versioned set).describes (by decide)
  obtain ⟨_, read, done⟩ := bind_ok_iff.mp done
  rcases section_cases read with ⟨rfl, absent⟩ | ⟨dns, rfl, has⟩
  · cases done
    exact .made rfl rfl ((Kept.refl _ _).absentKey absent) (lands_absent absent)
  obtain ⟨dns₁, put, done⟩ := bind_ok_iff.mp done
  obtain ⟨⟨dns₂, safeSearch⟩, moved, done⟩ := bind_ok_iff.mp done
  cases done
  have transfer := moveVal_transfer GoType.bool_movesAs moved
  have has_old : dns₂.HasSection "safe_search" safeSearchDefaults :=
    (YObj.HasSection.of_set put).congr (transfer.srcOthers _ (by decide))
  have has_new := has_old.update transfer.dstNil
  have fresh := Kept.setLiteral put (rfl : _ = safeSearchKeys) (by decide)
  have settings := Kept.update has_old (transfer.keptDst (by decide)) (by decide)
  have inner : Kept (keysIn [] ["safesearch_enabled"] ++ keysIn ["safe_search"] safeSearchKeys)
      [keys ["safe_search"]] dns (dns₂.update "safe_search" safeSearch) :=
    ((fresh.mono (by decide)).andThen ((transfer.keptSrc (by decide)).mono (by decide))).andThen
      (settings.mono (by decide))
  have has' := has.update inner.nil
  apply Footprint.Describes.made rfl rfl
  · exact (Kept.update has inner (by decide)).mono (by decide)
  · apply transfer.lands
    · intro key member
      have other : key ≠ "safe_search" := fun same => by rw [same] at member; revert member; decide
      rw [(YObj.set_ok put).2.2, if_neg other]
      exact has.follow_one key
    · intro key member
      have other : key ≠ "safe_search" := fun same => by rw [same] at member; revert member; decide
      exact (has'.follow_one key).trans (YObj.lookup_update_of_ne other)
    · exact fun key => (has'.follow _ _).trans (has_new.follow_one key)

variable {key : String} {obj : YObj} {values values' : YArr} {src dst : List String} {v w : Val}

/-- The elements of an array that a section may hold. -/
theorem YObj.follow_array {values : YArr} (read : fieldVal .yarr obj key = .ok (some values))
    (i : Nat) (path : Path) :
    obj.follow (.key key :: .index i :: path) = TreeFrames.follow Val.child values[i]? path := by
  rw [YObj.follow_key]
  obtain ⟨val, found, made⟩ := fieldVal_some read
  rw [found]
  rcases readVal_yarr made with rfl | ⟨rfl, rfl⟩
  · rfl
  · exact (follow_none _).trans (follow_none _).symm

theorem YObj.follow_updateArr (read : fieldVal .yarr obj key = .ok (some values))
    (length : values.length = values'.length) (i : Nat)
    (path : Path) : (obj.updateArr key values').follow (.key key :: .index i :: path) =
      TreeFrames.follow Val.child values'[i]? path := by
  cases values' with
  | nil =>
    rw [List.length_eq_zero_iff.mp length] at read
    exact YObj.follow_array read i path
  | cons first rest =>
    rw [YObj.follow_key, YObj.lookup_updateArr _ (List.cons_ne_nil _ _)]
    · rfl
    · obtain ⟨val, found, _⟩ := fieldVal_some read
      rw [found]
      exact nofun

theorem YObj.follow_not_array
    (not_array : ∀ values, fieldVal .yarr obj key = .ok (some values) → False) (i : Nat)
    (path : Path) : obj.follow (.key key :: .index i :: path) = none := by
  rw [YObj.follow_key]
  cases found : obj.lookup key with
  | none => exact follow_none _
  | some val =>
    cases val with
    | arr values =>
      apply (not_array values _).elim
      rw [fieldVal, found]
      rfl
    | _ => exact follow_none _

/-- What does not pass for an array holds nothing, so nothing in it is replaced. -/
theorem Kept.notArray {names : List Pattern} {key name : String} {rest : Pattern}
    {entries : YObj} (kept : Kept names [] a b) (has : a.HasSection key entries)
    (not_array : ∀ values, fieldVal .yarr entries name = .ok (some values) → False) :
    Kept names [.key key :: .key name :: .each :: rest] a b := by
  apply kept.vacuous
  intro path inside
  obtain ⟨pattern, member, below⟩ := inside
  rw [List.mem_singleton.mp member] at below
  match path, below with
  | .key _ :: .key _ :: .index i :: path, ⟨rfl, rfl, _⟩ =>
    exact (has.follow _ _).trans (YObj.follow_not_array not_array i path)

theorem forall₂_getElem? {R : Val → Val → Prop} (each : List.Forall₂ R values values') {i : Nat}
    {v : Val} (here : values[i]? = some v) :
    ∃ w, values'[i]? = some w ∧ R v w := by
  induction each generalizing i with
  | nil => nomatch here
  | cons head _ ih =>
    cases i with
    | zero =>
      cases here
      exact ⟨_, rfl, head⟩
    | succ i => exact ih here

def ElementMoves (kind : Kind) (src dst : List String) (v w : Val) : Prop :=
  ∀ x, TreeFrames.follow Val.child (some v) (keyPath src) = some x → kind.takes x = true →
    TreeFrames.follow Val.child (some w) (keyPath dst) = some (kind.moved x) ∧
      TreeFrames.follow Val.child (some w) (keyPath src) ≠ some x ∧
      (src.isPrefixOf dst = false → TreeFrames.follow Val.child (some w) (keyPath src) = none)

/-- The moves within the elements of `clients.persistent`. -/
theorem lands_each {clients : YObj} {kind : Kind} (has : a.HasSection "clients" clients)
    (read : fieldVal .yarr clients "persistent" = .ok (some values))
    (each : List.Forall₂ (ElementMoves kind src dst) values values')
    (nested : (persistentEach ++ keys src).isPrefixOf (persistentEach ++ keys dst) =
      src.isPrefixOf dst) :
    ({ kind, src := persistentEach ++ keys src, dst := persistentEach ++ keys dst } :
      MovedVal).Lands a (a.update "clients" (clients.updateArr "persistent" values')) := by
  have nil : clients = none ↔ clients.updateArr "persistent" values' = none :=
    YObj.updateArr_eq_none.symm
  have has' := has.update nil
  have path_eq : ∀ names i, (persistentEach ++ keys names).path i =
      .key "clients" :: .key "persistent" :: .index i :: keyPath names := by
    intro names i
    exact congrArg (fun path => Seg.key "clients" :: .key "persistent" :: .index i :: path)
      (path_keys names i)
  have before : ∀ names i, a.follow ((persistentEach ++ keys names).path i) =
      TreeFrames.follow Val.child values[i]? (keyPath names) := by
    intro names i
    rw [path_eq, has.follow, YObj.follow_array read]
  have after : ∀ names i, (a.update "clients" (clients.updateArr "persistent" values')).follow
      ((persistentEach ++ keys names).path i) =
        TreeFrames.follow Val.child values'[i]? (keyPath names) := by
    intro names i
    rw [path_eq, has'.follow, YObj.follow_updateArr read each.length_eq]
  have moved : ∀ i x, MovedVal.Moves ⟨kind, persistentEach ++ keys src,
      persistentEach ++ keys dst, [], []⟩ a i x → ∃ v w, values'[i]? = some w ∧
        ElementMoves kind src dst v w ∧
        TreeFrames.follow Val.child (some v) (keyPath src) = some x ∧ kind.takes x = true := by
    intro i x ⟨here, takes, _⟩
    have here := (before src i).symm.trans here
    cases found : values[i]? with
    | none =>
      rw [found, follow_none] at here
      nomatch here
    | some v =>
      obtain ⟨w, there, moves⟩ := forall₂_getElem? each found
      rw [found] at here
      exact ⟨v, w, there, moves, here, takes⟩
  refine ⟨?_, fun i x _ dropped => absurd (present_nil a) dropped, ?_⟩
  · intro i x moves _
    obtain ⟨v, w, there, element, here, takes⟩ := moved i x moves
    rw [after, there]
    exact (element x here takes).1
  · intro i x moves
    obtain ⟨v, w, there, element, here, takes⟩ := moved i x moves
    rw [MovedVal.GoneFrom, after, there, nested]
    exact (element x here takes).2

theorem addSafeSearch_cases {c : YObj} {w : Val} (done : addSafeSearch (.obj c) = .ok w) :
    ∃ c₁ safeSearch c₂, YObj.set c₁ "safe_search" (.obj safeSearch) = .ok c₂ ∧ w = .obj c₂ ∧
      (moveVal .bool c safeSearchDefaults "safesearch_enabled" "enabled" = .ok (c₁, safeSearch) ∨
        ∃ message, moveVal .bool c safeSearchDefaults "safesearch_enabled" "enabled" =
          .error (.error message) ∧ c₁ = c ∧ safeSearch = safeSearchDefaults) := by
  rw [addSafeSearch] at done
  split at done
  next message failed =>
    obtain ⟨c₂, put, rfl⟩ := map_ok_iff.mp done
    exact ⟨_, _, c₂, put, rfl, .inr ⟨message, failed, rfl, rfl⟩⟩
  next =>
    obtain ⟨⟨c₁, safeSearch⟩, moved, done⟩ := bind_ok_iff.mp done
    obtain ⟨c₂, put, rfl⟩ := map_ok_iff.mp done
    exact ⟨c₁, safeSearch, c₂, put, rfl, .inl moved⟩

theorem addSafeSearch_frame (done : addSafeSearch v = .ok w) :
    Val.Frame (keysIn [] ["safesearch_enabled"] ++ keysIn ["safe_search"] safeSearchKeys)
      [keys ["safe_search"]] (some v) (some w) := by
  cases v with
  | obj c =>
    obtain ⟨c₁, safeSearch, c₂, put, rfl, moved⟩ := addSafeSearch_cases done
    have kept : Kept (keysIn [] ["safesearch_enabled"]) [] c c₁ ∧
        Kept (keysIn [] safeSearchKeys) [] .empty safeSearch := by
      have defaults : Kept (keysIn [] safeSearchKeys) [] .empty safeSearchDefaults :=
        .ofList rfl (by decide)
      rcases moved with moved | ⟨_, _, rfl, rfl⟩
      · have transfer := moveVal_transfer GoType.bool_movesAs moved
        exact ⟨transfer.keptSrc (by decide),
          defaults.andThen ((transfer.keptDst (by decide)).mono (by decide))⟩
      · exact ⟨.refl _ _, defaults⟩
    have fresh := Kept.setWith put (by decide) (Kept.fresh_frame kept.2 (by decide) _)
    exact ((kept.1.mono (by decide)).trans (fresh.mono (by decide))).frame
  | _ =>
    cases done
    apply (Frame.refl _ _).absent
    intro path _ inside
    obtain ⟨pattern, member, below⟩ := inside
    rw [List.mem_singleton.mp member] at below
    match path, below with
    | .key _ :: path, _ => exact follow_none path

theorem addSafeSearch_moves (done : addSafeSearch v = .ok w) :
    ElementMoves .bool ["safesearch_enabled"] ["safe_search", "enabled"] v w := by
  intro x here takes
  cases v with
  | obj c =>
    obtain ⟨c₁, safeSearch, c₂, put, rfl, moved⟩ := addSafeSearch_cases done
    have here : YObj.lookup c "safesearch_enabled" = some x :=
      (YObj.follow_one c _).symm.trans here
    rcases moved with moved | ⟨message, failed, _⟩
    · obtain ⟨gone, there⟩ :=
        (moveVal_transfer GoType.bool_movesAs moved).moved _ (List.mem_singleton_self _) x here
      have gone : c₂.follow [.key "safesearch_enabled"] = none := by
        rw [YObj.follow_one, (YObj.set_ok put).2.2, if_neg (by decide), gone]
      refine ⟨((YObj.HasSection.of_set put).follow_one _).trans there, ?_, fun _ => gone⟩
      intro same
      cases gone.symm.trans same
    · -- A boolean or a null does not fail to move.
      rw [moveVal, fieldVal, here] at failed
      cases x with
      | bool value => cases failed
      | null => cases failed
      | _ => cases takes
  | _ => cases here

theorem migrateTo19_describes (done : migrateTo19 a = .ok b) : Footprint.to19.Describes a b := by
  obtain ⟨conf, set, done⟩ := bind_ok_iff.mp done
  apply (versioned set).describes (by decide)
  obtain ⟨_, read, done⟩ := bind_ok_iff.mp done
  rcases section_cases read with ⟨rfl, absent⟩ | ⟨clients, rfl, has⟩
  · cases done
    apply Footprint.Describes.made rfl rfl ((Kept.refl _ _).absentKey absent)
    intro mv member
    rw [List.mem_singleton.mp member]
    apply MovedVal.Lands.of_gone rfl
    intro i v ⟨here, _, _⟩
    exact nomatch (YObj.follow_absent absent _).symm.trans here
  dsimp only at done
  split at done
  next persistent read =>
    obtain ⟨persistent', walked, done⟩ := bind_ok_iff.mp done
    cases done
    apply Footprint.Describes.made rfl rfl
    · have each := mapM_forall₂ walked fun _ _ => addSafeSearch_frame
      have inner := Kept.array read each (by decide)
      exact (Kept.update has inner (by decide)).mono (by decide)
    · intro mv member
      rw [List.mem_singleton.mp member]
      exact lands_each has read (mapM_forall₂ walked fun _ _ => addSafeSearch_moves) (by decide)
  next not_array =>
    cases done
    apply Footprint.Describes.made rfl rfl ((Kept.refl _ _).notArray has not_array)
    intro mv member
    rw [List.mem_singleton.mp member]
    apply MovedVal.Lands.of_gone rfl
    intro i v ⟨here, _, _⟩
    have nowhere := (has.follow (.key "persistent")
      (.index i :: keyPath ["safesearch_enabled"])).trans (YObj.follow_not_array not_array i _)
    exact nomatch nowhere.symm.trans here

theorem migrateTo20_describes (done : migrateTo20 a = .ok b) : Footprint.to20.Describes a b := by
  obtain ⟨conf, set, done⟩ := bind_ok_iff.mp done
  apply (versioned set).describes (by decide)
  apply Footprint.Describes.plain rfl rfl
  obtain ⟨_, read, done⟩ := bind_ok_iff.mp done
  rcases section_cases read with ⟨rfl, _⟩ | ⟨stats, rfl, has⟩
  · cases done
    exact .refl _ _
  obtain ⟨ivl, _, done⟩ := bind_ok_iff.mp done
  obtain ⟨stats', put, done⟩ := bind_ok_iff.mp done
  cases done
  exact (Kept.update has (.set put) (by decide)).mono (by decide)

theorem migrateTo21_describes (done : migrateTo21 a = .ok b) : Footprint.to21.Describes a b := by
  obtain ⟨conf, set, done⟩ := bind_ok_iff.mp done
  apply (versioned set).describes (by decide)
  obtain ⟨_, read, done⟩ := bind_ok_iff.mp done
  rcases section_cases read with ⟨rfl, absent⟩ | ⟨dns, rfl, has⟩
  · cases done
    exact ⟨.refl _ _, lands_absent absent⟩
  obtain ⟨⟨dns₁, svcs⟩, moved, done⟩ := bind_ok_iff.mp done
  obtain ⟨dns₂, put, done⟩ := bind_ok_iff.mp done
  cases done
  have transfer := moveVal_transfer GoType.yarr_movesAs moved
  have inner : Kept (keysIn [] ["blocked_services"]) [] dns dns₂ :=
    ((transfer.keptSrc (by decide)).mono (by decide)).andThen ((Kept.set put).mono (by decide))
  have has' := has.update inner.nil
  constructor
  · exact (Kept.update has inner (by decide)).mono (by decide)
  · intro mv member
    rw [List.mem_singleton.mp member]
    apply MovedVal.Lands.of_nested rfl (by decide)
    intro i v ⟨here, takes, _⟩
    have landed := (transfer.moved _ (List.mem_singleton_self _) v
      ((has.follow_one _).symm.trans here)).2
    constructor
    · intro same
      have same := (has'.follow_one _).symm.trans same
      rw [(YObj.set_ok put).2.2, if_pos rfl] at same
      rw [← Option.some.inj same] at takes
      nomatch takes
    · exact ((has'.follow _ _).trans ((YObj.HasSection.of_set put).follow_one _)).trans landed

theorem addSchedule_frame {i : Nat} (done : addSchedule (v, i) = .ok w) :
    Val.Frame (keysIn [] ["blocked_services"]) [] (some v) (some w) := by
  cases v with
  | obj c =>
    dsimp only [addSchedule] at done
    split at done
    next => nomatch done
    next => nomatch done
    next =>
      cases done
      exact .refl _ _
    next =>
      obtain ⟨c', put, rfl⟩ := map_ok_iff.mp done
      exact (Kept.set put).frame
  | _ => nomatch done

theorem addSchedule_moves {i : Nat} (done : addSchedule (v, i) = .ok w) :
    ElementMoves .yarr ["blocked_services"] ["blocked_services", "ids"] v w := by
  intro x here takes
  cases v with
  | obj c =>
    have here : YObj.lookup c "blocked_services" = some x := (YObj.follow_one c _).symm.trans here
    dsimp only [addSchedule] at done
    split at done
    next => cases done
    next => cases done
    next absent => cases (fieldVal_none absent).symm.trans here
    next services read =>
      obtain ⟨c', put, rfl⟩ := map_ok_iff.mp done
      obtain ⟨val, found, made⟩ := fieldVal_some read
      obtain rfl := Option.some.inj (found.symm.trans here)
      refine ⟨?_, ?_, fun apart => by cases apart⟩
      · refine ((YObj.HasSection.of_set put).follow_one _).trans ?_
        rw [← GoType.yarr_movesAs _ _ _ made]
        simp [YObj.ofList, YObj.lookup, lookup_set, GoType.yarr]
      · intro same
        have same := (YObj.follow_one c' _).symm.trans same
        rw [(YObj.set_ok put).2.2, if_pos rfl] at same
        rw [← Option.some.inj same] at takes
        cases takes
  | _ => cases here

theorem migrateTo22_describes (done : migrateTo22 a = .ok b) : Footprint.to22.Describes a b := by
  obtain ⟨conf, set, done⟩ := bind_ok_iff.mp done
  apply (versioned set).describes (by decide)
  obtain ⟨_, read, done⟩ := bind_ok_iff.mp done
  rcases section_cases read with ⟨rfl, absent⟩ | ⟨clients, rfl, has⟩
  · cases done
    refine ⟨.refl _ _, ?_⟩
    intro mv member
    rw [List.mem_singleton.mp member]
    apply MovedVal.Lands.of_nested rfl (by decide)
    intro i v ⟨here, _, _⟩
    exact nomatch (YObj.follow_absent absent _).symm.trans here
  obtain ⟨persistent, listed, done⟩ := bind_ok_iff.mp done
  cases persistent with
  | none =>
    cases done
    refine ⟨.refl _ _, ?_⟩
    intro mv member
    rw [List.mem_singleton.mp member]
    apply MovedVal.Lands.of_nested rfl (by decide)
    intro i v ⟨here, _, _⟩
    have nowhere := (has.follow (.key "persistent")
      (.index i :: keyPath ["blocked_services"])).trans
        (YObj.follow_absent (fieldVal_none listed) _)
    exact nomatch nowhere.symm.trans here
  | some persistent =>
    obtain ⟨persistent', walked, done⟩ := bind_ok_iff.mp done
    cases done
    constructor
    · have each := mapM_zipIdx_forall₂ walked fun _ _ _ => addSchedule_frame
      have inner := Kept.array listed each (by decide)
      exact (Kept.update has inner (by decide)).mono (by decide)
    · intro mv member
      rw [List.mem_singleton.mp member]
      exact lands_each has listed
        (mapM_zipIdx_forall₂ walked fun _ _ _ => addSchedule_moves) (by decide)

theorem migrateTo23_describes (done : migrateTo23 m a = .ok b) : Footprint.to23.Describes a b := by
  obtain ⟨conf, set, done⟩ := bind_ok_iff.mp done
  apply (versioned set).describes (by decide)
  obtain ⟨bindHost, read, done⟩ := bind_ok_iff.mp done
  cases bindHost with
  | none =>
    cases done
    apply Footprint.Describes.unmade rfl
    · simp [FreshMap.made, keyPath, fieldVal_none read]
    · exact .refl _ _
    · intro _ member
      cases member
  | some bindHost =>
    have there : conf.lookup "bind_host" ≠ none := by
      obtain ⟨val, here, _⟩ := fieldVal_some read
      rw [here]
      exact Option.some_ne_none _
    dsimp only at done
    split at done
    next => cases done
    next addr parsed =>
      obtain ⟨bindPort, _, done⟩ := bind_ok_iff.mp done
      obtain ⟨sessionTTL, _, done⟩ := bind_ok_iff.mp done
      obtain ⟨conf', put, done⟩ := bind_ok_iff.mp done
      cases done
      apply Footprint.Describes.made rfl
      · simp [FreshMap.made, keyPath, Option.isSome_iff_ne_none, there]
      · have fresh := Kept.setLiteral put (rfl : _ = ["address", "session_ttl"]) (by decide)
        have deleted : Kept (keysIn [] ["bind_host", "bind_port", "web_session_ttl"]) [] conf'
            (((conf'.delete "bind_host").delete "bind_port").delete "web_session_ttl") :=
          (((Kept.delete _ _).mono (by decide)).andThen
            ((Kept.delete _ _).mono (by decide))).andThen ((Kept.delete _ _).mono (by decide))
        exact (fresh.mono (by decide)).andThen (deleted.mono (by decide))
      · intro _ member
        cases member

variable {moves : List (Kind × String × String)}

/-- Whether any of the keys of a list of moves is there. -/
theorem made_iff {made : FreshMap} {s : YObj} (src : List String) (nonempty : moves ≠ [])
    (cause : made.whenAny = (srcKeys moves).map fun key => src ++ [key])
    (from_src : ∀ key, a.follow (keyPath (src ++ [key])) = s.lookup key) :
    made.made a = true ↔ ∃ move ∈ moves, s.lookup move.2.1 ≠ none := by
  have some_cause : made.whenAny.isEmpty = false := by
    rw [cause]
    simpa [srcKeys] using nonempty
  rw [FreshMap.made, some_cause, Bool.false_or, cause, List.any_eq_true]
  constructor
  · intro found
    obtain ⟨_, member, there⟩ := found
    obtain ⟨key, inside, rfl⟩ := List.mem_map.mp member
    obtain ⟨move, moved, rfl⟩ := List.mem_map.mp inside
    rw [from_src, Option.isSome_iff_ne_none] at there
    exact ⟨move, moved, there⟩
  · intro found
    obtain ⟨move, moved, there⟩ := found
    refine ⟨_, List.mem_map_of_mem (List.mem_map_of_mem moved), ?_⟩
    rw [from_src, Option.isSome_iff_ne_none]
    exact there

theorem YObj.lookup_of_isEmpty (empty : obj.isEmpty = true) (key : String) :
    obj.lookup key = none := by
  cases obj with
  | none => rfl
  | some entries =>
    cases entries with
    | nil => rfl
    | cons first rest => cases empty

theorem Transfer.isEmpty_iff {s s' t' : YObj} (transfer : Transfer moves s s' .empty t') :
    t'.isEmpty = true ↔ ∀ move ∈ moves, s.lookup move.2.1 = none := by
  constructor
  · intro empty move member
    cases here : s.lookup move.2.1 with
    | none => rfl
    | some v =>
      have there := (transfer.moved move member v here).2
      exact nomatch (YObj.lookup_of_isEmpty empty _).symm.trans there
  · intro absent
    rw [(transfer.idle absent).2]
    rfl

theorem lands_idle {s : YObj} (from_src : ∀ key, a.follow (keyPath (src ++ [key])) = s.lookup key)
    (absent : ∀ move ∈ moves, s.lookup move.2.1 = none) :
    ∀ mv ∈ movesBetween src dst moves, mv.Lands a b := by
  apply lands_between
  intro move member v here
  rw [from_src, absent move member] at here
  nomatch here

theorem migrateTo24_describes (done : migrateTo24 a = .ok b) : Footprint.to24.Describes a b := by
  obtain ⟨conf, set, done⟩ := bind_ok_iff.mp done
  apply (versioned set).describes (by decide)
  obtain ⟨⟨conf', logObj⟩, moved, done⟩ := bind_ok_iff.mp done
  have transfer : Transfer logMoves conf conf' .empty logObj :=
    joinMoves_transfer (by decide) moved
  have cause : FreshMap.made ⟨keys ["log"], (srcKeys logMoves).map fun key => [key]⟩ conf = true ↔
      ∃ move ∈ logMoves, conf.lookup move.2.1 ≠ none :=
    made_iff [] (by decide) rfl conf.follow_one
  dsimp only at done
  split at done
  next empty =>
    cases done
    have absent := transfer.isEmpty_iff.mp empty
    obtain ⟨same, _⟩ := transfer.idle absent
    apply Footprint.Describes.unmade rfl
    · apply Bool.eq_false_iff.mpr
      intro made
      obtain ⟨move, member, there⟩ := cause.mp made
      exact there (absent move member)
    · rw [same]
      exact .refl _ _
    · exact lands_idle conf.follow_one absent
  next some_moved =>
    have fresh := Kept.setWith done (by decide)
      (Kept.fresh_frame (transfer.keptDst (by decide)) (by decide) _)
    apply Footprint.Describes.made rfl
    · apply cause.mpr
      by_contra none_there
      exact some_moved (transfer.isEmpty_iff.mpr fun move member =>
        not_not.mp fun there => none_there ⟨move, member, there⟩)
    · exact ((transfer.keptSrc (by decide)).mono (by decide)).trans (fresh.mono (by decide))
    · apply transfer.lands (fun key _ => conf.follow_one key)
      · intro key member
        have other : key ≠ "log" := fun same => by rw [same] at member; revert member; decide
        exact (b.follow_one key).trans (((YObj.set_ok done).2.2 key).trans (if_neg other))
      · exact fun key => (YObj.HasSection.of_set done).follow_one key

theorem migrateTo25_describes (done : migrateTo25 a = .ok b) : Footprint.to25.Describes a b := by
  obtain ⟨conf, set, done⟩ := bind_ok_iff.mp done
  apply (versioned set).describes (by decide)
  obtain ⟨_, read, done⟩ := bind_ok_iff.mp done
  rcases section_cases read with ⟨rfl, absent⟩ | ⟨httpObj, rfl, has⟩
  · cases done
    apply Footprint.Describes.made rfl rfl ((Kept.refl _ _).absentKey absent)
    intro mv member
    rw [List.mem_singleton.mp member]
    apply MovedVal.Lands.of_gone rfl
    intro i v ⟨_, _, needs⟩
    exact absurd (YObj.follow_absent absent _) (needs _ (List.mem_singleton_self _))
  obtain ⟨⟨conf', pprofObj⟩, moved, done⟩ := bind_ok_iff.mp done
  obtain ⟨httpObj', put, done⟩ := bind_ok_iff.mp done
  cases done
  have transfer := moveVal_transfer GoType.bool_movesAs moved
  have has_after : conf'.HasSection "http" httpObj := has.congr (transfer.srcOthers _ (by decide))
  have defaults : Kept (keysIn [] ["enabled", "port"]) [] .empty
      (YObj.ofList [("enabled", .bool false), ("port", .int 6060)]) := .ofList rfl (by decide)
  have pprof_kept := defaults.andThen ((transfer.keptDst (by decide)).mono (by decide))
  have inner := Kept.setWith put (by decide) (Kept.fresh_frame pprof_kept (by decide) _)
  have has' := has_after.update inner.nil
  apply Footprint.Describes.made rfl rfl
  · exact ((transfer.keptSrc (by decide)).mono (by decide)).trans
      ((Kept.update has_after inner (by decide)).mono (by decide))
  · intro mv member
    rw [List.mem_singleton.mp member]
    apply MovedVal.Lands.of_gone rfl
    intro i v ⟨here, _, _⟩
    obtain ⟨gone, there⟩ := transfer.moved _ (List.mem_singleton_self _) v
      ((conf.follow_one _).symm.trans here)
    constructor
    · refine (YObj.follow_one _ "debug_pprof").trans ?_
      rw [YObj.lookup_update_of_ne (by decide), gone]
    · exact (has'.follow _ _).trans (((YObj.HasSection.of_set put).follow_one _).trans there)

theorem migrateTo26_describes (done : migrateTo26 a = .ok b) : Footprint.to26.Describes a b := by
  obtain ⟨conf, set, done⟩ := bind_ok_iff.mp done
  apply (versioned set).describes (by decide)
  obtain ⟨_, read, done⟩ := bind_ok_iff.mp done
  rcases section_cases read with ⟨rfl, absent⟩ | ⟨dns, rfl, has⟩
  · cases done
    have cause : FreshMap.made
        ⟨keys ["filtering"], (srcKeys filteringMoves).map fun key => ["dns", key]⟩ b = true ↔
          ∃ move ∈ filteringMoves, YObj.lookup none move.2.1 ≠ none :=
      made_iff ["dns"] (by decide) rfl fun key => YObj.follow_absent absent [.key key]
    apply Footprint.Describes.unmade rfl
    · apply Bool.eq_false_iff.mpr
      intro made
      obtain ⟨_, _, there⟩ := cause.mp made
      exact there rfl
    · exact .refl _ _
    · exact lands_absent absent
  obtain ⟨⟨dns', filteringObj⟩, moved, done⟩ := bind_ok_iff.mp done
  have transfer : Transfer filteringMoves dns dns' .empty filteringObj :=
    joinMoves_transfer (by decide) moved
  have cause : FreshMap.made
      ⟨keys ["filtering"], (srcKeys filteringMoves).map fun key => ["dns", key]⟩ conf = true ↔
        ∃ move ∈ filteringMoves, dns.lookup move.2.1 ≠ none :=
    made_iff ["dns"] (by decide) rfl has.follow_one
  have has_dns' := has.update transfer.srcNil
  have dns_kept := (Kept.update has (transfer.keptSrc (by decide)) (by decide)).mono
    (by decide : ∀ name ∈ _, name ∈ Footprint.to26.names)
  dsimp only at done
  split at done
  next empty =>
    cases done
    have absent := transfer.isEmpty_iff.mp empty
    apply Footprint.Describes.unmade rfl
    · apply Bool.eq_false_iff.mpr
      intro made
      obtain ⟨move, member, there⟩ := cause.mp made
      exact there (absent move member)
    · exact dns_kept
    · exact lands_idle has.follow_one absent
  next some_moved =>
    have fresh := Kept.setWith done (by decide)
      (Kept.fresh_frame (transfer.keptDst (by decide)) (by decide) _)
    apply Footprint.Describes.made rfl
    · apply cause.mpr
      by_contra none_there
      exact some_moved (transfer.isEmpty_iff.mpr fun move member =>
        not_not.mp fun there => none_there ⟨move, member, there⟩)
    · exact dns_kept.trans (fresh.mono (by decide))
    · apply transfer.lands (fun key _ => has.follow_one key)
      · exact fun key _ => (has_dns'.set done (by decide)).follow_one key
      · exact fun key => (YObj.HasSection.of_set done).follow_one key

theorem replaceDot_kept (done : replaceDot a key = .ok b) :
    Kept (keysIn [key] ["ignored"]) [] a b := by
  obtain ⟨_, read, done⟩ := bind_ok_iff.mp done
  rcases section_cases read with ⟨rfl, _⟩ | ⟨obj, rfl, has⟩
  · cases done
    exact .refl _ _
  obtain ⟨ignored, _, done⟩ := bind_ok_iff.mp done
  cases ignored with
  | none =>
    cases done
    exact .refl _ _
  | some ignored =>
    cases done
    exact Kept.update has (.updateArrWhole _ _ _) (List.cons_ne_nil _ _)

theorem migrateTo27_describes (done : migrateTo27 a = .ok b) : Footprint.to27.Describes a b := by
  obtain ⟨conf, set, done⟩ := bind_ok_iff.mp done
  apply (versioned set).describes (by decide)
  apply Footprint.Describes.plain rfl rfl
  obtain ⟨conf', querylog, done⟩ := bind_ok_iff.mp done
  obtain ⟨conf'', statistics, done⟩ := bind_ok_iff.mp done
  cases done
  exact ((replaceDot_kept querylog).mono (by decide)).andThen
    ((replaceDot_kept statistics).mono (by decide))

theorem migrateTo28_describes (done : migrateTo28 a = .ok b) : Footprint.to28.Describes a b := by
  obtain ⟨conf, set, done⟩ := bind_ok_iff.mp done
  apply (versioned set).describes (by decide)
  apply Footprint.Describes.plain rfl rfl
  obtain ⟨_, read, done⟩ := bind_ok_iff.mp done
  rcases section_cases read with ⟨rfl, _⟩ | ⟨dns, rfl, has⟩
  · cases done
    exact .refl _ _
  obtain ⟨dns', put, done⟩ := bind_ok_iff.mp done
  cases done
  have inner : Kept (keysIn [] ["upstream_mode", "all_servers", "fastest_addr"]) [] dns
      ((dns'.delete "all_servers").delete "fastest_addr") :=
    (((Kept.set put).mono (by decide)).andThen ((Kept.delete _ _).mono (by decide))).andThen
      ((Kept.delete _ _).mono (by decide))
  exact (Kept.update has inner (by decide)).mono (by decide)

theorem migrateTo29_describes (done : migrateTo29 m a = .ok b) : Footprint.to29.Describes a b := by
  obtain ⟨conf, set, done⟩ := bind_ok_iff.mp done
  apply (versioned set).describes (by decide)
  apply Footprint.Describes.plain rfl rfl
  obtain ⟨filterVals, _, done⟩ := bind_ok_iff.mp done
  cases filterVals with
  | none =>
    cases done
    exact .refl _ _
  | some filterVals =>
    obtain ⟨paths, _, done⟩ := bind_ok_iff.mp done
    obtain ⟨_, read, done⟩ := bind_ok_iff.mp done
    rcases section_cases read with ⟨rfl, _⟩ | ⟨fltConf, rfl, has⟩
    · cases done
      exact .refl _ _
    obtain ⟨fltConf', put, done⟩ := bind_ok_iff.mp done
    cases done
    exact (Kept.update has (.set put) (by decide)).mono (by decide)

theorem migrateTo30_describes (done : migrateTo30 a = .ok b) : Footprint.to30.Describes a b := by
  obtain ⟨conf, set, done⟩ := bind_ok_iff.mp done
  apply (versioned set).describes (by decide)
  apply Footprint.Describes.plain rfl rfl
  obtain ⟨_, read, done⟩ := bind_ok_iff.mp done
  rcases section_cases read with ⟨rfl, _⟩ | ⟨dns, rfl, has⟩
  · cases done
    exact .refl _ _
  obtain ⟨cacheSize, _, done⟩ := bind_ok_iff.mp done
  cases cacheSize with
  | none =>
    cases done
    exact .refl _ _
  | some cacheSize =>
    obtain ⟨dns', put, done⟩ := bind_ok_iff.mp done
    cases done
    exact (Kept.update has (.set put) (by decide)).mono (by decide)

theorem enableRewrite_frame (done : enableRewrite v = .ok w) :
    Val.Frame (keysIn [] ["enabled"]) [] (some v) (some w) := by
  cases v with
  | obj r =>
    obtain ⟨r', put, rfl⟩ := map_ok_iff.mp done
    exact (Kept.set put).frame
  | _ =>
    cases done
    exact .refl _ _

theorem migrateTo31_describes (done : migrateTo31 a = .ok b) : Footprint.to31.Describes a b := by
  obtain ⟨conf, set, done⟩ := bind_ok_iff.mp done
  apply (versioned set).describes (by decide)
  apply Footprint.Describes.plain rfl rfl
  obtain ⟨_, read, done⟩ := bind_ok_iff.mp done
  rcases section_cases read with ⟨rfl, _⟩ | ⟨fltConf, rfl, has⟩
  · cases done
    exact .refl _ _
  obtain ⟨rewrites, listed, done⟩ := bind_ok_iff.mp done
  cases rewrites with
  | none =>
    cases done
    exact .refl _ _
  | some rewrites =>
    obtain ⟨rewrites', walked, done⟩ := bind_ok_iff.mp done
    cases done
    have each := mapM_forall₂ walked fun _ _ => enableRewrite_frame
    exact (Kept.update has (Kept.array listed each (by decide)) (by decide)).mono (by decide)

theorem migrateTo32_describes (done : migrateTo32 a = .ok b) : Footprint.to32.Describes a b := by
  obtain ⟨conf, set, done⟩ := bind_ok_iff.mp done
  apply (versioned set).describes (by decide)
  apply Footprint.Describes.plain rfl rfl
  obtain ⟨_, read, done⟩ := bind_ok_iff.mp done
  rcases section_cases read with ⟨rfl, _⟩ | ⟨dns, rfl, has⟩
  · cases done
    exact .refl _ _
  obtain ⟨dns', ttl, done⟩ := bind_ok_iff.mp done
  obtain ⟨dns'', max_age, done⟩ := bind_ok_iff.mp done
  cases done
  have inner : Kept (keysIn [] ["cache_optimistic_answer_ttl", "cache_optimistic_max_age"]) []
      dns dns'' := ((Kept.set ttl).mono (by decide)).andThen ((Kept.set max_age).mono (by decide))
  exact (Kept.update has inner (by decide)).mono (by decide)

theorem migrateTo34_describes (done : migrateTo34 a = .ok b) : Footprint.to34.Describes a b := by
  obtain ⟨conf, set, done⟩ := bind_ok_iff.mp done
  apply (versioned set).describes (by decide)
  obtain ⟨_, read, done⟩ := bind_ok_iff.mp done
  rcases section_cases read with ⟨rfl, absent⟩ | ⟨httpConf, rfl, has_http⟩
  · cases done
    have kept := Kept.refl Footprint.to34.names b
    apply Footprint.Describes.either rfl kept (kept.absentKey absent)
    intro mv member
    rw [List.mem_singleton.mp member]
    apply MovedVal.Lands.of_gone rfl
    intro i v present
    obtain ⟨_, _, needs⟩ := present
    exact absurd (YObj.follow_absent absent _) (needs _ (List.mem_singleton_self _))
  obtain ⟨_, read, done⟩ := bind_ok_iff.mp done
  rcases section_cases read with ⟨rfl, absent⟩ | ⟨tlsConf, rfl, has_tls⟩
  · cases done
    apply Footprint.Describes.unmade rfl
    · simp [FreshMap.made, keyPath, absent]
    · exact .refl _ _
    · intro mv member
      rw [List.mem_singleton.mp member]
      apply MovedVal.Lands.of_gone rfl
      intro i v present
      obtain ⟨here, _, _⟩ := present
      cases (YObj.follow_absent absent _).symm.trans here
  obtain ⟨httpConf', put, done⟩ := bind_ok_iff.mp done
  obtain ⟨⟨tlsConf', dohConf⟩, moved, done⟩ := bind_ok_iff.mp done
  cases done
  have transfer := moveVal_transfer GoType.bool_movesAs moved
  have has_doh := YObj.HasSection.of_set put
  have doh_kept := Kept.update has_doh (transfer.keptDst (by decide)) (by decide)
  have fresh := Kept.setLiteral put (rfl : _ = ["routes"]) (by decide)
  have http_kept : Kept (keysIn ["doh"] ["routes", "insecure_enabled"]) [keys ["doh"]] httpConf
      (httpConf'.update "doh" dohConf) :=
    (fresh.mono (by decide)).andThen (doh_kept.mono (by decide))
  have tls_kept := transfer.keptSrc (by decide)
  obtain ⟨has_tls', has_http'⟩ := has_tls.both has_http tls_kept.nil http_kept.nil (by decide)
  apply Footprint.Describes.made rfl
  · simp [FreshMap.made, keyPath, Option.isSome_iff_ne_none, has_tls.found]
  · have first := (Kept.update has_tls tls_kept (by decide)).mono
      (by decide : ∀ name ∈ _, name ∈ Footprint.to34.names)
    have has_middle : (conf.update "tls" tlsConf').HasSection "http" httpConf :=
      has_http.update_of_ne (by decide)
    exact first.trans ((Kept.update has_middle http_kept (by decide)).mono (by decide))
  · intro mv member
    rw [List.mem_singleton.mp member]
    apply MovedVal.Lands.of_gone rfl
    intro i v present
    obtain ⟨here, _, _⟩ := present
    obtain ⟨gone, there⟩ := transfer.moved _ (List.mem_singleton_self _) v
      ((has_tls.follow_one _).symm.trans here)
    constructor
    · exact (has_tls'.follow_one _).trans gone
    · have has_doh' := has_doh.update transfer.dstNil
      exact (has_http'.follow _ _).trans ((has_doh'.follow_one _).trans there)

/-- A section that has an ignored list also says whether the list is non-empty. -/
def IgnoredFlag (conf : YObj) (key : String) : Prop :=
  ∀ values, conf.follow (keyPath [key, "ignored"]) = some (.arr values) →
    conf.follow (keyPath [key, "ignored_enabled"]) = some (.bool (0 < values.length))

/-- One half of `migrateTo33` has run to its end. -/
def FlagSet (key : String) (conf conf' : YObj) : Prop :=
  ∃ obj values obj', conf.HasSection key obj ∧ fieldVal .yarr obj "ignored" = .ok (some values) ∧
    obj.set "ignored_enabled" (.bool (0 < values.length)) = .ok obj' ∧
    conf' = conf.update key obj'

namespace FlagSet

variable {key other : String} {conf conf' : YObj}

theorem kept (flagged : FlagSet key conf conf') :
    Kept (keysIn [key] ["ignored_enabled"]) [] conf conf' := by
  obtain ⟨obj, values, obj', has, _, put, rfl⟩ := flagged
  exact Kept.update has (.set put) (List.cons_ne_nil _ _)

theorem listed (flagged : FlagSet key conf conf') :
    conf.follow (keyPath [key, "ignored"]) ≠ none := by
  obtain ⟨obj, values, obj', has, read, _⟩ := flagged
  obtain ⟨val, found, _⟩ := fieldVal_some read
  intro nowhere
  exact nomatch found.symm.trans ((has.follow_one _).symm.trans nowhere)

theorem flag (flagged : FlagSet key conf conf') : IgnoredFlag conf' key := by
  obtain ⟨obj, values, obj', has, read, put, rfl⟩ := flagged
  have kept : Kept _ [] obj obj' := .set put
  have has' := has.update kept.nil
  have looked := (YObj.set_ok put).2.2
  intro values' here
  have here := (has'.follow_one _).symm.trans here
  rw [looked, if_neg (by decide)] at here
  rw [fieldVal, here] at read
  obtain rfl : values' = values := by
    cases read
    rfl
  refine (has'.follow_one _).trans ?_
  rw [looked, if_pos rfl]

theorem follow_of_ne (flagged : FlagSet key conf conf') (ne : other ≠ key) (path : Path) :
    conf'.follow (.key other :: path) = conf.follow (.key other :: path) := by
  obtain ⟨obj, values, obj', has, read, put, rfl⟩ := flagged
  rw [YObj.follow_key, YObj.follow_key, YObj.lookup_update_of_ne ne]

end FlagSet

/-- Where the second half of `migrateTo33` ends, and where it does not begin. -/
theorem migrateTo33_cases (done : migrateTo33 a = .ok b) :
    ∃ conf, a.set "schema_version" (.int 33) = .ok conf ∧
      (conf.follow (keyPath ["querylog", "ignored"]) = none ∧ b = conf ∨
        ∃ conf', FlagSet "querylog" conf conf' ∧
          (conf'.follow (keyPath ["statistics", "ignored"]) = none ∧ b = conf' ∨
            FlagSet "statistics" conf' b)) := by
  obtain ⟨conf, set, done⟩ := bind_ok_iff.mp done
  refine ⟨conf, set, ?_⟩
  obtain ⟨_, read, done⟩ := bind_ok_iff.mp done
  rcases section_cases read with ⟨rfl, absent⟩ | ⟨obj, rfl, has⟩
  · cases done
    exact .inl ⟨YObj.follow_absent absent _, rfl⟩
  obtain ⟨ignored, listed, done⟩ := bind_ok_iff.mp done
  cases ignored with
  | none =>
    cases done
    exact .inl ⟨(has.follow_one _).trans (fieldVal_none listed), rfl⟩
  | some ignored =>
    obtain ⟨obj', put, done⟩ := bind_ok_iff.mp done
    refine .inr ⟨conf.update "querylog" obj', ⟨obj, ignored, obj', has, listed, put, rfl⟩, ?_⟩
    obtain ⟨_, read, done⟩ := bind_ok_iff.mp done
    rcases section_cases read with ⟨rfl, absent⟩ | ⟨stats, rfl, has'⟩
    · cases done
      exact .inl ⟨YObj.follow_absent absent _, rfl⟩
    obtain ⟨ignored', listed', done⟩ := bind_ok_iff.mp done
    cases ignored' with
    | none =>
      cases done
      exact .inl ⟨(has'.follow_one _).trans (fieldVal_none listed'), rfl⟩
    | some ignored' =>
      obtain ⟨stats', put', done⟩ := bind_ok_iff.mp done
      cases done
      exact .inr ⟨stats, ignored', stats', has', listed', put', rfl⟩

theorem migrateTo33_describes (done : migrateTo33 a = .ok b) : Footprint.to33.Describes a b := by
  obtain ⟨conf, set, cases⟩ := migrateTo33_cases done
  apply (versioned set).describes (by decide)
  apply Footprint.Describes.plain rfl rfl
  rcases cases with ⟨_, rfl⟩ | ⟨conf', querylog, ⟨_, rfl⟩ | statistics⟩
  · exact .refl _ _
  · exact querylog.kept.mono (by decide)
  · exact (querylog.kept.mono (by decide)).andThen (statistics.kept.mono (by decide))

theorem migrateTo33_flags (done : migrateTo33 a = .ok b) :
    IgnoredFlag b "querylog" ∧ IgnoredFlag b "statistics" ↔
      (a.follow (keyPath ["querylog", "ignored"]) = none → IgnoredFlag a "statistics") := by
  obtain ⟨conf, set, cases⟩ := migrateTo33_cases done
  have version := versioned set
  have same : ∀ key rest, key ≠ "schema_version" →
      conf.follow (keyPath (key :: rest)) = a.follow (keyPath (key :: rest)) :=
    fun key rest other => version.follow_keys (decide_eq_true other)
  have no_list : ∀ {obj : YObj} {key}, obj.follow (keyPath [key, "ignored"]) = none →
      IgnoredFlag obj key := by
    intro obj key absent values here
    exact nomatch absent.symm.trans here
  rw [← same "querylog" _ (by decide)]
  rcases cases with ⟨absent, rfl⟩ | ⟨conf', querylog, rest⟩
  · have statistics : IgnoredFlag b "statistics" ↔ IgnoredFlag a "statistics" := by
      rw [IgnoredFlag, IgnoredFlag, same _ _ (by decide), same _ _ (by decide)]
    rw [statistics]
    exact ⟨fun both _ => both.2, fun flag => ⟨no_list absent, flag absent⟩⟩
  · refine ⟨fun _ absent => absurd absent querylog.listed, fun _ => ?_⟩
    rcases rest with ⟨absent, rfl⟩ | statistics
    · exact ⟨querylog.flag, no_list absent⟩
    · refine ⟨?_, statistics.flag⟩
      intro values here
      have here := (statistics.follow_of_ne (by decide) _).symm.trans here
      exact (statistics.follow_of_ne (by decide) _).trans (querylog.flag values here)

end AdGuardHome.Configmigrate
