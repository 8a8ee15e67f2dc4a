import AdGuardHome.Configmigrate.Paths

namespace AdGuardHome.Configmigrate

open Fallible

/-- The type a value is moved at, where `count` stands for an integer other than zero. -/
inductive Kind where
  | any | bool | int | string | yarr | yobj | count
deriving DecidableEq

namespace Kind

/-- The values that a move of the kind takes. A null passes for a value of any Go type. -/
def takes : Kind → Val → Bool
  | any, _ => true
  | bool, .bool _ | bool, .null => true
  | int, .int _ | int, .null => true
  | string, .str _ | string, .null => true
  | yarr, .arr _ | yarr, .null => true
  | yobj, .obj _ | yobj, .null => true
  | count, .int n => n ≠ 0
  | _, _ => false

/-- What a value has become once it is moved: `fieldVal` reads a null as a zero value. -/
def moved : Kind → Val → Val
  | any, v | count, v => v
  | bool, .null => .bool false
  | int, .null => .int 0
  | string, .null => .str ""
  | yarr, .null => .arr []
  | yobj, .null => .obj none
  | _, v => v

end Kind

def keyPath (keys : List String) : Path := keys.map .key

def keys (names : List String) : Pattern := names.map .key

def Pattern.path (pattern : Pattern) (i : Nat) : Path :=
  pattern.map fun
    | .key name => .key name
    | .index j => .index j
    | .each => .index i

/-- A value that a step moves, provided that the sections in `needs` are there. A step keeps
what it has moved only where the values in `keptWith` are there. -/
structure MovedVal where
  kind : Kind
  src : Pattern
  dst : Pattern
  needs : List (List String) := []
  keptWith : List (List String) := []

namespace MovedVal

variable (mv : MovedVal) (a b : YObj)

def present (paths : List (List String)) : Prop := ∀ keys ∈ paths, a.follow (keyPath keys) ≠ none

def Moves (i : Nat) (v : Val) : Prop :=
  a.follow (mv.src.path i) = some v ∧ mv.kind.takes v = true ∧ present a mv.needs

/-- The value is not under its old key, which is still there only as a part of the new one. -/
def GoneFrom (i : Nat) (v : Val) : Prop :=
  b.follow (mv.src.path i) ≠ some v ∧
    (mv.src.isPrefixOf mv.dst = false → b.follow (mv.src.path i) = none)

/-- Every value that is moved appears unchanged under its new key and not under the old one. -/
def Unchanged : Prop :=
  ∀ i v, mv.Moves a i v → b.follow (mv.dst.path i) = some v ∧ mv.GoneFrom b i v

/-- No null is moved at a type of its own, and nothing that is moved is dropped with it. -/
def Whole : Prop :=
  ∀ i v, mv.Moves a i v →
    (present a mv.keptWith → mv.kind = .any ∨ v ≠ .null) ∧
      (¬ present a mv.keptWith → a.follow (mv.dst.path i) = some v)

structure Lands : Prop where
  kept : ∀ i v, mv.Moves a i v → present a mv.keptWith →
    b.follow (mv.dst.path i) = some (mv.kind.moved v)
  dropped : ∀ i v, mv.Moves a i v → ¬ present a mv.keptWith →
    b.follow (mv.dst.path i) = a.follow (mv.dst.path i)
  gone : ∀ i v, mv.Moves a i v → mv.GoneFrom b i v

end MovedVal

/-- A section that is replaced by a map made anew where one of the values `whenAny` is there,
or in every case if none are listed. -/
structure FreshMap where
  place : Pattern
  whenAny : List (List String) := []

def FreshMap.made (f : FreshMap) (a : YObj) : Bool :=
  f.whenAny.isEmpty || f.whenAny.any fun keys => (a.follow (keyPath keys)).isSome

structure Footprint where
  names : List Pattern
  fresh : Option FreshMap := none
  moves : List MovedVal := []

def Footprint.freshIn (f : Footprint) (a : YObj) : List Pattern :=
  (f.fresh.filter (·.made a)).toList.map (·.place)

def keysIn (path : List String) (names : List String) : List Pattern :=
  names.map fun name => keys (path ++ [name])

def movesBetween (src dst : List String) (moves : List (Kind × String × String)) :
    List MovedVal :=
  moves.map fun (kind, srcKey, dstKey) =>
    { kind, src := keys (src ++ [srcKey]), dst := keys (dst ++ [dstKey]) }

def schemaVersion : Pattern := keys ["schema_version"]

/-- The calls of `moveVal` in `migrateTo7`. -/
def dhcpMoves : List (Kind × String × String) :=
  [(.string, "gateway_ip", "gateway_ip"),
    (.string, "subnet_mask", "subnet_mask"),
    (.string, "range_start", "range_start"),
    (.string, "range_end", "range_end"),
    (.int, "lease_duration", "lease_duration"),
    (.int, "icmp_timeout_msec", "icmp_timeout_msec")]

/-- The calls of `moveVal` in `migrateTo15`. -/
def querylogMoves : List (Kind × String × String) :=
  [(.bool, "querylog_enabled", "enabled"),
    (.bool, "querylog_file_enabled", "file_enabled"),
    (.any, "querylog_interval", "interval"),
    (.int, "querylog_size_memory", "size_memory")]

/-- The calls of `moveVal` in `migrateTo24`. -/
def logMoves : List (Kind × String × String) :=
  [(.string, "log_file", "file"),
    (.int, "log_max_backups", "max_backups"),
    (.int, "log_max_size", "max_size"),
    (.int, "log_max_age", "max_age"),
    (.bool, "log_compress", "compress"),
    (.bool, "log_localtime", "local_time"),
    (.bool, "verbose", "verbose")]

/-- The calls of `moveVal` in `migrateTo26`. -/
def filteringMoves : List (Kind × String × String) :=
  [(.bool, "filtering_enabled", "filtering_enabled"),
    (.int, "filters_update_interval", "filters_update_interval"),
    (.bool, "parental_enabled", "parental_enabled"),
    (.bool, "safebrowsing_enabled", "safebrowsing_enabled"),
    (.int, "safebrowsing_cache_size", "safebrowsing_cache_size"),
    (.int, "safesearch_cache_size", "safesearch_cache_size"),
    (.int, "parental_cache_size", "parental_cache_size"),
    (.yobj, "safe_search", "safe_search"),
    (.yarr, "rewrites", "rewrites"),
    (.yobj, "blocked_services", "blocked_services"),
    (.bool, "protection_enabled", "protection_enabled"),
    (.string, "blocking_mode", "blocking_mode"),
    (.string, "blocking_ipv4", "blocking_ipv4"),
    (.string, "blocking_ipv6", "blocking_ipv6"),
    (.int, "blocked_response_ttl", "blocked_response_ttl"),
    (.any, "protection_disabled_until", "protection_disabled_until"),
    (.string, "parental_block_host", "parental_block_host"),
    (.string, "safebrowsing_block_host", "safebrowsing_block_host")]

def safeSearchKeys : List String :=
  ["enabled", "bing", "duckduckgo", "google", "pixabay", "yandex", "youtube"]

def srcKeys (moves : List (Kind × String × String)) : List String := moves.map (·.2.1)

def dstKeys (moves : List (Kind × String × String)) : List String := moves.map (·.2.2)

def persistentEach : Pattern := [.key "clients", .key "persistent", .each]

namespace Footprint

def to1 : Footprint := { names := [schemaVersion] }

def to2 : Footprint where
  names := schemaVersion :: keysIn [] ["coredns", "dns"]
  moves := movesBetween [] [] [(.any, "coredns", "dns")]

def to3 : Footprint := { names := schemaVersion :: keysIn ["dns"] ["bootstrap_dns"] }

def to4 : Footprint where
  names := [schemaVersion, [.key "clients", .each, .key "use_global_blocked_services"]]

def to5 : Footprint where
  names := schemaVersion :: keysIn [] ["auth_name", "auth_pass"] ++
    [[.key "users", .index 0, .key "name"], [.key "users", .index 0, .key "password"]]
  fresh := some { place := keys ["users"], whenAny := [["auth_pass"]] }
  moves := [{
    kind := .string
    src := keys ["auth_name"]
    dst := [.key "users", .index 0, .key "name"]
    keptWith := [["auth_pass"]] }]

def to6 : Footprint := { names := [schemaVersion, [.key "clients", .each, .key "ids"]] }

def to7 : Footprint where
  names := schemaVersion :: keysIn ["dhcp"] (srcKeys dhcpMoves) ++
    keysIn ["dhcp", "dhcpv4"] (dstKeys dhcpMoves)
  fresh := some { place := keys ["dhcp", "dhcpv4"] }
  moves := movesBetween ["dhcp"] ["dhcp", "dhcpv4"] dhcpMoves

def to8 : Footprint := { names := schemaVersion :: keysIn ["dns"] ["bind_host", "bind_hosts"] }

def to9 : Footprint where
  names := schemaVersion :: keysIn ["dns"] ["autohost_tld", "local_domain_name"]
  moves := movesBetween ["dns"] ["dns"] [(.string, "autohost_tld", "local_domain_name")]

def to10 : Footprint where
  names := schemaVersion :: keysIn ["dns"] ["upstream_dns", "local_ptr_upstreams"]

def to11 : Footprint where
  names := schemaVersion :: keysIn [] ["rlimit_nofile"] ++
    keysIn ["os"] ["group", "rlimit_nofile", "user"]
  fresh := some { place := keys ["os"] }
  moves := movesBetween [] ["os"] [(.int, "rlimit_nofile", "rlimit_nofile")]

def to12 : Footprint := { names := schemaVersion :: keysIn ["dns"] ["querylog_interval"] }

def to13 : Footprint where
  names := schemaVersion :: keysIn ["dns"] ["local_domain_name"] ++
    keysIn ["dhcp"] ["local_domain_name"]
  moves := [{
    kind := .string
    src := keys ["dns", "local_domain_name"]
    dst := keys ["dhcp", "local_domain_name"]
    needs := [["dhcp"]] }]

def to14 : Footprint where
  names := schemaVersion :: keysIn [] ["clients"] ++ keysIn ["dns"] ["resolve_clients"]
  moves := movesBetween [] ["clients"] [(.yarr, "clients", "persistent")] ++
    movesBetween ["dns"] ["clients", "runtime_sources"] [(.bool, "resolve_clients", "rdns")]

def to15 : Footprint where
  names := schemaVersion :: keysIn ["dns"] (srcKeys querylogMoves) ++
    keysIn ["querylog"] ["ignored", "enabled", "file_enabled", "interval", "size_memory"]
  fresh := some { place := keys ["querylog"], whenAny := [["dns"]] }
  moves := movesBetween ["dns"] ["querylog"] querylogMoves

def to16 : Footprint where
  names := schemaVersion :: keysIn ["dns"] ["statistics_interval"] ++
    keysIn ["statistics"] ["enabled", "interval", "ignored"]
  fresh := some { place := keys ["statistics"], whenAny := [["dns"]] }
  moves := movesBetween ["dns"] ["statistics"] [(.count, "statistics_interval", "interval")]

def to17 : Footprint where
  names := schemaVersion :: keysIn ["dns"] ["edns_client_subnet"]
  moves := movesBetween ["dns"] ["dns", "edns_client_subnet"]
    [(.bool, "edns_client_subnet", "enabled")]

def to18 : Footprint where
  names := schemaVersion :: keysIn ["dns"] ["safesearch_enabled"] ++
    keysIn ["dns", "safe_search"] safeSearchKeys
  fresh := some { place := keys ["dns", "safe_search"] }
  moves := movesBetween ["dns"] ["dns", "safe_search"] [(.bool, "safesearch_enabled", "enabled")]

def to19 : Footprint where
  names := schemaVersion :: (persistentEach ++ keys ["safesearch_enabled"]) ::
    safeSearchKeys.map fun name => persistentEach ++ keys ["safe_search", name]
  fresh := some { place := persistentEach ++ keys ["safe_search"] }
  moves := [{
    kind := .bool
    src := persistentEach ++ keys ["safesearch_enabled"]
    dst := persistentEach ++ keys ["safe_search", "enabled"] }]

def to20 : Footprint := { names := schemaVersion :: keysIn ["statistics"] ["interval"] }

def to21 : Footprint where
  names := schemaVersion :: keysIn ["dns"] ["blocked_services"]
  moves := movesBetween ["dns"] ["dns", "blocked_services"] [(.yarr, "blocked_services", "ids")]

def to22 : Footprint where
  names := [schemaVersion, persistentEach ++ keys ["blocked_services"]]
  moves := [{
    kind := .yarr
    src := persistentEach ++ keys ["blocked_services"]
    dst := persistentEach ++ keys ["blocked_services", "ids"] }]

def to23 : Footprint where
  names := schemaVersion :: keysIn [] ["bind_host", "bind_port", "web_session_ttl"] ++
    keysIn ["http"] ["address", "session_ttl"]
  fresh := some { place := keys ["http"], whenAny := [["bind_host"]] }

def to24 : Footprint where
  names := schemaVersion :: keysIn [] (srcKeys logMoves) ++ keysIn ["log"] (dstKeys logMoves)
  fresh := some { place := keys ["log"], whenAny := (srcKeys logMoves).map fun key => [key] }
  moves := movesBetween [] ["log"] logMoves

def to25 : Footprint where
  names := schemaVersion :: keysIn [] ["debug_pprof"] ++
    keysIn ["http", "pprof"] ["enabled", "port"]
  fresh := some { place := keys ["http", "pprof"] }
  moves := [{
    kind := .bool
    src := keys ["debug_pprof"]
    dst := keys ["http", "pprof", "enabled"]
    needs := [["http"]] }]

def to26 : Footprint where
  names := schemaVersion :: keysIn ["dns"] (srcKeys filteringMoves) ++
    keysIn ["filtering"] (dstKeys filteringMoves)
  fresh := some {
    place := keys ["filtering"]
    whenAny := (srcKeys filteringMoves).map fun key => ["dns", key] }
  moves := movesBetween ["dns"] ["filtering"] filteringMoves

def to27 : Footprint where
  names := schemaVersion :: keysIn ["querylog"] ["ignored"] ++ keysIn ["statistics"] ["ignored"]

def to28 : Footprint where
  names := schemaVersion :: keysIn ["dns"] ["upstream_mode", "all_servers", "fastest_addr"]

def to29 : Footprint := { names := schemaVersion :: keysIn ["filtering"] ["safe_fs_patterns"] }

def to30 : Footprint := { names := schemaVersion :: keysIn ["dns"] ["cache_enabled"] }

def to31 : Footprint where
  names := [schemaVersion, [.key "filtering", .key "rewrites", .each, .key "enabled"]]

def to32 : Footprint where
  names := schemaVersion ::
    keysIn ["dns"] ["cache_optimistic_answer_ttl", "cache_optimistic_max_age"]

def to33 : Footprint where
  names := schemaVersion :: keysIn ["querylog"] ["ignored_enabled"] ++
    keysIn ["statistics"] ["ignored_enabled"]

def to34 : Footprint where
  names := schemaVersion :: keysIn ["tls"] ["allow_unencrypted_doh"] ++
    keysIn ["http", "doh"] ["routes", "insecure_enabled"]
  fresh := some { place := keys ["http", "doh"], whenAny := [["tls"]] }
  moves := [{
    kind := .bool
    src := keys ["tls", "allow_unencrypted_doh"]
    dst := keys ["http", "doh", "insecure_enabled"]
    needs := [["http"]] }]

end Footprint

/-- The type argument reads the values of the kind and makes of them what the kind says. -/
def GoType.MovesAs {α : Type} (T : GoType α) (kind : Kind) : Prop :=
  ∀ key v w, readVal T key v = .ok w → T.box w = kind.moved v

namespace GoType

theorem movesAs_of {α : Type} {T : GoType α} {kind : Kind} (zero : T.box T.zero = kind.moved .null)
    (box : ∀ v w, T.cast v = some w → T.box w = kind.moved v) : T.MovesAs kind := by
  intro key v w read
  cases v with
  | null => rw [← Except.ok.inj read, zero]
  | _ =>
    rw [readVal] at read
    · split at read
      next x cast => rw [← Except.ok.inj read, box _ x cast]
      next => nomatch read
    · exact nofun

theorem any_movesAs : any.MovesAs .any :=
  movesAs_of rfl fun _ _ cast => (Option.some.inj cast).symm

theorem bool_movesAs : bool.MovesAs .bool :=
  movesAs_of rfl fun v _ cast => by cases v <;> cases cast; rfl

theorem int_movesAs : int.MovesAs .int :=
  movesAs_of rfl fun v _ cast => by cases v <;> cases cast; rfl

theorem string_movesAs : string.MovesAs .string :=
  movesAs_of rfl fun v _ cast => by cases v <;> cases cast; rfl

theorem yarr_movesAs : yarr.MovesAs .yarr :=
  movesAs_of rfl fun v _ cast => by cases v <;> cases cast; rfl

theorem yobj_movesAs : yobj.MovesAs .yobj :=
  movesAs_of rfl fun v _ cast => by cases v <;> cases cast; rfl

end GoType

/-- What calls of `moveVal` between two maps do, where `s` and `t` become `s'` and `t'`. -/
structure Transfer (moves : List (Kind × String × String)) (s s' t t' : YObj) : Prop where
  moved : ∀ move ∈ moves, ∀ v, s.lookup move.2.1 = some v →
    s'.lookup move.2.1 = none ∧ t'.lookup move.2.2 = some (move.1.moved v)
  srcOthers : ∀ key, key ∉ srcKeys moves → s'.lookup key = s.lookup key
  dstOthers : ∀ key, key ∉ dstKeys moves → t'.lookup key = t.lookup key
  srcNil : s = none ↔ s' = none
  dstNil : t = none ↔ t' = none
  idle : (∀ move ∈ moves, s.lookup move.2.1 = none) → s' = s ∧ t' = t

theorem moveVal_transfer {α : Type} {T : GoType α} {kind : Kind} (as : T.MovesAs kind)
    {s s' t t' : YObj} {srcKey dstKey : String}
    (done : moveVal T s t srcKey dstKey = .ok (s', t')) :
    Transfer [(kind, srcKey, dstKey)] s s' t t' := by
  obtain ⟨read, found, done⟩ := bind_ok_iff.mp done
  cases read with
  | none =>
    have absent := fieldVal_none found
    cases done
    refine ⟨?_, fun _ _ => rfl, fun _ _ => rfl, Iff.rfl, Iff.rfl, fun _ => ⟨rfl, rfl⟩⟩
    intro move member v here
    rw [List.mem_singleton.mp member, absent] at here
    nomatch here
  | some w =>
    obtain ⟨val, here, read⟩ := fieldVal_some found
    obtain ⟨made, put, done⟩ := bind_ok_iff.mp done
    cases done
    obtain ⟨there, still, looked⟩ := YObj.set_ok put
    refine ⟨?_, ?_, ?_, YObj.delete_eq_none.symm, ?_, ?_⟩
    · intro move member v found
      rw [List.mem_singleton.mp member] at found ⊢
      rw [here] at found
      rw [YObj.lookup_delete, if_pos rfl, looked, if_pos rfl, as _ _ _ read,
        Option.some.inj found]
      exact ⟨rfl, rfl⟩
    · intro key other
      rw [YObj.lookup_delete, if_neg fun same => other (List.mem_singleton.mpr same)]
    · intro key other
      rw [looked, if_neg fun same => other (List.mem_singleton.mpr same)]
    · exact ⟨fun none => absurd none there, fun none => absurd none still⟩
    · intro absent
      rw [absent _ (List.mem_singleton_self _)] at here
      nomatch here

/-- The call of `moveVal` for an entry of a list of moves. -/
def moveOf : Kind × String × String → Move
  | (.any, src, dst) => .val .any src dst
  | (.bool, src, dst) => .val .bool src dst
  | (.int, src, dst) | (.count, src, dst) => .val .int src dst
  | (.string, src, dst) => .val .string src dst
  | (.yarr, src, dst) => .val .yarr src dst
  | (.yobj, src, dst) => .val .yobj src dst

theorem moveOf_transfer {move : Kind × String × String} (typed : move.1 ≠ .count)
    {s s' t t' : YObj} (done : moveOf move s t = .ok (s', t')) : Transfer [move] s s' t t' := by
  obtain ⟨kind, src, dst⟩ := move
  cases kind with
  | any => exact moveVal_transfer GoType.any_movesAs done
  | bool => exact moveVal_transfer GoType.bool_movesAs done
  | int => exact moveVal_transfer GoType.int_movesAs done
  | string => exact moveVal_transfer GoType.string_movesAs done
  | yarr => exact moveVal_transfer GoType.yarr_movesAs done
  | yobj => exact moveVal_transfer GoType.yobj_movesAs done
  | count => exact absurd rfl typed

/-- Every move has a type, a source and a destination of its own. -/
def Separate (moves : List (Kind × String × String)) : Prop :=
  (∀ move ∈ moves, move.1 ≠ .count) ∧ (srcKeys moves).Nodup ∧ (dstKeys moves).Nodup

instance (moves : List (Kind × String × String)) : Decidable (Separate moves) :=
  inferInstanceAs (Decidable (_ ∧ _ ∧ _))

namespace Transfer

variable {move : Kind × String × String} {moves : List (Kind × String × String)}
variable {s s' s'' t t' t'' : YObj}

theorem nil (s t : YObj) : Transfer [] s s t t :=
  ⟨nofun, fun _ _ => rfl, fun _ _ => rfl, Iff.rfl, Iff.rfl, fun _ => ⟨rfl, rfl⟩⟩

theorem cons (first : Transfer [move] s s' t t') (rest : Transfer moves s' s'' t' t'')
    (src : move.2.1 ∉ srcKeys moves) (dst : move.2.2 ∉ dstKeys moves) :
    Transfer (move :: moves) s s'' t t'' where
  moved other member v here := by
    rcases List.mem_cons.mp member with rfl | later
    · obtain ⟨gone, there⟩ := first.moved other (List.mem_singleton_self _) v here
      rw [rest.srcOthers _ src, rest.dstOthers _ dst]
      exact ⟨gone, there⟩
    · apply rest.moved other later v
      rw [first.srcOthers, here]
      intro same
      have equal : other.2.1 = move.2.1 := List.mem_singleton.mp same
      rw [← equal] at src
      exact src (List.mem_map_of_mem later)
  srcOthers key other := by
    obtain ⟨ne, later⟩ := not_or.mp (mt List.mem_cons.mpr other)
    rw [rest.srcOthers key later, first.srcOthers key (by simpa [srcKeys] using ne)]
  dstOthers key other := by
    obtain ⟨ne, later⟩ := not_or.mp (mt List.mem_cons.mpr other)
    rw [rest.dstOthers key later, first.dstOthers key (by simpa [dstKeys] using ne)]
  srcNil := first.srcNil.trans rest.srcNil
  dstNil := first.dstNil.trans rest.dstNil
  idle absent := by
    obtain ⟨rfl, rfl⟩ := first.idle fun other member => by
      rw [List.mem_singleton.mp member]
      exact absent move List.mem_cons_self
    exact rest.idle fun other later => absent other (List.mem_cons_of_mem _ later)

end Transfer

/-- Without an error message every call has succeeded. -/
theorem joinStep_ok {moves : List Move} {state : (YObj × YObj) × List String}
    {moved : YObj × YObj} (done : moves.foldlM joinStep state = .ok (moved, [])) :
    state.2 = [] ∧ moves.foldlM (fun maps move => move maps.1 maps.2) state.1 = .ok moved := by
  induction moves generalizing state with
  | nil =>
    cases done
    exact ⟨rfl, rfl⟩
  | cons move rest ih =>
    obtain ⟨next, here, later⟩ := bind_ok_iff.mp done
    obtain ⟨clean, others⟩ := ih later
    rw [joinStep] at here
    cases called : move state.1.1 state.1.2 with
    | ok maps =>
      rw [called] at here
      cases here
      rw [List.foldlM_cons, called]
      exact ⟨clean, others⟩
    | error failure =>
      rw [called] at here
      cases failure with
      | panic => nomatch here
      | error message =>
        cases here
        simp at clean

theorem joinMoves_ok {moves : List Move} {s t : YObj} {moved : YObj × YObj}
    (done : joinMoves moves s t = .ok moved) :
    moves.foldlM (fun maps move => move maps.1 maps.2) (s, t) = .ok moved := by
  obtain ⟨⟨maps, messages⟩, folded, done⟩ := bind_ok_iff.mp done
  dsimp only at done
  split at done
  next clean =>
    rw [clean] at folded
    obtain rfl := Except.ok.inj done
    exact (joinStep_ok folded).2
  next => nomatch done

theorem joinMoves_transfer {moves : List (Kind × String × String)} (separate : Separate moves)
    {s s' t t' : YObj} (done : joinMoves (moves.map moveOf) s t = .ok (s', t')) :
    Transfer moves s s' t t' := by
  have run := joinMoves_ok done
  clear done
  induction moves generalizing s t with
  | nil =>
    cases run
    exact .nil _ _
  | cons move rest ih =>
    obtain ⟨typed, srcs, dsts⟩ := separate
    obtain ⟨⟨s₁, t₁⟩, here, later⟩ := bind_ok_iff.mp run
    obtain ⟨src, srcs⟩ := List.nodup_cons.mp srcs
    obtain ⟨dst, dsts⟩ := List.nodup_cons.mp dsts
    have first := moveOf_transfer (typed move List.mem_cons_self) here
    exact first.cons
      (ih ⟨fun other member => typed other (List.mem_cons_of_mem _ member), srcs, dsts⟩ later)
      src dst

end AdGuardHome.Configmigrate
