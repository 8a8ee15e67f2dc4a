import AdGuardHome.Configmigrate.LateEffects

/-! Package `configmigrate`: `Migrate`, and what it keeps of a configuration over all the
migrations that it runs. -/
namespace AdGuardHome.Configmigrate

open Fallible TreeFrames

/-- Package `yaml`, as far as it is used. -/
structure Yaml where
  /-- `yaml.Unmarshal` into an empty map. -/
  unmarshal : (body : String) → Except String YObj
  /-- `Encoder.Encode` with an indent of two. -/
  encode : YObj → Except String String

/-- `LastSchemaVersion`. -/
def lastSchemaVersion : Nat := 34

def validateVersion (current target : Nat) : Go Unit :=
  if target < current then fail ("unknown current schema version " ++ toString current)
  else if lastSchemaVersion < target then
    fail ("unknown target schema version " ++ toString target)
  else if target < current then
    fail ("target schema version " ++ toString target ++ " lower than current " ++
      toString current)
  else return

namespace Migrator

def upgrades (m : Migrator) : List (YObj → Go YObj) :=
  [migrateTo1, migrateTo2, migrateTo3, migrateTo4, migrateTo5 m, migrateTo6, migrateTo7,
    migrateTo8, migrateTo9, migrateTo10 m, migrateTo11, migrateTo12, migrateTo13, migrateTo14,
    migrateTo15, migrateTo16, migrateTo17, migrateTo18, migrateTo19, migrateTo20, migrateTo21,
    migrateTo22, migrateTo23 m, migrateTo24, migrateTo25, migrateTo26, migrateTo27, migrateTo28,
    migrateTo29 m, migrateTo30, migrateTo31, migrateTo32, migrateTo33, migrateTo34]

/-- One round of the loop in `upgradeConfigSchema`. -/
def upgradeStep (current : Nat) (diskConf : YObj) (indexed : (YObj → Go YObj) × Nat) : Go YObj :=
  match indexed.1 diskConf with
  | .error (.error err) =>
    fail ("migrating schema " ++ toString (current + indexed.2) ++ " to " ++
      toString (current + indexed.2 + 1) ++ ": " ++ err)
  | result => result

def upgradeConfigSchema (m : Migrator) (current target : Nat) (diskConf : YObj) : Go YObj :=
  ((m.upgrades.take target).drop current).zipIdx.foldlM (upgradeStep current) diskConf

/-- The version that `Migrate` starts from. -/
def currentVersion (diskConf : YObj) : Go Nat := do
  let currentInt ← fieldVal .int diskConf "schema_version"
  return (currentInt.getD 0 % 2 ^ 64).toNat

/-- `Migrate`, which with an error gives back the body as it was. -/
def migrate (m : Migrator) (yaml : Yaml) (body : String) (target : Nat) : Go (String × Bool) :=
  match yaml.unmarshal body with
  | .error err => fail ("parsing config file for upgrade: " ++ err)
  | .ok diskConf => do
    let current ← currentVersion diskConf
    validateVersion current target
    if current = target then return (body, false)
    let diskConf ← m.upgradeConfigSchema current target diskConf
    match yaml.encode diskConf with
    | .error err => fail ("generating new config: " ++ err)
    | .ok newBody => return (newBody, true)

end Migrator

def footprints : List Footprint :=
  [.to1, .to2, .to3, .to4, .to5, .to6, .to7, .to8, .to9, .to10, .to11, .to12, .to13, .to14,
    .to15, .to16, .to17, .to18, .to19, .to20, .to21, .to22, .to23, .to24, .to25, .to26, .to27,
    .to28, .to29, .to30, .to31, .to32, .to33, .to34]

/-- The footprint of the step from version `i`. -/
def footprintAt (i : Nat) : Footprint := footprints.getD i { names := [] }

/-- The path meets a key that a step from `current` to `target` names. -/
def NamedBetween (current target : Nat) : Path → Prop :=
  Run.NamedIn Slot.Fits current target fun i => (footprintAt i).names

/-- The step from version `i` in a run of `upgradeConfigSchema`. -/
structure Migrator.Executes (m : Migrator) (current target : Nat) (conf : YObj) (i : Nat)
    (a b : YObj) : Prop where
  from_current : current ≤ i
  before_target : i < target
  before : m.upgradeConfigSchema current i conf = .ok a
  after : m.upgradeConfigSchema current (i + 1) conf = .ok b

/-- What migration should keep: every value that a step moves appears unchanged under its new
key and not under the old one, every key that no step names keeps its value, and after the step
to version 33 each section with an ignored list says whether it is non-empty. -/
structure Migrator.KeepsRest (m : Migrator) (current target : Nat) (conf final : YObj) :
    Prop where
  moved : ∀ i a b, m.Executes current target conf i a b →
    ∀ mv ∈ (footprintAt i).moves, mv.Unchanged a b
  unnamed : ∀ path, ¬ NamedBetween current target path → final.follow path = conf.follow path
  ignored : ∀ a b, m.Executes current target conf 32 a b →
    IgnoredFlag b "querylog" ∧ IgnoredFlag b "statistics"

/-- When it does: no step moves a null at a type of its own or drops what it has moved, there
is nothing in a section that a step replaces but what the steps name, and the step to version
33 finds an ignored list in the query log or nothing to do in the statistics. -/
structure Migrator.KeepsWhen (m : Migrator) (current target : Nat) (conf : YObj) : Prop where
  moved : ∀ i a b, m.Executes current target conf i a b →
    ∀ mv ∈ (footprintAt i).moves, mv.Whole a
  unnamed : ∀ i a b, m.Executes current target conf i a b →
    ∀ path, ¬ NamedBetween current target path →
      Inside Slot.Fits ((footprintAt i).freshIn a) path → a.follow path = none
  ignored : ∀ a b, m.Executes current target conf 32 a b →
    a.follow (keyPath ["querylog", "ignored"]) = none → IgnoredFlag a "statistics"

theorem Kind.moved_eq_iff {kind : Kind} {v : Val} (takes : kind.takes v = true) :
    kind.moved v = v ↔ kind = .any ∨ v ≠ .null := by
  cases v with
  | null =>
    cases kind with
    | count => nomatch takes
    | _ => simp [Kind.moved]
  | _ => cases kind <;> simp [Kind.moved]

theorem MovedVal.Lands.unchanged_iff {mv : MovedVal} {a b : YObj} (lands : mv.Lands a b) :
    mv.Unchanged a b ↔ mv.Whole a := by
  constructor
  · intro unchanged i v moves
    obtain ⟨there, _⟩ := unchanged i v moves
    constructor
    · intro kept
      have landed := (lands.kept i v moves kept).symm.trans there
      exact (Kind.moved_eq_iff moves.2.1).mp (Option.some.inj landed)
    · intro dropped
      exact (lands.dropped i v moves dropped).symm.trans there
  · intro whole i v moves
    obtain ⟨typed, same⟩ := whole i v moves
    refine ⟨?_, lands.gone i v moves⟩
    by_cases kept : present a mv.keptWith
    · rw [lands.kept i v moves kept, (Kind.moved_eq_iff moves.2.1).mpr (typed kept)]
    · rw [lands.dropped i v moves kept, same kept]

theorem upgrades_describe (m : Migrator) :
    List.Forall₂ (fun migrate f => ∀ a b, migrate a = .ok b → Footprint.Describes f a b)
      m.upgrades footprints :=
  .cons (fun _ _ => migrateTo1_describes) <| .cons (fun _ _ => migrateTo2_describes) <|
  .cons (fun _ _ => migrateTo3_describes) <| .cons (fun _ _ => migrateTo4_describes) <|
  .cons (fun _ _ => migrateTo5_describes) <| .cons (fun _ _ => migrateTo6_describes) <|
  .cons (fun _ _ => migrateTo7_describes) <| .cons (fun _ _ => migrateTo8_describes) <|
  .cons (fun _ _ => migrateTo9_describes) <| .cons (fun _ _ => migrateTo10_describes) <|
  .cons (fun _ _ => migrateTo11_describes) <| .cons (fun _ _ => migrateTo12_describes) <|
  .cons (fun _ _ => migrateTo13_describes) <| .cons (fun _ _ => migrateTo14_describes) <|
  .cons (fun _ _ => migrateTo15_describes) <| .cons (fun _ _ => migrateTo16_describes) <|
  .cons (fun _ _ => migrateTo17_describes) <| .cons (fun _ _ => migrateTo18_describes) <|
  .cons (fun _ _ => migrateTo19_describes) <| .cons (fun _ _ => migrateTo20_describes) <|
  .cons (fun _ _ => migrateTo21_describes) <| .cons (fun _ _ => migrateTo22_describes) <|
  .cons (fun _ _ => migrateTo23_describes) <| .cons (fun _ _ => migrateTo24_describes) <|
  .cons (fun _ _ => migrateTo25_describes) <| .cons (fun _ _ => migrateTo26_describes) <|
  .cons (fun _ _ => migrateTo27_describes) <| .cons (fun _ _ => migrateTo28_describes) <|
  .cons (fun _ _ => migrateTo29_describes) <| .cons (fun _ _ => migrateTo30_describes) <|
  .cons (fun _ _ => migrateTo31_describes) <| .cons (fun _ _ => migrateTo32_describes) <|
  .cons (fun _ _ => migrateTo33_describes) <| .cons (fun _ _ => migrateTo34_describes) .nil

namespace Migrator

variable {m : Migrator} {current target : Nat} {conf final : YObj} {a b : YObj} {i : Nat}
  {migrate : YObj → Go YObj}

theorem describes_at (here : m.upgrades[i]? = some migrate) (done : migrate a = .ok b) :
    (footprintAt i).Describes a b := by
  have each := upgrades_describe m
  generalize m.upgrades = ups at each here
  rw [footprintAt]
  generalize footprints = fs at each
  induction each generalizing i with
  | nil => nomatch here
  | cons head _ ih =>
    cases i with
    | zero =>
      cases here
      exact head a b done
    | succ i => exact ih here

theorem upgradeConfigSchema_self (m : Migrator) (current : Nat) (conf : YObj) :
    m.upgradeConfigSchema current current conf = .ok conf := by
  have nothing : (m.upgrades.take current).drop current = [] :=
    List.drop_eq_nil_of_le (List.length_take_le _ _)
  rw [upgradeConfigSchema, nothing]
  rfl

/-- A run to the next version is a run with one more step. -/
theorem upgradeConfigSchema_succ (later : current ≤ i) (here : m.upgrades[i]? = some migrate)
    (conf : YObj) :
    m.upgradeConfigSchema current (i + 1) conf =
      m.upgradeConfigSchema current i conf >>= fun conf =>
        upgradeStep current conf (migrate, i - current) := by
  have bound : i < m.upgrades.length := (List.getElem?_eq_some_iff.mp here).1
  have full : (m.upgrades.take i).length = i := by
    rw [List.length_take, Nat.min_eq_left (Nat.le_of_lt bound)]
  have split : (m.upgrades.take (i + 1)).drop current =
      (m.upgrades.take i).drop current ++ [migrate] := by
    rw [List.take_add_one, here, List.drop_append_of_le_length (by rw [full]; exact later)]
    rfl
  rw [upgradeConfigSchema, split, List.zipIdx_append, List.foldlM_append, List.length_drop, full]
  simp only [upgradeConfigSchema, Nat.zero_add, List.zipIdx_singleton, List.foldlM_cons,
    List.foldlM_nil, bind_pure]

theorem upgradeStep_ok (done : upgradeStep current a (migrate, i) = .ok b) : migrate a = .ok b := by
  rw [upgradeStep] at done
  split at done
  next => nomatch done
  next => exact done

def stateAt (m : Migrator) (current : Nat) (conf : YObj) (i : Nat) : YObj :=
  (m.upgradeConfigSchema current i conf).toOption.getD none

theorem upgrade_at (m : Migrator) (known : i < lastSchemaVersion) :
    ∃ migrate, m.upgrades[i]? = some migrate :=
  ⟨_, List.getElem?_eq_getElem (show i < m.upgrades.length from known)⟩

/-- A run that reaches the target has been at every version before it. -/
theorem run_before (done : m.upgradeConfigSchema current target conf = .ok final)
    (known : target ≤ lastSchemaVersion) (later : current ≤ i) (before : i ≤ target) :
    m.upgradeConfigSchema current i conf = .ok (m.stateAt current conf i) := by
  induction before generalizing final with
  | refl =>
    rw [stateAt, done]
    rfl
  | @step target before ih =>
    obtain ⟨migrate, here⟩ := m.upgrade_at known
    rw [upgradeConfigSchema_succ (Nat.le_trans later before) here] at done
    obtain ⟨earlier, reached, _⟩ := bind_ok_iff.mp done
    exact ih reached (Nat.le_of_succ_le known)

theorem Executes.describes (known : target ≤ lastSchemaVersion)
    (step : m.Executes current target conf i a b) : (footprintAt i).Describes a b := by
  obtain ⟨migrate, here⟩ := m.upgrade_at (Nat.lt_of_lt_of_le step.before_target known)
  have after := step.after
  rw [upgradeConfigSchema_succ step.from_current here, step.before] at after
  exact describes_at here (upgradeStep_ok after)

theorem executes_at (done : m.upgradeConfigSchema current target conf = .ok final)
    (known : target ≤ lastSchemaVersion) (later : current ≤ i) (before : i < target) :
    m.Executes current target conf i (m.stateAt current conf i)
      (m.stateAt current conf (i + 1)) where
  from_current := later
  before_target := before
  before := run_before done known later (Nat.le_of_lt before)
  after := run_before done known (Nat.le_succ_of_le later) before

theorem Executes.eq_stateAt (step : m.Executes current target conf i a b) :
    a = m.stateAt current conf i := by
  rw [stateAt, step.before]
  rfl

/-- The frames of the steps make up a run. -/
theorem frames (done : m.upgradeConfigSchema current target conf = .ok final)
    (known : target ≤ lastSchemaVersion) :
    Run Val.child Slot.Fits current target (fun i => (footprintAt i).names)
      (fun i => (footprintAt i).freshIn (m.stateAt current conf i))
      (fun i => some (.obj (m.stateAt current conf i))) where
  step _ later before := ((executes_at done known later before).describes known).kept.frame

theorem executes_to33 (step : m.Executes current target conf 32 a b) :
    migrateTo33 a = .ok b := by
  have here : m.upgrades[32]? = some migrateTo33 := rfl
  have after := step.after
  rw [upgradeConfigSchema_succ step.from_current here, step.before] at after
  exact upgradeStep_ok after

/-- A run keeps what it should exactly when nothing goes wrong in any of its steps. -/
theorem keepsRest_iff (done : m.upgradeConfigSchema current target conf = .ok final)
    (ordered : current ≤ target) (known : target ≤ lastSchemaVersion) :
    m.KeepsRest current target conf final ↔ m.KeepsWhen current target conf := by
  have first : m.stateAt current conf current = conf := by
    rw [stateAt, upgradeConfigSchema_self]
    rfl
  have last : m.stateAt current conf target = final := by
    rw [stateAt, done]
    rfl
  have kept_iff : ∀ path, ¬ NamedBetween current target path →
      (final.follow path = conf.follow path ↔
        ∀ i, current ≤ i → i < target →
          Inside Slot.Fits ((footprintAt i).freshIn (m.stateAt current conf i)) path →
            (m.stateAt current conf i).follow path = none) := by
    intro path unnamed
    have kept := (frames done known).kept_iff ordered unnamed
    rw [first, last] at kept
    exact kept
  constructor
  · intro keeps
    refine ⟨?_, ?_, ?_⟩
    · intro i a b step mv member
      exact ((step.describes known).lands mv member).unchanged_iff.mp
        (keeps.moved i a b step mv member)
    · intro i a b step path unnamed inside
      rw [step.eq_stateAt] at inside ⊢
      exact (kept_iff path unnamed).mp (keeps.unnamed path unnamed) i step.from_current
        step.before_target inside
    · intro a b step
      exact (migrateTo33_flags (executes_to33 step)).mp (keeps.ignored a b step)
  · intro whole
    refine ⟨?_, ?_, ?_⟩
    · intro i a b step mv member
      exact ((step.describes known).lands mv member).unchanged_iff.mpr
        (whole.moved i a b step mv member)
    · intro path unnamed
      apply (kept_iff path unnamed).mpr
      intro i later before inside
      exact whole.unnamed i _ _ (executes_at done known later before) path unnamed inside
    · intro a b step
      exact (migrateTo33_flags (executes_to33 step)).mpr (whole.ignored a b step)

theorem validateVersion_ok (valid : validateVersion current target = .ok ()) :
    current ≤ target ∧ target ≤ lastSchemaVersion := by
  rw [validateVersion] at valid
  split at valid
  next => nomatch valid
  next ordered =>
    split at valid
    next => nomatch valid
    next known => exact ⟨Nat.le_of_not_lt ordered, Nat.le_of_not_lt known⟩

/-- A call of `Migrate` has read `conf` at version `current`, has run the steps up to the
target, and has written what they have made of it unless there were none. -/
structure Migrated (m : Migrator) (yaml : Yaml) (body : String) (target : Nat)
    (newBody : String) (upgraded : Bool) (current : Nat) (conf final : YObj) : Prop where
  read : yaml.unmarshal body = .ok conf
  version : currentVersion conf = .ok current
  run : m.upgradeConfigSchema current target conf = .ok final
  written : if upgraded then yaml.encode final = .ok newBody else newBody = body

variable {yaml : Yaml} {body newBody : String} {upgraded : Bool}

theorem migrate_ok (done : m.migrate yaml body target = .ok (newBody, upgraded)) :
    ∃ current conf final, m.Migrated yaml body target newBody upgraded current conf final ∧
      current ≤ target ∧ target ≤ lastSchemaVersion := by
  rw [migrate] at done
  split at done
  next => nomatch done
  next conf read =>
    obtain ⟨current, version, done⟩ := bind_ok_iff.mp done
    obtain ⟨_, valid, done⟩ := bind_ok_iff.mp done
    obtain ⟨ordered, known⟩ := validateVersion_ok valid
    refine ⟨current, conf, ?_⟩
    split at done
    next same =>
      cases done
      rw [← same] at known ⊢
      exact ⟨conf, ⟨read, version, m.upgradeConfigSchema_self _ _, rfl⟩, Nat.le_refl _, known⟩
    next =>
      obtain ⟨final, run, done⟩ := bind_ok_iff.mp done
      split at done
      next => nomatch done
      next newBody encoded =>
        cases done
        exact ⟨final, ⟨read, version, run, encoded⟩, ordered, known⟩

/-- A successful call of `Migrate` keeps the rest exactly where nothing gets in its way. -/
theorem migrate_keepsRest_iff (done : m.migrate yaml body target = .ok (newBody, upgraded)) :
    ∃ current conf final, m.Migrated yaml body target newBody upgraded current conf final ∧
      (m.KeepsRest current target conf final ↔ m.KeepsWhen current target conf) := by
  obtain ⟨current, conf, final, migrated, ordered, known⟩ := migrate_ok done
  exact ⟨current, conf, final, migrated, keepsRest_iff migrated.run ordered known⟩

end Migrator

/-- A migrator whose packages the step to version 33 does not call. -/
def migratorTo33 : Migrator where
  generateFromPassword _ _ := .error "not called"
  parseAddr _ := none
  addrPortString _ _ := ""
  durationString _ := ""
  urlParse _ := none
  splitHost _ := none
  filepathJoin := "/".intercalate
  filepathIsAbs path := path.toList.head? = some '/'
  dataDir := "/opt/AdGuardHome/data"
  salt := ""

/-- Package `yaml` on one document and on what is written for it. -/
def yamlOf (body newBody : String) (conf : YObj) : Yaml where
  unmarshal text := if text = body then .ok conf else .error "yaml: another document"
  encode _ := .ok newBody

/-- Statistics settings with `ignored`, after the rest of a configuration. -/
def withStatistics (rest : List (String × Val)) : YObj :=
  some (rest ++ [("statistics", .obj (some [("ignored", .arr [.str "|.^"])]))])

def bothBody : String :=
  "schema_version: 32\nquerylog:\n  ignored: []\nstatistics:\n  ignored:\n    - '|.^'\n"

def bothNewBody : String :=
  "querylog:\n  ignored: []\n  ignored_enabled: false\nschema_version: 33\n" ++
    "statistics:\n  ignored:\n    - '|.^'\n  ignored_enabled: true\n"

def bothYaml : Yaml := yamlOf bothBody bothNewBody (withStatistics
  [("querylog", .obj (some [("ignored", .arr [])])), ("schema_version", .int 32)])

theorem migrate_keepsRest_iff_both :
    ∃ conf final, migratorTo33.Migrated bothYaml bothBody 33 bothNewBody true 32 conf final ∧
      migratorTo33.KeepsRest 32 33 conf final := by
  obtain ⟨current, conf, final, migrated, keeps⟩ :=
    @Migrator.migrate_keepsRest_iff migratorTo33 33 bothYaml bothBody bothNewBody true rfl
  obtain rfl := Except.ok.inj migrated.read
  obtain rfl := Except.ok.inj migrated.version
  refine ⟨_, final, migrated, keeps.mpr ?_⟩
  have only : ∀ {conf i a b}, migratorTo33.Executes 32 33 conf i a b → i = 32 :=
    fun executes => Nat.le_antisymm (Nat.le_of_lt_succ executes.before_target) executes.from_current
  constructor
  case moved =>
    intro i a b executes mv member
    obtain rfl := only executes
    cases member
  case unnamed =>
    intro i a b executes path _ inside
    obtain rfl := only executes
    obtain ⟨_, fresh, _⟩ := inside
    cases fresh
  case ignored =>
    intro a b executes missing
    obtain rfl := Except.ok.inj executes.before
    cases missing

def statisticsBody (version : String) : String :=
  "schema_version: " ++ version ++ "\nstatistics:\n  ignored:\n    - '|.^'\n"

def statisticsYaml : Yaml := yamlOf (statisticsBody "32") (statisticsBody "33")
  (withStatistics [("schema_version", .int 32)])

/-- Without a section for the query log the statistics do not get their flag. -/
theorem statistics_flag_missing :
    migratorTo33.migrate statisticsYaml (statisticsBody "32") 33 =
        .ok (statisticsBody "33", true) ∧
      migratorTo33.upgradeConfigSchema 32 33 (withStatistics [("schema_version", .int 32)]) =
        .ok (withStatistics [("schema_version", .int 33)]) ∧
      ¬ migratorTo33.KeepsRest 32 33 (withStatistics [("schema_version", .int 32)])
        (withStatistics [("schema_version", .int 33)]) := by
  have run : migratorTo33.upgradeConfigSchema 32 33
      (withStatistics [("schema_version", .int 32)]) =
        .ok (withStatistics [("schema_version", .int 33)]) := rfl
  refine ⟨rfl, run, ?_⟩
  intro keeps
  have executed : migratorTo33.Executes 32 33 (withStatistics [("schema_version", .int 32)]) 32
      (withStatistics [("schema_version", .int 32)])
      (withStatistics [("schema_version", .int 33)]) :=
    ⟨Nat.le_refl 32, Nat.lt_succ_self 32, rfl, run⟩
  have flag := (keeps.ignored _ _ executed).2 [.str "|.^"] rfl
  nomatch flag

end AdGuardHome.Configmigrate
