import AdGuardHome.Dnsforward.RebindLock
import AdGuardHome.Gamemode

namespace AdGuardHome.Home.AddOns

open Dnsforward Gamemode Locking Strings

/-- `telebot.Config`. -/
structure BotConfig where
  enabled : Bool
  botToken : Bytes
  adminChatID : Bytes
  notifyThreats : Bool
  notifyDDoS : Bool
  notifyDailyReport : Bool
deriving DecidableEq

/-- The configuration of the bot that `GetGlobalBot` makes. -/
def defaultBot : BotConfig := ⟨false, [], [], true, true, true⟩

/-- `gamemode.Config`. -/
structure GameConfig where
  enabled : Bool
  focus : Bytes
  bypassCosmetic : Bool
  lowLatencyDNS : Bool
  customDomains : List Bytes
deriving DecidableEq

/-- The fields of `RebindConfig` that are written. -/
structure RebindSection where
  enabled : Bool
  strictMode : Bool
  whitelistedDomains : List Bytes
deriving DecidableEq

/-- The three sections of the configuration; each may be missing. -/
structure Configuration where
  telegram : Option BotConfig
  gameMode : Option GameConfig
  rebind : Option RebindSection
deriving DecidableEq

/-- `strings.ToLower`, and how `yaml` writes and reads the sections in a file. -/
structure Funcs (Text : Type) where
  toLower : Bytes → Bytes
  encode : Configuration → Text
  decode : Text → Option Configuration

/-- What is written is read again, and ASCII text without capitals is its own lower case. -/
structure Documented {Text : Type} (funcs : Funcs Text) : Prop where
  decode_encode : ∀ conf, funcs.decode (funcs.encode conf) = some conf
  toLower_ascii : ∀ s : Bytes, (∀ byte ∈ s, byte < 0x80 ∧ ¬ (0x41 ≤ byte ∧ byte ≤ 0x5A)) →
    funcs.toLower s = s

structure Walk where
  order : List Bytes → List Bytes
  perm : ∀ keys, (order keys).Perm keys

/-- The variables of the three packages, `config` and the file. -/
structure Process (Text : Type) where
  bot : BotConfig
  game : Gamemode.State
  rebindMu : RWMutex
  rebindConf : RebindConfig
  config : Configuration
  file : Option Text

def Process.fresh {Text : Type} (file : Option Text) : Process Text where
  bot := defaultBot
  game := ⟨true, .all, []⟩
  rebindMu := .free
  rebindConf := Dnsforward.rebindConf
  config := ⟨none, none, none⟩
  file := file

/-- Why a change is not followed by a write. -/
inductive Stop where
  | rejected
  | blocked
deriving DecidableEq

/-- How `SetFocusMode` and `UpdateConfig` read a focus. -/
def focusOf (toLower : Bytes → Bytes) (focus : Bytes) : Focus :=
  let focus := toLower (trimSpace focus)
  if focus ∈ [lit "garena", lit "ff", lit "freefire"] then .garena
  else if focus ∈ [lit "tencent", lit "pubg", lit "pubgm", lit "hok"] then .tencent
  else .all

/-- The value of `globalFocus`. -/
def focusText : Focus → Bytes
  | .all => lit "all"
  | .garena => lit "garena"
  | .tencent => lit "tencent"

/-- `SetFocusMode`. -/
def setFocusMode (toLower : Bytes → Bytes) (focus : Bytes) (s : Gamemode.State) :
    Gamemode.State :=
  match focusOf toLower focus with
  | .all => { s with globalFocus := .all }
  | focus => { s with globalFocus := focus, globalEnabled := true }

/-- `Toggle`. -/
def toggle (s : Gamemode.State) : Gamemode.State :=
  { s with globalEnabled := !s.globalEnabled }

/-- `GetConfig` of package `gamemode`. -/
def gameConfig (walk : Walk) (s : Gamemode.State) : GameConfig :=
  ⟨s.globalEnabled, focusText s.globalFocus, true, true, walk.order s.customDomains⟩

/-- The keys of `customDomains` that `UpdateConfig` makes. -/
def cleanDomains (toLower : Bytes → Bytes) (domains : List Bytes) : List Bytes :=
  ((domains.map fun d => toLower (trimSuffix (trimSpace d) (lit "."))).filter (· ≠ [])).dedup

/-- `UpdateConfig` of package `gamemode`. -/
def updateConfig (toLower : Bytes → Bytes) (conf : GameConfig) (s : Gamemode.State) :
    Gamemode.State where
  globalEnabled := conf.enabled
  globalFocus := if conf.focus = [] then s.globalFocus else focusOf toLower conf.focus
  customDomains := cleanDomains toLower conf.customDomains

/-- A request that changes settings. The bot may be unable to connect. -/
inductive Change where
  | telegram (req : BotConfig) (connects : Bool)
  | gameToggle
  | gameConfig (enabled : Bool) (focus : Bytes) (customDomains : Option (List Bytes))
  | gameMenu (mode : Bytes)
  | rebind (enabled strictMode : Bool) (whitelisted : List Bytes)

/-- `handlePostGameModeConfig`; what `GetConfig` finds is replaced at once. -/
def postGameModeConfig (toLower : Bytes → Bytes) (walk : Walk) (enabled : Bool) (focus : Bytes)
    (customDomains : Option (List Bytes)) (s : Gamemode.State) : Gamemode.State :=
  let s := if focus = [] then s else setFocusMode toLower focus s
  let s := { s with globalEnabled := enabled }
  match customDomains with
  | none => s
  | some customDomains =>
    updateConfig toLower { AddOns.gameConfig walk s with customDomains := customDomains } s

/-- `ToggleGameModeFunc`. -/
def toggleGameMode (toLower : Bytes → Bytes) (mode : Bytes) (s : Gamemode.State) :
    Gamemode.State :=
  let mode := toLower (trimSpace mode)
  if mode ∈ [lit "garena", lit "ff", lit "freefire"] then setFocusMode toLower (lit "garena") s
  else if mode ∈ [lit "tencent", lit "pubg", lit "pubgm", lit "hok"] then
    setFocusMode toLower (lit "tencent") s
  else if mode ∈ [lit "all", lit "on", lit "enable"] then
    { setFocusMode toLower (lit "all") s with globalEnabled := true }
  else if mode ∈ [lit "off", lit "disable"] then { s with globalEnabled := false }
  else toggle s

variable {Text : Type}

/-- What the handler of the request does before it writes the configuration. -/
def Process.change (funcs : Funcs Text) (walk : Walk) (p : Process Text) : Change → Except Stop (Process Text)
  | .telegram req connects =>
    if req.enabled ∧ trimSpace req.botToken ≠ [] ∧ ¬ connects then .error .rejected
    else .ok { p with bot := req, config := { p.config with telegram := some req } }
  | .gameToggle => .ok { p with game := toggle p.game }
  | .gameConfig enabled focus customDomains =>
    .ok { p with game := postGameModeConfig funcs.toLower walk enabled focus customDomains p.game }
  | .gameMenu mode => .ok { p with game := toggleGameMode funcs.toLower mode p.game }
  | .rebind enabled strictMode whitelisted =>
    match (RebindLock.setRebindConfig funcs.toLower enabled strictMode whitelisted).alone
        p.rebindMu p.rebindConf with
    | (_, none) => .error .blocked
    | ((rebindMu, rebindConf), some _) => .ok { p with rebindMu, rebindConf }

/-- `configuration.write`, as far as the three sections go. -/
def Process.write (funcs : Funcs Text) (walk : Walk) (p : Process Text) : Except Stop (Process Text) :=
  match RebindLock.getRebindConfig.alone p.rebindMu p.rebindConf with
  | (_, none) => .error .blocked
  | ((rebindMu, rebindConf), some conf) =>
    let config : Configuration :=
      { telegram :=
          if p.bot.botToken ≠ [] ∨ p.bot.adminChatID ≠ [] ∨ p.bot.enabled then some p.bot
          else p.config.telegram
        gameMode := some (gameConfig walk p.game)
        rebind := some ⟨conf.enabled, conf.strictMode, conf.whitelistedDomains⟩ }
    .ok { p with rebindMu, rebindConf, config, file := some (funcs.encode config) }

def Process.changeAndWrite (funcs : Funcs Text) (p : Process Text) (change : Change) (walk : Walk) :
    Except Stop (Process Text) := do
  let p ← p.change funcs walk change
  p.write funcs walk

def Process.run (funcs : Funcs Text) : Process Text → List (Change × Walk) → Except Stop (Process Text)
  | p, [] => .ok p
  | p, (change, walk) :: rest => do
    let p ← p.changeAndWrite funcs change walk
    p.run funcs rest

/-- `parseConfig` of a process that has just started, as far as the three sections go: what it
leaves behind, and whether it returns. -/
def load (funcs : Funcs Text) (file : Option Text) : Process Text × Bool :=
  match file with
  | none => (.fresh none, true)
  | some text =>
    match funcs.decode text with
    | none => (.fresh file, false)
    | some config =>
      let p := { Process.fresh file with
        config
        bot := config.telegram.getD defaultBot
        game := match config.gameMode with
          | none => (Process.fresh file).game
          | some conf => updateConfig funcs.toLower conf (Process.fresh file).game }
      match config.rebind with
      | none => (p, true)
      | some conf =>
        match (RebindLock.setRebindConfig funcs.toLower conf.enabled conf.strictMode
            conf.whitelistedDomains).alone p.rebindMu p.rebindConf with
        | ((rebindMu, rebindConf), result) => ({ p with rebindMu, rebindConf }, result.isSome)

structure Process.Agrees (first second : Process Text) : Prop where
  bot : first.bot = second.bot
  enabled : first.game.globalEnabled = second.game.globalEnabled
  focus : first.game.globalFocus = second.game.globalFocus
  customDomains : ∀ d, d ∈ first.game.customDomains ↔ d ∈ second.game.customDomains
  rebindEnabled : first.rebindConf.enabled = second.rebindConf.enabled
  strictMode : first.rebindConf.strictMode = second.rebindConf.strictMode
  whitelistedDomains : ∀ d, d ∈ first.rebindConf.whitelistedDomains ↔
    d ∈ second.rebindConf.whitelistedDomains

/-- Loading the file in a fresh process ends and restores the settings. -/
def Process.Restored (funcs : Funcs Text) (p : Process Text) : Prop :=
  (load funcs p.file).2 = true ∧ (load funcs p.file).1.Agrees p

/-- Cleaning the custom domains again makes the same set of them. -/
def Process.Clean (funcs : Funcs Text) (p : Process Text) : Prop :=
  ∀ d, d ∈ cleanDomains funcs.toLower p.game.customDomains ↔ d ∈ p.game.customDomains

variable {Text : Type} {funcs : Funcs Text}

theorem setRebindConfig_alone (toLower : Bytes → Bytes) (enabled strictMode : Bool)
    (whitelisted : List Bytes) (conf : RebindConfig) :
    (RebindLock.setRebindConfig toLower enabled strictMode whitelisted).alone .free conf =
      ((RWMutex.free.acquire .write, conf.configure toLower enabled strictMode whitelisted),
        none) := rfl

theorem getRebindConfig_alone (conf : RebindConfig) :
    RebindLock.getRebindConfig.alone .free conf = ((.free, conf), some conf) := rfl

/-- What holds in a process between two changes: nobody has changed the protection, and the
configuration has the bot's settings unless nobody has changed them. -/
structure Process.Kept (p : Process Text) : Prop where
  free : p.rebindMu = .free
  rebind : p.rebindConf = Dnsforward.rebindConf
  telegram : p.config.telegram = some p.bot ∨ p.config.telegram = none ∧ p.bot = defaultBot

structure Process.Written (funcs : Funcs Text) (p : Process Text) : Prop where
  file : p.file = some (funcs.encode p.config)
  gameMode : ∃ walk, p.config.gameMode = some (gameConfig walk p.game)
  rebind : p.config.rebind = some ⟨true, true, Dnsforward.rebindConf.whitelistedDomains⟩

theorem Process.Kept.change {p after : Process Text} (kept : p.Kept) {walk : Walk} {change : Change}
    (changed : p.change funcs walk change = .ok after) : after.Kept := by
  cases change with
  | telegram req connects =>
    simp only [Process.change] at changed
    split at changed
    · cases changed
    · obtain rfl := Except.ok.inj changed
      exact ⟨kept.free, kept.rebind, .inl rfl⟩
  | gameToggle =>
    obtain rfl := Except.ok.inj changed
    exact ⟨kept.free, kept.rebind, kept.telegram⟩
  | gameConfig enabled focus customDomains =>
    obtain rfl := Except.ok.inj changed
    exact ⟨kept.free, kept.rebind, kept.telegram⟩
  | gameMenu mode =>
    obtain rfl := Except.ok.inj changed
    exact ⟨kept.free, kept.rebind, kept.telegram⟩
  | rebind enabled strictMode whitelisted =>
    simp only [Process.change, kept.free, setRebindConfig_alone] at changed
    cases changed

theorem Process.Kept.write {p after : Process Text} (kept : p.Kept) {walk : Walk}
    (written : p.write funcs walk = .ok after) : after.Kept ∧ after.Written funcs := by
  unfold Process.write at written
  rw [kept.free, getRebindConfig_alone] at written
  obtain rfl := Except.ok.inj written
  have flags : p.rebindConf.enabled = true ∧ p.rebindConf.strictMode = true := by
    rw [kept.rebind]
    exact ⟨rfl, rfl⟩
  refine ⟨⟨rfl, kept.rebind, ?_⟩, rfl, ⟨walk, rfl⟩, ?_⟩
  · show (if p.bot.botToken ≠ [] ∨ p.bot.adminChatID ≠ [] ∨ p.bot.enabled then some p.bot
      else p.config.telegram) = some p.bot ∨ (if _ then _ else _) = none ∧ p.bot = defaultBot
    split
    · exact .inl rfl
    · exact kept.telegram
  · show some _ = some _
    rw [flags.1, flags.2, kept.rebind]

theorem Process.Kept.changeAndWrite {p after : Process Text} (kept : p.Kept) {change : Change}
    {walk : Walk} (done : p.changeAndWrite funcs change walk = .ok after) :
    after.Kept ∧ after.Written funcs := by
  unfold Process.changeAndWrite at done
  cases changed : p.change funcs walk change with
  | error stop =>
    rw [changed] at done
    cases done
  | ok between =>
    rw [changed] at done
    exact (kept.change changed).write done

theorem Process.Kept.run {changes : List (Change × Walk)} {p after : Process Text} (kept : p.Kept)
    (some : changes ≠ []) (done : p.run funcs changes = .ok after) :
    after.Kept ∧ after.Written funcs := by
  induction changes generalizing p with
  | nil => exact absurd rfl some
  | cons first rest ih =>
    obtain ⟨change, walk⟩ := first
    unfold Process.run at done
    cases changed : p.changeAndWrite funcs change walk with
    | error stop =>
      rw [changed] at done
      cases done
    | ok between =>
      rw [changed] at done
      obtain ⟨keptThen, written⟩ := kept.changeAndWrite changed
      cases rest with
      | nil =>
        obtain rfl := Except.ok.inj done
        exact ⟨keptThen, written⟩
      | cons second others => exact ih keptThen (by simp) done

theorem kept_load {initial : Option Text} (started : (load funcs initial).2 = true) :
    (load funcs initial).1.Kept := by
  unfold load at started ⊢
  split at started
  · exact ⟨rfl, rfl, .inr ⟨rfl, rfl⟩⟩
  · split at started
    · cases started
    · rename_i config _
      dsimp only at started ⊢
      split at started
      · refine ⟨rfl, rfl, ?_⟩
        show config.telegram = some (config.telegram.getD defaultBot) ∨
          config.telegram = none ∧ config.telegram.getD defaultBot = defaultBot
        cases config.telegram with
        | none => exact .inr ⟨rfl, rfl⟩
        | some bot => exact .inl rfl
      · exact absurd started Bool.false_ne_true

def Lower (s : Bytes) : Prop := ∀ byte ∈ s, byte < 0x80 ∧ ¬ (0x41 ≤ byte ∧ byte ≤ 0x5A)

instance (s : Bytes) : Decidable (Lower s) := inferInstanceAs (Decidable (∀ byte ∈ s, _))

theorem Documented.focusOf (documented : Documented funcs) (focus : Focus) :
    focusOf funcs.toLower (focusText focus) = focus := by
  have trimmed : trimSpace (focusText focus) = focusText focus := by
    cases focus <;> decide +kernel
  have lower : Lower (focusText focus) := by cases focus <;> decide +kernel
  unfold AddOns.focusOf
  rw [trimmed, documented.toLower_ascii _ lower]
  cases focus <;> decide +kernel

theorem focusText_ne_nil (focus : Focus) : focusText focus ≠ [] := by
  cases focus <;> decide +kernel

/-- What is written of the game mode is read again, with the domains cleaned. -/
theorem Documented.updateConfig (documented : Documented funcs) (walk : Walk)
    (s start : Gamemode.State) :
    updateConfig funcs.toLower (gameConfig walk s) start =
      ⟨s.globalEnabled, s.globalFocus,
        cleanDomains funcs.toLower (walk.order s.customDomains)⟩ := by
  unfold AddOns.updateConfig AddOns.gameConfig
  dsimp only
  rw [if_neg (focusText_ne_nil _), documented.focusOf]

theorem Documented.cleanWhitelist (documented : Documented funcs) :
    cleanWhitelist funcs.toLower Dnsforward.rebindConf.whitelistedDomains =
      Dnsforward.rebindConf.whitelistedDomains := by
  have lower : ∀ w ∈ Dnsforward.rebindConf.whitelistedDomains, Lower w := by decide +kernel
  have plain : Dnsforward.cleanWhitelist funcs.toLower Dnsforward.rebindConf.whitelistedDomains =
      Dnsforward.cleanWhitelist id Dnsforward.rebindConf.whitelistedDomains := by
    unfold Dnsforward.cleanWhitelist
    congr 1
    exact List.map_congr_left fun w member => by
      rw [documented.toLower_ascii w (lower w member), id]
  rw [plain]
  decide +kernel

theorem mem_cleanDomains {toLower : Bytes → Bytes} {first second : List Bytes}
    (perm : first.Perm second) (d : Bytes) :
    d ∈ cleanDomains toLower first ↔ d ∈ cleanDomains toLower second := by
  unfold cleanDomains
  rw [List.mem_dedup, List.mem_dedup]
  exact ((perm.map _).filter _).mem_iff

theorem Process.Written.load (documented : Documented funcs) {p : Process Text}
    (written : p.Written funcs) :
    ∃ walk : Walk, load funcs p.file = ({
      bot := p.config.telegram.getD defaultBot
      game := {
        globalEnabled := p.game.globalEnabled
        globalFocus := p.game.globalFocus
        customDomains := cleanDomains funcs.toLower (walk.order p.game.customDomains) }
      rebindMu := RWMutex.free.acquire .write
      rebindConf := Dnsforward.rebindConf
      config := p.config
      file := p.file }, false) := by
  obtain ⟨walk, gameMode⟩ := written.gameMode
  refine ⟨walk, ?_⟩
  have clean : Dnsforward.rebindConf.configure funcs.toLower true true
      Dnsforward.rebindConf.whitelistedDomains = Dnsforward.rebindConf := by
    unfold RebindConfig.configure
    rw [documented.cleanWhitelist]
    rfl
  have file := written.file
  unfold AddOns.load
  simp only [file, documented.decode_encode, written.rebind, gameMode]
  simp only [documented.updateConfig, Process.fresh, setRebindConfig_alone, clean]
  rfl

/-- After a change that was written, a fresh process that loads the settings never goes on. All
settings that it has set by then are those of the last write, just where the custom domains are
not changed by cleaning them once more. -/
theorem never_restored (documented : Documented funcs) (initial : Option Text)
    (started : (load funcs initial).2 = true) (changes : List (Change × Walk))
    (some : changes ≠ []) (p : Process Text) (done : (load funcs initial).1.run funcs changes = .ok p) :
    ¬ p.Restored funcs ∧ ((load funcs p.file).1.Agrees p ↔ p.Clean funcs) := by
  obtain ⟨kept, written⟩ := (kept_load started).run some done
  obtain ⟨walk, loaded⟩ := written.load documented
  have same : ∀ d, d ∈ cleanDomains funcs.toLower (walk.order p.game.customDomains) ↔
      d ∈ cleanDomains funcs.toLower p.game.customDomains :=
    mem_cleanDomains (walk.perm p.game.customDomains)
  constructor
  · rintro ⟨returns, _⟩
    rw [loaded] at returns
    cases returns
  · rw [loaded]
    constructor
    · intro agrees d
      rw [← same d]
      exact agrees.customDomains d
    · intro clean
      have bot : p.config.telegram.getD defaultBot = p.bot := by
        rcases kept.telegram with set | ⟨unset, default⟩
        · rw [set]
          rfl
        · rw [unset, default]
          rfl
      refine ⟨bot, rfl, rfl, fun d => (same d).trans (clean d), ?_, ?_, ?_⟩
      · rw [kept.rebind]
      · rw [kept.rebind]
      · rw [kept.rebind]
        exact fun _ => Iff.rfl

private def plainFuncs : Funcs Configuration := ⟨toLowerASCII, id, some⟩

private theorem documented_plainFuncs : Documented plainFuncs where
  decode_encode _ := rfl
  toLower_ascii s lower := by
    show s.map _ = s
    conv_rhs => rw [← List.map_id s]
    exact List.map_congr_left fun byte member => if_neg (lower byte member).2

private def inOrder : Walk := ⟨id, List.Perm.refl⟩

theorem never_restored_toggle :
    ∃ p, (load plainFuncs none).1.run plainFuncs [(.gameToggle, inOrder)] = .ok p ∧
      ¬ p.Restored plainFuncs ∧ (load plainFuncs p.file).1.Agrees p := by
  have settled := never_restored documented_plainFuncs none rfl [(.gameToggle, inOrder)] (by simp)
    _ rfl
  exact ⟨_, rfl, settled.1, settled.2.mpr fun _ => Iff.rfl⟩

/-- A custom domain that ends in two dots has lost one when it is written and both when it is
loaded, by a process that waits for ever. -/
theorem restored_dots :
    ∃ p, (load plainFuncs none).1.run plainFuncs
        [(.gameConfig true [] (some [lit "example.."]), inOrder)] = .ok p ∧
      ¬ p.Restored plainFuncs ∧ ¬ (load plainFuncs p.file).1.Agrees p := by
  refine ⟨_, rfl, fun restored => ?_, fun agrees => ?_⟩
  · exact absurd restored.1 (by decide +kernel)
  · have kept := (agrees.customDomains (lit "example.")).mpr (by decide +kernel)
    revert kept
    decide +kernel

end AdGuardHome.Home.AddOns
