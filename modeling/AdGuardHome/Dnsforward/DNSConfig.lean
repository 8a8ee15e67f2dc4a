import AdGuardHome.Filtering.Engine
import AdGuardHome.Lib.Fallible

namespace AdGuardHome.Dnsforward

open Filtering Netip Strings

/-- `jsonDNSConfig`, as far as requests to change the settings are read; the lists are of
servers. -/
structure JsonDNSConfig where
  upstreams : Option (List Bytes)
  upstreamsFile : Option Bytes
  bootstraps : Option (List Bytes)
  fallbacks : Option (List Bytes)
  protectionEnabled : Option Bool
  ratelimit : Option (BitVec 32)
  ratelimitSubnetLenIPv4 : Option Nat
  ratelimitSubnetLenIPv6 : Option Nat
  /-- In seconds. -/
  upstreamTimeout : Option Int
  ratelimitWhitelist : Option (List Addr)
  blockingMode : Option BlockingMode
  ednscsEnabled : Option Bool
  ednscsUseCustom : Option Bool
  dnssecEnabled : Option Bool
  disableIPv6 : Option Bool
  upstreamMode : Option Bytes
  blockedResponseTTL : Option (BitVec 32)
  cacheSize : Option (BitVec 32)
  cacheMinTTL : Option (BitVec 32)
  cacheMaxTTL : Option (BitVec 32)
  cacheEnabled : Option Bool
  cacheOptimistic : Option Bool
  resolveClients : Option Bool
  usePrivateRDNS : Option Bool
  localPTRUpstreams : Option (List Bytes)
  blockingIPv4 : Addr
  blockingIPv6 : Addr
  ednscsCustomIP : Addr
deriving DecidableEq

/-- The fields of `ServerConfig` that the API sets. -/
structure ServerConfig where
  upstreamDNS : List Bytes
  upstreamDNSFileName : Bytes
  bootstrapDNS : List Bytes
  fallbackDNS : List Bytes
  localPTRResolvers : List Bytes
  usePrivateRDNS : Bool
  useRDNS : Bool
  upstreamMode : Bytes
  /-- In seconds. -/
  upstreamTimeout : Int
  ednscsEnabled : Bool
  ednscsUseCustom : Bool
  ednscsCustomIP : Addr
  enableDNSSEC : Bool
  aaaaDisabled : Bool
  cacheEnabled : Bool
  cacheSize : BitVec 32
  cacheMinTTL : BitVec 32
  cacheMaxTTL : BitVec 32
  cacheOptimistic : Bool
  ratelimit : BitVec 32
  ratelimitSubnetLenIPv4 : Nat
  ratelimitSubnetLenIPv6 : Nat
  ratelimitWhitelist : List Addr
deriving DecidableEq

structure FilterSettings where
  blockingMode : BlockingMode
  blockingIPv4 : Addr
  blockingIPv6 : Addr
  blockedResponseTTL : BitVec 32
  protectionEnabled : Bool
deriving DecidableEq

structure DNSSettings where
  conf : ServerConfig
  filter : FilterSettings
deriving DecidableEq

/-- What a check refuses. -/
inductive ConfigError where
  | upstreamServers
  | privateUpstreamServers
  | bootstrap (server : Bytes)
  | fallbackServers
  | ratelimitSubnetLenIPv4
  | ratelimitSubnetLenIPv6
  | blockingIPv4
  | blockingIPv6
  | blockingMode
  | upstreamMode (value : Bytes)
  | cacheSize
  | cacheTTL
  | upstreamTimeout
deriving DecidableEq

def upstreamModeLoadBalance : Bytes := lit "load_balance"
def upstreamModeParallel : Bytes := lit "parallel"
def upstreamModeFastestAddr : Bytes := lit "fastest_addr"

section Checks

/-- `validateBlockingMode`. -/
def validateBlockingMode (mode : BlockingMode) (blockingIPv4 blockingIPv6 : Addr) :
    Except ConfigError Unit :=
  match mode with
  | .default | .nxdomain | .refused | .nullIP => .ok ()
  | .customIP =>
    if !blockingIPv4.is4 then .error .blockingIPv4
    else if !blockingIPv6.is6 then .error .blockingIPv6
    else .ok ()
  | .invalid => .error .blockingMode

/-- `validateCacheTTL`. -/
def validateCacheTTL (minTTL maxTTL : BitVec 32) : Except ConfigError Unit :=
  if minTTL = 0 ∧ maxTTL = 0 then .ok ()
  else if maxTTL > 0 ∧ minTTL > maxTTL then .error .cacheTTL
  else .ok ()

/-- The number as an `int`, which has 64 bits on some platforms and 32 on others. -/
def toInt (is64Bit : Bool) (size : BitVec 32) : Int := if is64Bit then size.toNat else size.toInt

/-- `prepareCacheConfig`. -/
def prepareCacheConfig (is64Bit isEnabled : Bool) (size minTTL maxTTL : BitVec 32) :
    Except ConfigError Unit :=
  if isEnabled ∧ toInt is64Bit size ≤ 0 then .error .cacheSize
  else validateCacheTTL minTTL maxTTL

/-- `setProxyUpstreamMode`. -/
def setProxyUpstreamMode (upstreamMode : Bytes) : Except ConfigError Unit :=
  if upstreamMode = upstreamModeParallel then .ok ()
  else if upstreamMode = upstreamModeFastestAddr then .ok ()
  else if upstreamMode = upstreamModeLoadBalance then .ok ()
  else .error (.upstreamMode upstreamMode)

/-- The checks of the blocking mode, the upstream mode and the cache that `Prepare` and
`newProxyConfig` make, in this order. -/
def prepare (is64Bit : Bool) (settings : DNSSettings) : Except ConfigError Unit := do
  let ⟨conf, filter⟩ := settings
  validateBlockingMode filter.blockingMode filter.blockingIPv4 filter.blockingIPv6
  setProxyUpstreamMode conf.upstreamMode
  prepareCacheConfig is64Bit conf.cacheEnabled conf.cacheSize conf.cacheMinTTL conf.cacheMaxTTL

end Checks

structure Parsers where
  /-- `proxy.ParseUpstreamsConfig`. -/
  upstreams : List Bytes → Bool
  /-- `newPrivateConfig`. -/
  privateUpstreams : List Bytes → Bool
  /-- `upstream.NewUpstreamResolver`. -/
  bootstrap : Bytes → Bool
  /-- `aghnet.IsCommentOrEmpty`. -/
  isCommentOrEmpty : Bytes → Bool

namespace JsonDNSConfig

variable (req : JsonDNSConfig)

/-- `checkBootstrap`. -/
def checkBootstrap (p : Parsers) : Except ConfigError Unit :=
  match (req.bootstraps.getD []).find? fun b => !p.isCommentOrEmpty b && !p.bootstrap b with
  | some b => .error (.bootstrap b)
  | none => .ok ()

/-- `containsPrivateRDNS`. -/
def containsPrivateRDNS : Bool :=
  req.usePrivateRDNS == some true || (req.localPTRUpstreams.getD []).length != 0

/-- `checkPrivateRDNS`. -/
def checkPrivateRDNS (p : Parsers) : Except ConfigError Unit :=
  if req.containsPrivateRDNS ∧ ¬ p.privateUpstreams (req.localPTRUpstreams.getD []) then
    .error .privateUpstreamServers
  else .ok ()

/-- `validateUpstreamDNSServers`. -/
def validateUpstreamDNSServers (p : Parsers) : Except ConfigError Unit := do
  if req.upstreams.any (!p.upstreams ·) then throw .upstreamServers
  req.checkPrivateRDNS p
  req.checkBootstrap p
  if req.fallbacks.any (!p.upstreams ·) then throw .fallbackServers

/-- `checkInclusion` from 0, with the error for the field. -/
def checkInclusion (n : Option Nat) (maxN : Nat) (err : ConfigError) : Except ConfigError Unit :=
  if n.any (maxN < ·) then .error err else .ok ()

/-- `checkRatelimitSubnetMaskLen`. -/
def checkRatelimitSubnetMaskLen : Except ConfigError Unit := do
  checkInclusion req.ratelimitSubnetLenIPv4 32 .ratelimitSubnetLenIPv4
  checkInclusion req.ratelimitSubnetLenIPv6 128 .ratelimitSubnetLenIPv6

/-- `checkBlockingMode`. -/
def checkBlockingMode : Except ConfigError Unit :=
  match req.blockingMode with
  | none => .ok ()
  | some mode => validateBlockingMode mode req.blockingIPv4 req.blockingIPv6

/-- `checkUpstreamMode`. -/
def checkUpstreamMode : Except ConfigError Unit :=
  match req.upstreamMode with
  | none => .ok ()
  | some um =>
    if um = [] ∨ um = upstreamModeLoadBalance ∨ um = upstreamModeParallel ∨
        um = upstreamModeFastestAddr then .ok ()
    else .error (.upstreamMode um)

/-- `validateCacheSize`, with the request as it leaves it. -/
def validateCacheSize (curCacheSize : BitVec 32) : Except ConfigError JsonDNSConfig :=
  if req.cacheEnabled = some true ∧ req.cacheSize.getD curCacheSize = 0 then .error .cacheSize
  else
    match req.cacheEnabled, req.cacheSize with
    | none, some size => .ok { req with cacheEnabled := some (size > 0) }
    | _, _ => .ok req

/-- `validateCacheSettings`. -/
def validateCacheSettings (curCacheSize : BitVec 32) : Except ConfigError JsonDNSConfig := do
  let req ← req.validateCacheSize curCacheSize
  if req.cacheMinTTL.isNone ∧ req.cacheMaxTTL.isNone then return req
  validateCacheTTL (req.cacheMinTTL.getD 0) (req.cacheMaxTTL.getD 0)
  return req

/-- `checkUpstreamTimeout`. -/
def checkUpstreamTimeout : Except ConfigError Unit :=
  if req.upstreamTimeout.any (· < 1) then .error .upstreamTimeout else .ok ()

/-- `validate`, with the request as it leaves it. -/
def validate (p : Parsers) (curCacheSize : BitVec 32) : Except ConfigError JsonDNSConfig := do
  req.validateUpstreamDNSServers p
  req.checkRatelimitSubnetMaskLen
  req.checkBlockingMode
  req.checkUpstreamMode
  let req ← req.validateCacheSettings curCacheSize
  req.checkUpstreamTimeout
  return req

end JsonDNSConfig

/-- `mustParseUpstreamMode`, with `none` for a panic. -/
def mustParseUpstreamMode (mode : Bytes) : Option Bytes :=
  if mode = [] ∨ mode = upstreamModeLoadBalance then some upstreamModeLoadBalance
  else if mode = upstreamModeParallel then some upstreamModeParallel
  else if mode = upstreamModeFastestAddr then some upstreamModeFastestAddr
  else none

/-- `DNSFilter.SetBlockingMode`. -/
def FilterSettings.setBlockingMode (filter : FilterSettings) (mode : BlockingMode)
    (bIPv4 bIPv6 : Addr) : FilterSettings :=
  if mode = .customIP then
    { filter with blockingMode := mode, blockingIPv4 := bIPv4, blockingIPv6 := bIPv6 }
  else { filter with blockingMode := mode }

/-- `setConfigRestartable`, with whether the server has to be restarted. -/
def ServerConfig.setRestartable (conf : ServerConfig) (dc : JsonDNSConfig) : ServerConfig × Bool :=
  let hasSet := dc.upstreams.isSome || dc.localPTRUpstreams.isSome || dc.upstreamsFile.isSome ||
    dc.bootstraps.isSome || dc.fallbacks.isSome || dc.ednscsEnabled.isSome ||
    dc.ednscsUseCustom.isSome || dc.cacheEnabled.isSome || dc.cacheSize.isSome ||
    dc.cacheMinTTL.isSome || dc.cacheMaxTTL.isSome || dc.cacheOptimistic.isSome ||
    dc.resolveClients.isSome || dc.usePrivateRDNS.isSome || dc.ratelimitSubnetLenIPv4.isSome ||
    dc.ratelimitSubnetLenIPv6.isSome || dc.ratelimitWhitelist.isSome
  let changed := dc.ratelimit.any (conf.ratelimit ≠ ·) ||
    dc.upstreamTimeout.any (conf.upstreamTimeout ≠ ·)
  ({ conf with
      upstreamDNS := dc.upstreams.getD conf.upstreamDNS
      localPTRResolvers := dc.localPTRUpstreams.getD conf.localPTRResolvers
      upstreamDNSFileName := dc.upstreamsFile.getD conf.upstreamDNSFileName
      bootstrapDNS := dc.bootstraps.getD conf.bootstrapDNS
      fallbackDNS := dc.fallbacks.getD conf.fallbackDNS
      ednscsEnabled := dc.ednscsEnabled.getD conf.ednscsEnabled
      ednscsUseCustom := dc.ednscsUseCustom.getD conf.ednscsUseCustom
      cacheEnabled := dc.cacheEnabled.getD conf.cacheEnabled
      cacheSize := dc.cacheSize.getD conf.cacheSize
      cacheMinTTL := dc.cacheMinTTL.getD conf.cacheMinTTL
      cacheMaxTTL := dc.cacheMaxTTL.getD conf.cacheMaxTTL
      cacheOptimistic := dc.cacheOptimistic.getD conf.cacheOptimistic
      useRDNS := dc.resolveClients.getD conf.useRDNS
      usePrivateRDNS := dc.usePrivateRDNS.getD conf.usePrivateRDNS
      ratelimitSubnetLenIPv4 := dc.ratelimitSubnetLenIPv4.getD conf.ratelimitSubnetLenIPv4
      ratelimitSubnetLenIPv6 := dc.ratelimitSubnetLenIPv6.getD conf.ratelimitSubnetLenIPv6
      ratelimitWhitelist := dc.ratelimitWhitelist.getD conf.ratelimitWhitelist
      ratelimit := dc.ratelimit.getD conf.ratelimit
      upstreamTimeout := dc.upstreamTimeout.getD conf.upstreamTimeout }, hasSet || changed)

/-- `setConfig`, with `none` for a panic and with whether the server has to be restarted. -/
def DNSSettings.setConfig (s : DNSSettings) (dc : JsonDNSConfig) : Option (DNSSettings × Bool) :=
  let filter := match dc.blockingMode with
    | none => s.filter
    | some mode => s.filter.setBlockingMode mode dc.blockingIPv4 dc.blockingIPv6
  let filter := { filter with
    blockedResponseTTL := dc.blockedResponseTTL.getD filter.blockedResponseTTL
    protectionEnabled := dc.protectionEnabled.getD filter.protectionEnabled }
  let upstreamMode := match dc.upstreamMode with
    | none => some s.conf.upstreamMode
    | some mode => mustParseUpstreamMode mode
  upstreamMode.map fun upstreamMode =>
    let conf := { s.conf with
      upstreamMode
      ednscsCustomIP := if dc.ednscsUseCustom = some true then dc.ednscsCustomIP
        else s.conf.ednscsCustomIP
      enableDNSSEC := dc.dnssecEnabled.getD s.conf.enableDNSSEC
      aaaaDisabled := dc.disableIPv6.getD s.conf.aaaaDisabled }
    let (conf, restart) := conf.setRestartable dc
    (⟨conf, filter⟩, restart)

/-- A valid lower bound for a TTL that was sent without an upper one is above the current upper
one, or the other way round. -/
def TTLsCross (conf : ServerConfig) (req : JsonDNSConfig) : Prop :=
  (∃ minTTL, req.cacheMinTTL = some minTTL ∧ req.cacheMaxTTL = none ∧
      conf.cacheMaxTTL > 0 ∧ minTTL > conf.cacheMaxTTL) ∨
    (∃ maxTTL, req.cacheMinTTL = none ∧ req.cacheMaxTTL = some maxTTL ∧
      maxTTL > 0 ∧ conf.cacheMinTTL > maxTTL)

/-- The cache is switched on by the request with a size that is negative as an `int`. -/
def SizeOverflows (is64Bit : Bool) (conf : ServerConfig) (req : JsonDNSConfig) : Prop :=
  is64Bit = false ∧ (req.cacheSize.getD conf.cacheSize).toInt < 0 ∧
    (req.cacheEnabled = some true ∨ (req.cacheEnabled = none ∧ req.cacheSize.isSome))

theorem validateCacheTTL_iff {minTTL maxTTL : BitVec 32} :
    validateCacheTTL minTTL maxTTL = .ok () ↔ ¬ (maxTTL > 0 ∧ minTTL > maxTTL) := by
  unfold validateCacheTTL
  split
  next zero => simp [zero.1, zero.2]
  next => split <;> simp_all

theorem prepareCacheConfig_iff {is64Bit isEnabled : Bool} {size minTTL maxTTL : BitVec 32} :
    prepareCacheConfig is64Bit isEnabled size minTTL maxTTL = .ok () ↔
      ¬ (isEnabled = true ∧ toInt is64Bit size ≤ 0) ∧ ¬ (maxTTL > 0 ∧ minTTL > maxTTL) := by
  unfold prepareCacheConfig
  split
  next refused => simp [refused]
  next accepted => simp only [validateCacheTTL_iff, accepted, not_false_eq_true, true_and]

theorem prepare_iff {is64Bit : Bool} {s : DNSSettings} :
    prepare is64Bit s = .ok () ↔
      validateBlockingMode s.filter.blockingMode s.filter.blockingIPv4 s.filter.blockingIPv6 =
          .ok () ∧
        setProxyUpstreamMode s.conf.upstreamMode = .ok () ∧
          ¬ (s.conf.cacheEnabled = true ∧ toInt is64Bit s.conf.cacheSize ≤ 0) ∧
            ¬ (s.conf.cacheMaxTTL > 0 ∧ s.conf.cacheMinTTL > s.conf.cacheMaxTTL) := by
  rw [prepare, Fallible.bind_unit_ok_iff, Fallible.bind_unit_ok_iff, prepareCacheConfig_iff]

theorem toInt_nonpos_iff {is64Bit : Bool} {size : BitVec 32} (nonzero : size ≠ 0) :
    toInt is64Bit size ≤ 0 ↔ is64Bit = false ∧ size.toInt < 0 := by
  have positive : size.toNat ≠ 0 := fun zero => nonzero (BitVec.eq_of_toNat_eq zero)
  have signed : size.toInt ≠ 0 := by
    intro zero
    exact nonzero (BitVec.eq_of_toInt_eq zero)
  cases is64Bit with
  | true =>
    simp only [toInt, ↓reduceIte, Bool.true_eq_false, false_and, iff_false]
    omega
  | false =>
    simp only [toInt, Bool.false_eq_true, ↓reduceIte, true_and]
    omega

namespace JsonDNSConfig

variable {req req' : JsonDNSConfig} {p : Parsers} {curCacheSize : BitVec 32}

theorem validate_ok (valid : req.validate p curCacheSize = .ok req') :
    req.checkBlockingMode = .ok () ∧ req.checkUpstreamMode = .ok () ∧
      req.validateCacheSettings curCacheSize = .ok req' := by
  simp only [validate, Fallible.bind_ok_iff] at valid
  obtain ⟨_, _, _, _, _, blocking, _, mode, after, cache, _, _, same⟩ := valid
  obtain rfl := Except.ok.inj same
  exact ⟨blocking, mode, cache⟩

theorem validateCacheSize_ok (valid : req.validateCacheSize curCacheSize = .ok req') :
    (req.cacheEnabled = some true → req.cacheSize.getD curCacheSize ≠ 0) ∧
      req' = { req with cacheEnabled :=
        req.cacheEnabled.or (req.cacheSize.map fun size => decide (size > 0)) } := by
  unfold validateCacheSize at valid
  split at valid
  · nomatch valid
  next accepted =>
    refine ⟨fun on zero => accepted ⟨on, zero⟩, ?_⟩
    cases enabled : req.cacheEnabled with
    | some on =>
      simp only [enabled, Except.ok.injEq] at valid
      rw [Option.some_or, ← enabled]
      exact valid.symm
    | none =>
      cases sized : req.cacheSize with
      | none =>
        simp only [enabled, sized, Except.ok.injEq] at valid
        rw [Option.none_or, Option.map_none, ← enabled, ← sized]
        exact valid.symm
      | some size =>
        simp only [enabled, sized, Except.ok.injEq] at valid
        rw [Option.none_or, Option.map_some, ← valid]

/-- An accepted request passes the check of the bounds that it sends. -/
theorem validateCacheSettings_ok (valid : req.validateCacheSettings curCacheSize = .ok req') :
    req.validateCacheSize curCacheSize = .ok req' ∧
      ¬ (req'.cacheMaxTTL.getD 0 > 0 ∧ req'.cacheMinTTL.getD 0 > req'.cacheMaxTTL.getD 0) := by
  obtain ⟨sized, done, valid⟩ := Fallible.bind_ok_iff.mp valid
  split at valid
  next unset =>
    obtain rfl := Except.ok.inj valid
    refine ⟨done, ?_⟩
    simp [Option.isNone_iff_eq_none.mp unset.2]
  next set =>
    obtain ⟨_, passed, same⟩ := Fallible.bind_ok_iff.mp valid
    obtain rfl := Except.ok.inj same
    exact ⟨done, validateCacheTTL_iff.mp passed⟩

end JsonDNSConfig

/-- The blocking mode of a request that has been checked passes the check of `Prepare`. -/
theorem setBlockingMode_valid {filter : FilterSettings} {mode : BlockingMode} {bIPv4 bIPv6 : Addr}
    (valid : validateBlockingMode mode bIPv4 bIPv6 = .ok ()) :
    validateBlockingMode (filter.setBlockingMode mode bIPv4 bIPv6).blockingMode
      (filter.setBlockingMode mode bIPv4 bIPv6).blockingIPv4
        (filter.setBlockingMode mode bIPv4 bIPv6).blockingIPv6 = .ok () := by
  unfold FilterSettings.setBlockingMode
  cases mode with
  | customIP => exact valid
  | default | nullIP | nxdomain | refused => rfl
  | invalid => nomatch valid

/-- The upstream mode of a request that has been checked is parsed, into one that passes. -/
theorem mustParseUpstreamMode_valid {mode : Bytes} (valid : mode = [] ∨
    mode = upstreamModeLoadBalance ∨ mode = upstreamModeParallel ∨ mode = upstreamModeFastestAddr) :
    ∃ parsed, mustParseUpstreamMode mode = some parsed ∧ setProxyUpstreamMode parsed = .ok () := by
  rcases valid with rfl | rfl | rfl | rfl
  · exact ⟨upstreamModeLoadBalance, by decide, by decide⟩
  · exact ⟨upstreamModeLoadBalance, by decide, by decide⟩
  · exact ⟨upstreamModeParallel, by decide, by decide⟩
  · exact ⟨upstreamModeFastestAddr, by decide, by decide⟩

/-- The bounds that an accepted request leads to cross exactly when one of them is missing in
it. -/
theorem ttls_cross_iff {conf : ServerConfig} {req : JsonDNSConfig}
    (current : ¬ (conf.cacheMaxTTL > 0 ∧ conf.cacheMinTTL > conf.cacheMaxTTL))
    (sent : ¬ (req.cacheMaxTTL.getD 0 > 0 ∧ req.cacheMinTTL.getD 0 > req.cacheMaxTTL.getD 0)) :
    (req.cacheMaxTTL.getD conf.cacheMaxTTL > 0 ∧
        req.cacheMinTTL.getD conf.cacheMinTTL > req.cacheMaxTTL.getD conf.cacheMaxTTL) ↔
      TTLsCross conf req := by
  unfold TTLsCross
  cases low : req.cacheMinTTL with
  | none =>
    cases high : req.cacheMaxTTL with
    | none => simpa using current
    | some maxTTL => simp
  | some minTTL =>
    cases high : req.cacheMaxTTL with
    | none => simp
    | some maxTTL =>
      simp only [low, high, Option.getD_some] at sent
      simpa using sent

/-- The size that an accepted request leads to is refused exactly when it overflows. -/
theorem size_overflows_iff {is64Bit : Bool} {conf : ServerConfig} {req : JsonDNSConfig}
    (current : ¬ (conf.cacheEnabled = true ∧ toInt is64Bit conf.cacheSize ≤ 0))
    (sent : req.cacheEnabled = some true → req.cacheSize.getD conf.cacheSize ≠ 0) :
    ((req.cacheEnabled.or (req.cacheSize.map fun size => decide (size > 0))).getD
          conf.cacheEnabled = true ∧
        toInt is64Bit (req.cacheSize.getD conf.cacheSize) ≤ 0) ↔
      SizeOverflows is64Bit conf req := by
  unfold SizeOverflows
  cases enabled : req.cacheEnabled with
  | some on =>
    cases on with
    | true =>
      simp only [Option.some_or, Option.getD_some, true_and, true_or, and_true]
      exact toInt_nonpos_iff (sent enabled)
    | false => simp
  | none =>
    cases sized : req.cacheSize with
    | none => simpa using current
    | some size =>
      simp only [Option.none_or, Option.map_some, Option.getD_some, decide_eq_true_eq]
      by_cases zero : size = 0
      · subst zero
        simp
      · have positive : 0#32 < size := by
          have nonzero : size.toNat ≠ 0 := fun same => zero (BitVec.eq_of_toNat_eq same)
          exact BitVec.lt_def.mpr (Nat.pos_of_ne_zero nonzero)
        rw [iff_true_intro (show size > 0 from positive), true_and, toInt_nonpos_iff zero]
        simp

/-- What the settings become through a request with checked modes. -/
theorem setConfig_spec {s : DNSSettings} {req : JsonDNSConfig}
    (blocking : req.checkBlockingMode = .ok ()) (mode : req.checkUpstreamMode = .ok ())
    (currentBlocking : validateBlockingMode s.filter.blockingMode s.filter.blockingIPv4
      s.filter.blockingIPv6 = .ok ())
    (currentMode : setProxyUpstreamMode s.conf.upstreamMode = .ok ()) :
    ∃ s' restart, s.setConfig req = some (s', restart) ∧
      validateBlockingMode s'.filter.blockingMode s'.filter.blockingIPv4 s'.filter.blockingIPv6 =
          .ok () ∧
        setProxyUpstreamMode s'.conf.upstreamMode = .ok () ∧
          s'.conf.cacheEnabled = req.cacheEnabled.getD s.conf.cacheEnabled ∧
            s'.conf.cacheSize = req.cacheSize.getD s.conf.cacheSize ∧
              s'.conf.cacheMinTTL = req.cacheMinTTL.getD s.conf.cacheMinTTL ∧
                s'.conf.cacheMaxTTL = req.cacheMaxTTL.getD s.conf.cacheMaxTTL := by
  obtain ⟨parsed, same, passes⟩ : ∃ parsed, (match req.upstreamMode with
      | none => some s.conf.upstreamMode
      | some mode => mustParseUpstreamMode mode) = some parsed ∧
        setProxyUpstreamMode parsed = .ok () := by
    unfold JsonDNSConfig.checkUpstreamMode at mode
    cases sent : req.upstreamMode with
    | none => exact ⟨_, rfl, currentMode⟩
    | some um =>
      simp only [sent] at mode
      split at mode
      next known => exact mustParseUpstreamMode_valid known
      next => nomatch mode
  simp only [DNSSettings.setConfig, same, Option.map_some]
  refine ⟨_, _, rfl, ?_, passes, rfl, rfl, rfl, rfl⟩
  unfold JsonDNSConfig.checkBlockingMode at blocking
  cases sent : req.blockingMode with
  | none => exact currentBlocking
  | some mode =>
    simp only [sent] at blocking
    exact setBlockingMode_valid blocking

/-- An accepted request leads to settings that pass the checks again exactly when it sends no
bound of the TTLs that crosses the other one, and no size that overflows. -/
theorem accepted_applies_iff {p : Parsers} {is64Bit : Bool} {s : DNSSettings}
    {req req' : JsonDNSConfig} (current : prepare is64Bit s = .ok ())
    (valid : req.validate p s.conf.cacheSize = .ok req') :
    (∃ s' restart, s.setConfig req' = some (s', restart) ∧ prepare is64Bit s' = .ok ()) ↔
      ¬ TTLsCross s.conf req ∧ ¬ SizeOverflows is64Bit s.conf req := by
  obtain ⟨currentBlocking, currentMode, currentSize, currentTTL⟩ := prepare_iff.mp current
  obtain ⟨blocking, mode, cache⟩ := JsonDNSConfig.validate_ok valid
  obtain ⟨sized, ttl⟩ := JsonDNSConfig.validateCacheSettings_ok cache
  obtain ⟨nonzero, rfl⟩ := JsonDNSConfig.validateCacheSize_ok sized
  have crossing := @ttls_cross_iff s.conf req currentTTL ttl
  have overflow := size_overflows_iff currentSize nonzero
  obtain ⟨s', restart, set, blocking, mode, enabled, size, low, high⟩ := @setConfig_spec s { req with
    cacheEnabled := req.cacheEnabled.or (req.cacheSize.map fun size => decide (size > 0)) }
      blocking mode currentBlocking currentMode
  have passes : prepare is64Bit s' = .ok () ↔
      ¬ TTLsCross s.conf req ∧ ¬ SizeOverflows is64Bit s.conf req := by
    rw [prepare_iff, enabled, size, low, high, ← crossing, ← overflow]
    constructor
    · intro ⟨_, _, size, ttl⟩
      exact ⟨ttl, size⟩
    · intro ⟨ttl, size⟩
      exact ⟨blocking, mode, size, ttl⟩
  rw [← passes, set]
  constructor
  · intro ⟨_, _, same, done⟩
    obtain ⟨rfl, _⟩ := Prod.mk.inj (Option.some.inj same)
    exact done
  · intro done
    exact ⟨s', restart, rfl, done⟩

/-- Settings with a TTL of at most a minute in the cache, and a request for a minimum alone. -/
private def settings : DNSSettings where
  conf :=
    { upstreamDNS := []
      upstreamDNSFileName := []
      bootstrapDNS := []
      fallbackDNS := []
      localPTRResolvers := []
      usePrivateRDNS := true
      useRDNS := true
      upstreamMode := upstreamModeLoadBalance
      upstreamTimeout := 10
      ednscsEnabled := false
      ednscsUseCustom := false
      ednscsCustomIP := .zero
      enableDNSSEC := false
      aaaaDisabled := false
      cacheEnabled := true
      cacheSize := 4194304
      cacheMinTTL := 0
      cacheMaxTTL := 60
      cacheOptimistic := false
      ratelimit := 20
      ratelimitSubnetLenIPv4 := 24
      ratelimitSubnetLenIPv6 := 56
      ratelimitWhitelist := [] }
  filter := ⟨.default, .zero, .zero, 10, true⟩

private def minTTLRequest (minTTL : BitVec 32) : JsonDNSConfig :=
  { upstreams := none
    upstreamsFile := none
    bootstraps := none
    fallbacks := none
    protectionEnabled := none
    ratelimit := none
    ratelimitSubnetLenIPv4 := none
    ratelimitSubnetLenIPv6 := none
    upstreamTimeout := none
    ratelimitWhitelist := none
    blockingMode := none
    ednscsEnabled := none
    ednscsUseCustom := none
    dnssecEnabled := none
    disableIPv6 := none
    upstreamMode := none
    blockedResponseTTL := none
    cacheSize := none
    cacheMinTTL := some minTTL
    cacheMaxTTL := none
    cacheEnabled := none
    cacheOptimistic := none
    resolveClients := none
    usePrivateRDNS := none
    localPTRUpstreams := none
    blockingIPv4 := .zero
    blockingIPv6 := .zero
    ednscsCustomIP := .zero }

private def anyServers : Parsers := ⟨fun _ => true, fun _ => true, fun _ => true, fun _ => false⟩

theorem accepted_applies_below :
    ∃ s' restart, settings.setConfig (minTTLRequest 30) = some (s', restart) ∧
      prepare true s' = .ok () := by
  have valid : (minTTLRequest 30).validate anyServers settings.conf.cacheSize =
      .ok (minTTLRequest 30) := rfl
  refine (accepted_applies_iff (by decide +kernel) valid).mpr ⟨?_, nofun⟩
  intro crossing
  rcases crossing with ⟨_, same, _, _, above⟩ | ⟨_, unset, _⟩
  · obtain rfl := Option.some.inj same
    exact absurd above (by decide)
  · nomatch unset

/-- The minimum of two minutes is accepted, and the server does not start with it. -/
theorem accepted_does_not_apply :
    prepare true settings = .ok () ∧
      (minTTLRequest 120).validate anyServers settings.conf.cacheSize = .ok (minTTLRequest 120) ∧
        ¬ ∃ s' restart, settings.setConfig (minTTLRequest 120) = some (s', restart) ∧
          prepare true s' = .ok () := by
  refine ⟨by decide +kernel, rfl, ?_⟩
  intro ⟨s', restart, set, done⟩
  obtain ⟨rfl, _⟩ := Prod.mk.inj (Option.some.inj set)
  exact absurd done (by decide +kernel)

end AdGuardHome.Dnsforward
