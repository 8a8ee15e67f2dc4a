import AdGuardHome.Lib.RWMutex
import AdGuardHome.Net
import AdGuardHome.Strings

/-! `rebind.go`: the protection against DNS rebinding, whose state is under `rebindMu`. -/
namespace AdGuardHome.Dnsforward

open Net Strings

/-- `RebindEvent`, with the address as it was given. -/
structure RebindEvent where
  timestamp : Bytes
  domain : Bytes
  clientIP : Bytes
  targetIP : IP
  action : Bytes
deriving DecidableEq

/-- `RebindConfig`. -/
structure RebindConfig where
  enabled : Bool
  strictMode : Bool
  whitelistedDomains : List Bytes
  blockedCount : BitVec 64
  recentAttacks : List RebindEvent
deriving DecidableEq

/-- The initial value of `rebindConf`. -/
def rebindConf : RebindConfig where
  enabled := true
  strictMode := true
  whitelistedDomains := ["local", "lan", "home", "home.arpa", "internal", "intranet", "corp", "lab",
    "plex.direct", "myfritz.net", "ts.net", "in-addr.arpa", "ip6.arpa"].map lit
  blockedCount := 0
  recentAttacks := []

/-- `isPrivateOrLocalIP`. -/
def isPrivateOrLocalIP (ip : IP) : Bool :=
  if ip.isLoopback || ip.isPrivate || ip.isLinkLocalUnicast || ip.isLinkLocalMulticast ||
      ip.isUnspecified then
    true
  else
    match ip.to4 with
    | some ip4 => ip4.byte 0 == 0
    | none => false

section Domains

-- `strings.ToLower`; nothing here depends on its Unicode tables.
variable (toLower : Bytes → Bytes)

def comparable (domain : Bytes) : Bytes := trimSuffix (toLower (trimSpace domain)) (lit ".")

/-- `isDomainWhitelistedForRebind`. -/
def isDomainWhitelistedForRebind (domain : Bytes) (whitelist : List Bytes) : Bool :=
  whitelist.any fun w => comparable toLower domain == comparable toLower w ||
    hasSuffix (comparable toLower domain) (lit "." ++ comparable toLower w)

/-- What `CheckDNSRebinding` answers under a configuration. -/
def RebindConfig.attacked (conf : RebindConfig) (domain : Bytes) (ip : IP) : Bool :=
  conf.enabled && isPrivateOrLocalIP ip &&
    !isDomainWhitelistedForRebind toLower domain conf.whitelistedDomains

/-- The loop of `SetRebindConfig` over the new whitelist. -/
def cleanWhitelist (whitelisted : List Bytes) : List Bytes :=
  (whitelisted.map fun w =>
    trimPrefix (trimPrefix (trimSpace (toLower w)) (lit "*.")) (lit ".")).filter (· ≠ [])

/-- The update that `SetRebindConfig` makes. -/
def RebindConfig.configure (enabled strictMode : Bool) (whitelisted : List Bytes)
    (conf : RebindConfig) : RebindConfig :=
  { conf with enabled, strictMode, whitelistedDomains := cleanWhitelist toLower whitelisted }

end Domains

/-- The update that `ClearRebindStats` makes. -/
def RebindConfig.clearStats (conf : RebindConfig) : RebindConfig :=
  { conf with blockedCount := 0, recentAttacks := [] }

/-- The update that `recordRebindAttack` makes: the last 50 attacks are kept. -/
def RebindConfig.record (now domain : Bytes) (targetIP : IP) (clientIP : Bytes)
    (conf : RebindConfig) : RebindConfig :=
  let evt := ⟨now, domain, clientIP, targetIP, lit "BLOCKED (Protected Local Network)"⟩
  { conf with
    blockedCount := conf.blockedCount + 1
    recentAttacks := (evt :: conf.recentAttacks).take 50 }

end AdGuardHome.Dnsforward
