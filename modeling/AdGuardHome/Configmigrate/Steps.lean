import AdGuardHome.Configmigrate.Yaml
import AdGuardHome.Netip
import Mathlib.Algebra.Group.Int.Defs

/-! Package `configmigrate`: the migrations up to schema version 17. A step gives the
configuration as its mutations leave it; what it has changed before an error is not kept,
since nobody reads the configuration after one. -/
namespace AdGuardHome.Configmigrate

/-- `url.URL`, as far as it is looked into. -/
structure URL where
  scheme : String
  host : String
  /-- `URL.String` after the host has been replaced. -/
  stringWithHost : String → String

structure Packages where
  /-- `bcrypt.GenerateFromPassword` with the salt that it draws. -/
  generateFromPassword : (salt password : String) → Except String String
  /-- `netip.ParseAddr`. -/
  parseAddr : String → Option Netip.Addr
  /-- `AddrPort.String` of an address and a port. -/
  addrPortString : Netip.Addr → Nat → String
  /-- `timeutil.Duration.String`, which is also the text of a marshalled duration. -/
  durationString : Int → String
  /-- `url.Parse`. -/
  urlParse : String → Option URL
  /-- `netutil.SplitHost`. -/
  splitHost : String → Option String
  /-- `filepath.Join`. -/
  filepathJoin : List String → String
  /-- `filepath.IsAbs`. -/
  filepathIsAbs : String → Bool

/-- `Migrator`, with the salt that its one password hash is made with. -/
structure Migrator extends Packages where
  dataDir : String
  salt : String

def mul64 (a b : Int) : Int := (a * b).bmod (2 ^ 64)

/-- `timeutil.Day`. -/
def day : Int := 24 * 60 * 60 * 1000000000

/-- `time.Hour`. -/
def hour : Int := 60 * 60 * 1000000000

def migrateTo1 (diskConf : YObj) : Go YObj := do
  let diskConf ← diskConf.set "schema_version" (.int 1)
  return diskConf

def migrateTo2 (diskConf : YObj) : Go YObj := do
  let diskConf ← diskConf.set "schema_version" (.int 2)
  renameVal .any diskConf "coredns" "dns"

def migrateTo3 (diskConf : YObj) : Go YObj := do
  let diskConf ← diskConf.set "schema_version" (.int 3)
  let some dnsConfig ← fieldVal .yobj diskConf "dns" | return diskConf
  let some bootstrapDNS ← fieldVal .any dnsConfig "bootstrap_dns" | return diskConf
  let dnsConfig ← dnsConfig.set "bootstrap_dns" (.arr [bootstrapDNS])
  return diskConf.update "dns" dnsConfig

/-- The body of the loop in `migrateTo4`. -/
def useGlobalBlockedServices (client : Val) : Go Val :=
  match client with
  | .obj c => Val.obj <$> YObj.set c "use_global_blocked_services" (.bool true)
  | client => .ok client

def migrateTo4 (diskConf : YObj) : Go YObj := do
  let diskConf ← diskConf.set "schema_version" (.int 4)
  let .ok (some clients) := fieldVal .yarr diskConf "clients" | return diskConf
  let clients ← clients.mapM useGlobalBlockedServices
  return diskConf.updateArr "clients" clients

def migrateTo5 (m : Migrator) (diskConf : YObj) : Go YObj := do
  let diskConf ← diskConf.set "schema_version" (.int 5)
  let (diskConf, user) ← moveVal .string diskConf .empty "auth_name" "name"
  let some pass ← fieldVal .string diskConf "auth_pass" | return diskConf
  let diskConf := diskConf.delete "auth_pass"
  match m.generateFromPassword m.salt pass with
  | .error err => fail ("generating password hash: " ++ err)
  | .ok hash =>
    let user ← user.set "password" (.str hash)
    diskConf.set "users" (.arr [.obj user])

/-- One round of the inner loop in `migrateTo6`. -/
def addID (i : Nat) (c : YObj) (ids : YArr) (id : String) : Go YArr :=
  match fieldVal .string c id with
  | .error (.error message) => fail ("client at index " ++ toString i ++ ": " ++ message)
  | .error .panic => .error .panic
  | .ok val => .ok (if val.getD "" ≠ "" then ids ++ [.str (val.getD "")] else ids)

/-- The body of the loop in `migrateTo6`. -/
def collectIDs (indexed : Val × Nat) : Go Val :=
  match indexed.1 with
  | .obj c => do
    let ids ← ["ip", "mac"].foldlM (addID indexed.2 c) []
    Val.obj <$> YObj.set c "ids" (.arr ids)
  | client =>
    fail ("unexpected type of client at index " ++ toString indexed.2 ++ ": " ++ client.goType)

def migrateTo6 (diskConf : YObj) : Go YObj := do
  let diskConf ← diskConf.set "schema_version" (.int 6)
  let some clients ← fieldVal .yarr diskConf "clients" | return diskConf
  let clients ← clients.zipIdx.mapM collectIDs
  return diskConf.updateArr "clients" clients

def migrateTo7 (diskConf : YObj) : Go YObj := do
  let diskConf ← diskConf.set "schema_version" (.int 7)
  let .ok (some dhcp) := fieldVal .yobj diskConf "dhcp" | return diskConf
  let (dhcp, dhcpv4) ← joinMoves
    [.sameVal .string "gateway_ip",
      .sameVal .string "subnet_mask",
      .sameVal .string "range_start",
      .sameVal .string "range_end",
      .sameVal .int "lease_duration",
      .sameVal .int "icmp_timeout_msec"] dhcp .empty
  let dhcp ← dhcp.set "dhcpv4" (.obj dhcpv4)
  return diskConf.update "dhcp" dhcp

def migrateTo8 (diskConf : YObj) : Go YObj := do
  let diskConf ← diskConf.set "schema_version" (.int 8)
  let some dns ← fieldVal .yobj diskConf "dns" | return diskConf
  let some bindHost ← fieldVal .string dns "bind_host" | return diskConf
  let dns ← (dns.delete "bind_host").set "bind_hosts" (.arr [.str bindHost])
  return diskConf.update "dns" dns

def migrateTo9 (diskConf : YObj) : Go YObj := do
  let diskConf ← diskConf.set "schema_version" (.int 9)
  let some dns ← fieldVal .yobj diskConf "dns" | return diskConf
  let dns ← renameVal .string dns "autohost_tld" "local_domain_name"
  return diskConf.update "dns" dns

/-- `strings.CutPrefix`. -/
def cutPrefix (s pref : String) : Option String :=
  if pref.toList.isPrefixOf s.toList then some (String.ofList (s.toList.drop pref.length))
  else none

/-- `strings.Contains` of a part that is not empty. -/
def contains (s part : String) : Bool := 1 < (s.splitOn part).length

/-- The domains in front of an upstream, and the upstream after them. -/
def splitDomains (ups : String) : Option (String × String) :=
  match cutPrefix ups "[/" with
  | none => some ("", ups)
  | some after =>
    match after.splitOn "/]" with
    | [doms, withPort] => some ("[/" ++ doms ++ "/]", withPort)
    | _ => none

/-- `addQUICPort`. -/
def addQUICPort (m : Migrator) (ups : String) (port : Nat) : String :=
  if ups.toList.head? = none ∨ ups.toList.head? = some '#' then ups
  else match splitDomains ups with
    | none => ups
    | some (doms, withPort) =>
      if !contains withPort "://" then ups
      else match m.urlParse withPort with
        | none => ups
        | some upsURL =>
          if upsURL.scheme ≠ "quic" then ups
          else match m.splitHost upsURL.host with
            | none => ups
            | some host =>
              if host ≠ upsURL.host then ups
              else doms ++ upsURL.stringWithHost (":".intercalate [host, toString port])

/-- `addQUICPorts`. -/
def addQUICPorts (m : Migrator) (ups : YArr) (port : Nat) : Go YArr :=
  ups.mapM fun uVal =>
    match uVal with
    | .str u => .ok (.str (addQUICPort m u port))
    | uVal => fail ("unexpected type of upstream field: " ++ uVal.goType)

/-- One of the two halves of `migrateTo10`. -/
def addQUICPortsIn (m : Migrator) (dns : YObj) (field : String) : Go YObj := do
  let some ups ← fieldVal .yarr dns field | return dns
  let ups ← addQUICPorts m ups 784
  dns.set field (.arr ups)

def migrateTo10 (m : Migrator) (diskConf : YObj) : Go YObj := do
  let diskConf ← diskConf.set "schema_version" (.int 10)
  let some dns ← fieldVal .yobj diskConf "dns" | return diskConf
  let dns ← addQUICPortsIn m dns "upstream_dns"
  let dns ← addQUICPortsIn m dns "local_ptr_upstreams"
  return diskConf.update "dns" dns

def migrateTo11 (diskConf : YObj) : Go YObj := do
  let diskConf ← diskConf.set "schema_version" (.int 11)
  let rlimit ← fieldVal .int diskConf "rlimit_nofile"
  (diskConf.delete "rlimit_nofile").set "os" (.obj (YObj.ofList
    [("group", .str ""), ("rlimit_nofile", .int (rlimit.getD 0)), ("user", .str "")]))

def migrateTo12 (diskConf : YObj) : Go YObj := do
  let diskConf ← diskConf.set "schema_version" (.int 12)
  let some dns ← fieldVal .yobj diskConf "dns" | return diskConf
  let qlogIvl ← fieldVal .int dns "querylog_interval"
  let dns ← dns.set "querylog_interval" (.duration (mul64 (qlogIvl.getD 90) day))
  return diskConf.update "dns" dns

def migrateTo13 (diskConf : YObj) : Go YObj := do
  let diskConf ← diskConf.set "schema_version" (.int 13)
  let some dns ← fieldVal .yobj diskConf "dns" | return diskConf
  let some dhcp ← fieldVal .yobj diskConf "dhcp" | return diskConf
  let (dns, dhcp) ← Move.sameVal .string "local_domain_name" dns dhcp
  return (diskConf.update "dns" dns).update "dhcp" dhcp

def migrateTo14 (diskConf : YObj) : Go YObj := do
  let diskConf ← diskConf.set "schema_version" (.int 14)
  let persistent ← fieldVal .yarr diskConf "clients"
  let runtimeClients := YObj.ofList
    [("whois", .bool true), ("arp", .bool true), ("rdns", .bool false), ("dhcp", .bool true),
      ("hosts", .bool true)]
  let clients (runtimeClients : YObj) := YObj.ofList
    [("persistent", .arr (persistent.getD [])), ("runtime_sources", .obj runtimeClients)]
  let diskConf ← diskConf.set "clients" (.obj (clients runtimeClients))
  let some dns ← fieldVal .yobj diskConf "dns" | return diskConf
  let (dns, runtimeClients) ← moveVal .bool dns runtimeClients "resolve_clients" "rdns"
  return (diskConf.update "dns" dns).update "clients" (clients runtimeClients)

def migrateTo15 (diskConf : YObj) : Go YObj := do
  let diskConf ← diskConf.set "schema_version" (.int 15)
  let some dns ← fieldVal .yobj diskConf "dns" | return diskConf
  let qlog := YObj.ofList
    [("ignored", .arr []), ("enabled", .bool true), ("file_enabled", .bool true),
      ("interval", .str "2160h"), ("size_memory", .int 1000)]
  let diskConf ← diskConf.set "querylog" (.obj qlog)
  let (dns, qlog) ← joinMoves
    [.val .bool "querylog_enabled" "enabled",
      .val .bool "querylog_file_enabled" "file_enabled",
      .val .any "querylog_interval" "interval",
      .val .int "querylog_size_memory" "size_memory"] dns qlog
  return (diskConf.update "dns" dns).update "querylog" qlog

def migrateTo16 (diskConf : YObj) : Go YObj := do
  let diskConf ← diskConf.set "schema_version" (.int 16)
  let some dns ← fieldVal .yobj diskConf "dns" | return diskConf
  let stats := YObj.ofList [("enabled", .bool true), ("interval", .int 1), ("ignored", .arr [])]
  let diskConf ← diskConf.set "statistics" (.obj stats)
  let some statsIvl ← fieldVal .int dns "statistics_interval" | return diskConf
  let stats ←
    if statsIvl = 0 then stats.set "enabled" (.bool false)
    else stats.set "interval" (.int statsIvl)
  return (diskConf.update "statistics" stats).update "dns" (dns.delete "statistics_interval")

def migrateTo17 (diskConf : YObj) : Go YObj := do
  let diskConf ← diskConf.set "schema_version" (.int 17)
  let some dns ← fieldVal .yobj diskConf "dns" | return diskConf
  let enabled := fieldOrZero .bool dns "edns_client_subnet"
  let dns ← dns.set "edns_client_subnet" (.obj (YObj.ofList
    [("enabled", .bool enabled), ("use_custom", .bool false), ("custom_ip", .str "")]))
  return diskConf.update "dns" dns

/-- The safe search settings that `migrateTo18` and `migrateTo19` start from. -/
def safeSearchDefaults : YObj := YObj.ofList
  [("enabled", .bool true), ("bing", .bool true), ("duckduckgo", .bool true),
    ("google", .bool true), ("pixabay", .bool true), ("yandex", .bool true),
    ("youtube", .bool true)]

def migrateTo18 (diskConf : YObj) : Go YObj := do
  let diskConf ← diskConf.set "schema_version" (.int 18)
  let some dns ← fieldVal .yobj diskConf "dns" | return diskConf
  let dns ← dns.set "safe_search" (.obj safeSearchDefaults)
  let (dns, safeSearch) ← moveVal .bool dns safeSearchDefaults "safesearch_enabled" "enabled"
  -- The settings are already in the section, which sees them change.
  return diskConf.update "dns" (dns.update "safe_search" safeSearch)

/-- The body of the loop in `migrateTo19`. A setting of another type is only logged. -/
def addSafeSearch (p : Val) : Go Val :=
  match p with
  | .obj c => do
    let (c, safeSearch) ←
      match moveVal .bool c safeSearchDefaults "safesearch_enabled" "enabled" with
      | .error (.error _) => .ok (c, safeSearchDefaults)
      | moved => moved
    Val.obj <$> YObj.set c "safe_search" (.obj safeSearch)
  | p => .ok p

def migrateTo19 (diskConf : YObj) : Go YObj := do
  let diskConf ← diskConf.set "schema_version" (.int 19)
  let some clients ← fieldVal .yobj diskConf "clients" | return diskConf
  let .ok (some persistent) := fieldVal .yarr clients "persistent" | return diskConf
  let persistent ← persistent.mapM addSafeSearch
  return diskConf.update "clients" (clients.updateArr "persistent" persistent)

def migrateTo20 (diskConf : YObj) : Go YObj := do
  let diskConf ← diskConf.set "schema_version" (.int 20)
  let some stats ← fieldVal .yobj diskConf "statistics" | return diskConf
  let ivl := (← fieldVal .int stats "interval").getD 0
  let ivl := if ivl = 0 then 1 else ivl
  let stats ← stats.set "interval" (.duration (mul64 ivl day))
  return diskConf.update "statistics" stats

/-- The schedule that `migrateTo21` and `migrateTo22` add to blocked services. -/
def localSchedule : Val := .obj (YObj.ofList [("time_zone", .str "Local")])

def migrateTo21 (diskConf : YObj) : Go YObj := do
  let diskConf ← diskConf.set "schema_version" (.int 21)
  let some dns ← fieldVal .yobj diskConf "dns" | return diskConf
  let svcs := YObj.ofList [("schedule", localSchedule)]
  let (dns, svcs) ← moveVal .yarr dns svcs "blocked_services" "ids"
  let dns ← dns.set "blocked_services" (.obj svcs)
  return diskConf.update "dns" dns

/-- The body of the loop in `migrateTo22`. -/
def addSchedule (indexed : Val × Nat) : Go Val :=
  match indexed.1 with
  | .obj c =>
    match fieldVal .yarr c "blocked_services" with
    | .error (.error message) =>
      fail ("persistent client at index " ++ toString indexed.2 ++ ": " ++ message)
    | .error .panic => .error .panic
    | .ok none => .ok (.obj c)
    | .ok (some services) =>
      Val.obj <$> YObj.set c "blocked_services"
        (.obj (YObj.ofList [("ids", .arr services), ("schedule", localSchedule)]))
  | p =>
    fail ("persistent client at index " ++ toString indexed.2 ++ ": unexpected type " ++ p.goType)

def migrateTo22 (diskConf : YObj) : Go YObj := do
  let diskConf ← diskConf.set "schema_version" (.int 22)
  let some clients ← fieldVal .yobj diskConf "clients" | return diskConf
  let some persistent ← fieldVal .yarr clients "persistent" | return diskConf
  let persistent ← persistent.zipIdx.mapM addSchedule
  return diskConf.update "clients" (clients.updateArr "persistent" persistent)

def migrateTo23 (m : Migrator) (diskConf : YObj) : Go YObj := do
  let diskConf ← diskConf.set "schema_version" (.int 23)
  let some bindHost ← fieldVal .string diskConf "bind_host" | return diskConf
  match m.parseAddr bindHost with
  | none => fail ("invalid bind_host value: " ++ bindHost)
  | some bindHostAddr =>
    let bindPort ← fieldVal .int diskConf "bind_port"
    let sessionTTL ← fieldVal .int diskConf "web_session_ttl"
    let port := (bindPort.getD 0 % 2 ^ 16).toNat
    let diskConf ← diskConf.set "http" (.obj (YObj.ofList
      [("address", .str (m.addrPortString bindHostAddr port)),
        ("session_ttl", .str (m.durationString (mul64 (sessionTTL.getD 0) hour)))]))
    return ((diskConf.delete "bind_host").delete "bind_port").delete "web_session_ttl"

def migrateTo24 (diskConf : YObj) : Go YObj := do
  let diskConf ← diskConf.set "schema_version" (.int 24)
  let (diskConf, logObj) ← joinMoves
    [.val .string "log_file" "file",
      .val .int "log_max_backups" "max_backups",
      .val .int "log_max_size" "max_size",
      .val .int "log_max_age" "max_age",
      .val .bool "log_compress" "compress",
      .val .bool "log_localtime" "local_time",
      .val .bool "verbose" "verbose"] diskConf .empty
  if logObj.isEmpty then return diskConf else diskConf.set "log" (.obj logObj)

def migrateTo25 (diskConf : YObj) : Go YObj := do
  let diskConf ← diskConf.set "schema_version" (.int 25)
  let some httpObj ← fieldVal .yobj diskConf "http" | return diskConf
  let pprofObj := YObj.ofList [("enabled", .bool false), ("port", .int 6060)]
  let (diskConf, pprofObj) ← moveVal .bool diskConf pprofObj "debug_pprof" "enabled"
  let httpObj ← httpObj.set "pprof" (.obj pprofObj)
  return diskConf.update "http" httpObj

def migrateTo26 (diskConf : YObj) : Go YObj := do
  let diskConf ← diskConf.set "schema_version" (.int 26)
  let some dns ← fieldVal .yobj diskConf "dns" | return diskConf
  let (dns, filteringObj) ← joinMoves
    [.sameVal .bool "filtering_enabled",
      .sameVal .int "filters_update_interval",
      .sameVal .bool "parental_enabled",
      .sameVal .bool "safebrowsing_enabled",
      .sameVal .int "safebrowsing_cache_size",
      .sameVal .int "safesearch_cache_size",
      .sameVal .int "parental_cache_size",
      .sameVal .yobj "safe_search",
      .sameVal .yarr "rewrites",
      .sameVal .yobj "blocked_services",
      .sameVal .bool "protection_enabled",
      .sameVal .string "blocking_mode",
      .sameVal .string "blocking_ipv4",
      .sameVal .string "blocking_ipv6",
      .sameVal .int "blocked_response_ttl",
      .sameVal .any "protection_disabled_until",
      .sameVal .string "parental_block_host",
      .sameVal .string "safebrowsing_block_host"] dns .empty
  let diskConf := diskConf.update "dns" dns
  if filteringObj.isEmpty then return diskConf else diskConf.set "filtering" (.obj filteringObj)

/-- One round of the loop in `replaceDot`. -/
def replaceDotIn (hostVal : Val) : Val :=
  match hostVal with
  | .str host => if host = "." then .str "|.^" else .str host
  | hostVal => hostVal

def replaceDot (diskConf : YObj) (key : String) : Go YObj := do
  let some obj ← fieldVal .yobj diskConf key | return diskConf
  let some ignored ← fieldVal .yarr obj "ignored" | return diskConf
  return diskConf.update key (obj.updateArr "ignored" (ignored.map replaceDotIn))

def migrateTo27 (diskConf : YObj) : Go YObj := do
  let diskConf ← diskConf.set "schema_version" (.int 27)
  ["querylog", "statistics"].foldlM replaceDot diskConf

def migrateTo28 (diskConf : YObj) : Go YObj := do
  let diskConf ← diskConf.set "schema_version" (.int 28)
  let some dns ← fieldVal .yobj diskConf "dns" | return diskConf
  let upstreamModeType :=
    if fieldOrZero .bool dns "all_servers" then "parallel"
    else if fieldOrZero .bool dns "fastest_addr" then "fastest_addr"
    else "load_balance"
  let dns ← dns.set "upstream_mode" (.upstreamMode upstreamModeType)
  return diskConf.update "dns" ((dns.delete "all_servers").delete "fastest_addr")

/-- One round of the loop in `migrateTo29`. -/
def addPath (m : Migrator) (paths : List String) (indexed : Val × Nat) : Go (List String) :=
  match indexed.1 with
  | .obj f =>
    match fieldVal .string f "url" with
    | .ok (some u) => .ok (if m.filepathIsAbs u then paths ++ [u] else paths)
    | _ => .ok paths
  | v => fail ("filters: at index " ++ toString indexed.2 ++ ": expected object, got " ++ v.goType)

def migrateTo29 (m : Migrator) (diskConf : YObj) : Go YObj := do
  let diskConf ← diskConf.set "schema_version" (.int 29)
  let some filterVals ← fieldVal .yarr diskConf "filters" | return diskConf
  let paths ← filterVals.zipIdx.foldlM (addPath m)
    [m.filepathJoin [m.dataDir, "userfilters", "*"]]
  let some fltConf ← fieldVal .yobj diskConf "filtering" | return diskConf
  let fltConf ← fltConf.set "safe_fs_patterns" (.strs paths)
  return diskConf.update "filtering" fltConf

def migrateTo30 (diskConf : YObj) : Go YObj := do
  let diskConf ← diskConf.set "schema_version" (.int 30)
  let some dnsConf ← fieldVal .yobj diskConf "dns" | return diskConf
  let some cacheSize ← fieldVal .int dnsConf "cache_size" | return diskConf
  let dnsConf ← dnsConf.set "cache_enabled" (.bool (0 < cacheSize))
  return diskConf.update "dns" dnsConf

/-- The body of the loop in `migrateTo31`. -/
def enableRewrite (rewrite : Val) : Go Val :=
  match rewrite with
  | .obj r => Val.obj <$> YObj.set r "enabled" (.bool true)
  | rewrite => .ok rewrite

def migrateTo31 (diskConf : YObj) : Go YObj := do
  let diskConf ← diskConf.set "schema_version" (.int 31)
  let some fltConf ← fieldVal .yobj diskConf "filtering" | return diskConf
  let some rewrites ← fieldVal .yarr fltConf "rewrites" | return diskConf
  let rewrites ← rewrites.mapM enableRewrite
  return diskConf.update "filtering" (fltConf.updateArr "rewrites" rewrites)

def migrateTo32 (diskConf : YObj) : Go YObj := do
  let diskConf ← diskConf.set "schema_version" (.int 32)
  let some dnsConf ← fieldVal .yobj diskConf "dns" | return diskConf
  let dnsConf ← dnsConf.set "cache_optimistic_answer_ttl" (.str "30s")
  let dnsConf ← dnsConf.set "cache_optimistic_max_age" (.str "12h")
  return diskConf.update "dns" dnsConf

def migrateTo33 (diskConf : YObj) : Go YObj := do
  let diskConf ← diskConf.set "schema_version" (.int 33)
  let some queryLogConf ← fieldVal .yobj diskConf "querylog" | return diskConf
  let some ignored ← fieldVal .yarr queryLogConf "ignored" | return diskConf
  let queryLogConf ← queryLogConf.set "ignored_enabled" (.bool (0 < ignored.length))
  let diskConf := diskConf.update "querylog" queryLogConf
  let some statisticsConf ← fieldVal .yobj diskConf "statistics" | return diskConf
  let some ignored ← fieldVal .yarr statisticsConf "ignored" | return diskConf
  let statisticsConf ← statisticsConf.set "ignored_enabled" (.bool (0 < ignored.length))
  return diskConf.update "statistics" statisticsConf

def migrateTo34 (diskConf : YObj) : Go YObj := do
  let diskConf ← diskConf.set "schema_version" (.int 34)
  let some httpConf ← fieldVal .yobj diskConf "http" | return diskConf
  let some tlsConf ← fieldVal .yobj diskConf "tls" | return diskConf
  let dohConf := YObj.ofList
    [("routes", .arr [.str "GET /dns-query", .str "POST /dns-query",
      .str "GET /dns-query/\x7bClientID\x7d", .str "POST /dns-query/\x7bClientID\x7d"])]
  let httpConf ← httpConf.set "doh" (.obj dohConf)
  let (tlsConf, dohConf) ← moveVal .bool tlsConf dohConf "allow_unencrypted_doh"
    "insecure_enabled"
  return (diskConf.update "tls" tlsConf).update "http" (httpConf.update "doh" dohConf)

end AdGuardHome.Configmigrate
