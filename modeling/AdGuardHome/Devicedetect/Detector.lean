import AdGuardHome.Strings
import AdGuardHome.Lib.FiniteMap
import AdGuardHome.Lib.Machine

/-! Package `devicedetect`: the rules that tell a device by the names it asks for. -/
namespace AdGuardHome.Devicedetect

open Strings

/-- `DeviceType`. -/
inductive DeviceType where
  | phone
  | pc
  | tv
  | gameConsole
  | iot
  | nas
  | camera
  | printer
  | audio
  | other
deriving DecidableEq

structure Verdict where
  deviceType : DeviceType
  os : String
  vendor : String
  model : String
  icon : String
  confidence : Nat
  ruleName : String
deriving DecidableEq

/-- `FingerprintRule`. The expression of a rule for hostnames is the list of its alternatives, any
of which has to occur in the name in upper or lower case. -/
structure FingerprintRule extends Verdict where
  pattern : Bytes
  isSuffix : Bool
  isExact : Bool
  regex : Option (List Bytes)
deriving DecidableEq

def exact (pattern : String) (verdict : Verdict) : FingerprintRule :=
  { verdict with pattern := lit pattern, isSuffix := false, isExact := true, regex := none }

def suffix (pattern : String) (verdict : Verdict) : FingerprintRule :=
  { verdict with pattern := lit pattern, isSuffix := true, isExact := false, regex := none }

def host (alternatives : List String) (verdict : Verdict) : FingerprintRule :=
  { verdict with
    pattern := []
    isSuffix := false
    isExact := false
    regex := some (alternatives.map lit) }

/-- The domain rules of `initRules`. -/
def domainRules : List FingerprintRule :=
  [exact "captive.apple.com"
      ⟨.phone, "Apple iOS/macOS", "Apple",
        "Apple Device (iPhone/Mac/iPad)", "apple", 95, "Apple Captive Portal"⟩,
   suffix "mask.icloud.com"
      ⟨.phone, "Apple iOS/macOS", "Apple",
        "Apple Device (iCloud Private Relay)", "apple", 95, "Apple iCloud Relay"⟩,
   suffix "mask-h2.icloud.com"
      ⟨.phone, "Apple iOS/macOS", "Apple",
        "Apple Device (iCloud Private Relay)", "apple", 95, "Apple iCloud Relay H2"⟩,
   suffix "gateway.icloud.com"
      ⟨.phone, "Apple iOS/macOS", "Apple",
        "Apple Device (iCloud Services)", "apple", 90, "Apple iCloud Gateway"⟩,
   suffix "smoot.apple.com"
      ⟨.phone, "Apple iOS/macOS", "Apple",
        "Apple Device (Siri/Spotlight)", "apple", 90, "Apple Siri Telemetry"⟩,
   exact "time.apple.com"
      ⟨.phone, "Apple iOS/macOS", "Apple",
        "Apple Device (NTP Time)", "apple", 85, "Apple Time Server"⟩,
   suffix "configuration.apple.com"
      ⟨.phone, "Apple iOS/macOS", "Apple", "Apple Device", "apple", 85, "Apple Config"⟩,
   suffix "weather-data.apple.com"
      ⟨.phone, "Apple iOS/macOS", "Apple",
        "Apple Device (Weather)", "apple", 85, "Apple Weather"⟩,
   suffix "init.itunes.apple.com"
      ⟨.phone, "Apple iOS/macOS", "Apple",
        "Apple Device (App Store)", "apple", 80, "Apple App Store"⟩,
   suffix ".apple.com"
      ⟨.phone, "Apple iOS/macOS", "Apple", "Apple Device", "apple", 70, "Apple Cloud"⟩,
   exact "dns.msftncsi.com"
      ⟨.pc, "Windows 10/11", "Microsoft",
        "Windows PC / Laptop", "windows", 95, "Windows NCSI Probe"⟩,
   exact "www.msftconnecttest.com"
      ⟨.pc, "Windows 10/11", "Microsoft",
        "Windows PC / Laptop", "windows", 95, "Windows Connect Test"⟩,
   suffix "v10.events.data.microsoft.com"
      ⟨.pc, "Windows 10/11", "Microsoft",
        "Windows PC / Laptop", "windows", 90, "Windows Telemetry (v10)"⟩,
   suffix "v20.events.data.microsoft.com"
      ⟨.pc, "Windows 10/11", "Microsoft",
        "Windows PC / Laptop", "windows", 90, "Windows Telemetry (v20)"⟩,
   suffix "activity.windows.com"
      ⟨.pc, "Windows 10/11", "Microsoft",
        "Windows PC / Laptop", "windows", 90, "Windows Activity Hub"⟩,
   suffix "slscr.update.microsoft.com"
      ⟨.pc, "Windows 10/11", "Microsoft",
        "Windows PC (Windows Update)", "windows", 90, "Windows Update"⟩,
   suffix "settings-win.data.microsoft.com"
      ⟨.pc, "Windows 10/11", "Microsoft",
        "Windows PC / Laptop", "windows", 85, "Windows Settings Sync"⟩,
   exact "time.windows.com"
      ⟨.pc, "Windows 10/11", "Microsoft",
        "Windows PC (NTP)", "windows", 85, "Windows Time Service"⟩,
   exact "connectivitycheck.gstatic.com"
      ⟨.phone, "Android", "Google",
        "Android Smartphone / Tablet", "android", 95, "Android Captive Portal"⟩,
   exact "connectivitycheck.android.com"
      ⟨.phone, "Android", "Google",
        "Android Smartphone / Tablet", "android", 95, "Android Check"⟩,
   suffix "clients3.google.com"
      ⟨.phone, "Android", "Google",
        "Android Device / ChromeOS", "android", 80, "Google Client Services"⟩,
   suffix "android.clients.google.com"
      ⟨.phone, "Android", "Google",
        "Android Smartphone / Tablet", "android", 90, "Android Services"⟩,
   suffix "device-provisioning.googleapis.com"
      ⟨.phone, "Android", "Google",
        "Android Device", "android", 85, "Android Device Provisioning"⟩,
   suffix "samsungcloudsolution.com"
      ⟨.tv, "Tizen OS", "Samsung", "Samsung Smart TV", "tv", 95, "Samsung TV Cloud"⟩,
   suffix "samsungqbe.com"
      ⟨.tv, "Tizen OS", "Samsung", "Samsung Smart TV", "tv", 95, "Samsung QBE TV Hub"⟩,
   suffix "osb.samsungcloudsolution.com"
      ⟨.tv, "Tizen OS", "Samsung", "Samsung Smart TV", "tv", 95, "Samsung OSB TV"⟩,
   suffix "tvx.samsungcloudsolution.com"
      ⟨.tv, "Tizen OS", "Samsung", "Samsung Smart TV", "tv", 95, "Samsung TVX Cloud"⟩,
   suffix "vd.emp.samsungosp.com"
      ⟨.tv, "Tizen OS", "Samsung", "Samsung Smart TV", "tv", 90, "Samsung OSP Video"⟩,
   suffix "samsungcloudplatform.com"
      ⟨.phone, "Android / OneUI", "Samsung",
        "Samsung Galaxy Device", "android", 85, "Samsung Cloud Platform"⟩,
   suffix "lgsmartad.com"
      ⟨.tv, "webOS", "LG", "LG Smart TV (webOS)", "tv", 95, "LG Smart TV Ad Hub"⟩,
   suffix "lgtvcommon.com"
      ⟨.tv, "webOS", "LG", "LG Smart TV (webOS)", "tv", 95, "LG TV Common"⟩,
   suffix "rdx2.lgtvsdp.com"
      ⟨.tv, "webOS", "LG", "LG Smart TV (webOS)", "tv", 95, "LG TV SDP"⟩,
   suffix "ibis.lgappstv.com"
      ⟨.tv, "webOS", "LG", "LG Smart TV (Apps)", "tv", 95, "LG Smart TV Apps"⟩,
   suffix "sw.roku.com"
      ⟨.tv, "Roku OS", "Roku", "Roku Streaming Player / TV", "tv", 95, "Roku Software Update"⟩,
   suffix "api.roku.com"
      ⟨.tv, "Roku OS", "Roku", "Roku Streaming Player / TV", "tv", 90, "Roku API"⟩,
   suffix "playstation.net"
      ⟨.gameConsole, "PlayStation OS", "Sony",
        "Sony PlayStation (PS4/PS5)", "game", 95, "PlayStation Network"⟩,
   suffix "ps5.ac.playstation.net"
      ⟨.gameConsole, "PlayStation OS", "Sony",
        "Sony PlayStation 5", "game", 98, "PS5 Network Core"⟩,
   suffix "ps4.ac.playstation.net"
      ⟨.gameConsole, "PlayStation OS", "Sony",
        "Sony PlayStation 4", "game", 98, "PS4 Network Core"⟩,
   exact "conntest.nintendowifi.net"
      ⟨.gameConsole, "Nintendo Switch OS", "Nintendo",
        "Nintendo Switch Console", "game", 95, "Nintendo Wi-Fi Probe"⟩,
   exact "ctest.cdn.nintendo.net"
      ⟨.gameConsole, "Nintendo Switch OS", "Nintendo",
        "Nintendo Switch Console", "game", 95, "Nintendo CDN Test"⟩,
   suffix "xsts.auth.xboxlive.com"
      ⟨.gameConsole, "Xbox OS", "Microsoft",
        "Microsoft Xbox Console", "game", 95, "Xbox Live Auth"⟩,
   suffix "title.msecnd.net"
      ⟨.gameConsole, "Xbox OS", "Microsoft",
        "Microsoft Xbox Console", "game", 85, "Xbox Content Delivery"⟩,
   suffix "tuyaus.com"
      ⟨.iot, "IoT Firmware", "Tuya / SmartLife",
        "Tuya Smart Home Device", "iot", 95, "Tuya Cloud US"⟩,
   suffix "tuyaeu.com"
      ⟨.iot, "IoT Firmware", "Tuya / SmartLife",
        "Tuya Smart Home Device", "iot", 95, "Tuya Cloud EU"⟩,
   suffix "tuyacn.com"
      ⟨.iot, "IoT Firmware", "Tuya / SmartLife",
        "Tuya Smart Home Device", "iot", 95, "Tuya Cloud CN"⟩,
   suffix "tplinkcloud.com"
      ⟨.iot, "IoT Firmware", "TP-Link",
        "TP-Link / Tapo / Kasa Smart Device", "iot", 95, "TP-Link Cloud"⟩,
   suffix "kasa.tplink.com"
      ⟨.iot, "IoT Firmware", "TP-Link", "Kasa Smart Home Device", "iot", 95, "TP-Link Kasa"⟩,
   suffix "miui.com"
      ⟨.phone, "HyperOS / MIUI", "Xiaomi",
        "Xiaomi / Redmi Smartphone", "android", 90, "Xiaomi MIUI Cloud"⟩,
   suffix "api.io.mi.com"
      ⟨.iot, "Mijia IoT", "Xiaomi", "Xiaomi Mijia Smart Device", "iot", 95, "Xiaomi Mijia IoT"⟩,
   suffix "roborock.com"
      ⟨.iot, "Roborock OS", "Roborock", "Roborock Robot Vacuum", "iot", 95, "Roborock Cloud"⟩,
   suffix "pitangui.amazon.com"
      ⟨.audio, "Fire OS", "Amazon",
        "Amazon Echo / Alexa Speaker", "speaker", 95, "Amazon Alexa Cloud"⟩,
   suffix "avs-alexa-na.amazon.com"
      ⟨.audio, "Fire OS", "Amazon",
        "Amazon Echo / Alexa Speaker", "speaker", 95, "Amazon Alexa Voice"⟩,
   suffix "sonos.com"
      ⟨.audio, "Sonos OS", "Sonos",
        "Sonos Smart Audio Speaker", "speaker", 95, "Sonos Audio Cloud"⟩,
   suffix "home.nest.com"
      ⟨.audio, "Cast OS", "Google",
        "Google Nest / Home Speaker", "speaker", 90, "Google Nest Home"⟩,
   suffix "quickconnect.to"
      ⟨.nas, "DSM (DiskStation)", "Synology",
        "Synology NAS Storage", "nas", 95, "Synology QuickConnect"⟩,
   suffix "checkport.synology.com"
      ⟨.nas, "DSM (DiskStation)", "Synology",
        "Synology NAS Storage", "nas", 95, "Synology Port Check"⟩,
   suffix "myqnapcloud.com"
      ⟨.nas, "QTS", "QNAP", "QNAP NAS Storage", "nas", 95, "QNAP Cloud"⟩,
   suffix "hik-connect.com"
      ⟨.camera, "Embedded Linux", "Hikvision",
        "Hikvision IP Security Camera", "camera", 95, "Hikvision Cloud"⟩,
   suffix "ezvizlife.com"
      ⟨.camera, "Embedded Linux", "EZVIZ",
        "EZVIZ Smart Security Camera", "camera", 95, "EZVIZ Cloud"⟩,
   suffix "reolink.com"
      ⟨.camera, "Embedded Linux", "Reolink", "Reolink IP Camera", "camera", 95, "Reolink Cloud"⟩,
   suffix "hpsmart.com"
      ⟨.printer, "Printer Firmware", "HP", "HP Network Printer", "printer", 95, "HP Smart Print"⟩,
   suffix "epson.com"
      ⟨.printer, "Printer Firmware", "Epson",
        "Epson Network Printer", "printer", 90, "Epson Connect"⟩,
   suffix "archive.ubuntu.com"
      ⟨.pc, "Ubuntu Linux", "Canonical",
        "Ubuntu Workstation / Server", "linux", 90, "Ubuntu Archive"⟩,
   suffix "deb.debian.org"
      ⟨.pc, "Debian Linux", "Debian",
        "Debian Workstation / Server", "linux", 90, "Debian Mirror"⟩,
   suffix "mirrors.fedoraproject.org"
      ⟨.pc, "Fedora Linux", "RedHat / Fedora", "Fedora Linux PC", "linux", 90, "Fedora Mirror"⟩,
   suffix "archlinux.org"
      ⟨.pc, "Arch Linux", "Arch", "Arch Linux PC", "linux", 90, "Arch Package Repo"⟩]

/-- The rules for hostnames of `initRules`. -/
def hostRules : List FingerprintRule :=
  [host ["iphone"]
      ⟨.phone, "iOS", "Apple", "Apple iPhone", "apple", 95, "Hostname: iPhone"⟩,
   host ["ipad"]
      ⟨.phone, "iPadOS", "Apple", "Apple iPad", "apple", 95, "Hostname: iPad"⟩,
   host ["macbook", "imac", "mac-mini", "mac-studio", "macpro"]
      ⟨.pc, "macOS", "Apple", "Apple Mac Computer", "apple", 95, "Hostname: Mac"⟩,
   host ["apple-watch"]
      ⟨.other, "watchOS", "Apple", "Apple Watch", "apple", 95, "Hostname: Apple Watch"⟩,
   host ["desktop-", "laptop-", "win-", "windows"]
      ⟨.pc, "Windows 10/11", "Microsoft", "Windows PC", "windows", 90, "Hostname: Windows"⟩,
   host ["galaxy", "samsung"]
      ⟨.phone, "Android", "Samsung", "Samsung Galaxy Device", "android", 90, "Hostname: Galaxy"⟩,
   host ["pixel", "pixel-"]
      ⟨.phone, "Android", "Google", "Google Pixel Smartphone", "android", 90, "Hostname: Pixel"⟩,
   host ["redmi", "xiaomi", "poco"]
      ⟨.phone, "Android / HyperOS", "Xiaomi",
        "Xiaomi / Redmi Device", "android", 90, "Hostname: Xiaomi"⟩,
   host ["playstation", "ps4", "ps5"]
      ⟨.gameConsole, "PlayStation OS", "Sony",
        "Sony PlayStation", "game", 95, "Hostname: PlayStation"⟩,
   host ["nintendo", "switch"]
      ⟨.gameConsole, "Switch OS", "Nintendo", "Nintendo Switch", "game", 95, "Hostname: Switch"⟩,
   host ["xbox"]
      ⟨.gameConsole, "Xbox OS", "Microsoft", "Xbox Console", "game", 95, "Hostname: Xbox"⟩,
   host ["esp8266", "esp32", "tasmota", "shelly", "wled", "sonoff"]
      ⟨.iot, "MicroPython/C++", "Espressif / OpenSource",
        "Smart IoT Controller", "iot", 95, "Hostname: ESP/IoT"⟩,
   host ["synology", "diskstation"]
      ⟨.nas, "DSM", "Synology", "Synology NAS", "nas", 95, "Hostname: Synology"⟩,
   host ["bravia", "smarttv", "webos", "tizen", "roku"]
      ⟨.tv, "Smart TV OS", "Smart TV", "Smart Television", "tv", 90, "Hostname: Smart TV"⟩]

/-- The forms of an ASCII byte of an expression with the flag `i`: both cases of a letter, with the
Kelvin sign for K and the long s for S. -/
def foldings (c : BitVec 8) : List Bytes :=
  if 97 ≤ c ∧ c ≤ 122 then
    [[c], [c - 32]] ++ (if c = 107 then [[0xe2, 0x84, 0xaa]] else []) ++
      (if c = 115 then [[0xc5, 0xbf]] else [])
  else [[c]]

def foldedPrefix : Bytes → Bytes → Bool
  | [], _ => true
  | c :: literal, s =>
    (foldings c).any fun form => hasPrefix s form && foldedPrefix literal (s.drop form.length)

/-- `Regexp.MatchString`. -/
def matchString (alternatives : List Bytes) (s : Bytes) : Bool :=
  s.tails.any fun rest => alternatives.any fun literal => foldedPrefix literal rest

example : matchString [lit "ps4", lit "ps5"] (lit "My-PS5") = true := by decide

namespace FingerprintRule

/-- The test of a rule in the loop of `InspectQuery`. -/
def matchesDomain (rule : FingerprintRule) (cleanDomain : Bytes) : Bool :=
  if rule.isExact && cleanDomain == rule.pattern then true
  else if rule.isSuffix then hasSuffix cleanDomain rule.pattern
  else false

/-- The test of a rule in the loop of `InspectHostname`. -/
def matchesHostname (rule : FingerprintRule) (hostname : Bytes) : Bool :=
  match rule.regex with
  | some alternatives => matchString alternatives hostname
  | none => false

end FingerprintRule

/-- The fields of `DeviceInfo` that an update of the profile writes. -/
structure Profile extends Verdict where
  matchedDomain : Bytes
deriving DecidableEq

def Profile.of (rule : FingerprintRule) (matchedPattern : Bytes) : Profile :=
  { rule.toVerdict with matchedDomain := matchedPattern }

/-- `DeviceInfo`. -/
structure DeviceInfo where
  ip : Bytes
  clientID : Bytes
  name : Bytes
  profile : Profile
  firstSeen : Int
  lastSeen : Int
  queryCount : BitVec 64
deriving DecidableEq

/-- The two kinds of names. -/
inductive Kind where
  | query
  | hostname
deriving DecidableEq

/-- A name that has been inspected for a device, as it is compared with the rules. -/
structure Inspection where
  key : Bytes
  kind : Kind
  name : Bytes
deriving DecidableEq

/-- `Detector`, with all that it has inspected. -/
structure Detector where
  devices : FiniteMap Bytes DeviceInfo
  inspected : List Inspection

/-- `netip.Addr`, by its text; the zero value is not valid. -/
structure IP where
  text : Bytes
  valid : Bool

namespace Detector

def new : Detector := ⟨∅, []⟩

/-- `Detector.updateDeviceProfile` at a time. -/
def updateDeviceProfile (d : Detector) (now : Int) (key ip clientID : Bytes)
    (rule : FingerprintRule) (matchedPattern : Bytes) : Detector :=
  match d.devices.get key with
  | none =>
    let model := lit rule.model
    let name := if clientID ≠ [] then clientID ++ lit " (" ++ model ++ lit ")" else model
    let dev : DeviceInfo :=
      { ip, clientID, name, profile := .of rule matchedPattern, firstSeen := now, lastSeen := now,
        queryCount := 1 }
    { d with devices := d.devices.set key dev }
  | some dev =>
    let dev := { dev with queryCount := dev.queryCount + 1, lastSeen := now }
    let dev := if rule.confidence ≥ dev.profile.confidence then
      { dev with profile := .of rule matchedPattern } else dev
    { d with devices := d.devices.set key dev }

/-- What the last lines of `InspectQuery` do with a name that no rule knows. -/
def countQuery (d : Detector) (now : Int) (key : Bytes) : Detector :=
  match d.devices.get key with
  | none => d
  | some dev =>
    let dev := { dev with queryCount := dev.queryCount + 1, lastSeen := now }
    { d with devices := d.devices.set key dev }

def keyOf (ip : IP) (clientID : Bytes) : Bytes := if clientID ≠ [] then clientID else ip.text

section Inspecting
-- `strings.ToLower`; nothing here depends on its Unicode tables.
variable (toLower : Bytes → Bytes)

/-- The inspection that `InspectQuery` makes. -/
def queryInspection (ip : IP) (clientID domain : Bytes) : Option Inspection :=
  if !ip.valid && clientID = [] then none
  else
    let cleanDomain := toLower (trimSuffix domain (lit "."))
    if cleanDomain = [] then none else some ⟨keyOf ip clientID, .query, cleanDomain⟩

/-- `Detector.InspectQuery`. -/
def inspectQuery (d : Detector) (now : Int) (ip : IP) (clientID domain : Bytes) : Detector :=
  match queryInspection toLower ip clientID domain with
  | none => d
  | some inspection =>
    let d := { d with inspected := d.inspected ++ [inspection] }
    match domainRules.find? (·.matchesDomain inspection.name) with
    | some rule => d.updateDeviceProfile now inspection.key ip.text clientID rule inspection.name
    | none => d.countQuery now inspection.key

/-- `Detector.InspectHostname`. -/
def inspectHostname (d : Detector) (now : Int) (ip : IP) (clientID hostname : Bytes) : Detector :=
  if hostname = [] then d
  else
    let key := keyOf ip clientID
    let d := { d with inspected := d.inspected ++ [⟨key, .hostname, hostname⟩] }
    match hostRules.find? (·.matchesHostname hostname) with
    | some rule => d.updateDeviceProfile now key ip.text clientID rule hostname
    | none => d

/-- A call of one of the two. -/
inductive Call where
  | query (now : Int) (ip : IP) (clientID domain : Bytes)
  | hostname (now : Int) (ip : IP) (clientID hostname : Bytes)

def Call.inspection : Call → Option Inspection
  | .query _ ip clientID domain => queryInspection toLower ip clientID domain
  | .hostname _ ip clientID host =>
    if host = [] then none else some ⟨keyOf ip clientID, .hostname, host⟩

def machine : Transition.Machine Detector Call Unit where
  step d
    | .query now ip clientID domain => (d.inspectQuery toLower now ip clientID domain, ())
    | .hostname now ip clientID hostname => (d.inspectHostname now ip clientID hostname, ())

end Inspecting

end Detector

def Kind.rules : Kind → List FingerprintRule
  | .query => domainRules
  | .hostname => hostRules

def Kind.test : Kind → FingerprintRule → Bytes → Bool
  | .query => FingerprintRule.matchesDomain
  | .hostname => FingerprintRule.matchesHostname

/-- The rule that an inspection ends with: the first of the table. -/
def Inspection.first (i : Inspection) : Option FingerprintRule :=
  i.kind.rules.find? (i.kind.test · i.name)

namespace Detector

variable (d : Detector)

def profile (key : Bytes) : Option Profile := (d.devices.get key).map (·.profile)

def store (before : Option Profile) (i : Inspection) : Option Profile :=
  match i.first, before with
  | none, before => before
  | some rule, none => some (.of rule i.name)
  | some rule, some p => if p.confidence ≤ rule.confidence then some (.of rule i.name) else some p

theorem profile_updateDeviceProfile (now : Int) (key ip clientID : Bytes) (rule : FingerprintRule)
    (name other : Bytes) : (d.updateDeviceProfile now key ip clientID rule name).profile other =
      if other = key then
        match d.profile key with
        | none => some (.of rule name)
        | some p => if p.confidence ≤ rule.confidence then some (.of rule name) else some p
      else d.profile other := by
  unfold updateDeviceProfile profile
  cases there : d.devices.get key with
  | none =>
    simp only [FiniteMap.get_set]
    split <;> rfl
  | some dev =>
    simp only [FiniteMap.get_set]
    by_cases here : other = key
    · simp only [here, if_true, Option.map_some]
      split <;> rfl
    · simp [here]

theorem profile_countQuery (now : Int) (key other : Bytes) :
    (d.countQuery now key).profile other = d.profile other := by
  unfold countQuery profile
  cases there : d.devices.get key with
  | none => rfl
  | some dev =>
    simp only [FiniteMap.get_set]
    by_cases here : other = key
    · simp [here, there]
    · simp [here]

theorem inspected_updateDeviceProfile (now : Int) (key ip clientID : Bytes)
    (rule : FingerprintRule) (name : Bytes) :
    (d.updateDeviceProfile now key ip clientID rule name).inspected = d.inspected := by
  unfold updateDeviceProfile
  split <;> rfl

theorem inspected_countQuery (now : Int) (key : Bytes) :
    (d.countQuery now key).inspected = d.inspected := by
  unfold countQuery
  split <;> rfl

/-- What a call does to the profiles and to the record of the names. -/
structure Inspects (after : Detector) (i : Inspection) : Prop where
  inspected : after.inspected = d.inspected ++ [i]
  profile : ∀ key, after.profile key =
    if key = i.key then store (d.profile key) i else d.profile key

theorem update_inspects {i : Inspection} {rule : FingerprintRule} (found : i.first = some rule)
    (now : Int) (ip clientID : Bytes) :
    d.Inspects (({ d with inspected := d.inspected ++ [i] } : Detector).updateDeviceProfile now
      i.key ip clientID rule i.name) i := by
  refine ⟨inspected_updateDeviceProfile _ _ _ _ _ _ _, fun key => ?_⟩
  rw [profile_updateDeviceProfile]
  by_cases here : key = i.key
  · subst here
    have same : ({ d with inspected := d.inspected ++ [i] } : Detector).profile i.key =
        d.profile i.key := rfl
    simp only [if_true, store, found, same]
    cases d.profile i.key <;> rfl
  · rw [if_neg here, if_neg here]
    rfl

theorem keep_inspects {i : Inspection} (unknown : i.first = none) {after : Detector}
    (inspected : after.inspected = d.inspected ++ [i])
    (kept : ∀ key, after.profile key = d.profile key) : d.Inspects after i := by
  refine ⟨inspected, fun key => ?_⟩
  simp only [store, unknown, kept]
  split <;> rfl

theorem queryInspection_kind {toLower : Bytes → Bytes} {ip : IP} {clientID domain : Bytes}
    {i : Inspection} (inspection : queryInspection toLower ip clientID domain = some i) :
    i.kind = .query := by
  unfold queryInspection at inspection
  split at inspection
  · cases inspection
  · dsimp only at inspection
    split at inspection
    · cases inspection
    · rw [← Option.some.inj inspection]

theorem next_inspects (toLower : Bytes → Bytes) (call : Call) :
    match call.inspection toLower with
    | none => (machine toLower).next d call = d
    | some i => d.Inspects ((machine toLower).next d call) i := by
  cases call with
  | query now ip clientID domain =>
    change match queryInspection toLower ip clientID domain with
      | none => d.inspectQuery toLower now ip clientID domain = d
      | some i => d.Inspects (d.inspectQuery toLower now ip clientID domain) i
    unfold inspectQuery
    cases inspection : queryInspection toLower ip clientID domain with
    | none => rfl
    | some i =>
      dsimp only
      have first : i.first = domainRules.find? (·.matchesDomain i.name) := by
        rw [Inspection.first, queryInspection_kind inspection]
        rfl
      rw [← first]
      cases found : i.first with
      | none => exact d.keep_inspects found (inspected_countQuery _ _ _) (profile_countQuery _ _ _)
      | some rule => exact d.update_inspects found now ip.text clientID
  | hostname now ip clientID host =>
    change match (if host = [] then none else some (⟨keyOf ip clientID, .hostname, host⟩ :
        Inspection)) with
      | none => d.inspectHostname now ip clientID host = d
      | some i => d.Inspects (d.inspectHostname now ip clientID host) i
    unfold inspectHostname
    by_cases empty : host = []
    · rw [if_pos empty, if_pos empty]
    · rw [if_neg empty, if_neg empty]
      dsimp only
      cases found : hostRules.find? (·.matchesHostname host) with
      | none =>
        exact d.keep_inspects (i := ⟨keyOf ip clientID, .hostname, host⟩) found rfl fun _ => rfl
      | some rule =>
        exact d.update_inspects (i := ⟨keyOf ip clientID, .hostname, host⟩) found now ip.text clientID

end Detector

end AdGuardHome.Devicedetect
