import AdGuardHome.Filtering.FilterList
import AdGuardHome.Netip

namespace AdGuardHome.Filtering

open Strings

/-- `Filter`: rules that are given, or the file with the list's ID. -/
structure Filter where
  id : ListID
  data : Bytes
  filePath : Option ListID
deriving DecidableEq

/-- `filtersInitializerParams`. -/
structure Params where
  allowFilters : List Filter
  blockFilters : List Filter
deriving DecidableEq

def enabledFilters (filters : List FilterYAML) : List Filter :=
  (filters.filter (·.enabled)).map fun filter => ⟨filter.id, [], some filter.id⟩

/-- The lists that `enableFiltersLocked` hands over: the user's rules come first. -/
def enableParams (filters whitelistFilters : List FilterYAML) (userRules : List Bytes) : Params where
  blockFilters := ⟨0, (lit "\n").intercalate userRules, none⟩ :: enabledFilters filters
  allowFilters := enabledFilters whitelistFilters

/-- `ruleListFromFilter`, with `none` for a list that is skipped. -/
def ruleListFromFilter (disk : Disk) (f : Filter) : Option (ListID × Bytes) :=
  if f.data.length ≠ 0 then some (f.id, f.data)
  else
    match f.filePath with
    | none => none
    | some path => (disk.get path).map (f.id, ·)

/-- The two engines: the lists they were built of, and the rules found there. -/
structure Engine where
  params : Params
  rulesStorage : List (ListID × Bytes)
  rulesStorageAllow : List (ListID × Bytes)
deriving DecidableEq

def buildEngine (disk : Disk) (params : Params) : Engine where
  params := params
  rulesStorage := params.blockFilters.filterMap (ruleListFromFilter disk)
  rulesStorageAllow := params.allowFilters.filterMap (ruleListFromFilter disk)

/-- `initFiltering`, in one step; `opened` tells for either storage whether it could be
made. -/
def initFiltering (disk : Disk) (engine : Engine) (params : Params) (opened : Bool × Bool) :
    Engine :=
  if opened.1 && opened.2 then buildEngine disk params else engine

open Netip Strings

/-- The numbers of package `dns`. -/
abbrev RRType := BitVec 16

namespace RRType

def a : RRType := 1
def cname : RRType := 5
def soa : RRType := 6
def ptr : RRType := 12
def mx : RRType := 15
def txt : RRType := 16
def aaaa : RRType := 28
def srv : RRType := 33
def svcb : RRType := 64
def https : RRType := 65
def any : RRType := 255

end RRType

/-- `Reason`. -/
inductive Reason where
  | notFilteredNotFound
  | notFilteredAllowList
  | notFilteredError
  | filteredBlockList
  | filteredSafeBrowsing
  | filteredParental
  | filteredInvalid
  | filteredSafeSearch
  | filteredBlockedService
  | rewritten
  | rewrittenAutoHosts
  | rewrittenRule
deriving DecidableEq

/-- `rules.RRValue`: the types of value that a `$dnsrewrite` rule may have. -/
inductive RRValue where
  | addr (ip : Addr)
  | text (str : Bytes)
  | mx (exchange : Bytes) (preference : BitVec 16)
  | srv (target : Bytes) (priority weight port : BitVec 16)
  | svcb (target : Bytes) (priority : BitVec 16) (params : List (Bytes × Bytes))
  | nil
deriving DecidableEq

/-- `DNSRewriteResult`; a type that is not in the map has no values. -/
structure DNSRewriteResult where
  rcode : Nat
  response : Option (RRType → List RRValue)

/-- `ResultRule`. -/
structure ResultRule where
  text : Bytes
  ip : Addr
  filterListID : BitVec 64
deriving DecidableEq

/-- `Result`. -/
structure Result where
  dnsRewriteResult : Option DNSRewriteResult
  canonName : Bytes
  ipList : List Addr
  rules : List ResultRule
  reason : Reason
  isFiltered : Bool

namespace Result

def ofReason (reason : Reason) : Result := ⟨none, [], [], [], reason, false⟩

end Result

/-- `Settings`, without what only the checks of the rules and services look at. -/
structure Settings where
  hasServicesRules : Bool
  protectionEnabled : Bool
  filteringEnabled : Bool
  safeSearchEnabled : Bool
  safeBrowsingEnabled : Bool
  parentalEnabled : Bool
deriving DecidableEq

/-- `BlockingMode`. -/
inductive BlockingMode where
  | customIP
  | default
  | nullIP
  | nxdomain
  | refused
  /-- Any other string. -/
  | invalid
deriving DecidableEq

end AdGuardHome.Filtering
