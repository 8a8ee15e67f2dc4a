import AdGuardHome.Filtering.RuleListEngine
import AdGuardHome.Lib.FiniteMap

/-! `filter.go`: the filter lists of the configuration, the files with their contents and
the operations on a single list. -/
namespace AdGuardHome.Filtering

open RuleList Strings

/-- `rules.ListID`. -/
abbrev ListID := BitVec 64

instance : LawfulBEq ListID := inferInstance

/-- `time.Time{}` in nanoseconds. -/
def zeroTime : Int := -62135596800000000000

/-- `FilterYAML`. -/
structure FilterYAML where
  enabled : Bool
  url : Bytes
  name : Bytes
  rulesCount : Nat
  lastUpdated : Int
  checksum : BitVec 32
  white : Bool
  id : ListID
deriving DecidableEq

/-- The files of the filter directory. `FilterYAML.Path` names each by its list's ID. -/
abbrev Disk := FiniteMap ListID Bytes

namespace FilterYAML

/-- `FilterYAML.unload`. -/
def unload (filter : FilterYAML) : FilterYAML := { filter with rulesCount := 0, checksum := 0 }

/-- `FilterYAML.ensureName`. -/
def ensureName (filter : FilterYAML) (title : Bytes) : FilterYAML :=
  if filter.name ≠ [] then filter
  else if title ≠ [] then { filter with name := title }
  else { filter with name := lit "List " ++ lit (toString filter.id.toNat) }

end FilterYAML

/-- How the steps of an update turn out: whether the temporary file can be made, what is
read from the URL or the local file if that succeeds, whether the temporary file can be
removed and whether it can replace the old one. -/
structure Download where
  pending : Bool
  body : Option Bytes
  cleanup : Bool
  replace : Bool
  now : Int
deriving DecidableEq

inductive UpdateError where
  | pendingFile
  | reading
  | parsing (err : ParseError)
  | cleanup
  | finalizing
deriving DecidableEq

/-- What `update` leaves and returns. -/
structure Updated where
  flt : FilterYAML
  disk : Disk
  updated : Bool
  err : Option UpdateError

/-- `DNSFilter.updateIntl` with the deferred `finalizeUpdate`. -/
def updateIntl (disk : Disk) (flt : FilterYAML) (d : Download) : Updated :=
  if !d.pending then ⟨flt, disk, false, some .pendingFile⟩
  else
    match d.body with
    | none => ⟨flt, disk, false, some .reading⟩
    | some body =>
      match parse body with
      | .error err => ⟨flt, disk, false, some (.parsing err)⟩
      | .ok res =>
        if res.checksum = flt.checksum then
          ⟨flt, disk, false, if d.cleanup then none else some .cleanup⟩
        else if !d.replace then ⟨flt, disk, true, some .finalizing⟩
        else
          ⟨{ flt.ensureName res.title with checksum := res.checksum, rulesCount := res.rulesCount },
            disk.set flt.id res.dst, true, none⟩

/-- `DNSFilter.update`. -/
def update (disk : Disk) (flt : FilterYAML) (d : Download) : Updated :=
  let u := updateIntl disk flt d
  { u with flt := { u.flt with lastUpdated := d.now } }

inductive SetError where
  | filterNotExist
  | filterExists
  | updating (err : UpdateError)
deriving DecidableEq

structure SetResult where
  flt : FilterYAML
  disk : Disk
  shouldRestart : Bool
  err : Option SetError

namespace FilterYAML

/-- The deferred function of `filterSetProperties`, after an error. -/
def rollback (flt old : FilterYAML) : FilterYAML :=
  { flt with
    url := old.url
    name := old.name
    enabled := old.enabled
    lastUpdated := old.lastUpdated
    rulesCount := old.rulesCount }

/-- The values of `filterSetProperties` before the update: a list that changes its URL is
unloaded. -/
def withProperties (flt newList : FilterYAML) : FilterYAML :=
  let flt := { flt with name := newList.name }
  let flt := if flt.url ≠ newList.url then
    { flt with url := newList.url, lastUpdated := zeroTime }.unload else flt
  { flt with enabled := newList.enabled }

def restarts (flt newList : FilterYAML) : Bool :=
  flt.url != newList.url || flt.enabled != newList.enabled

end FilterYAML

/-- `filterSetProperties` on the list it has found; `exists_` tells whether some list has
the new URL. -/
def setProperties (exists_ : Bool) (disk : Disk) (old newList : FilterYAML) (d : Download) :
    SetResult :=
  if old.url ≠ newList.url ∧ exists_ then
    ⟨{ old with name := newList.name }.rollback old, disk, false, some .filterExists⟩
  else
    let flt := old.withProperties newList
    if !flt.enabled then ⟨flt.unload, disk, old.restarts newList, none⟩
    else if !old.restarts newList then ⟨flt, disk, false, none⟩
    else
      let u := update disk flt d
      match u.err with
      | none => ⟨u.flt, u.disk, u.updated, none⟩
      | some err => ⟨u.flt.rollback old, u.disk, u.updated, some (.updating err)⟩

structure Lists where
  filters : List FilterYAML
  whitelistFilters : List FilterYAML
  disk : Disk

namespace Lists

def array (s : Lists) (white : Bool) : List FilterYAML :=
  if white then s.whitelistFilters else s.filters

def setArray (s : Lists) (white : Bool) (filters : List FilterYAML) : Lists :=
  if white then { s with whitelistFilters := filters } else { s with filters }

/-- `filterExistsLocked`. -/
def filterExists (s : Lists) (url : Bytes) : Bool :=
  s.filters.any (·.url == url) || s.whitelistFilters.any (·.url == url)

/-- `filterSetProperties`. -/
def filterSetProperties (s : Lists) (listURL : Bytes) (newList : FilterYAML) (isAllowlist : Bool)
    (d : Download) : Lists × Bool × Option SetError :=
  let filters := s.array isAllowlist
  match filters.findIdx? (·.url == listURL) with
  | none => (s, false, some .filterNotExist)
  | some i =>
    match filters[i]? with
    | none => (s, false, some .filterNotExist)
    | some flt =>
      let r := setProperties (s.filterExists newList.url) s.disk flt newList d
      ({ s.setArray isAllowlist (filters.set i r.flt) with disk := r.disk }, r.shouldRestart, r.err)

/-- `filterAdd`. -/
def filterAdd (s : Lists) (flt : FilterYAML) : Lists × Option SetError :=
  if s.filterExists flt.url then (s, some .filterExists)
  else (s.setArray flt.white (s.array flt.white ++ [flt]), none)

/-- The list that `handleFilteringAddURL` makes of a request and the next ID. -/
def newFilter (url name : Bytes) (white : Bool) (id : ListID) : FilterYAML :=
  ⟨true, url, name, 0, zeroTime, 0, white, id⟩

/-- `handleFilteringAddURL` of a valid URL. -/
def addURL (s : Lists) (url name : Bytes) (white : Bool) (id : ListID) (d : Download) : Lists :=
  if s.filterExists url then s
  else
    let u := update s.disk (newFilter url name white id) d
    let s := { s with disk := u.disk }
    if u.err.isSome then s
    else if !u.updated then s
    else (s.filterAdd u.flt).1

/-- `handleFilteringRemoveURL`; `renamed` tells whether the file was moved away or there
was none. -/
def removeURL (s : Lists) (url : Bytes) (white renamed : Bool) : Lists :=
  let filters := s.array white
  match filters.findIdx? (·.url == url) with
  | none => s
  | some i =>
    match filters[i]? with
    | none => s
    | some deleted =>
      if !renamed then s
      else { s.setArray white (filters.eraseIdx i) with disk := s.disk.delete deleted.id }

end Lists

/-- `DNSFilter.listsToUpdate`, with the interval in hours. -/
def listsToUpdate (filters : List FilterYAML) (force : Bool) (now : Int) (interval : Nat) :
    List FilterYAML :=
  (filters.filter fun flt => flt.enabled &&
      (force || !decide (now < flt.lastUpdated + interval * 3600000000000))).map fun flt =>
    ⟨false, flt.url, flt.name, 0, zeroTime, flt.checksum, false, flt.id⟩

/-- One round of the inner loop of `syncUpdatedFilters`. -/
def syncFilter (uf : FilterYAML) (updated : Bool) (f : FilterYAML) : FilterYAML :=
  if f.id ≠ uf.id ∨ f.url ≠ uf.url then f
  else
    let f := { f with lastUpdated := uf.lastUpdated }
    if !updated then f
    else { f with name := uf.name, rulesCount := uf.rulesCount, checksum := uf.checksum }

def syncCount (filters : List FilterYAML) (uf : FilterYAML) (updated : Bool) : Nat :=
  if updated then filters.countP (fun f => f.id = uf.id ∧ f.url = uf.url) else 0

/-- `syncUpdatedFilters`. -/
def syncUpdatedFilters : List FilterYAML → List (FilterYAML × Bool) → List FilterYAML × Nat
  | filters, [] => (filters, 0)
  | filters, (uf, updated) :: rest =>
    let (synced, count) := syncUpdatedFilters (filters.map (syncFilter uf updated)) rest
    (synced, syncCount filters uf updated + count)

end AdGuardHome.Filtering
