import AdGuardHome.Strings

/-! Package `rulelist`: the parser that counts the rules of a list, sums them up and writes
them without comments. -/
namespace AdGuardHome.Filtering.RuleList

open Strings

/-- One step of the division by the polynomial of `crc32.IEEE`. -/
def crcShift (crc : BitVec 32) : BitVec 32 :=
  if crc.getLsbD 0 then (crc >>> 1) ^^^ 0xedb88320#32 else crc >>> 1

/-- The entry of `crc32.IEEETable`. -/
def crcTable (index : BitVec 32) : BitVec 32 := crcShift^[8] index

/-- `crc32.Update` with `crc32.IEEETable`. -/
def crcUpdate (crc : BitVec 32) (p : Bytes) : BitVec 32 :=
  ~~~ p.foldl
    (fun crc byte => crcTable ((crc ^^^ byte.setWidth 32) &&& 0xff) ^^^ (crc >>> 8)) (~~~ crc)

inductive ParseError where
  | html
  | likelyBinary (line column : Nat) (byte : BitVec 8)
  | tooLong
deriving DecidableEq

/-- `Parser`, with what it has written. -/
structure Parser where
  title : Bytes
  rulesCount : Nat
  written : Nat
  checksum : BitVec 32
  titleFound : Bool
  dst : Bytes
deriving DecidableEq

def newParser : Parser := ⟨[], 0, 0, 0, false, []⟩

/-- `hasPrefixFold`. -/
def hasPrefixFold (b pref : Bytes) : Bool :=
  pref.length ≤ b.length && toLowerASCII (b.take pref.length) == toLowerASCII pref

/-- `isHTMLLine`. -/
def isHTMLLine (line : Bytes) : Bool :=
  hasPrefixFold line (lit "<html") || hasPrefixFold line (lit "<!doctype")

/-- `likelyBinary`. -/
def likelyBinary (b : BitVec 8) : Bool :=
  (b < 32 || b == 127) && b != 10 && b != 13 && b != 9

/-- What a line turns out to be. -/
inductive Line where
  | other
  | title (title : Bytes)
  | rule
  | binary (index : Nat) (byte : BitVec 8)

/-- The end of `parseLine` and `parseLineTitle`. -/
def parseRule (line : Bytes) : Line :=
  match line.findIdx? likelyBinary with
  | some index => .binary index (line.getD index 0)
  | none => .rule

/-- `parseLine`. -/
def parseLine (line : Bytes) : Line :=
  match line with
  | [] => .other
  | first :: _ => if first = 35 ∨ first = 33 then .other else parseRule line

/-- `parseLineTitle`. -/
def parseLineTitle (line : Bytes) : Line :=
  match line with
  | [] => .other
  | first :: _ =>
    if first = 35 then .other
    else if first ≠ 33 then parseRule line
    else if hasPrefix line (lit "! Title: ") then .title (trimSpace (line.drop 9))
    else .other

/-- `bytes.Index` of the trimmed line in the line. -/
def indexOf (s part : Bytes) : Nat := (List.range (s.length + 1)).findIdx fun i =>
  hasPrefix (s.drop i) part

/-- `Parser.processLine`. -/
def processLine (p : Parser) (line : Bytes) (lineNum : Nat) : Except ParseError Parser :=
  let trimmed := trimSpace line
  if p.written = 0 ∧ isHTMLLine trimmed then .error .html
  else
    match if p.titleFound then parseLine trimmed else parseLineTitle trimmed with
    | .binary index byte => .error (.likelyBinary lineNum (index + indexOf line trimmed + 1) byte)
    | .other => .ok p
    | .title title => .ok { p with title, titleFound := true }
    | .rule => .ok { p with
        rulesCount := p.rulesCount + 1
        checksum := crcUpdate p.checksum trimmed
        written := p.written + (trimmed.length + 1)
        dst := p.dst ++ trimmed ++ [10] }

/-- `bufio.MaxScanTokenSize`. -/
def maxScanTokenSize : Nat := 65536

/-- The lines as `bufio.ScanLines` finds them: an empty last one is none. -/
def scanLines (src : Bytes) : List Bytes :=
  let lines := src.splitOn 10
  if lines.getLast? = some [] then lines.dropLast else lines

/-- The loop of `Parser.Parse`. A line that does not fit into the buffer ends the scan. -/
def parseLines : Parser → Nat → List Bytes → Except ParseError Parser
  | p, _, [] => .ok p
  | p, lineNum, line :: rest =>
    if maxScanTokenSize ≤ line.length then .error .tooLong
    else
      match processLine p (trimSuffix line [13]) lineNum with
      | .error err => .error err
      | .ok p => parseLines p (lineNum + 1) rest

/-- `Parser.Parse` of a new parser. -/
def parse (src : Bytes) : Except ParseError Parser := parseLines newParser 1 (scanLines src)

end AdGuardHome.Filtering.RuleList

namespace AdGuardHome.Filtering.RuleListEngine

open Strings

inductive Scheme where
  | http
  | https
  | file
deriving DecidableEq

/-- A `filterlist.Bytes`, or a `filterlist.File` that has to be closed. `owner` is the filter that
it was made for and `number` tells it from all the others. -/
structure CompiledList (Ptr : Type) where
  owner : Ptr
  number : Nat
  inFile : Bool
  id : Nat
  rulesText : Bytes

structure Filter (Ptr : Type) where
  scheme : Scheme
  ruleList : Option (CompiledList Ptr)
  updated : Int
  name : Bytes
  uid : Bytes
  urlFilterID : Nat
  rulesCount : Nat
  checksum : BitVec 32
  enabled : Bool

/-- Errors of a refresh. Those of other packages are opaque. -/
inductive RefreshError (Outside : Type) where
  | outside (cause : Outside)
  | parsing (cause : RuleList.ParseError)

inductive ContextError where
  | canceled
  | deadlineExceeded

inductive EngineError (Outside : Type) where
  | timeout (updated : Nat) (cause : ContextError)
  | updating (uid : Bytes) (cause : RefreshError Outside)
  | creatingStorage

/-- What the outside does while a filter is refreshed: whether the context is done before, the
content of the source, the end of writing the cache, the old list's `Close`, the new list's file
and the time. -/
structure Call (Outside : Type) where
  done : Option ContextError
  source : Except Outside Bytes
  finish : Option Outside
  close : Option Outside
  opened : Option Outside
  now : Int

/-- The filters behind their pointers, with the lists that are closed and how many were made. -/
structure Lists (Ptr : Type) where
  filter : Ptr → Filter Ptr
  closed : List Nat
  created : Nat

section Refresh

variable {Ptr Outside : Type} [DecidableEq Ptr]

/-- `readFromHTTP` and `parseIntoCache`. -/
def Call.read (call : Call Outside) : Except (RefreshError Outside) RuleList.Parser :=
  match call.source with
  | .error err => .error (.outside err)
  | .ok body =>
    match RuleList.parse body with
    | .error err => .error (.parsing err)
    | .ok parseRes =>
      match call.finish with
      | some err => .error (.outside err)
      | none => .ok parseRes

def Lists.close (lists : Lists Ptr) (list : CompiledList Ptr) : Lists Ptr :=
  if list.inFile then { lists with closed := list.number :: lists.closed } else lists

/-- `Filter.Close`. -/
def Lists.closeRuleList (call : Call Outside) (lists : Lists Ptr) (f : Ptr) :
    Lists Ptr × Option Outside :=
  match (lists.filter f).ruleList with
  | none => (lists, none)
  | some list => (lists.close list, call.close)

def Lists.setRuleList (lists : Lists Ptr) (f : Ptr) (inFile : Bool) (text : Bytes) : Lists Ptr where
  filter := Function.update lists.filter f { lists.filter f with
    ruleList := some ⟨f, lists.created, inFile, (lists.filter f).urlFilterID, text⟩ }
  closed := lists.closed
  created := lists.created + 1

def setFromHTTP (call : Call Outside) (lists : Lists Ptr) (f : Ptr) :
    Lists Ptr × Except (RefreshError Outside) RuleList.Parser :=
  match call.read with
  | .error err => (lists, .error err)
  | .ok parseRes => (lists.setRuleList f false parseRes.dst, .ok parseRes)

def setFromFile (call : Call Outside) (lists : Lists Ptr) (f : Ptr) :
    Lists Ptr × Except (RefreshError Outside) RuleList.Parser :=
  match call.read with
  | .error err => (lists, .error err)
  | .ok parseRes =>
    match lists.closeRuleList call f with
    | (lists, some err) => (lists, .error (.outside err))
    | (lists, none) =>
      match call.opened with
      | some err => (lists, .error (.outside err))
      | none => (lists.setRuleList f true parseRes.dst, .ok parseRes)

/-- `Filter.setName`. -/
def Filter.setName (f : Filter Ptr) (title : Bytes) : Bytes :=
  if f.name ≠ [] then f.name
  else if title ≠ [] then title
  else lit "List " ++ f.uid

/-- The end of `Filter.Refresh`. -/
def Filter.noteResult (f : Filter Ptr) (parseRes : RuleList.Parser) (now : Int) : Filter Ptr :=
  if f.checksum ≠ parseRes.checksum then
    { f with
      checksum := parseRes.checksum
      rulesCount := parseRes.rulesCount
      name := f.setName parseRes.title
      updated := now }
  else f

/-- The `switch` of `Filter.Refresh`. -/
def setFromURL (call : Call Outside) (lists : Lists Ptr) (f : Ptr) :
    Lists Ptr × Except (RefreshError Outside) RuleList.Parser :=
  match (lists.filter f).scheme with
  | .http | .https => setFromHTTP call lists f
  | .file => setFromFile call lists f

/-- `Filter.Refresh`. -/
def Lists.refresh (call : Call Outside) (lists : Lists Ptr) (f : Ptr) :
    Lists Ptr × Except (RefreshError Outside) RuleList.Parser :=
  match setFromURL call lists f with
  | (lists, .error err) => (lists, .error err)
  | (lists, .ok parseRes) =>
    ({ lists with
      filter := Function.update lists.filter f ((lists.filter f).noteResult parseRes call.now) },
      .ok parseRes)

/-- The variables of `process`, with the filters that are refreshed and their rules, the last of
them first. -/
structure Processing (Ptr Outside : Type) where
  lists : Lists Ptr
  ruleLists : List (CompiledList Ptr)
  errs : List (EngineError Outside)
  refreshed : List (Ptr × Bytes)

/-- A round of the loop of `process`. -/
def Processing.processFilter (call : Call Outside) (p : Processing Ptr Outside) (f : Ptr) :
    Processing Ptr Outside :=
  match p.lists.refresh call f with
  | (lists, .ok parseRes) =>
    { lists
      ruleLists := p.ruleLists ++ (lists.filter f).ruleList.toList
      errs := p.errs
      refreshed := (f, parseRes.dst) :: p.refreshed }
  | (lists, .error err) =>
    { p with
      lists
      errs := p.errs ++ [.updating (lists.filter f).uid err] }

/-- `process`, from the filter with the index `i` on. -/
def Processing.process (calls : Ptr → Call Outside) :
    Nat → List Ptr → Processing Ptr Outside → Processing Ptr Outside
  | _, [], p => p
  | i, f :: filters, p =>
    match (calls f).done with
    | some cause => { p with ruleLists := [], errs := [.timeout i cause] }
    | none => process calls (i + 1) filters (p.processFilter (calls f) f)

/-- The error is `context.Canceled` or `context.DeadlineExceeded`. -/
def EngineError.isTimeout (outsideTimeout : Outside → Bool) : EngineError Outside → Bool
  | .timeout _ _ => true
  | .updating _ (.outside cause) => outsideTimeout cause
  | .updating _ (.parsing _) => false
  | .creatingStorage => false

def isOneTimeoutError (outsideTimeout : Outside → Bool) : List (EngineError Outside) → Bool
  | [err] => err.isTimeout outsideTimeout
  | _ => false

/-- `Engine`, with the refreshes of its filters that succeeded, the last of them first. There are
no other references to its filters. -/
structure Engine (Ptr : Type) where
  name : Bytes
  filters : List Ptr
  distinct : filters.Nodup
  lists : Lists Ptr
  storage : Option (List (CompiledList Ptr))
  history : List (Ptr × Bytes)

/-- `errors.Join`, annotated with the name of the engine. -/
def Engine.joined (e : Engine Ptr) (errs : List (EngineError Outside)) :
    Option (Bytes × List (EngineError Outside)) :=
  if errs.isEmpty then none else some (e.name, errs)

/-- `resetStorage`. -/
def Engine.resetStorage (e : Engine Ptr) (storage : List (CompiledList Ptr)) : Engine Ptr :=
  { e with
    storage := some storage
    lists := (e.storage.getD []).foldl Lists.close e.lists }

def Engine.filtersToRefresh (e : Engine Ptr) : List Ptr :=
  e.filters.filter fun f => (e.lists.filter f).enabled

/-- What a refresh returns, and the filters that it has refreshed. -/
structure Report (Ptr Outside : Type) where
  err : Option (Bytes × List (EngineError Outside))
  refreshed : List Ptr

/-- `Engine.Refresh`. -/
def Engine.refresh (newRuleStorage : List Nat → Bool) (outsideTimeout : Outside → Bool)
    (e : Engine Ptr) (calls : Ptr → Call Outside) : Engine Ptr × Report Ptr Outside :=
  if e.filtersToRefresh.isEmpty then (e, ⟨none, []⟩)
  else
    let p := Processing.process calls 0 e.filtersToRefresh ⟨e.lists, [], [], []⟩
    let refreshed := p.refreshed.map Prod.fst
    let e := { e with lists := p.lists, history := p.refreshed ++ e.history }
    -- the variable that is returned here is still empty
    if isOneTimeoutError outsideTimeout p.errs then (e, ⟨none, refreshed⟩)
    else if newRuleStorage (p.ruleLists.map (·.id)) then
      (e.resetStorage p.ruleLists, ⟨e.joined p.errs, refreshed⟩)
    else (e, ⟨e.joined (p.errs ++ [.creatingStorage]), refreshed⟩)

end Refresh

end AdGuardHome.Filtering.RuleListEngine
