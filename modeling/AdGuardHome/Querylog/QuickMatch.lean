import AdGuardHome.Querylog.Codec
import AdGuardHome.Querylog.LineText
import AdGuardHome.Querylog.SearchOffset

namespace AdGuardHome.Querylog

open JSONTokens JSONText UTF8

/-- `filtering.reasonNames`. -/
def reasonNames : List Bytes :=
  ["NotFilteredNotFound", "NotFilteredWhiteList", "NotFilteredError", "FilteredBlackList",
    "FilteredSafeBrowsing", "FilteredParental", "FilteredInvalid", "FilteredSafeSearch",
    "FilteredBlockedService", "Rewrite", "RewriteEtcHosts", "RewriteRule"].map ascii

/-- `Reason.String`. -/
def reasonString (r : Reason) : Bytes := reasonNames.getD r.toNat []

/-- `reasonCodes`; the first one is left out in the source. -/
def reasonCodes : List Bytes :=
  ["", "1", "2", "3", "4", "5", "6", "7", "8", "9", "10", "11"].map ascii

inductive CriterionType where
  | term
  | filteringStatus
  | reason
deriving DecidableEq

structure SearchCriterion where
  value : Bytes
  asciiVal : Bytes
  values : List Bytes
  criterionType : CriterionType
  strict : Bool

/-- `Client`, as far as a search looks at it. -/
structure Client where
  name : Bytes
  ignoreQueryLog : Bool

structure Record (Addr : Type) where
  ent : LogEntry Addr Time
  client : Option Client

/-- What a search uses of other packages: how texts are compared and how an address is
written. -/
structure Matching where
  folding : CaseFolding
  containsFold : Bytes → Bytes → Bool
  ipString : Option Bytes → Bytes

section Criteria

variable {Addr : Type} (m : Matching)

def ctDomainOrClientCaseStrict (term asciiTerm clientID name host ip : Bytes) : Bool :=
  m.folding.equalFold host term ||
    (asciiTerm != [] && m.folding.equalFold host asciiTerm) ||
    m.folding.equalFold clientID term ||
    m.folding.equalFold ip term ||
    m.folding.equalFold name term

def ctDomainOrClientCaseNonStrict (term asciiTerm clientID name host ip : Bytes) : Bool :=
  m.containsFold clientID term ||
    m.containsFold host term ||
    (asciiTerm != [] && m.containsFold host asciiTerm) ||
    m.containsFold ip term ||
    m.containsFold name term

/-- `reasonIsRewrite`. -/
def reasonIsRewrite (r : Reason) : Bool := r = 10 || r = 11 || r = 9

/-- `reasonIsRuleList`. -/
def reasonIsRuleList (r : Reason) : Bool := r = 3 || r = 8 || r = 1

namespace SearchCriterion

/-- `searchCriterion.isFilteredWithReason`; none is a panic. -/
def isFilteredWithReason (c : SearchCriterion) (reason : Reason) : Option Bool :=
  if c.value = ascii "blocked" then some (reason = 3 || reason = 8)
  else if c.value = ascii "blocked_parental" then some (reason = 5)
  else if c.value = ascii "blocked_safebrowsing" then some (reason = 4)
  else if c.value = ascii "blocked_services" then some (reason = 8)
  else if c.value = ascii "safe_search" then some (reason = 7)
  else none

/-- `searchCriterion.ctFilteringStatusCase`. -/
def ctFilteringStatusCase (c : SearchCriterion) (reason : Reason) (isFiltered : Bool) : Bool :=
  if c.value = ascii "all" then true
  else if c.value = ascii "filtered" then isFiltered || reason = 1 || reasonIsRewrite reason
  else if (["blocked", "blocked_parental", "blocked_safebrowsing", "blocked_services",
      "safe_search"].map ascii).contains c.value then
    isFiltered && c.isFilteredWithReason reason = some true
  else if c.value = ascii "whitelisted" then reason = 1
  else if c.value = ascii "rewritten" then reasonIsRewrite reason
  else if c.value = ascii "processed" then !reasonIsRuleList reason
  else false

/-- The comparison of a term, with a client that may be missing. -/
def ctTermCase (c : SearchCriterion) (clientID host ip : Bytes) (client : Option Client) : Bool :=
  let name := (client.map Client.name).getD []
  if c.strict then ctDomainOrClientCaseStrict m c.value c.asciiVal clientID name host ip
  else ctDomainOrClientCaseNonStrict m c.value c.asciiVal clientID name host ip

/-- `searchCriterion.match`. -/
def isMatch (c : SearchCriterion) (entry : Record Addr) : Bool :=
  match c.criterionType with
  | .term =>
    c.ctTermCase m entry.ent.clientID entry.ent.qHost (m.ipString entry.ent.ip) entry.client
  | .filteringStatus => c.ctFilteringStatusCase entry.ent.result.reason entry.ent.result.isFiltered
  | .reason => c.values.contains (reasonString entry.ent.result.reason)

/-- `searchCriterion.quickMatch`. -/
def quickMatch (c : SearchCriterion) (findClient : Bytes → Bytes → Option Client) (line : Bytes) :
    Bool :=
  match c.criterionType with
  | .term =>
    let host := readJSONValue line (ascii "\"QH\":\"")
    let ip := readJSONValue line (ascii "\"IP\":\"")
    let clientID := readJSONValue line (ascii "\"CID\":\"")
    c.ctTermCase m clientID host ip (findClient clientID ip)
  | .filteringStatus => true
  | .reason =>
    let reasonCode := readJSONNumericValue line (ascii "\"Reason\":")
    if reasonCode = [] then c.values.contains (reasonString 0)
    else
      match reasonCodes.idxOf? reasonCode with
      | none => false
      | some idx => c.values.contains (reasonString (BitVec.ofNat 8 idx))

end SearchCriterion

/-- The entry of a line with its client, as `queryLog.readNextEntry` looks it up. -/
def enrich (findClient : Bytes → Bytes → Option Client) (ent : LogEntry Addr Time) : Record Addr :=
  ⟨ent, findClient ent.clientID (m.ipString ent.ip)⟩

/-- What a search asks of the records and of the lines of the log. -/
def criteriaLookup (findClient : Bytes → Bytes → Option Client)
    (decode : Bytes → LogEntry Addr Time) (parse : Bytes → Option Int) (isIgnored : Bytes → Bool) :
    Lookup Bytes (Record Addr) SearchCriterion where
  time entry := entry.ent.time
  isMatch c entry := c.isMatch m entry
  quickMatch c line := c.quickMatch m findClient line
  decodeLogEntry line := enrich m findClient (decode line)
  readQLogTimestamp := readQLogTimestamp parse
  isIgnored entry := isIgnored entry.ent.qHost
  ignoreQueryLog entry := (entry.client.map Client.ignoreQueryLog).getD false

end Criteria

section Agreement

theorem rawText_of_plain {s : Bytes} (plain : Plain s) : rawText s = s ∧ toValid s = s := by
  rcases escape_slashes s with more | ⟨_, valid, mark⟩
  · rw [plain] at more
    exact absurd more (Nat.lt_irrefl _)
  · refine ⟨?_, valid⟩
    rw [rawText, plain, List.takeWhile_eq_self_iff]
    intro b inside
    refine decide_eq_true fun same => mark ?_
    rw [← same]
    exact inside

theorem plain_of_counts {s : Bytes} (marks : (rawText s).count quoteMark = s.count quoteMark)
    (slashes : (rawText s).count backslash = s.count backslash) : Plain s := by
  have none_ : (rawText s).count quoteMark = 0 := by
    rw [List.count_eq_zero]
    intro inside
    rw [rawText] at inside
    exact absurd (List.mem_takeWhile_imp inside) (by decide)
  have free : quoteMark ∉ escape s := by
    rw [← List.count_eq_zero, escape_marks, ← marks, none_]
  have whole : rawText s = escape s := by
    rw [rawText, List.takeWhile_eq_self_iff]
    intro b inside
    refine decide_eq_true fun same => free ?_
    rw [← same]
    exact inside
  rw [whole] at slashes
  rcases escape_slashes s with more | ⟨plain, _, _⟩
  · exact absurd slashes (Nat.ne_of_gt more)
  · exact plain

theorem rawText_eq_toValid {s : Bytes} : rawText s = toValid s ↔ Plain s := by
  constructor
  · intro same
    refine plain_of_counts ?_ ?_
    · rw [same, (runes_count s (by decide)).2]
    · rw [same, (runes_count s (by decide)).2]
  · intro plain
    rw [(rawText_of_plain plain).1, (rawText_of_plain plain).2]

theorem escaped_starts {e : Bytes} (escaped : Escaped e)
    (none_ : e.takeWhile (· ≠ quoteMark) = []) : e = [] := by
  cases escaped with
  | nil => rfl
  | plain mark _ _ =>
    rw [List.takeWhile_cons, if_pos (decide_eq_true mark)] at none_
    cases none_
  | pair _ =>
    rw [List.takeWhile_cons, if_pos (by decide)] at none_
    cases none_

theorem rawText_eq_nil {s : Bytes} : rawText s = [] ↔ s = [] := by
  refine ⟨fun none_ => ?_, fun same => by rw [same]; rfl⟩
  have empty := escaped_starts (escape_escaped s) none_
  rcases escape_slashes s with more | ⟨plain, _, _⟩
  · rw [empty] at more
    cases more
  · exact plain.symm.trans empty

theorem equalFold_rawText (folding : CaseFolding) {s : Bytes} :
    folding.equalFold (rawText s) (toValid s) = true ↔ Plain s := by
  constructor
  · intro same
    refine plain_of_counts ?_ ?_
    · rw [folding.equalFold_count same (by decide) (by decide), (runes_count s (by decide)).2]
    · rw [folding.equalFold_count same (by decide) (by decide), (runes_count s (by decide)).2]
  · intro plain
    rw [rawText_eq_toValid.mpr plain]
    exact folding.equalFold_self _

theorem exists_fresh (folding : CaseFolding) (texts : List Bytes) :
    ∃ s, ∀ t ∈ texts, folding.equalFold t s = false := by
  refine ⟨List.replicate (texts.flatten.count 0x30 + 1) 0x30, fun t inside => ?_⟩
  rw [← Bool.not_eq_true]
  intro same
  have counts := folding.equalFold_count same (b := 0x30) (by decide) (by decide)
  have less := (List.sublist_flatten_of_mem inside).count_le (0x30 : BitVec 8)
  rw [List.count_replicate_self] at counts
  omega

def readReason (code : Bytes) : Option Bytes :=
  if code = [] then some (reasonString 0)
  else (reasonCodes.idxOf? code).map fun idx => reasonString (BitVec.ofNat 8 idx)

theorem idxOf?_decimal (n : Nat) :
    reasonCodes.idxOf? (decimal n) = if 1 ≤ n ∧ n ≤ 11 then some n else none := by
  split
  · rename_i range
    have all : ∀ n < 12, 1 ≤ n → reasonCodes.idxOf? (decimal n) = some n := by decide
    exact all n (by omega) range.1
  · rename_i range
    rw [List.idxOf?_eq_none_iff]
    have codes : reasonCodes = [] :: (List.range 11).map fun i => decimal (i + 1) := by decide
    rw [codes, List.mem_cons, List.mem_map]
    rintro (empty | ⟨i, below, same⟩)
    · obtain ⟨c, rest, head, _⟩ := decimal_head n
      rw [head] at empty
      cases empty
    · have index := decimal_inj same
      rw [List.mem_range] at below
      omega

/-- The reason is the one that is read when this is the first value in the rewrite whose key
ends in the one of a reason. -/
def ReasonShown (reason : Reason) : Option (Token Bytes) → Prop
  | none => reason.toNat ≤ 11
  | some (.number (.int (.ofNat n))) => 1 ≤ n ∧ n ≤ 11 ∧ reason.toNat = n
  | some _ => reason = 0

theorem readReason_shown (reason : Reason) (inside : Option (Token Bytes)) :
    readReason (digitsOf (inside.or (if reason = 0 then none else some (jsonInt reason.toNat)))) =
      some (reasonString reason) ↔ ReasonShown reason inside := by
  have number : ∀ n, readReason (decimal n) =
      if 1 ≤ n ∧ n ≤ 11 then some (reasonString (BitVec.ofNat 8 n)) else none := by
    intro n
    obtain ⟨c, rest, head, _⟩ := decimal_head n
    have some_ : decimal n ≠ [] := by
      rw [head]
      exact List.cons_ne_nil _ _
    rw [readReason, if_neg some_, idxOf?_decimal]
    split
    · rfl
    · rfl
  have names : ∀ n < 12, ∀ r : Reason,
      reasonString (BitVec.ofNat 8 n) = reasonString r ↔ r.toNat = n := by
    decide +kernel
  have missing : readReason [] = some (reasonString reason) ↔ reason = 0 := by
    rw [readReason, if_pos rfl, Option.some.injEq]
    refine (names 0 (by decide) reason).trans ?_
    rw [BitVec.toNat_eq]
    rfl
  have given : ∀ n, readReason (decimal n) = some (reasonString reason) ↔
      1 ≤ n ∧ n ≤ 11 ∧ reason.toNat = n := by
    intro n
    rw [number]
    split
    · rename_i range
      rw [Option.some.injEq, names n (by omega) reason]
      exact ⟨fun same => ⟨range.1, range.2, same⟩, fun all => all.2.2⟩
    · rename_i range
      exact ⟨fun never => (by cases never), fun all => absurd ⟨all.1, all.2.1⟩ range⟩
  cases inside with
  | none =>
    rw [Option.none_or, ReasonShown]
    by_cases zero : reason = 0
    · rw [if_pos zero]
      refine (iff_of_true (missing.mpr zero) ?_)
      rw [zero]
      decide
    · rw [if_neg zero]
      refine (given reason.toNat).trans ⟨fun all => all.2.1, fun below => ⟨?_, below, rfl⟩⟩
      have positive : reason.toNat ≠ 0 := fun same => zero (BitVec.eq_of_toNat_eq same)
      omega
  | some value =>
    rw [Option.some_or]
    by_cases digits : ∃ n, value = .number (.int (.ofNat n))
    · obtain ⟨n, rfl⟩ := digits
      exact given n
    · have other : ∀ n, value ≠ .number (.int (.ofNat n)) := fun n same => digits ⟨n, same⟩
      rw [digitsOf_other other, missing]
      unfold ReasonShown
      split
      · rename_i same
        cases same
      · rename_i n same
        exact absurd (Option.some.inj same) (other n)
      · rfl

end Agreement

section Sound

variable {Addr : Type}

/-- How an address is written and parsed back. The text of a missing one is not empty. -/
structure AddressTexts (m : Matching) (parsers : EntryParsers Addr Time)
    (formats : Formats Addr Time) : Prop where
  absent : ∀ ip : Option Bytes, ip.getD [] = [] → formats.formatIP ip = []
  present : ∀ ip : Bytes, ip.length = 4 ∨ ip.length = 16 →
    formats.formatIP (some ip) = m.ipString (some ip)
  parseAbsent : parsers.parseIP [] = none
  parsePresent : ∀ ip : Bytes, ip.length = 4 ∨ ip.length = 16 →
    m.ipString (parsers.parseIP (m.ipString (some ip))) = m.ipString (some ip)
  missing : m.ipString none = ascii "<nil>"
  plain : ∀ ip : Bytes, ip.length = 4 ∨ ip.length = 16 → Plain (m.ipString (some ip))

/-- What is written as a line: an address is one of a known length or is missing, and the
values of a rewrite are values in JSON. -/
structure Writable (ent : LogEntry Addr Time) : Prop where
  ip : ent.ip.getD [] = [] ∨ (ent.ip.getD []).length = 4 ∨ (ent.ip.getD []).length = 16
  isJSON : ∀ r, ent.result.dnsRewriteResult = some r → r.IsJSON

/-- What is read of the line without decoding it is what is decoded: nothing is escaped in the
host and the ClientID, there is an address, and no other key comes before the ones that are
read. -/
structure QuickReadable (formats : Formats Addr Time) (ent : LogEntry Addr Time) : Prop where
  qHost : Plain ent.qHost
  clientID : if ent.clientID = [] then
      ∀ value, rewriteClientID formats ent = some value → value = .string []
    else Plain ent.clientID
  ip : ent.ip.getD [] ≠ []
  reason : ReasonShown ent.result.reason (rewriteReason formats ent)

variable {m : Matching} {parsers : EntryParsers Addr Time} {formats : Formats Addr Time}
variable {ent decoded : LogEntry Addr Time} {zeroTime : Time}

/-- What of a decoded entry is compared. -/
theorem decoded_fields
    (valid : ∀ s, parsers.isValidIPString s = true → (parsers.parseAddr s).isSome = true)
    (restorable : Restorable parsers formats ent)
    (decodes : decodeLogEntry parsers (.zero zeroTime) (encodeLogEntry formats ent) = .ok decoded) :
    decoded.qHost = toValid ent.qHost ∧ decoded.clientID = toValid ent.clientID ∧
      decoded.ip = parsers.parseIP (formats.formatIP ent.ip) ∧
      decoded.result.reason = ent.result.reason := by
  obtain ⟨kept, panics⟩ := decodeLogEntry_encode valid restorable zeroTime
  cases rules : decodedRules ent.result.rules with
  | none =>
    rw [panics rules] at decodes
    cases decodes
  | some known =>
    obtain ⟨res, same, _, reason, _⟩ := kept known rules
    rw [same] at decodes
    cases decodes
    exact ⟨rfl, rfl, rfl, reason⟩

/-- What is read of the line is what is compared of the decoded entry. -/
structure Agrees (m : Matching) (line : Bytes) (decoded : LogEntry Addr Time) : Prop where
  qHost : readJSONValue line (ascii "\"QH\":\"") = decoded.qHost
  clientID : readJSONValue line (ascii "\"CID\":\"") = decoded.clientID
  ip : readJSONValue line (ascii "\"IP\":\"") = m.ipString decoded.ip
  reason : readReason (readJSONNumericValue line (ascii "\"Reason\":")) =
    some (reasonString decoded.result.reason)

theorem rewriteClientID_eq :
    textOf (rewriteClientID formats ent) = [] ↔
      ∀ value, rewriteClientID formats ent = some value → value = .string [] := by
  cases found : rewriteClientID formats ent with
  | none => exact ⟨fun _ value never => (by cases never), fun _ => rfl⟩
  | some value =>
    obtain ⟨v, rfl⟩ : ∃ v, value = .string v := by
      have quoted := lookup_wanted found
      cases value <;> first | exact ⟨_, rfl⟩ | cases quoted
    refine rawText_eq_nil.trans ⟨?_, fun all => ?_⟩
    · rintro rfl value same
      exact (Option.some.inj same).symm
    · exact Token.string.inj (all _ rfl)

theorem ip_agrees (addresses : AddressTexts m parsers formats) (writable : Writable ent) :
    rawText (formats.formatIP ent.ip) = m.ipString (parsers.parseIP (formats.formatIP ent.ip)) ↔
      ent.ip.getD [] ≠ [] := by
  rcases writable.ip with none_ | known
  · rw [addresses.absent ent.ip none_, addresses.parseAbsent, addresses.missing]
    exact iff_of_false (by decide) fun other => other none_
  · obtain ⟨ip, same⟩ : ∃ ip, ent.ip = some ip := by
      cases missing : ent.ip with
      | none =>
        rw [missing] at known
        rcases known with never | never <;> cases never
      | some ip => exact ⟨ip, rfl⟩
    rw [same] at known ⊢
    have other : (some ip).getD [] ≠ [] := by
      intro empty
      rw [empty] at known
      rcases known with never | never <;> cases never
    rw [addresses.present ip known, addresses.parsePresent ip known,
      (rawText_of_plain (addresses.plain ip known)).1]
    exact iff_of_true rfl other

theorem agrees_iff
    (valid : ∀ s, parsers.isValidIPString s = true → (parsers.parseAddr s).isSome = true)
    (addresses : AddressTexts m parsers formats) (restorable : Restorable parsers formats ent)
    (writable : Writable ent)
    (decodes : decodeLogEntry parsers (.zero zeroTime) (encodeLogEntry formats ent) = .ok decoded) :
    Agrees m (lineOf formats ent) decoded ↔ QuickReadable formats ent := by
  obtain ⟨qHost, clientID, ip, reason⟩ := decoded_fields valid restorable decodes
  have isJSON := writable.isJSON
  have clientID_ : readJSONValue (lineOf formats ent) (ascii "\"CID\":\"") = decoded.clientID ↔
      if ent.clientID = [] then
        ∀ value, rewriteClientID formats ent = some value → value = .string []
      else Plain ent.clientID := by
    rw [lineOf_clientID isJSON, clientID]
    split
    · rename_i empty
      rw [empty]
      exact rewriteClientID_eq
    · exact rawText_eq_toValid
  have reason_ : readReason (readJSONNumericValue (lineOf formats ent) (ascii "\"Reason\":")) =
      some (reasonString decoded.result.reason) ↔
        ReasonShown ent.result.reason (rewriteReason formats ent) := by
    rw [lineOf_reason isJSON, reason]
    exact readReason_shown _ _
  have qHost_ : readJSONValue (lineOf formats ent) (ascii "\"QH\":\"") = decoded.qHost ↔
      Plain ent.qHost := by
    rw [lineOf_qHost isJSON, qHost]
    exact rawText_eq_toValid
  have ip_ : readJSONValue (lineOf formats ent) (ascii "\"IP\":\"") = m.ipString decoded.ip ↔
      ent.ip.getD [] ≠ [] := by
    rw [lineOf_ip isJSON, ip]
    exact ip_agrees addresses writable
  constructor
  · intro agrees
    exact ⟨qHost_.mp agrees.qHost, clientID_.mp agrees.clientID, ip_.mp agrees.ip,
      reason_.mp agrees.reason⟩
  · intro readable
    exact ⟨qHost_.mpr readable.qHost, clientID_.mpr readable.clientID, ip_.mpr readable.ip,
      reason_.mpr readable.reason⟩

variable {line : Bytes} {findClient : Bytes → Bytes → Option Client} {c : SearchCriterion}

theorem quickMatch_reason (kind : c.criterionType = .reason) :
    c.quickMatch m findClient line = true ↔
      ∃ name ∈ c.values, readReason (readJSONNumericValue line (ascii "\"Reason\":")) = some name := by
  rw [SearchCriterion.quickMatch, kind]
  dsimp only
  rw [readReason]
  split
  · simp
  · cases reasonCodes.idxOf? (readJSONNumericValue line (ascii "\"Reason\":")) with
    | none => simp
    | some idx => simp

/-- Whichever client is found, a criterion that the entry matches is matched by the line. -/
def Sound (m : Matching) (line : Bytes) (decoded : LogEntry Addr Time) : Prop :=
  ∀ (findClient : Bytes → Bytes → Option Client) (c : SearchCriterion),
    c.isMatch m (enrich m findClient decoded) = true → c.quickMatch m findClient line = true

theorem Agrees.sound (agrees : Agrees m line decoded) : Sound m line decoded := by
  intro findClient c matches_
  cases kind : c.criterionType with
  | term =>
    rw [SearchCriterion.isMatch, kind] at matches_
    rw [SearchCriterion.quickMatch, kind]
    dsimp only
    rw [agrees.qHost, agrees.clientID, agrees.ip]
    exact matches_
  | filteringStatus => rw [SearchCriterion.quickMatch, kind]
  | reason =>
    rw [SearchCriterion.isMatch, kind] at matches_
    exact (quickMatch_reason kind).mpr ⟨_, List.contains_iff_mem.mp matches_, agrees.reason⟩

def strictTerm (value asciiVal : Bytes) : SearchCriterion := ⟨value, asciiVal, [], .term, true⟩

theorem strictTerm_isMatch (value asciiVal : Bytes) (entry : Record Addr) :
    (strictTerm value asciiVal).isMatch m entry =
      ctDomainOrClientCaseStrict m value asciiVal entry.ent.clientID
        ((entry.client.map Client.name).getD []) entry.ent.qHost (m.ipString entry.ent.ip) := rfl

/-- A line that is no match of a whole term that is not read of it, nor the name of its
client. -/
theorem strictTerm_quickMatch {value asciiVal : Bytes}
    (fresh : ∀ t ∈ [readJSONValue line (ascii "\"QH\":\""), readJSONValue line (ascii "\"CID\":\""),
      readJSONValue line (ascii "\"IP\":\""), []], m.folding.equalFold t value = false)
    (unknown : findClient (readJSONValue line (ascii "\"CID\":\""))
      (readJSONValue line (ascii "\"IP\":\"")) = none)
    (other : asciiVal = [] ∨
      m.folding.equalFold (readJSONValue line (ascii "\"QH\":\"")) asciiVal = false) :
    (strictTerm value asciiVal).quickMatch m findClient line = false := by
  simp only [List.forall_mem_cons] at fresh
  obtain ⟨host, clientID, ip, name, _⟩ := fresh
  change ctDomainOrClientCaseStrict m value asciiVal _
    (((findClient _ _).map Client.name).getD []) _ _ = false
  rw [unknown, ctDomainOrClientCaseStrict, host, clientID, ip, Option.map_none, Option.getD_none,
    name]
  rcases other with rfl | other
  · rfl
  · rw [other, Bool.and_false]
    rfl

theorem qHost_of_sound (sound : Sound m line decoded) (some_ : decoded.qHost ≠ []) :
    m.folding.equalFold (readJSONValue line (ascii "\"QH\":\"")) decoded.qHost = true := by
  by_contra other
  rw [Bool.not_eq_true] at other
  obtain ⟨value, fresh⟩ := exists_fresh m.folding [readJSONValue line (ascii "\"QH\":\""),
    readJSONValue line (ascii "\"CID\":\""), readJSONValue line (ascii "\"IP\":\""), []]
  have hidden := @strictTerm_quickMatch m line (fun _ _ => none) value decoded.qHost fresh rfl
    (.inr other)
  have shown : (strictTerm value decoded.qHost).isMatch m (enrich m (fun _ _ => none) decoded) =
      true := by
    rw [strictTerm_isMatch, ctDomainOrClientCaseStrict]
    have given : (decoded.qHost != []) = true := bne_iff_ne.mpr some_
    have same : m.folding.equalFold (enrich m (fun _ _ => none) decoded).ent.qHost decoded.qHost =
        true := m.folding.equalFold_self _
    rw [same, given, Bool.true_and, Bool.or_true, Bool.true_or, Bool.true_or, Bool.true_or]
  rw [sound _ _ shown] at hidden
  cases hidden

theorem client_of_sound (sound : Sound m line decoded) :
    readJSONValue line (ascii "\"CID\":\"") = decoded.clientID ∧
      readJSONValue line (ascii "\"IP\":\"") = m.ipString decoded.ip := by
  by_contra other
  obtain ⟨value, fresh⟩ := exists_fresh m.folding [readJSONValue line (ascii "\"QH\":\""),
    readJSONValue line (ascii "\"CID\":\""), readJSONValue line (ascii "\"IP\":\""), []]
  have hidden := @strictTerm_quickMatch m line (fun clientID ip =>
    if clientID = decoded.clientID ∧ ip = m.ipString decoded.ip then some ⟨value, false⟩ else none)
    value [] fresh (if_neg other) (.inl rfl)
  have shown : (strictTerm value []).isMatch m (enrich m (fun clientID ip =>
      if clientID = decoded.clientID ∧ ip = m.ipString decoded.ip then some ⟨value, false⟩
      else none) decoded) = true := by
    rw [strictTerm_isMatch, ctDomainOrClientCaseStrict, enrich, if_pos ⟨rfl, rfl⟩]
    have same : m.folding.equalFold (((some (Client.mk value false)).map Client.name).getD []) value =
        true := m.folding.equalFold_self _
    rw [same, Bool.or_true]
  rw [sound _ _ shown] at hidden
  cases hidden

theorem reason_of_sound (sound : Sound m line decoded) :
    readReason (readJSONNumericValue line (ascii "\"Reason\":")) =
      some (reasonString decoded.result.reason) := by
  have shown : (SearchCriterion.mk [] [] [reasonString decoded.result.reason] .reason false).isMatch m
      (enrich m (fun _ _ => none) decoded) = true :=
    List.contains_iff_mem.mpr (List.mem_singleton.mpr rfl)
  obtain ⟨name, member, read⟩ := (quickMatch_reason rfl).mp (sound _ _ shown)
  rw [read, List.mem_singleton.mp member]

theorem toValid_eq_nil {s : Bytes} (none_ : toValid s = []) : s = [] := by
  cases s with
  | nil => rfl
  | cons a rest =>
    rw [toValid, List.length_cons, repair] at none_
    split at none_
    · cases none_
    · cases none_

theorem sound_iff
    (valid : ∀ s, parsers.isValidIPString s = true → (parsers.parseAddr s).isSome = true)
    (addresses : AddressTexts m parsers formats) (restorable : Restorable parsers formats ent)
    (writable : Writable ent)
    (decodes : decodeLogEntry parsers (.zero zeroTime) (encodeLogEntry formats ent) = .ok decoded) :
    Sound m (lineOf formats ent) decoded ↔ QuickReadable formats ent := by
  have agrees := agrees_iff valid addresses restorable writable decodes
  refine ⟨fun sound => agrees.mp ?_, fun readable => (agrees.mpr readable).sound⟩
  obtain ⟨clientID, ip⟩ := client_of_sound sound
  refine ⟨?_, clientID, ip, reason_of_sound sound⟩
  rw [lineOf_qHost writable.isJSON, (decoded_fields valid restorable decodes).1, rawText_eq_toValid]
  by_cases some_ : decoded.qHost = []
  · rw [(decoded_fields valid restorable decodes).1] at some_
    rw [toValid_eq_nil some_]
    rfl
  · have same := qHost_of_sound sound some_
    rw [lineOf_qHost writable.isJSON, (decoded_fields valid restorable decodes).1,
      equalFold_rawText] at same
    exact same

/-- A search that the entry matches is matched by the line. -/
theorem Sound.search (sound : Sound m line decoded) (params : SearchParams SearchCriterion)
    (decode : Bytes → LogEntry Addr Time) (parse : Bytes → Option Int) (isIgnored : Bytes → Bool)
    (matches_ : params.isMatch (criteriaLookup m findClient decode parse isIgnored)
      (enrich m findClient decoded) = true) :
    params.quickMatch (criteriaLookup m findClient decode parse isIgnored) line = true := by
  rw [SearchParams.isMatch] at matches_
  split at matches_
  · cases matches_
  · rw [List.all_eq_true] at matches_
    rw [SearchParams.quickMatch, List.all_eq_true]
    exact fun c member => sound findClient c (matches_ c member)

/-- The quick match of the line of an entry lets through every search that the decoded entry
matches, whichever client is found for it, just when what is read of the line is what is
decoded: nothing is escaped in its host and in its ClientID, it has an address, and its rewrite
has no key that is read in the place of another one. -/
theorem quickMatch_sound_iff
    (valid : ∀ s, parsers.isValidIPString s = true → (parsers.parseAddr s).isSome = true)
    (addresses : AddressTexts m parsers formats) (restorable : Restorable parsers formats ent)
    (writable : Writable ent)
    (decodes : decodeLogEntry parsers (.zero zeroTime) (encodeLogEntry formats ent) = .ok decoded)
    (decode : Bytes → LogEntry Addr Time) (parse : Bytes → Option Int) (isIgnored : Bytes → Bool) :
    (∀ (findClient : Bytes → Bytes → Option Client) (params : SearchParams SearchCriterion),
      params.isMatch (criteriaLookup m findClient decode parse isIgnored)
        (enrich m findClient decoded) = true →
      params.quickMatch (criteriaLookup m findClient decode parse isIgnored)
        (lineOf formats ent) = true) ↔ QuickReadable formats ent := by
  rw [← sound_iff valid addresses restorable writable decodes]
  constructor
  · intro all findClient c matches_
    have one := all findClient { newSearchParams SearchCriterion with searchCriteria := [c] }
    have single : ∀ kept : SearchCriterion → Bool, [c].all kept = kept c := fun kept => by
      rw [List.all_cons, List.all_nil, Bool.and_true]
    rw [SearchParams.isMatch, if_neg (by simp [newSearchParams]), SearchParams.quickMatch,
      single, single] at one
    exact one matches_
  · intro sound findClient params matches_
    exact sound.search params decode parse isIgnored matches_

end Sound

/-- Formats of one time and of one address, which may be missing. -/
def lineFormats : Formats (BitVec 32) Time :=
  { fewFormats with formatIP := fun ip => if ip.getD [] = [] then [] else ascii "192.0.2.1" }

/-- Texts are compared without the case of the letters of ASCII. -/
def asciiMatching : Matching where
  folding := .ascii
  containsFold s t := (index (t.map lower) (s.map lower)).isSome
  ipString ip := if ip.getD [] = [] then ascii "<nil>" else ascii "192.0.2.1"

theorem asciiMatching_addresses : AddressTexts asciiMatching fewParsers lineFormats where
  absent _ none_ := if_pos none_
  present ip known := by
    have some_ : (some ip).getD [] ≠ [] := by
      rintro (rfl : ip = [])
      rcases known with never | never <;> cases never
    change (if (some ip).getD [] = [] then [] else ascii "192.0.2.1") =
      if (some ip).getD [] = [] then ascii "<nil>" else ascii "192.0.2.1"
    rw [if_neg some_, if_neg some_]
  parseAbsent := rfl
  parsePresent ip known := by
    have some_ : (some ip).getD [] ≠ [] := by
      rintro (rfl : ip = [])
      rcases known with never | never <;> cases never
    have same : asciiMatching.ipString (some ip) = ascii "192.0.2.1" := if_neg some_
    rw [same]
    rfl
  missing := rfl
  plain ip known := by
    have some_ : (some ip).getD [] ≠ [] := by
      rintro (rfl : ip = [])
      rcases known with never | never <;> cases never
    have same : asciiMatching.ipString (some ip) = ascii "192.0.2.1" := if_neg some_
    rw [same]
    decide

def hostEntry (qHost : String) : LogEntry (BitVec 32) Time :=
  { blockedEntry [] with qHost := ascii qHost }

theorem hostEntry_restorable (qHost : String) :
    Restorable fewParsers lineFormats (hostEntry qHost) where
  time := rfl
  answer := rfl
  origAnswer := rfl
  clientProto := show ascii "doh" ∈ clientProtos by decide
  elapsed := show IsInt64 1000 by decide
  result := ⟨fun _ never => (by cases never), fun _ never => (by cases never)⟩

theorem hostEntry_writable (qHost : String) : Writable (hostEntry qHost) :=
  ⟨.inr (.inl rfl), fun _ never => (by cases never)⟩

theorem hostEntry_decodes_org : decodeLogEntry fewParsers (.zero 0)
    (encodeLogEntry lineFormats (hostEntry "example.org")) = .ok (hostEntry "example.org") := rfl

/-- A search of lines with these clients, which ignores no host. -/
def lineLookup (findClient : Bytes → Bytes → Option Client) :
    Lookup Bytes (Record (BitVec 32)) SearchCriterion :=
  criteriaLookup asciiMatching findClient (fun _ => .zero 0) (fun _ => none) fun _ => false

theorem hostEntry_readable_org : QuickReadable lineFormats (hostEntry "example.org") where
  qHost := by decide
  clientID := by
    intro value never
    cases never
  ip := by decide
  reason := show (3 : Reason).toNat ≤ 11 by decide

/-- Nothing is escaped in the line of an entry for `example.org`. -/
theorem quickMatch_sound_exampleOrg :
    QuickReadable lineFormats (hostEntry "example.org") ∧
      ∀ (findClient : Bytes → Bytes → Option Client) (params : SearchParams SearchCriterion),
        params.isMatch (lineLookup findClient)
          (enrich asciiMatching findClient (hostEntry "example.org")) = true →
        params.quickMatch (lineLookup findClient)
          (lineOf lineFormats (hostEntry "example.org")) = true :=
  ⟨hostEntry_readable_org, (quickMatch_sound_iff fewParsers_valid asciiMatching_addresses
    (hostEntry_restorable "example.org") (hostEntry_writable "example.org") hostEntry_decodes_org
    (fun _ => .zero 0) (fun _ => none) fun _ => false).mpr hostEntry_readable_org⟩

def termSearch (term : String) (strict : Bool) : SearchParams SearchCriterion :=
  { newSearchParams SearchCriterion with searchCriteria := [⟨ascii term, [], [], .term, strict⟩] }

/-- The ampersand of a host is escaped in its line: a search for the host is matched by what
the line is decoded to, but not by the line itself. -/
theorem ampersand_hidden :
    decodeLogEntry fewParsers (.zero 0) (encodeLogEntry lineFormats (hostEntry "a&b.example")) =
        .ok (hostEntry "a&b.example") ∧
      ∀ strict : Bool, (termSearch "a&b.example" strict).isMatch (lineLookup fun _ _ => none)
          (enrich asciiMatching (fun _ _ => none) (hostEntry "a&b.example")) = true ∧
        (termSearch "a&b.example" strict).quickMatch (lineLookup fun _ _ => none)
          (lineOf lineFormats (hostEntry "a&b.example")) = false :=
  ⟨rfl, by decide +kernel⟩

end AdGuardHome.Querylog
