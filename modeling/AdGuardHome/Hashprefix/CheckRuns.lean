import AdGuardHome.Hashprefix.CacheExact

namespace AdGuardHome.Hashprefix

open Strings

namespace Checker

variable (c : Checker) (db : List Hash)

/-- The upstream answers each request with exactly the hashes of the database that have one of the
prefixes, in texts of their own. -/
def Serves (exchange : Bytes → Except Bytes (List RR)) : Prop :=
  ∀ asked, ∃ answer, exchange (c.getQuestion asked) = .ok answer ∧
    ∀ t, t ∈ texts answer ↔
      ∃ hash ∈ db, (∃ other ∈ asked, other.pref = hash.pref) ∧ t = Hex.encode hash.bytes

/-- The hashes of a host that `Check` finds no valid item for. -/
def requested (cache : Cache) (host : Bytes) (now : Int) : List Hash :=
  (c.names.hostnameToHashes host).filter fun hash => !cache.lasts now hash.pref

/-- The upstream serves the database, and while a `Check` stores its results the cache does not drop
an item for a prefix that it has asked for and that has hashes. -/
def Fair (cache : Cache) : Event → Prop
  | .check host sur => c.Serves db sur.exchange ∧
      ∀ hash ∈ c.requested cache host sur.now, ∀ bad ∈ db, bad.pref = hash.pref →
        Safe sur.moments hash.pref
  | .evict _ => True

/-- One of the names of the host that are checked has its hash in the database. -/
def Blocked (host : Bytes) : Prop :=
  ∃ name, c.names.Checked host name ∧ c.names.sum256 name ∈ db

end Checker

section Check

variable {c : Checker} {db : List Hash} {cache : Cache} {host : Bytes} {sur : Surroundings}

theorem blocked_iff : c.Blocked db host ↔ ∃ hash ∈ c.names.hostnameToHashes host, hash ∈ db := by
  simp only [c.names.mem_hostnameToHashes]
  constructor
  · rintro ⟨name, checked, bad⟩
    exact ⟨_, ⟨name, checked, rfl⟩, bad⟩
  · rintro ⟨_, ⟨name, checked, rfl⟩, bad⟩
    exact ⟨name, checked, bad⟩

/-- The texts of the answer are read as the hashes that they encode. -/
theorem received_of_texts {asked : List Hash} {answer : List RR}
    (all : ∀ t, t ∈ texts answer ↔
      ∃ hash ∈ db, (∃ other ∈ asked, other.pref = hash.pref) ∧ t = Hex.encode hash.bytes) :
    Received db asked (processAnswer asked answer).2 := by
  intro hash
  rw [processAnswer_hashes, List.mem_filterMap]
  constructor
  · rintro ⟨t, member, decoded⟩
    obtain ⟨bad, inDB, wanted, rfl⟩ := (all t).mp member
    rw [decodeText_encode] at decoded
    cases decoded
    exact ⟨inDB, wanted⟩
  · rintro ⟨inDB, wanted⟩
    exact ⟨_, (all _).mpr ⟨hash, inDB, wanted, rfl⟩, decodeText_encode hash⟩

/-- What one `Check` does, with the answer from the cache and with the one of the upstream. -/
inductive CheckCase (c : Checker) (db : List Hash) (cache : Cache) (host : Bytes)
    (sur : Surroundings) : Cache × Checked → Prop
  | cached {blocked : Bool}
      (right : Right db cache sur.now (c.names.hostnameToHashes host) (.cached blocked)) :
      CheckCase c db cache host sur (cache, ⟨.ok blocked, none⟩)
  | asked {received : List Hash} {matched : Bool} {question : Bytes}
      (right : Right db cache sur.now (c.names.hostnameToHashes host)
        (.missing (c.requested cache host sur.now)))
      (answered : Received db (c.requested cache host sur.now) received)
      (decides : matched = true ↔ ∃ hash ∈ c.requested cache host sur.now, hash ∈ db) :
      CheckCase c db cache host sur
        (c.storeInCache sur cache (c.requested cache host sur.now) received,
          ⟨.ok matched, some question⟩)

theorem check_cases (exact : Exact db cache) (serves : c.Serves db sur.exchange) (host : Bytes) :
    CheckCase c db cache host sur (c.check cache host sur) := by
  have right := findInCache_right exact sur.now (c.names.hostnameToHashes host)
  rw [Checker.check]
  cases found : cache.findInCache sur.now (c.names.hostnameToHashes host) with
  | cached blocked =>
    rw [found] at right
    exact .cached right
  | missing asked =>
    rw [found] at right
    have same : asked = c.requested cache host sur.now := by
      cases right with
      | missing _ requested _ => exact requested
    subst same
    obtain ⟨answer, exchanged, all⟩ := serves (c.requested cache host sur.now)
    have answered := received_of_texts all
    simp only [exchanged]
    refine .asked right answered ?_
    rw [processAnswer, findMatch_iff]
    constructor
    · rintro ⟨hash, member, inAnswer⟩
      exact ⟨hash, member, ((answered hash).mp inAnswer).1⟩
    · rintro ⟨hash, member, bad⟩
      exact ⟨hash, member, (answered hash).mpr ⟨bad, hash, member, rfl⟩⟩

theorem check_outcome (exact : Exact db cache) (serves : c.Serves db sur.exchange) :
    ∃ blocked, (c.check cache host sur).2.outcome = .ok blocked ∧
      (blocked = true ↔ c.Blocked db host) := by
  rw [blocked_iff]
  have steps : CheckCase c db cache host sur (c.check cache host sur) :=
    check_cases exact serves host
  generalize c.check cache host sur = checked at steps ⊢
  cases steps with
  | cached right =>
    refine ⟨_, rfl, ?_⟩
    cases right with
    | blocked member _ bad => exact ⟨fun _ => ⟨_, member, bad⟩, fun _ => rfl⟩
    | clean _ good =>
      constructor
      · intro impossible
        cases impossible
      · rintro ⟨hash, member, bad⟩
        exact absurd bad (good hash member)
  | asked right _ decides =>
    refine ⟨_, rfl, decides.trans ?_⟩
    cases right with
    | missing _ _ good =>
      constructor
      · rintro ⟨hash, member, bad⟩
        exact ⟨hash, (List.mem_filter.mp member).1, bad⟩
      · rintro ⟨hash, member, bad⟩
        have missed : cache.lasts sur.now hash.pref ≠ true := fun lasts =>
          good hash member lasts bad
        exact ⟨hash, List.mem_filter.mpr ⟨member, by simpa using missed⟩, bad⟩

theorem check_exact (exact : Exact db cache) (fair : c.Fair db cache (.check host sur)) :
    Exact db (c.check cache host sur).1 := by
  have steps : CheckCase c db cache host sur (c.check cache host sur) :=
    check_cases exact fair.1 host
  generalize c.check cache host sur = checked at steps ⊢
  cases steps with
  | cached _ => exact exact
  | asked _ answered _ => exact storeInCache_exact exact answered fair.2

/-- An item that is still valid stays as it is. -/
theorem check_keeps (exact : Exact db cache) (serves : c.Serves db sur.exchange) {pref : Prefix}
    (safe : Safe sur.moments pref) (lasts : cache.lasts sur.now pref = true) :
    (c.check cache host sur).1.get pref = cache.get pref := by
  have steps : CheckCase c db cache host sur (c.check cache host sur) :=
    check_cases exact serves host
  generalize c.check cache host sur = checked at steps ⊢
  cases steps with
  | cached _ => rfl
  | asked _ answered _ =>
    apply storeInCache_other c cache answered safe
    rintro hash member rfl
    obtain ⟨_, missed⟩ := List.mem_filter.mp member
    rw [lasts] at missed
    cases missed

end Check

section Runs

variable {c : Checker} {db : List Hash} {cache : Cache}

theorem Exact.empty : Exact db ∅ := by
  intro pref data present
  rw [FiniteMap.get_empty] at present
  cases present

theorem Exact.next (exact : Exact db cache) (event : Event) (fair : c.Fair db cache event) :
    Exact db (c.machine.next cache event) := by
  cases event with
  | check host sur => exact check_exact exact fair
  | evict pref =>
    intro other data present
    have found : (cache.delete pref).get other = some data := present
    exact exact other data (FiniteMap.of_get_delete found).2

theorem Exact.run (exact : Exact db cache) {events : List Event}
    (fair : c.machine.Allowed (c.Fair db) cache events) : Exact db (c.machine.run cache events) :=
  c.machine.run_invariant (Exact db) (fun _ event exact now => exact.next event now) exact fair

/-- Nothing drops out of the cache, and the cache is not read at a later time than that. -/
def Calm (time : Int) : Event → Prop
  | .check _ sur => sur.now ≤ time ∧ ∀ n, (sur.moments n).dropped = []
  | .evict _ => False

theorem safe_of_undropped {moments : Nat → Moment} (none : ∀ n, (moments n).dropped = [])
    (pref : Prefix) : Safe moments pref := by
  intro n
  rw [none n]
  exact List.not_mem_nil

theorem lasts_mono {time earlier : Int} {pref : Prefix} (lasts : cache.lasts time pref = true)
    (order : earlier ≤ time) : cache.lasts earlier pref = true := by
  obtain ⟨data, present, expiry⟩ := lasts_iff.mp lasts
  exact lasts_iff.mpr ⟨data, present, Int.le_trans order expiry⟩

theorem lasts_congr {other : Cache} {time : Int} {pref : Prefix}
    (same : other.get pref = cache.get pref) : other.lasts time pref = cache.lasts time pref := by
  rw [Cache.lasts, Cache.lasts, same]

/-- An item that lasts until then lasts through a calm run. -/
theorem run_lasts {time : Int} {pref : Prefix} {events : List Event} (exact : Exact db cache)
    (fair : c.machine.Allowed (c.Fair db) cache events) (calm : ∀ event ∈ events, Calm time event)
    (lasts : cache.lasts time pref = true) :
    (c.machine.run cache events).lasts time pref = true := by
  induction events generalizing cache with
  | nil => exact lasts
  | cons event rest ih =>
    have first := calm event List.mem_cons_self
    cases event with
    | evict _ => exact absurd first not_false
    | check host sur =>
      have kept : (c.check cache host sur).1.get pref = cache.get pref :=
        check_keeps exact fair.1.1 (safe_of_undropped first.2 pref) (lasts_mono lasts first.1)
      apply ih (exact.next _ fair.1) fair.2
      · intro event member
        exact calm event (List.mem_cons_of_mem _ member)
      · exact (lasts_congr kept).trans lasts

def wholeSeconds (t : Int) : Int := (unix t).toInt * second

/-- The items that a `Check` of the host finds valid last until then, and so do those that it
stores. It does not ask again for a prefix that has no hashes and whose item has expired. -/
structure Lasting (c : Checker) (db : List Hash) (cache : Cache) (host : Bytes)
    (first : Surroundings) (time : Int) : Prop where
  held : ∀ hash ∈ c.names.hostnameToHashes host, cache.lasts first.now hash.pref = true →
    cache.lasts time hash.pref = true
  stored : (c.check cache host first).2.question ≠ none →
    ∀ n, time ≤ wholeSeconds ((first.moments n).now + c.cacheTime)
  renewed : (c.check cache host first).2.question ≠ none →
    ∀ hash ∈ c.requested cache host first.now,
      cache.get hash.pref = none ∨ ∃ bad ∈ db, bad.pref = hash.pref

variable {host : Bytes} {first again : Surroundings}

/-- With an item that blocks the host, or with items for all its prefixes, nothing is asked. -/
theorem check_cached (exact : Exact db cache)
    (enough : (∃ hash ∈ c.names.hostnameToHashes host,
        cache.lasts again.now hash.pref = true ∧ hash ∈ db) ∨
      ∀ hash ∈ c.names.hostnameToHashes host, cache.lasts again.now hash.pref = true) :
    (c.check cache host again).2.question = none := by
  have right := findInCache_right exact again.now (c.names.hostnameToHashes host)
  rw [Checker.check]
  cases found : cache.findInCache again.now (c.names.hostnameToHashes host) with
  | cached _ => rfl
  | missing asked =>
    rw [found] at right
    cases right with
    | missing some requested good =>
      rcases enough with ⟨hash, member, lasts, bad⟩ | all
      · exact absurd bad (good hash member lasts)
      · refine absurd (requested.trans (List.filter_eq_nil_iff.mpr ?_)) some
        intro hash member
        simp [all hash member]

/-- What the first `Check` leaves in the cache is enough for the next one. -/
theorem check_leaves (exact : Exact db cache) (serves : c.Serves db first.exchange)
    (undropped : ∀ n, (first.moments n).dropped = []) {time : Int}
    (lasting : Lasting c db cache host first time) :
    (∃ hash ∈ c.names.hostnameToHashes host,
        (c.check cache host first).1.lasts time hash.pref = true ∧ hash ∈ db) ∨
      ∀ hash ∈ c.names.hostnameToHashes host,
        (c.check cache host first).1.lasts time hash.pref = true := by
  obtain ⟨held, stored, renewed⟩ := lasting
  have steps : CheckCase c db cache host first (c.check cache host first) :=
    check_cases exact serves host
  generalize c.check cache host first = checked at steps stored renewed ⊢
  cases steps with
  | cached right =>
    cases right with
    | blocked member lasts bad => exact .inl ⟨_, member, held _ member lasts, bad⟩
    | clean lasts _ => exact .inr fun hash member => held hash member (lasts hash member)
  | @asked _ _ question _ answered _ =>
    refine .inr fun hash member => ?_
    by_cases lasts : cache.lasts first.now hash.pref = true
    · have other : ∀ wanted ∈ c.requested cache host first.now, wanted.pref ≠ hash.pref := by
        intro wanted inAsked same
        obtain ⟨_, missed⟩ := List.mem_filter.mp inAsked
        rw [same, lasts] at missed
        cases missed
      have kept := storeInCache_other c cache answered (safe_of_undropped undropped _) other
      exact (lasts_congr kept).trans (held hash member lasts)
    · have inAsked : hash ∈ c.requested cache host first.now :=
        List.mem_filter.mpr ⟨member, by simpa using lasts⟩
      have asks : some question ≠ none := Option.some_ne_none question
      obtain ⟨n, hashes, item⟩ := storeInCache_stores c cache answered
        (safe_of_undropped undropped hash.pref) ⟨hash, inAsked, rfl⟩
        (renewed asks hash inAsked)
      rw [lasts_iff]
      refine ⟨_, item, ?_⟩
      rw [toCacheItem_fromCacheItem]
      exact stored asks n

end Runs

namespace Checker

variable (c : Checker) (db : List Hash) (events : List Event)

/-- Each `Check` of the run returns whether its host is blocked. -/
def Decides : Prop :=
  ∀ before host sur after, events = before ++ .check host sur :: after →
    ∃ blocked, (c.check (c.machine.run ∅ before) host sur).2.outcome = .ok blocked ∧
      (blocked = true ↔ c.Blocked db host)

/-- A `Check` of the run asks nothing again, where it is `soon` after another one of the same host
in some state, and since then nothing has dropped out of the cache and the clock has not run
backwards. -/
def Remembers (soon : Cache → Bytes → Surroundings → Surroundings → Prop) : Prop :=
  ∀ before host first between again after,
    events = before ++ .check host first :: (between ++ .check host again :: after) →
    (∀ n, (first.moments n).dropped = []) → (∀ event ∈ between, Calm again.now event) →
    soon (c.machine.run ∅ before) host first again →
    (c.check (c.machine.run ∅ (before ++ .check host first :: between)) host again).2.question =
      none

end Checker

/-- Over every fair run the checks are exact, and they are not repeated while the items last. -/
theorem check_exact_and_cached (c : Checker) (db : List Hash) (events : List Event)
    (fair : c.machine.Allowed (c.Fair db) ∅ events) :
    c.Decides db events ∧
      c.Remembers events fun cache host first again =>
        Lasting c db cache host first again.now := by
  constructor
  · rintro before host sur after rfl
    obtain ⟨start, now, _⟩ := (c.machine.allowed_append ∅ before _).mp fair
    exact check_outcome (Exact.empty.run start) now.1
  · rintro before host first between again after rfl undropped calm lasting
    obtain ⟨start, now, later⟩ := (c.machine.allowed_append ∅ before _).mp fair
    obtain ⟨middle, _⟩ := (c.machine.allowed_append _ between _).mp later
    have exact := Exact.empty.run start
    have exactAfter := exact.next (.check host first) now
    rw [c.machine.run_append, c.machine.run_cons]
    apply check_cached (exactAfter.run middle)
    rcases check_leaves exact now.1 undropped lasting with ⟨hash, member, lasts, bad⟩ | all
    · exact .inl ⟨hash, member, run_lasts exactAfter middle calm lasts, bad⟩
    · exact .inr fun hash member => run_lasts exactAfter middle calm (all hash member)

section Examples

private def www : Hash := .copy
  [0x80, 0xfc, 0x0f, 0xb9, 0x26, 0x6d, 0xb7, 0xb8, 0x3f, 0x85, 0x85, 0x0f, 0xa0, 0xe6, 0x54, 0x8b,
    0x6d, 0x70, 0xee, 0x68, 0xc8, 0xb5, 0xb4, 0x12, 0xf1, 0xde, 0xea, 0x6e, 0xbd, 0xef, 0x04, 0x04]

private def exampleCom : Hash := .copy
  [0xa3, 0x79, 0xa6, 0xf6, 0xee, 0xaf, 0xb9, 0xa5, 0x5e, 0x37, 0x8c, 0x11, 0x80, 0x34, 0xe2, 0x75,
    0x1e, 0x68, 0x2f, 0xab, 0x9f, 0x2d, 0x30, 0xab, 0x13, 0xd2, 0x12, 0x55, 0x86, 0xce, 0x19, 0x47]

private def wwwHost : Bytes := lit "www.example.com"

private def wwwNames : Names where
  sum256 name := if name = wwwHost then www else exampleCom
  publicSuffix host := if host = wwwHost then (lit "com", true) else ([], false)
  subdomains domain := if domain = [] then [] else labelSuffixes domain
  subdomains_nil := rfl
  subdomains_eq _ some := if_neg some
  publicSuffix_suffix host icann := by
    by_cases same : host = wwwHost
    · subst same
      exact .inr ⟨lit "www.example", rfl⟩
    · rw [if_neg same] at icann
      cases icann
  publicSuffix_labels host icann := by
    by_cases same : host = wwwHost
    · subst same
      exact Nat.succ_le_of_lt (by decide)
    · rw [if_neg same] at icann
      cases icann

private def safeBrowsing : Checker := ⟨wwwNames, lit "sb.dns.adguard.com.", 1800 * second⟩

private def asksFor (pref : Prefix) : Bytes → Bool
  | a :: b :: c :: d :: e :: rest => [a, b, c, d, e] = Hex.encode pref ++ [dot] || asksFor pref rest
  | _ => false

/-- An upstream that reads the question, and answers with the hashes of a database. -/
private def answering (db : List Hash) (question : Bytes) : Except Bytes (List RR) :=
  .ok [.txt ((db.filter fun hash => asksFor hash.pref question).map fun hash =>
    Hex.encode hash.bytes)]

private theorem asksFor_block {pref : Prefix} (hash : Hash) (rest : Bytes) :
    asksFor pref (Hex.encode hash.pref ++ [dot] ++ rest) = true ↔
      hash.pref = pref ∨ asksFor pref rest = true := by
  have size : hash.pref.length = 2 := by
    rw [Hash.pref, List.length_take, hash.size]
    rfl
  obtain ⟨first, second, pair⟩ := List.length_eq_two.mp size
  have equal : Hex.encode hash.pref ++ [dot] = Hex.encode pref ++ [dot] ↔ hash.pref = pref :=
    (List.append_left_inj [dot]).trans ⟨Hex.encode_injective, congrArg Hex.encode⟩
  rw [← equal, pair]
  simp [asksFor, Hex.encode]

private theorem asksFor_question {pref : Prefix} (asked : List Hash)
    (plain : asksFor pref safeBrowsing.txtSuffix = false) :
    asksFor pref (safeBrowsing.getQuestion asked) = true ↔
      ∃ other ∈ asked, other.pref = pref := by
  rw [Checker.getQuestion]
  induction asked with
  | nil => simp [plain]
  | cons hash rest ih =>
    rw [List.flatMap_cons, List.append_assoc, asksFor_block, ih]
    simp

private theorem answering_serves {db : List Hash}
    (plain : ∀ hash ∈ db, asksFor hash.pref safeBrowsing.txtSuffix = false) :
    safeBrowsing.Serves db (answering db) := by
  intro asked
  refine ⟨_, rfl, fun t => ?_⟩
  simp only [texts, List.flatMap_cons, List.flatMap_nil, List.append_nil, List.mem_map,
    List.mem_filter]
  constructor
  · rintro ⟨hash, ⟨inDB, asks⟩, rfl⟩
    exact ⟨hash, inDB, (asksFor_question asked (plain hash inDB)).mp asks, rfl⟩
  · rintro ⟨hash, inDB, wanted, rfl⟩
    exact ⟨hash, ⟨inDB, (asksFor_question asked (plain hash inDB)).mpr wanted⟩, rfl⟩

/-- A `Check` at a time, with no item dropped. -/
private def quiet (db : List Hash) (now : Int) : Surroundings :=
  ⟨now, answering db, .inserted, fun _ => ⟨now, []⟩⟩

private theorem fair_quiet {db : List Hash} {cache : Cache} {host : Bytes} {now : Int}
    (plain : ∀ hash ∈ db, asksFor hash.pref safeBrowsing.txtSuffix = false) :
    safeBrowsing.Fair db cache (.check host (quiet db now)) :=
  ⟨answering_serves plain, fun _ _ _ _ _ => safe_of_undropped (fun _ => rfl) _⟩

theorem check_exact_and_cached_for_www :
    let first := quiet [exampleCom] 0
    let again := quiet [exampleCom] (1799 * second)
    (∃ blocked, (safeBrowsing.check ∅ wwwHost first).2.outcome = .ok blocked ∧
      (blocked = true ↔ safeBrowsing.Blocked [exampleCom] wwwHost)) ∧
    (safeBrowsing.check (safeBrowsing.machine.run ∅ [.check wwwHost first]) wwwHost again).2.question
      = none := by
  intro first again
  have plain : ∀ hash ∈ [exampleCom], asksFor hash.pref safeBrowsing.txtSuffix = false := by decide
  obtain ⟨decides, remembers⟩ := check_exact_and_cached safeBrowsing [exampleCom]
    [.check wwwHost first, .check wwwHost again] ⟨fair_quiet plain, fair_quiet plain, trivial⟩
  refine ⟨decides [] wwwHost first _ rfl, ?_⟩
  apply remembers [] wwwHost first [] again [] rfl (fun _ => rfl)
  · intro event member
    cases member
  · refine ⟨?_, ?_, ?_⟩
    · intro hash _ lasts
      cases lasts
    · intro _ n
      have order : 1799 * second ≤ wholeSeconds (0 + 1800 * second) := by decide
      exact order
    · intro _ hash _
      exact .inl (FiniteMap.get_empty _)

/-- A `Check` that is answered from the cache does not make its items last longer. -/
theorem cached_check_extends_nothing :
    ¬ ∀ (c : Checker) (db : List Hash) (events : List Event),
      c.machine.Allowed (c.Fair db) ∅ events →
      c.Decides db events ∧
        c.Remembers events fun _ _ first again =>
          first.now ≤ again.now ∧ again.now ≤ first.now + c.cacheTime := by
  intro always
  have plain : ∀ hash ∈ ([] : List Hash),
      asksFor hash.pref safeBrowsing.txtSuffix = false := by decide
  have remembers := (always safeBrowsing []
    [.check wwwHost (quiet [] 0), .check wwwHost (quiet [] (1799 * second)),
      .check wwwHost (quiet [] (1801 * second))]
    ⟨fair_quiet plain, fair_quiet plain, fair_quiet plain, trivial⟩).2
  have silent := remembers [.check wwwHost (quiet [] 0)] wwwHost (quiet [] (1799 * second)) []
    (quiet [] (1801 * second)) [] rfl (fun _ => rfl) (fun _ member => nomatch member)
    ⟨by decide, by decide⟩
  have asks : (safeBrowsing.check (safeBrowsing.machine.run ∅ [.check wwwHost (quiet [] 0),
      .check wwwHost (quiet [] (1799 * second))]) wwwHost
      (quiet [] (1801 * second))).2.question.isSome = true := by decide +kernel
  rw [Option.isSome_iff_ne_none] at asks
  exact asks silent

end Examples

end AdGuardHome.Hashprefix
