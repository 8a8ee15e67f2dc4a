import AdGuardHome.Filtering.RewriteHTTP
import AdGuardHome.Filtering.RewritePriority
import AdGuardHome.Lib.Loop

namespace AdGuardHome.Filtering

open Looping Netip Sorting Strings

/-- `setRewriteResult`. -/
def setRewriteResult (qtype : RRType) (res : Result) : List LegacyRewrite → Result
  | [] => res
  | rw :: rest =>
    if rw.type = qtype ∧ (qtype = .a ∨ qtype = .aaaa) then
      -- "A"/"AAAA" exception: allow getting from upstream.
      if rw.ip = .zero then { res with reason := .notFilteredNotFound }
      else setRewriteResult qtype { res with ipList := res.ipList ++ [rw.ip] } rest
    else setRewriteResult qtype res rest

/-- The variables of the loop in `handleRewriteLoop`. -/
structure RewriteState where
  cnames : List Bytes
  host : Bytes
  rewrites : List LegacyRewrite
  matched : Bool
  res : Result

section Loop

variable (sortFunc : SortFunc LegacyRewrite) (entries : List LegacyRewrite)

/-- One round of the loop in `handleRewriteLoop`; what leaves the loop by its condition or by
the `break` goes through `setRewriteResult`. -/
def rewriteRound (origHost : Bytes) (qtype : RRType) (s : RewriteState) :
    RewriteState ⊕ Result :=
  match s.rewrites with
  | [] => .inr (setRewriteResult qtype s.res [])
  | rw :: rest =>
    if s.matched ∧ rw.type = .cname then
      -- Either a request for the hostname itself or a rewrite of a pattern onto itself.
      if origHost = rw.answer ∨ rw.domain = rw.answer then .inr (.ofReason .notFilteredNotFound)
      -- A wildcard that matches its own answer.
      else if s.host = rw.answer ∧ isWildcard rw.domain then
        .inr (setRewriteResult qtype { s.res with canonName := s.host } (rw :: rest))
      else if rw.answer ∈ s.cnames then .inr s.res
      else
        let (rewrites, matched) := findRewrites sortFunc entries rw.answer qtype
        .inl ⟨rw.answer :: s.cnames, rw.answer, rewrites, matched,
          { s.res with canonName := rw.answer }⟩
    else .inr (setRewriteResult qtype s.res (rw :: rest))

/-- `handleRewriteLoop`, with fuel for the rounds. -/
def handleRewriteLoop (host : Bytes) (qtype : RRType) (rewrites : List LegacyRewrite)
    (matched : Bool) (res : Result) (fuel : Nat) : Option Result :=
  run (rewriteRound sortFunc entries host qtype) fuel ⟨[], host, rewrites, matched, res⟩

end Loop

section Process

variable (sortFunc : SortFunc LegacyRewrite)

/-- `processRewrites`, with fuel for the rounds of the loop. -/
def processRewrites (conf : RewriteConf) (host : Bytes) (qtype : RRType) (fuel : Nat) :
    Option Result :=
  if conf.rewritesEnabled = false then some (.ofReason .notFilteredNotFound)
  else
    let (rewrites, matched) := findRewrites sortFunc conf.rewrites host qtype
    if matched = false then some (.ofReason .notFilteredNotFound)
    else
      handleRewriteLoop sortFunc conf.rewrites host qtype rewrites matched (.ofReason .rewritten)
        fuel

/-- `processRewrites` returns the result. -/
def Rewrites (conf : RewriteConf) (host : Bytes) (qtype : RRType) (res : Result) : Prop :=
  ∃ fuel, processRewrites sortFunc conf host qtype fuel = some res

def RewriteState.initial (entries : List LegacyRewrite) (host : Bytes) (qtype : RRType) :
    RewriteState :=
  let (rewrites, matched) := findRewrites sortFunc entries host qtype
  ⟨[], host, rewrites, matched, .ofReason .rewritten⟩

end Process

/-- The addresses for the question type, in the order of the entries. -/
def addresses (qtype : RRType) (rewrites : List LegacyRewrite) : List Addr :=
  (rewrites.filter fun rw => rw.type = qtype ∧ (qtype = .a ∨ qtype = .aaaa)).map (·.ip)

def HasException (qtype : RRType) (rewrites : List LegacyRewrite) : Prop :=
  Addr.zero ∈ addresses qtype rewrites

instance (qtype : RRType) (rewrites : List LegacyRewrite) :
    Decidable (HasException qtype rewrites) := inferInstanceAs (Decidable (_ ∈ _))

theorem RewriteState.initial_found (sortFunc : SortFunc LegacyRewrite)
    (entries : List LegacyRewrite) (host : Bytes) (qtype : RRType) :
    ((initial sortFunc entries host qtype).rewrites, (initial sortFunc entries host qtype).matched) =
      findRewrites sortFunc entries (initial sortFunc entries host qtype).host qtype := rfl

section SetResult

variable {qtype : RRType} {rewrites : List LegacyRewrite}

@[simp] theorem addresses_nil (qtype : RRType) : addresses qtype [] = [] := rfl

theorem addresses_cons (rw : LegacyRewrite) (rest : List LegacyRewrite) :
    addresses qtype (rw :: rest) =
      if rw.type = qtype ∧ (qtype = .a ∨ qtype = .aaaa) then rw.ip :: addresses qtype rest
      else addresses qtype rest := by
  by_cases asked : rw.type = qtype ∧ (qtype = .a ∨ qtype = .aaaa)
  · simp [addresses, asked]
  · simp [addresses, asked]

theorem setRewriteResult_of_plain (res : Result) (plain : ¬ HasException qtype rewrites) :
    setRewriteResult qtype res rewrites =
      { res with ipList := res.ipList ++ addresses qtype rewrites } := by
  induction rewrites generalizing res with
  | nil => simp [setRewriteResult]
  | cons rw rest ih =>
    rw [HasException, addresses_cons] at plain
    rw [setRewriteResult, addresses_cons]
    by_cases asked : rw.type = qtype ∧ (qtype = .a ∨ qtype = .aaaa)
    · simp only [if_pos asked, List.mem_cons, not_or] at plain ⊢
      rw [if_neg (Ne.symm plain.1), ih _ plain.2]
      simp
    · simp only [if_neg asked] at plain ⊢
      exact ih res plain

theorem setRewriteResult_of_exception (res : Result) (hasException : HasException qtype rewrites) :
    (setRewriteResult qtype res rewrites).reason = .notFilteredNotFound := by
  induction rewrites generalizing res with
  | nil => simp [HasException] at hasException
  | cons rw rest ih =>
    rw [HasException, addresses_cons] at hasException
    rw [setRewriteResult]
    by_cases asked : rw.type = qtype ∧ (qtype = .a ∨ qtype = .aaaa)
    · simp only [if_pos asked, List.mem_cons] at hasException ⊢
      by_cases zero : rw.ip = .zero
      · rw [if_pos zero]
      · rw [if_neg zero]
        exact ih _ (hasException.resolve_left (Ne.symm zero))
    · simp only [if_neg asked] at hasException ⊢
      exact ih res hasException

@[simp] theorem setRewriteResult_canonName (res : Result) :
    (setRewriteResult qtype res rewrites).canonName = res.canonName := by
  induction rewrites generalizing res with
  | nil => rfl
  | cons rw rest ih =>
    rw [setRewriteResult]
    split
    · split
      · rfl
      · exact ih _
    · exact ih res

theorem setRewriteResult_reason (res : Result) (rewritten : res.reason = .rewritten) :
    (setRewriteResult qtype res rewrites).reason =
      if HasException qtype rewrites then .notFilteredNotFound else .rewritten := by
  by_cases hasException : HasException qtype rewrites
  · rw [if_pos hasException, setRewriteResult_of_exception res hasException]
  · rw [if_neg hasException, setRewriteResult_of_plain res hasException, rewritten]

end SetResult

def cnameRewrite (sortFunc : SortFunc LegacyRewrite) (entries : List LegacyRewrite)
    (qtype : RRType) (host : Bytes) : Option LegacyRewrite :=
  (findRewrites sortFunc entries host qtype).1.head?.filter (·.type = .cname)

/-- The loop goes from one name to another one: the CNAME for the first does not rewrite a
pattern onto itself and has the second as its answer. -/
def Hop (sortFunc : SortFunc LegacyRewrite) (entries : List LegacyRewrite) (qtype : RRType)
    (host name : Bytes) : Prop :=
  ∃ rw, cnameRewrite sortFunc entries qtype host = some rw ∧ rw.domain ≠ rw.answer ∧
    rw.answer = name

def RewriteState.hop (sortFunc : SortFunc LegacyRewrite) (entries : List LegacyRewrite)
    (qtype : RRType) (s : RewriteState) (name : Bytes) : RewriteState :=
  ⟨name :: s.cnames, name, (findRewrites sortFunc entries name qtype).1,
    (findRewrites sortFunc entries name qtype).2, { s.res with canonName := name }⟩

/-- What a round does in a state. -/
inductive RoundResult (sortFunc : SortFunc LegacyRewrite) (entries : List LegacyRewrite)
    (origHost : Bytes) (qtype : RRType) (s : RewriteState) : RewriteState ⊕ Result → Prop
  | plain (absent : cnameRewrite sortFunc entries qtype s.host = none) :
      RoundResult sortFunc entries origHost qtype s (.inr (setRewriteResult qtype s.res s.rewrites))
  | exception {rw : LegacyRewrite} (first : cnameRewrite sortFunc entries qtype s.host = some rw)
      (self : origHost = rw.answer ∨ rw.domain = rw.answer) :
      RoundResult sortFunc entries origHost qtype s (.inr (.ofReason .notFilteredNotFound))
  | wildcard {rw : LegacyRewrite} (first : cnameRewrite sortFunc entries qtype s.host = some rw)
      (wild : isWildcard rw.domain = true) (other : origHost ≠ s.host)
      (hop : Hop sortFunc entries qtype s.host s.host) :
      RoundResult sortFunc entries origHost qtype s (.inr { s.res with canonName := s.host })
  | seen {name : Bytes} (hop : Hop sortFunc entries qtype s.host name) (other : origHost ≠ name)
      (member : name ∈ s.cnames) : RoundResult sortFunc entries origHost qtype s (.inr s.res)
  | goesOn {name : Bytes} (hop : Hop sortFunc entries qtype s.host name) (other : origHost ≠ name)
      (fresh : name ∉ s.cnames) :
      RoundResult sortFunc entries origHost qtype s (.inl (s.hop sortFunc entries qtype name))

section Round

variable {sortFunc : SortFunc LegacyRewrite} {entries : List LegacyRewrite}
variable {origHost host : Bytes} {qtype : RRType} {rw : LegacyRewrite} {rest : List LegacyRewrite}

theorem cnameRewrite_eq_some :
    cnameRewrite sortFunc entries qtype host = some rw ↔
      (∃ rest, (findRewrites sortFunc entries host qtype).1 = rw :: rest) ∧ rw.type = .cname := by
  simp only [cnameRewrite, Option.filter_eq_some_iff, List.head?_eq_some_iff, decide_eq_true_eq]

theorem mem_of_mem_findRewrites (member : rw ∈ (findRewrites sortFunc entries host qtype).1) :
    rw ∈ matching entries host qtype :=
  sortFunc.mem_sort.mp (findRewrites_cut.sublist.mem member)

theorem of_mem_matching (member : rw ∈ matching entries host qtype) :
    rw ∈ entries ∧ rw.matchesHost host = true := by
  have onHost := (List.mem_filter.mp member).1
  exact List.mem_filter.mp onHost

theorem matching_of_cnameRewrite (first : cnameRewrite sortFunc entries qtype host = some rw) :
    rw ∈ matching entries host qtype ∧ rw.type = .cname := by
  obtain ⟨⟨rest, found⟩, isName⟩ := cnameRewrite_eq_some.mp first
  exact ⟨mem_of_mem_findRewrites (found ▸ List.mem_cons_self), isName⟩

theorem findRewrites_matched (found : (findRewrites sortFunc entries host qtype).1 = rw :: rest) :
    (findRewrites sortFunc entries host qtype).2 = true := by
  have member := mem_of_mem_findRewrites (found ▸ List.mem_cons_self)
  have among : rw ∈ entries.filter (·.matchesHost host) := (List.mem_filter.mp member).1
  have some := List.ne_nil_of_mem among
  simpa [findRewrites, List.isEmpty_iff] using List.exists_mem_of_ne_nil _ some

theorem findRewrites_wildcard (found : (findRewrites sortFunc entries host qtype).1 = rw :: rest)
    (wild : isWildcard rw.domain = true) : rest = [] := by
  have cut : Cut (sortFunc.sort LegacyRewrite.compare (matching entries host qtype))
    (findRewrites sortFunc entries host qtype).1 := findRewrites_cut
  rw [found] at cut
  generalize whole : rw :: rest = result at cut
  cases cut with
  | whole exact =>
    have plain := exact rw (whole ▸ List.mem_cons_self)
    simp [wild] at plain
  | first split _ => exact (List.cons.inj whole).2
  | front some split exact _ =>
    have plain := exact rw (whole ▸ List.mem_cons_self)
    simp [wild] at plain

theorem Hop.entry {name : Bytes} (hop : Hop sortFunc entries qtype host name) :
    ∃ e ∈ entries, e.enabled = true ∧ (e.domain = host ∨ matchDomainWildcard host e.domain = true) ∧
      e.type = .cname ∧ e.answer = name := by
  obtain ⟨rw, first, _, rfl⟩ := hop
  obtain ⟨member, isName⟩ := matching_of_cnameRewrite first
  obtain ⟨among, matched⟩ := of_mem_matching member
  simp only [LegacyRewrite.matchesHost, Bool.and_eq_true, Bool.or_eq_true, beq_iff_eq] at matched
  exact ⟨rw, among, matched.1, matched.2, isName, rfl⟩

theorem Hop.deterministic {first second : Bytes} (one : Hop sortFunc entries qtype host first)
    (other : Hop sortFunc entries qtype host second) : first = second := by
  obtain ⟨rw, found, _, rfl⟩ := one
  obtain ⟨_, again, _, rfl⟩ := other
  rw [Option.some.inj (found.symm.trans again)]

/-- The round of the code does one of these. -/
theorem rewriteRound_result (origHost : Bytes) (s : RewriteState)
    (found : (s.rewrites, s.matched) = findRewrites sortFunc entries s.host qtype) :
    RoundResult sortFunc entries origHost qtype s
      (rewriteRound sortFunc entries origHost qtype s) := by
  have rewrites : (findRewrites sortFunc entries s.host qtype).1 = s.rewrites := by rw [← found]
  have matched : (findRewrites sortFunc entries s.host qtype).2 = s.matched := by rw [← found]
  rw [rewriteRound]
  rcases same : s.rewrites with _ | ⟨rw, rest⟩
  · have absent : cnameRewrite sortFunc entries qtype s.host = none := by
      simp [cnameRewrite, rewrites, same]
    have plain : RoundResult sortFunc entries origHost qtype s _ := .plain absent
    rwa [same] at plain
  · rw [same] at rewrites
    have isMatched : s.matched = true := matched ▸ findRewrites_matched rewrites
    by_cases isName : rw.type = .cname
    · have first : cnameRewrite sortFunc entries qtype s.host = some rw :=
        cnameRewrite_eq_some.mpr ⟨⟨rest, rewrites⟩, isName⟩
      simp only [isMatched, isName, true_and, if_true]
      split
      next self => exact .exception first self
      next self =>
        obtain ⟨other, moves⟩ := not_or.mp self
        have hop : Hop sortFunc entries qtype s.host rw.answer := ⟨rw, first, moves, rfl⟩
        split
        next wildcard =>
          obtain ⟨onto, wild⟩ := wildcard
          obtain rfl := findRewrites_wildcard rewrites wild
          have noAddress : addresses qtype [rw] = [] := by
            rw [addresses_cons, isName]
            refine if_neg ?_
            rintro ⟨rfl, address⟩
            revert address
            decide
          rw [setRewriteResult_of_plain _ (by simp [HasException, noAddress]), noAddress,
            List.append_nil]
          rw [← onto] at hop other
          exact .wildcard first wild other hop
        next =>
          split
          next member => exact .seen hop other member
          next fresh => exact .goesOn hop other fresh
    · have absent : cnameRewrite sortFunc entries qtype s.host = none := by
        simp [cnameRewrite, rewrites, isName]
      have plain : RoundResult sortFunc entries origHost qtype s _ := .plain absent
      rw [same] at plain
      simpa only [isName, and_false, if_false] using plain

section Forward

variable {s : RewriteState}

/-- Without a CNAME for the name the round leaves with the addresses. -/
theorem rewriteRound_plain (origHost : Bytes)
    (found : (s.rewrites, s.matched) = findRewrites sortFunc entries s.host qtype)
    (absent : cnameRewrite sortFunc entries qtype s.host = none) :
    rewriteRound sortFunc entries origHost qtype s =
      .inr (setRewriteResult qtype s.res s.rewrites) := by
  have result := rewriteRound_result origHost s found
  generalize rewriteRound sortFunc entries origHost qtype s = outcome at result ⊢
  cases result with
  | plain => rfl
  | exception first _ => nomatch absent.symm.trans first
  | wildcard first _ _ _ => nomatch absent.symm.trans first
  | seen hop _ _ =>
    obtain ⟨_, first, _⟩ := hop
    nomatch absent.symm.trans first
  | goesOn hop _ _ =>
    obtain ⟨_, first, _⟩ := hop
    nomatch absent.symm.trans first

/-- An entry for the host itself or for its own pattern takes everything back. -/
theorem rewriteRound_exception (origHost : Bytes) {rw : LegacyRewrite}
    (found : (s.rewrites, s.matched) = findRewrites sortFunc entries s.host qtype)
    (first : cnameRewrite sortFunc entries qtype s.host = some rw)
    (self : origHost = rw.answer ∨ rw.domain = rw.answer) :
    rewriteRound sortFunc entries origHost qtype s = .inr (.ofReason .notFilteredNotFound) := by
  have noHop : ∀ name, Hop sortFunc entries qtype s.host name → origHost = name := by
    intro name hop
    obtain ⟨_, again, moves, rfl⟩ := hop
    obtain rfl := Option.some.inj (first.symm.trans again)
    exact self.resolve_right moves
  have result := rewriteRound_result origHost s found
  generalize rewriteRound sortFunc entries origHost qtype s = outcome at result ⊢
  cases result with
  | plain absent => nomatch absent.symm.trans first
  | exception => rfl
  | wildcard _ _ other hop => exact absurd (noHop _ hop) other
  | seen hop other _ => exact absurd (noHop _ hop) other
  | goesOn hop other _ => exact absurd (noHop _ hop) other

/-- A hop to a name that was not met before is followed. -/
theorem rewriteRound_hop {name : Bytes}
    (found : (s.rewrites, s.matched) = findRewrites sortFunc entries s.host qtype)
    (hop : Hop sortFunc entries qtype s.host name) (other : origHost ≠ name)
    (moves : s.host ≠ name) (fresh : name ∉ s.cnames) :
    rewriteRound sortFunc entries origHost qtype s = .inl (s.hop sortFunc entries qtype name) := by
  have result := rewriteRound_result origHost s found
  generalize rewriteRound sortFunc entries origHost qtype s = outcome at result ⊢
  obtain ⟨rw, first, domain, rfl⟩ := hop
  have hop : Hop sortFunc entries qtype s.host rw.answer := ⟨rw, first, domain, rfl⟩
  cases result with
  | plain absent => nomatch absent.symm.trans first
  | exception again self =>
    obtain rfl := Option.some.inj (first.symm.trans again)
    exact absurd (self.resolve_right domain) other
  | wildcard _ _ _ onto => exact absurd (onto.deterministic hop) moves
  | seen again _ member => exact absurd (again.deterministic hop ▸ member) fresh
  | goesOn again _ _ => rw [again.deterministic hop]

end Forward

/-- `processRewrites` returns what the loop leaves with. -/
theorem rewrites_iff {conf : RewriteConf} {res : Result} (enabled : conf.rewritesEnabled = true)
    (matched : (findRewrites sortFunc conf.rewrites host qtype).2 = true) :
    Rewrites sortFunc conf host qtype res ↔
      Ends (rewriteRound sortFunc conf.rewrites host qtype)
        (.initial sortFunc conf.rewrites host qtype) res := by
  rw [ends_iff_run]
  simp [Rewrites, processRewrites, handleRewriteLoop, RewriteState.initial, enabled, matched]

/-- Without a match there is no rewriting. -/
theorem rewrites_of_unmatched {conf : RewriteConf} {res : Result}
    (unmatched : conf.rewritesEnabled = false ∨
      (findRewrites sortFunc conf.rewrites host qtype).2 = false)
    (returned : Rewrites sortFunc conf host qtype res) : res = .ofReason .notFilteredNotFound := by
  obtain ⟨fuel, done⟩ := returned
  simp only [processRewrites] at done
  split at done
  next => exact (Option.some.inj done).symm
  next enabled =>
    have missed := unmatched.resolve_left enabled
    rw [if_pos missed] at done
    exact (Option.some.inj done).symm

end Round

end AdGuardHome.Filtering
