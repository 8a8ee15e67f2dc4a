import AdGuardHome.Filtering.ProcessRewrites

namespace AdGuardHome.Filtering

open Looping Netip Relation Sorting Strings

variable (sortFunc : SortFunc LegacyRewrite) (entries : List LegacyRewrite)

def OnCycle (qtype : RRType) (name : Bytes) : Prop :=
  TransGen (Hop sortFunc entries qtype) name name

/-- The hops from the host end at the name: it has no CNAME of its own. -/
structure ChainEnds (qtype : RRType) (host last : Bytes) : Prop where
  path : TransGen (Hop sortFunc entries qtype) host last
  last : cnameRewrite sortFunc entries qtype last = none

/-- A result with a canonical name: the hops from the host lead to that name, and the addresses
are those of its entries, or none where it is on a cycle. -/
structure CanonName (qtype : RRType) (host : Bytes) (res : Result) : Prop where
  reached : TransGen (Hop sortFunc entries qtype) host res.canonName
  addresses : ¬ OnCycle sortFunc entries qtype res.canonName →
    res.ipList = addresses qtype (findRewrites sortFunc entries res.canonName qtype).1
  cycle : OnCycle sortFunc entries qtype res.canonName → res.ipList = []

/-- The rewriting follows the chains of names: it returns, a canonical name that it returns as
rewritten is reached by the hops, and a chain that ends gives its last name, as a rewrite
unless that name has an exception for the question type. -/
structure FollowsChains (conf : RewriteConf) (host : Bytes) (qtype : RRType) : Prop where
  terminates : ∃ res,
    processRewrites sortFunc conf host qtype (conf.rewrites.length + 1) = some res
  canonName : ∀ res, Rewrites sortFunc conf host qtype res → res.reason = .rewritten →
    res.canonName ≠ [] → CanonName sortFunc conf.rewrites qtype host res
  ends : conf.rewritesEnabled = true → ∀ last, ChainEnds sortFunc conf.rewrites qtype host last →
    ∀ res, Rewrites sortFunc conf host qtype res → res.canonName = last ∧
      res.reason =
        if HasException qtype (findRewrites sortFunc conf.rewrites last qtype).1
        then .notFilteredNotFound else .rewritten

/-- What the loop keeps: it stands at a name that the hops lead to, all names seen lead to it, and
the result has the name and nothing else. -/
structure Followed (qtype : RRType) (origHost : Bytes) (s : RewriteState) : Prop where
  found : (s.rewrites, s.matched) = findRewrites sortFunc entries s.host qtype
  reached : ∀ name ∈ s.cnames, TransGen (Hop sortFunc entries qtype) origHost name
  leads : ∀ name ∈ s.cnames, ReflTransGen (Hop sortFunc entries qtype) name s.host
  host : s.cnames = [] ∧ s.host = origHost ∨ s.host ∈ s.cnames
  res : s.res = { Result.ofReason .rewritten with
    canonName := if s.cnames = [] then [] else s.host }

section Followed

variable {sortFunc : SortFunc LegacyRewrite} {entries : List LegacyRewrite}
variable {qtype : RRType} {origHost : Bytes} {s : RewriteState}

theorem Followed.initial (host : Bytes) :
    Followed sortFunc entries qtype host (.initial sortFunc entries host qtype) where
  found := rfl
  reached := by simp [RewriteState.initial]
  leads := by simp [RewriteState.initial]
  host := Or.inl ⟨rfl, rfl⟩
  res := rfl

theorem Followed.path (followed : Followed sortFunc entries qtype origHost s) :
    ReflTransGen (Hop sortFunc entries qtype) origHost s.host := by
  rcases followed.host with ⟨_, same⟩ | member
  · exact same ▸ .refl
  · exact (followed.reached _ member).to_reflTransGen

theorem Followed.hop (followed : Followed sortFunc entries qtype origHost s) {name : Bytes}
    (hop : Hop sortFunc entries qtype s.host name) :
    Followed sortFunc entries qtype origHost (s.hop sortFunc entries qtype name) where
  found := rfl
  reached := by
    intro other member
    rcases List.mem_cons.mp member with rfl | earlier
    · exact TransGen.tail' followed.path hop
    · exact followed.reached other earlier
  leads := by
    intro other member
    rcases List.mem_cons.mp member with rfl | earlier
    · exact .refl
    · exact (followed.leads other earlier).tail hop
  host := Or.inr List.mem_cons_self
  res := by simp [RewriteState.hop, followed.res]

theorem Followed.cycle (followed : Followed sortFunc entries qtype origHost s) {name : Bytes}
    (hop : Hop sortFunc entries qtype s.host name) (seen : name ∈ s.cnames) :
    TransGen (Hop sortFunc entries qtype) name name :=
  TransGen.tail' (followed.leads name seen) hop

theorem Followed.canonName (followed : Followed sortFunc entries qtype origHost s)
    (named : s.res.canonName ≠ []) : s.host ∈ s.cnames ∧ s.res.canonName = s.host := by
  rw [followed.res] at named ⊢
  by_cases nothing : s.cnames = []
  · simp [nothing] at named
  · rcases followed.host with ⟨empty, _⟩ | member
    · exact absurd empty nothing
    · exact ⟨member, if_neg nothing⟩

theorem Followed.rewrites (followed : Followed sortFunc entries qtype origHost s) :
    s.rewrites = (findRewrites sortFunc entries s.host qtype).1 :=
  congrArg Prod.fst followed.found

/-- Where a round leaves as rewritten with a canonical name. -/
theorem Followed.leaves (followed : Followed sortFunc entries qtype origHost s) {res : Result}
    (left : RoundResult sortFunc entries origHost qtype s (.inr res))
    (rewritten : res.reason = .rewritten) (named : res.canonName ≠ []) :
    CanonName sortFunc entries qtype origHost res := by
  have reason : s.res.reason = .rewritten := by rw [followed.res]; rfl
  have noAddress : s.res.ipList = [] := by rw [followed.res]; rfl
  cases left with
  | plain absent =>
    rw [setRewriteResult_canonName] at named
    obtain ⟨member, same⟩ := followed.canonName named
    have permits : ¬ HasException qtype s.rewrites := by
      intro hasException
      rw [setRewriteResult_of_exception s.res hasException] at rewritten
      nomatch rewritten
    rw [setRewriteResult_of_plain s.res permits, noAddress, same, followed.rewrites]
    refine ⟨followed.reached _ member, fun _ => rfl, ?_⟩
    intro cycle
    obtain ⟨next, ⟨rw, first, _⟩, _⟩ := TransGen.head'_iff.mp cycle
    nomatch absent.symm.trans first
  | exception first self => nomatch rewritten
  | wildcard first wild other hop =>
    refine ⟨TransGen.tail' followed.path hop, ?_, fun _ => noAddress⟩
    intro acyclic
    exact absurd (TransGen.single hop) acyclic
  | seen hop other member =>
    obtain ⟨among, same⟩ := followed.canonName named
    refine ⟨same ▸ followed.reached _ among, ?_, fun _ => noAddress⟩
    intro acyclic
    rw [same] at acyclic
    exact absurd (TransGen.head' hop (followed.leads _ member)) acyclic

/-- A round that goes on keeps the invariant and sees one more answer of an entry. -/
theorem Followed.next (followed : Followed sortFunc entries qtype origHost s)
    {next : RewriteState} (goes : rewriteRound sortFunc entries origHost qtype s = .inl next) :
    Followed sortFunc entries qtype origHost next ∧
      ∃ name ∈ (entries.map (·.answer)).toFinset, name ∉ s.cnames.toFinset ∧
        next.cnames.toFinset = insert name s.cnames.toFinset := by
  have result := rewriteRound_result origHost s followed.found
  rw [goes] at result
  cases result with
  | @goesOn name hop other fresh =>
    obtain ⟨e, member, _, _, _, answer⟩ := hop.entry
    refine ⟨followed.hop hop, name, ?_, by simpa using fresh, by simp [RewriteState.hop]⟩
    exact List.mem_toFinset.mpr (List.mem_map.mpr ⟨e, member, answer⟩)

/-- The loop follows a hop that does not go into a cycle. -/
theorem Followed.follows (followed : Followed sortFunc entries qtype origHost s) {name : Bytes}
    (hop : Hop sortFunc entries qtype s.host name)
    (acyclic : ¬ TransGen (Hop sortFunc entries qtype) name name) :
    rewriteRound sortFunc entries origHost qtype s =
      .inl (s.hop sortFunc entries qtype name) := by
  apply rewriteRound_hop followed.found hop
  · intro same
    exact acyclic (TransGen.tail' (same ▸ followed.path) hop)
  · intro same
    exact acyclic (TransGen.single (same ▸ hop))
  · intro seen
    exact acyclic (followed.cycle hop seen)

theorem acyclic_of_end {name last : Bytes}
    (path : ReflTransGen (Hop sortFunc entries qtype) name last)
    (absent : cnameRewrite sortFunc entries qtype last = none) :
    ¬ TransGen (Hop sortFunc entries qtype) name name := by
  intro cycle
  have unique : ∀ name first second, Hop sortFunc entries qtype name first →
    Hop sortFunc entries qtype name second → first = second := fun _ _ _ => Hop.deterministic
  obtain ⟨_, _, first, _⟩ := no_end_of_cycle unique cycle path
  nomatch absent.symm.trans first

/-- From a state whose hops come to an end the loop leaves with the last name. -/
theorem Followed.ends (followed : Followed sortFunc entries qtype origHost s)
    (named : s.cnames ≠ []) {last : Bytes}
    (path : ReflTransGen (Hop sortFunc entries qtype) s.host last)
    (absent : cnameRewrite sortFunc entries qtype last = none) :
    Ends (rewriteRound sortFunc entries origHost qtype) s
      (setRewriteResult qtype { Result.ofReason .rewritten with canonName := last }
        (findRewrites sortFunc entries last qtype).1) := by
  generalize start : s.host = host at path
  induction path using ReflTransGen.head_induction_on generalizing s with
  | refl =>
    subst start
    have left := rewriteRound_plain origHost followed.found absent
    rw [followed.res, if_neg named, followed.rewrites] at left
    exact .leave left
  | head first later ih =>
    subst start
    exact .again (followed.follows first (acyclic_of_end later absent))
      (ih (followed.hop first) (List.cons_ne_nil _ _) rfl)

end Followed

theorem run_rewriteRound (host : Bytes) (qtype : RRType) : ∃ res,
    run (rewriteRound sortFunc entries host qtype) (entries.length + 1)
      (.initial sortFunc entries host qtype) = some res := by
  have initially : Followed sortFunc entries qtype host (.initial sortFunc entries host qtype) :=
    .initial host
  obtain ⟨res, done⟩ := run_of_seen (entries.map (·.answer)).toFinset
    (fun s : RewriteState => s.cnames.toFinset) (Followed sortFunc entries qtype host)
    (fun s next followed goes => followed.next goes) initially
  refine ⟨res, run_mono done ?_⟩
  have atMost := List.toFinset_card_le (entries.map (·.answer))
  simpa [RewriteState.initial] using atMost

theorem processRewrites_returns (conf : RewriteConf) (host : Bytes) (qtype : RRType) :
    ∃ res, processRewrites sortFunc conf host qtype (conf.rewrites.length + 1) = some res := by
  obtain ⟨res, done⟩ := run_rewriteRound sortFunc conf.rewrites host qtype
  simp only [processRewrites]
  split
  · exact ⟨_, rfl⟩
  · split
    · exact ⟨_, rfl⟩
    · exact ⟨res, done⟩

section Results

variable {sortFunc : SortFunc LegacyRewrite} {conf : RewriteConf} {host : Bytes} {qtype : RRType}
variable {res : Result}

theorem Rewrites.canonName (returned : Rewrites sortFunc conf host qtype res)
    (rewritten : res.reason = .rewritten) (named : res.canonName ≠ []) :
    CanonName sortFunc conf.rewrites qtype host res := by
  by_cases active : conf.rewritesEnabled = true ∧
      (findRewrites sortFunc conf.rewrites host qtype).2 = true
  · have ends := (rewrites_iff active.1 active.2).mp returned
    have post := ends.post (Followed sortFunc conf.rewrites qtype host)
      (fun res => res.reason = .rewritten → res.canonName ≠ [] →
        CanonName sortFunc conf.rewrites qtype host res)
      (Followed.initial host)
      (fun s next followed goes => (followed.next goes).1)
      (fun s res followed left =>
        followed.leaves (left ▸ rewriteRound_result host s followed.found))
    exact post rewritten named
  · have inactive : conf.rewritesEnabled = false ∨
        (findRewrites sortFunc conf.rewrites host qtype).2 = false := by
      simpa only [not_and_or, Bool.not_eq_true] using active
    rw [rewrites_of_unmatched inactive returned] at rewritten
    nomatch rewritten

/-- A chain that ends gives its last name and the addresses of that. -/
theorem Rewrites.of_chainEnds (returned : Rewrites sortFunc conf host qtype res)
    (enabled : conf.rewritesEnabled = true) {last : Bytes}
    (chain : ChainEnds sortFunc conf.rewrites qtype host last) :
    res = setRewriteResult qtype { Result.ofReason .rewritten with canonName := last }
      (findRewrites sortFunc conf.rewrites last qtype).1 := by
  obtain ⟨name, hop, later⟩ := TransGen.head'_iff.mp chain.path
  obtain ⟨⟨rest, found⟩, _⟩ := cnameRewrite_eq_some.mp hop.choose_spec.1
  have ends := (rewrites_iff enabled (findRewrites_matched found)).mp returned
  have initially : Followed sortFunc conf.rewrites qtype host
    (.initial sortFunc conf.rewrites host qtype) := .initial host
  have follows := initially.follows hop (acyclic_of_end later chain.last)
  have last := (initially.hop hop).ends (List.cons_ne_nil _ _) later chain.last
  exact ends.unique (.again follows last)

/-- An entry for the host itself or for its own pattern is an exception. -/
theorem Rewrites.exception (returned : Rewrites sortFunc conf host qtype res)
    (enabled : conf.rewritesEnabled = true) {rw : LegacyRewrite}
    (first : cnameRewrite sortFunc conf.rewrites qtype host = some rw)
    (self : host = rw.answer ∨ rw.domain = rw.answer) : res = .ofReason .notFilteredNotFound := by
  obtain ⟨⟨rest, found⟩, _⟩ := cnameRewrite_eq_some.mp first
  have ends := (rewrites_iff enabled (findRewrites_matched found)).mp returned
  have initially := RewriteState.initial_found sortFunc conf.rewrites host qtype
  exact ends.unique (.leave (rewriteRound_exception host initially first self))

/-- It is an exception behind a hop as well. -/
theorem Rewrites.exception_of_hop (returned : Rewrites sortFunc conf host qtype res)
    (enabled : conf.rewritesEnabled = true) {name : Bytes}
    (hop : Hop sortFunc conf.rewrites qtype host name) (other : host ≠ name) {rw : LegacyRewrite}
    (first : cnameRewrite sortFunc conf.rewrites qtype name = some rw)
    (self : host = rw.answer ∨ rw.domain = rw.answer) : res = .ofReason .notFilteredNotFound := by
  obtain ⟨⟨rest, found⟩, _⟩ := cnameRewrite_eq_some.mp hop.choose_spec.1
  have ends := (rewrites_iff enabled (findRewrites_matched found)).mp returned
  have initially := RewriteState.initial_found sortFunc conf.rewrites host qtype
  have follows := rewriteRound_hop initially hop other other List.not_mem_nil
  exact ends.unique (.again follows (.leave (rewriteRound_exception host rfl first self)))

end Results

/-- The rewriting follows the chains of names, whatever the entries are. -/
theorem processRewrites_followsChains (conf : RewriteConf) (host : Bytes) (qtype : RRType) :
    FollowsChains sortFunc conf host qtype := by
  refine ⟨processRewrites_returns sortFunc conf host qtype, fun _ => Rewrites.canonName, ?_⟩
  intro enabled last chain res returned
  rw [returned.of_chainEnds enabled chain]
  exact ⟨setRewriteResult_canonName _, setRewriteResult_reason _ rfl⟩

section Examples

private def noAddress (_ : Bytes) : Option Addr := none

private def chained : List LegacyRewrite :=
  [⟨lit "www.example.org", lit "example.com", .zero, .cname, true⟩,
    ⟨lit "example.com", lit "A", .zero, .a, true⟩]

/-- The exception of `example.com` takes the name away from `www.example.org`. -/
theorem exception_hides_name :
    ¬ ∀ (entries : List LegacyRewrite) (host last : Bytes) (qtype : RRType) (res : Result),
      (∀ e ∈ entries, ∃ raw : LegacyRewrite,
        raw.normalize toLowerASCII noAddress (fun _ => true) = some e) →
      last ≠ host → ChainEnds .insertion entries qtype host last →
      Rewrites .insertion ⟨entries, true⟩ host qtype res →
      res.reason = .rewritten ∧ res.canonName = last := by
  intro always
  have normalized : ∀ e ∈ chained, ∃ raw : LegacyRewrite,
      raw.normalize toLowerASCII noAddress (fun _ => true) = some e := by
    intro e member
    have fixed : ∀ e ∈ chained, e.normalize toLowerASCII noAddress (fun _ => true) = some e := by
      decide
    exact ⟨e, fixed e member⟩
  have first : cnameRewrite .insertion chained .a (lit "www.example.org") =
      some ⟨lit "www.example.org", lit "example.com", .zero, .cname, true⟩ := by decide +kernel
  have chain : ChainEnds .insertion chained .a (lit "www.example.org") (lit "example.com") :=
    ⟨.single ⟨_, first, by decide, rfl⟩, by decide +kernel⟩
  obtain ⟨res, done⟩ : ∃ res, processRewrites .insertion ⟨chained, true⟩ (lit "www.example.org") .a
      (chained.length + 1) = some res := Option.isSome_iff_exists.mp (by decide +kernel)
  have rewritten := (always chained _ _ .a res normalized (by decide) chain ⟨_, done⟩).1
  have reason : (processRewrites .insertion ⟨chained, true⟩ (lit "www.example.org") .a
    (chained.length + 1)).map (·.reason) = some .notFilteredNotFound := by decide +kernel
  rw [done] at reason
  nomatch rewritten.symm.trans (Option.some.inj reason)

end Examples

end AdGuardHome.Filtering
