import AdGuardHome.Filtering.DNSRewrite
import AdGuardHome.Lib.Loop

/-! `rewrite/storage.go`: matching a request against the rules of the rewrite storage. -/
namespace AdGuardHome.Rewrite

open Filtering Looping Strings

/-- The `$dnsrewrite` rules that `DNSEngine.MatchRequest` finds for a host name and a type;
`none` is the nil slice. -/
abbrev Engine := Bytes → RRType → Option (List NetworkRule)

/-- `urlfilter.DNSRequest`. -/
structure DNSRequest where
  hostname : Bytes
  dnsType : RRType

/-- `isWildcard`. -/
def isWildcard (pat : Bytes) : Bool := hasPrefix pat (lit "|*.")

/-- `isSelfMatchingWildcard`. -/
def isSelfMatchingWildcard (host rwAns ruleText : Bytes) : Bool :=
  host == rwAns && isWildcard ruleText

/-- `matchesQType`. -/
def matchesQType (dnsrr : DNSRewrite) (qt : RRType) : Bool :=
  if dnsrr.rrType = .cname then true
  else if qt ≠ .a ∧ qt ≠ .aaaa then false
  else dnsrr.rrType == qt

/-- `DefaultStorage.collectDNSRewrites`. -/
def collectDNSRewrites (rewrites : List NetworkRule) (qtyp : RRType) : List DNSRewrite :=
  (rewrites.map (·.dnsRewrite)).filter (matchesQType · qtyp)

/-- The variables of the loop in `resolveCNAMEChain`. -/
structure ChainState where
  cnames : List Bytes
  rewriteRules : List NetworkRule
  host : Bytes

/-- The rules and the wildcard rewrite that `resolveCNAMEChain` returns. -/
abbrev Resolved := Option (List NetworkRule) × Option DNSRewrite

/-- One round of the loop in `resolveCNAMEChain`. -/
def chainRound (engine : Engine) (dReq : DNSRequest) (s : ChainState) : ChainState ⊕ Resolved :=
  match s.rewriteRules with
  | [] => .inr (some [], none)
  | rule :: rest =>
    let rwAns := rule.dnsRewrite.newCNAME
    if rwAns = [] then .inr (some (rule :: rest), none)
    -- A request for the hostname itself is an exception rule.
    else if dReq.hostname = rwAns then .inr (none, none)
    else if isSelfMatchingWildcard s.host rwAns rule.text then .inr (none, some rule.dnsRewrite)
    -- A loop of names.
    else if rwAns ∈ s.cnames then .inr (none, none)
    else
      .inl {
        cnames := rwAns :: s.cnames
        rewriteRules := (engine rwAns dReq.dnsType).getD s.rewriteRules
        host := rwAns }

/-- `DefaultStorage.resolveCNAMEChain`, with fuel for the rounds. -/
def resolveCNAMEChain (engine : Engine) (dReq : DNSRequest) (rewriteRules : List NetworkRule)
    (fuel : Nat) : Option Resolved :=
  run (chainRound engine dReq) fuel ⟨[], rewriteRules, dReq.hostname⟩

/-- What `MatchRequest` makes of a resolved chain. -/
def collectResolved (dReq : DNSRequest) : Resolved → List DNSRewrite
  | (_, some wildcardRewrite) => [wildcardRewrite]
  | (none, none) => []
  | (some resolvedRules, none) => collectDNSRewrites resolvedRules dReq.dnsType

/-- `DefaultStorage.MatchRequest`, with fuel for the rounds; a nil slice is an empty list. -/
def matchRequest (engine : Engine) (dReq : DNSRequest) (fuel : Nat) : Option (List DNSRewrite) :=
  match engine dReq.hostname dReq.dnsType with
  | none | some [] => some []
  | some rewriteRules =>
    (resolveCNAMEChain engine dReq rewriteRules fuel).map (collectResolved dReq)

/-- `MatchRequest` returns these rewrites. -/
def Returns (engine : Engine) (dReq : DNSRequest) (rws : List DNSRewrite) : Prop :=
  ∃ fuel, matchRequest engine dReq fuel = some rws

def target (rule : NetworkRule) : Bytes := rule.dnsRewrite.newCNAME

/-- The CNAME rule that decides on a host: the first of its rules, if that has a new name. -/
def cnameRule (engine : Engine) (qt : RRType) (host : Bytes) : Option NetworkRule :=
  ((engine host qt).bind List.head?).filter (target · ≠ [])

/-- The name that a chain of rules has come to; the last rule is the first of the list. -/
def lastName (host : Bytes) : List NetworkRule → Bytes
  | [] => host
  | rule :: _ => target rule

/-- An acyclic chain of CNAME rules that starts at the requested host. -/
inductive CNAMEChain (engine : Engine) (dReq : DNSRequest) : List NetworkRule → Prop
  | start : CNAMEChain engine dReq []
  | follow {rules : List NetworkRule} {rule : NetworkRule} (chain : CNAMEChain engine dReq rules)
      (decides : cnameRule engine dReq.dnsType (lastName dReq.hostname rules) = some rule)
      (other : target rule ≠ dReq.hostname) (fresh : target rule ∉ rules.map target) :
      CNAMEChain engine dReq (rule :: rules)

def NoRules (engine : Engine) (dReq : DNSRequest) (name : Bytes) : Prop :=
  (engine name dReq.dnsType).getD [] = []

/-- What resolving chains of names comes to: `MatchRequest` returns, and for a chain that ends
it returns the CNAME to a target without rules, and else the rewrites found for the target. -/
structure ResolvesChains (engine : Engine) (dReq : DNSRequest) : Prop where
  terminates : ∃ rws, Returns engine dReq rws
  unresolved : ∀ rule rules, CNAMEChain engine dReq (rule :: rules) →
    NoRules engine dReq (target rule) → Returns engine dReq [rule.dnsRewrite]
  resolved : ∀ rule rules found, CNAMEChain engine dReq (rule :: rules) →
    engine (target rule) dReq.dnsType = some found → found ≠ [] →
    cnameRule engine dReq.dnsType (target rule) = none →
    Returns engine dReq (collectDNSRewrites found dReq.dnsType)

def BoundedChains (engine : Engine) (dReq : DNSRequest) : Prop :=
  ∃ bound, ∀ rules, CNAMEChain engine dReq rules → rules.length ≤ bound

/-- A chain that ends at a name without rules comes there by a wildcard, and the engine has a
nil slice for the name. -/
def EndsAtWildcard (engine : Engine) (dReq : DNSRequest) : Prop :=
  ∀ rule rules, CNAMEChain engine dReq (rule :: rules) → NoRules engine dReq (target rule) →
    engine (target rule) dReq.dnsType = none ∧ isWildcard rule.text = true

section Round

variable {engine : Engine} {dReq : DNSRequest} {rule : NetworkRule} {rest : List NetworkRule}
  {s : ChainState}

theorem cnameRule_eq_some {qt : RRType} {host : Bytes} :
    cnameRule engine qt host = some rule ↔
      ∃ rest, engine host qt = some (rule :: rest) ∧ target rule ≠ [] := by
  simp only [cnameRule, Option.filter_eq_some_iff, Option.bind_eq_some_iff,
    List.head?_eq_some_iff, decide_eq_true_eq]
  constructor
  · rintro ⟨⟨_, found, rest, rfl⟩, named⟩
    exact ⟨rest, found, named⟩
  · intro ⟨rest, found, named⟩
    exact ⟨⟨rule :: rest, found, rest, rfl⟩, named⟩

theorem lastName_mem (host : Bytes) (rules : List NetworkRule) :
    lastName host rules = host ∨ lastName host rules ∈ rules.map target := by
  cases rules with
  | nil => exact Or.inl rfl
  | cons rule rest => exact Or.inr List.mem_cons_self

/-- A round follows a name that was not met before. -/
theorem chainRound_again (first : s.rewriteRules = rule :: rest) (named : target rule ≠ [])
    (other : target rule ≠ dReq.hostname) (moves : s.host ≠ target rule)
    (fresh : target rule ∉ s.cnames) :
    chainRound engine dReq s = .inl ⟨target rule :: s.cnames,
      (engine (target rule) dReq.dnsType).getD s.rewriteRules, target rule⟩ := by
  have notSelf : isSelfMatchingWildcard s.host (target rule) rule.text = false := by
    simp [isSelfMatchingWildcard, moves]
  simp only [target] at *
  simp [chainRound, first, named, Ne.symm other, notSelf, fresh]

/-- A round that meets the name it came with again: only a wildcard is an end of the chain. -/
theorem chainRound_same (first : s.rewriteRules = rule :: rest) (named : target rule ≠ [])
    (other : target rule ≠ dReq.hostname) (same : s.host = target rule)
    (seen : target rule ∈ s.cnames) :
    chainRound engine dReq s =
      .inr (none, if isWildcard rule.text then some rule.dnsRewrite else none) := by
  unfold target at *
  by_cases wildcard : isWildcard rule.text = true
  · simp [chainRound, first, named, Ne.symm other, isSelfMatchingWildcard, same, wildcard]
  · simp [chainRound, first, named, Ne.symm other, isSelfMatchingWildcard, wildcard, seen]

theorem chainRound_plain (plain : ∀ rule ∈ s.rewriteRules.head?, target rule = []) :
    chainRound engine dReq s = .inr (some s.rewriteRules, none) := by
  rw [chainRound]
  rcases rules : s.rewriteRules with _ | ⟨rule, rest⟩
  · rfl
  · have unnamed : rule.dnsRewrite.newCNAME = [] := plain rule (by rw [rules]; rfl)
    exact if_pos unnamed

/-- What a round has seen before it goes on. -/
theorem chainRound_inl {s next : ChainState} (goes : chainRound engine dReq s = .inl next) :
    ∃ rule rest, s.rewriteRules = rule :: rest ∧ target rule ≠ [] ∧
      target rule ≠ dReq.hostname ∧ target rule ∉ s.cnames ∧
      next = ⟨target rule :: s.cnames,
        (engine (target rule) dReq.dnsType).getD s.rewriteRules, target rule⟩ := by
  rw [chainRound] at goes
  rcases rules : s.rewriteRules with _ | ⟨rule, rest⟩
  · rw [rules] at goes
    nomatch goes
  · simp only [rules] at goes
    split at goes
    · nomatch goes
    · rename_i named
      split at goes
      · nomatch goes
      · rename_i other
        split at goes
        · nomatch goes
        · split at goes
          · nomatch goes
          · rename_i fresh
            exact ⟨rule, rest, rfl, named, Ne.symm other, fresh, (Sum.inl.inj goes).symm⟩

end Round

namespace CNAMEChain

variable {engine : Engine} {dReq : DNSRequest}

theorem unique {rules others : List NetworkRule} (chain : CNAMEChain engine dReq rules)
    (other : CNAMEChain engine dReq others) (same : rules.length = others.length) :
    rules = others := by
  induction chain generalizing others with
  | start => exact (List.length_eq_zero_iff.mp same.symm).symm
  | follow _ decides _ _ ih =>
    cases other with
    | start => nomatch same
    | follow before again _ _ =>
      obtain rfl := ih before (Nat.succ.inj same)
      rw [decides] at again
      rw [Option.some.inj again]

theorem goes_on {rules others : List NetworkRule} (chain : CNAMEChain engine dReq rules)
    (other : CNAMEChain engine dReq others) (longer : rules.length < others.length) :
    ∃ rule, CNAMEChain engine dReq (rule :: rules) := by
  induction other with
  | start => nomatch longer
  | @follow before rule earlier decides different fresh ih =>
    by_cases last : rules.length = before.length
    · obtain rfl := chain.unique earlier last
      exact ⟨rule, earlier.follow decides different fresh⟩
    · apply ih
      rw [List.length_cons] at longer
      omega

variable {rules : List NetworkRule}

theorem nodup (chain : CNAMEChain engine dReq rules) :
    (rules.map target).Nodup := by
  induction chain with
  | start => exact List.nodup_nil
  | follow _ _ _ fresh ih => exact List.nodup_cons.mpr ⟨fresh, ih⟩

theorem moves {rule : NetworkRule} (other : target rule ≠ dReq.hostname)
    (fresh : target rule ∉ rules.map target) : lastName dReq.hostname rules ≠ target rule := by
  intro same
  rcases lastName_mem dReq.hostname rules with start | seen
  · exact other (same.symm.trans start)
  · exact fresh (same ▸ seen)

/-- The loop follows the chain: behind it the rules of the last target are there, or, where the
engine has none, still the rules of the name before. -/
theorem ends_iff {rule : NetworkRule} (chain : CNAMEChain engine dReq (rule :: rules))
    {first found : List NetworkRule} (initial : engine dReq.hostname dReq.dnsType = some first)
    (before : engine (lastName dReq.hostname rules) dReq.dnsType = some found)
    (resolved : Resolved) :
    Ends (chainRound engine dReq) ⟨[], first, dReq.hostname⟩ resolved ↔
      Ends (chainRound engine dReq) ⟨(rule :: rules).map target,
        (engine (target rule) dReq.dnsType).getD found, target rule⟩ resolved := by
  generalize whole : rule :: rules = all at chain
  induction chain generalizing rule rules found with
  | start => nomatch whole
  | @follow front last earlier decides other fresh ih =>
    obtain ⟨rfl, rfl⟩ := List.cons.inj whole
    obtain ⟨rest, same, named⟩ := cnameRule_eq_some.mp decides
    obtain rfl := Option.some.inj (before.symm.trans same)
    -- The loop stands at the chain without its last rule, with the rules for its last name.
    have stands : Ends (chainRound engine dReq) ⟨[], first, dReq.hostname⟩ resolved ↔
        Ends (chainRound engine dReq)
          ⟨rules.map target, rule :: rest, lastName dReq.hostname rules⟩ resolved := by
      cases rules with
      | nil =>
        obtain rfl := Option.some.inj (initial.symm.trans before)
        exact Iff.rfl
      | cons previous back =>
        cases earlier with
        | follow _ decided _ _ =>
          obtain ⟨others, there, _⟩ := cnameRule_eq_some.mp decided
          have followed := ih there rfl
          rw [show engine (target previous) dReq.dnsType = some (rule :: rest) from before]
            at followed
          exact followed
    rw [stands]
    exact ends_again (chainRound_again rfl named other (moves other fresh) fresh)

end CNAMEChain

section Results

variable {engine : Engine} {dReq : DNSRequest} {rule : NetworkRule} {rules : List NetworkRule}

/-- For a host with rules `MatchRequest` returns what the loop leaves with. -/
theorem returns_iff {rest : List NetworkRule} {rws : List DNSRewrite}
    (initial : engine dReq.hostname dReq.dnsType = some (rule :: rest)) :
    Returns engine dReq rws ↔
      ∃ resolved, Ends (chainRound engine dReq) ⟨[], rule :: rest, dReq.hostname⟩ resolved ∧
        collectResolved dReq resolved = rws := by
  simp only [Returns, matchRequest, initial, resolveCNAMEChain, Option.map_eq_some_iff]
  constructor
  · intro ⟨fuel, resolved, done, collected⟩
    exact ⟨resolved, ends_iff_run.mpr ⟨fuel, done⟩, collected⟩
  · intro ⟨resolved, ends, collected⟩
    obtain ⟨fuel, done⟩ := ends_iff_run.mp ends
    exact ⟨fuel, resolved, done, collected⟩

theorem returns_iff_of_noRules {rws : List DNSRewrite}
    (nothing : NoRules engine dReq dReq.hostname) : Returns engine dReq rws ↔ rws = [] := by
  have returned : ∀ fuel, matchRequest engine dReq fuel = some [] := by
    intro fuel
    rw [NoRules] at nothing
    rcases initial : engine dReq.hostname dReq.dnsType with _ | rules
    · simp only [matchRequest, initial]
    · rw [initial, Option.getD_some] at nothing
      simp only [matchRequest, initial, nothing]
  simp [Returns, returned, eq_comm]

theorem noRules_or_first (engine : Engine) (dReq : DNSRequest) (name : Bytes) :
    NoRules engine dReq name ∨ ∃ rule rest, engine name dReq.dnsType = some (rule :: rest) := by
  rw [NoRules]
  rcases engine name dReq.dnsType with _ | _ | ⟨rule, rest⟩
  · exact .inl rfl
  · exact .inl rfl
  · exact .inr ⟨rule, rest, rfl⟩

theorem Returns.unique {first second : List DNSRewrite} (one : Returns engine dReq first)
    (other : Returns engine dReq second) : first = second := by
  rcases noRules_or_first engine dReq dReq.hostname with nothing | ⟨rule, rest, initial⟩
  · rw [(returns_iff_of_noRules nothing).mp one, (returns_iff_of_noRules nothing).mp other]
  · obtain ⟨resolved, ends, rfl⟩ := (returns_iff initial).mp one
    obtain ⟨others, again, rfl⟩ := (returns_iff initial).mp other
    rw [ends.unique again]

theorem CNAMEChain.initial (chain : CNAMEChain engine dReq (rule :: rules)) :
    ∃ first rest, engine dReq.hostname dReq.dnsType = some (first :: rest) := by
  generalize whole : rule :: rules = all at chain
  induction chain generalizing rule rules with
  | start => nomatch whole
  | @follow front _ _ decides _ _ ih =>
    cases front with
    | nil =>
      obtain ⟨rest, first, _⟩ := cnameRule_eq_some.mp decides
      exact ⟨_, rest, first⟩
    | cons previous back => exact ih rfl

/-- Where the loop stands: at the end of a chain, with the rules for its last name or, where the
engine has none, still with the last rule in front. -/
structure StandsAt (engine : Engine) (dReq : DNSRequest) (s : ChainState)
    (rules : List NetworkRule) : Prop where
  chain : CNAMEChain engine dReq rules
  cnames : s.cnames = rules.map target
  host : s.host = lastName dReq.hostname rules
  rewriteRules : engine s.host dReq.dnsType = some s.rewriteRules ∨
    engine s.host dReq.dnsType = none ∧
      ∃ rule rest, s.rewriteRules = rule :: rest ∧ target rule ∈ s.cnames

theorem StandsAt.next {s next : ChainState} (stands : StandsAt engine dReq s rules)
    (goes : chainRound engine dReq s = .inl next) :
    ∃ rule, StandsAt engine dReq next (rule :: rules) := by
  obtain ⟨rule, rest, first, named, other, fresh, rfl⟩ := chainRound_inl goes
  rcases stands.rewriteRules with found | ⟨_, stuck, others, same, seen⟩
  · have decides : cnameRule engine dReq.dnsType (lastName dReq.hostname rules) = some rule := by
      rw [cnameRule_eq_some, ← stands.host, found, first]
      exact ⟨rest, rfl, named⟩
    refine ⟨rule, stands.chain.follow decides other (stands.cnames ▸ fresh), ?_, rfl, ?_⟩
    · rw [stands.cnames, List.map_cons]
    · by_cases absent : engine (target rule) dReq.dnsType = none
      · right
        rw [absent]
        exact ⟨rfl, rule, rest, first, List.mem_cons_self⟩
      · left
        obtain ⟨found, present⟩ := Option.ne_none_iff_exists'.mp absent
        rw [present, Option.getD_some]
  · obtain rfl := (List.cons.inj (first.symm.trans same)).1
    exact absurd seen fresh

theorem StandsAt.initial {found : List NetworkRule}
    (initial : engine dReq.hostname dReq.dnsType = some found) :
    StandsAt engine dReq ⟨[], found, dReq.hostname⟩ [] :=
  ⟨.start, rfl, rfl, .inl initial⟩

/-- The loop comes to a state by its rounds. -/
def Comes (engine : Engine) (dReq : DNSRequest) (s : ChainState) : Prop :=
  ∃ found, engine dReq.hostname dReq.dnsType = some found ∧
    Relation.ReflTransGen (fun s next => chainRound engine dReq s = .inl next)
      ⟨[], found, dReq.hostname⟩ s

theorem Comes.stands {s : ChainState} (comes : Comes engine dReq s) :
    ∃ rules, StandsAt engine dReq s rules := by
  obtain ⟨found, initial, rounds⟩ := comes
  induction rounds with
  | refl => exact ⟨[], .initial initial⟩
  | tail _ goes ih =>
    obtain ⟨rules, stands⟩ := ih
    obtain ⟨rule, later⟩ := stands.next goes
    exact ⟨_, later⟩

theorem BoundedChains.returns (bounded : BoundedChains engine dReq) :
    ∃ rws, Returns engine dReq rws := by
  obtain ⟨bound, limit⟩ := bounded
  rcases noRules_or_first engine dReq dReq.hostname with nothing | ⟨rule, rest, initial⟩
  · exact ⟨[], (returns_iff_of_noRules nothing).mpr rfl⟩
  · obtain ⟨resolved, ends⟩ := ends_of_measure (fun s : ChainState => bound - s.cnames.length)
      (fun s => ∃ rules, StandsAt engine dReq s rules) (by
        intro s next ⟨rules, stands⟩ goes
        obtain ⟨rule, later⟩ := stands.next goes
        refine ⟨⟨_, later⟩, ?_⟩
        have longest := limit _ later.chain
        rw [later.cnames, stands.cnames, List.length_map, List.length_map, List.length_cons] at *
        omega)
      ⟨[], StandsAt.initial initial⟩
    exact ⟨_, (returns_iff initial).mpr ⟨resolved, ends, rfl⟩⟩

theorem StandsAt.bounded {s : ChainState} {resolved : Resolved}
    (ends : Ends (chainRound engine dReq) s resolved)
    (stands : StandsAt engine dReq s rules) : BoundedChains engine dReq := by
  induction ends generalizing rules with
  | leave left =>
    refine ⟨rules.length, fun others other => ?_⟩
    by_contra longer
    obtain ⟨rule, goesOn⟩ := stands.chain.goes_on other (Nat.not_le.mp longer)
    cases goesOn with
    | follow _ decides other fresh =>
      obtain ⟨rest, found, named⟩ := cnameRule_eq_some.mp decides
      rw [← stands.host] at found
      rcases stands.rewriteRules with here | ⟨absent, _⟩
      · have goes : chainRound engine dReq _ = _ := chainRound_again
          (Option.some.inj (here.symm.trans found)) named other
          (stands.host ▸ CNAMEChain.moves other fresh) (stands.cnames ▸ fresh)
        nomatch left.symm.trans goes
      · nomatch found.symm.trans absent
  | again goes _ ih =>
    obtain ⟨rule, later⟩ := stands.next goes
    exact ih later

theorem returns_iff_bounded :
    (∃ rws, Returns engine dReq rws) ↔ BoundedChains engine dReq := by
  constructor
  · intro ⟨rws, returned⟩
    by_cases named : ∃ rule rules, CNAMEChain engine dReq (rule :: rules)
    · obtain ⟨rule, rules, chain⟩ := named
      obtain ⟨first, rest, initial⟩ := chain.initial
      obtain ⟨resolved, ends, _⟩ := (returns_iff initial).mp returned
      exact (StandsAt.initial initial).bounded ends
    · refine ⟨0, fun rules chain => ?_⟩
      cases rules with
      | nil => exact Nat.le_refl 0
      | cons rule rules => exact absurd ⟨rule, rules, chain⟩ named
  · exact BoundedChains.returns

/-- With a finite number of targets, as rules of a list have, `MatchRequest` returns; the loop
comes to no target twice. -/
theorem returns_of_finite (targets : Finset Bytes)
    (finite : ∀ host rule, cnameRule engine dReq.dnsType host = some rule →
      target rule ∈ targets) :
    (∃ rws, Returns engine dReq rws) ∧
      ∀ s, Comes engine dReq s → s.cnames.Nodup ∧ s.cnames.length ≤ targets.card := by
  have few : ∀ rules, CNAMEChain engine dReq rules → rules.length ≤ targets.card := by
    intro rules chain
    have among : ∀ name ∈ rules.map target, name ∈ targets := by
      induction chain with
      | start => simp
      | follow _ decides _ _ ih =>
        intro name member
        rcases List.mem_cons.mp member with rfl | earlier
        · exact finite _ _ decides
        · exact ih name earlier
    rw [← List.length_map (f := target), ← List.toFinset_card_of_nodup chain.nodup]
    exact Finset.card_le_card fun name member => among name (List.mem_toFinset.mp member)
  refine ⟨BoundedChains.returns ⟨_, few⟩, ?_⟩
  intro s comes
  obtain ⟨rules, stands⟩ := comes.stands
  rw [stands.cnames, List.length_map]
  exact ⟨stands.chain.nodup, few rules stands.chain⟩

/-- Two rules whose targets lead to each other. -/
theorem returns_of_finite_loop :
    ∃ rws, Returns (fun host _ => some [⟨[], 1, ⟨if host = lit "a.com" then lit "c.com" else
      lit "a.com", 0, 0, .nil⟩⟩]) ⟨lit "b.com", .a⟩ rws :=
  (returns_of_finite {lit "a.com", lit "c.com"} fun host _ decides => by
    obtain rfl := Option.some.inj (Option.filter_eq_some_iff.mp decides).1
    show (if host = lit "a.com" then lit "c.com" else lit "a.com") ∈ _
    split <;> decide).1

/-- What `MatchRequest` returns for a chain that ends at a name without rules. -/
theorem CNAMEChain.returns_unresolved (chain : CNAMEChain engine dReq (rule :: rules))
    (last : NoRules engine dReq (target rule)) :
    Returns engine dReq
      (if engine (target rule) dReq.dnsType = none ∧ isWildcard rule.text = true
        then [rule.dnsRewrite] else []) := by
  obtain ⟨first, rest, initial⟩ := chain.initial
  cases chain with
  | follow earlier decides other fresh =>
    obtain ⟨others, before, named⟩ := cnameRule_eq_some.mp decides
    have follows := (earlier.follow decides other fresh).ends_iff initial before
    by_cases absent : engine (target rule) dReq.dnsType = none
    · -- The rule that led to the target is still there.
      rw [absent, Option.getD_none] at follows
      have left : chainRound engine dReq _ = _ := chainRound_same
        (s := ⟨(rule :: rules).map target, rule :: others, target rule⟩) rfl named other rfl
        List.mem_cons_self
      refine (returns_iff initial).mpr ⟨_, (follows _).mpr (.leave left), ?_⟩
      by_cases wildcard : isWildcard rule.text = true
      · simp [wildcard, absent, collectResolved]
      · simp [wildcard, collectResolved]
    · have empty : (engine (target rule) dReq.dnsType).getD (rule :: others) = [] := by
        obtain ⟨found, present⟩ := Option.ne_none_iff_exists'.mp absent
        rw [NoRules, present, Option.getD_some] at last
        rw [present, Option.getD_some, last]
      rw [empty] at follows
      have left : chainRound engine dReq _ = _ := chainRound_plain
        (s := ⟨(rule :: rules).map target, [], target rule⟩) (by simp)
      refine (returns_iff initial).mpr ⟨_, (follows _).mpr (.leave left), ?_⟩
      rw [if_neg fun both => absent both.1]
      rfl

/-- What `MatchRequest` returns for a chain that ends at a name whose first rule has no new
name. -/
theorem CNAMEChain.returns_resolved {rules found : List NetworkRule}
    (chain : CNAMEChain engine dReq (rule :: rules))
    (last : engine (target rule) dReq.dnsType = some found) (some : found ≠ [])
    (ends : cnameRule engine dReq.dnsType (target rule) = none) :
    Returns engine dReq (collectDNSRewrites found dReq.dnsType) := by
  obtain ⟨first, rest, initial⟩ := chain.initial
  obtain ⟨final, others, rfl⟩ := List.exists_cons_of_ne_nil some
  have unnamed : target final = [] := by
    by_contra named
    have decides := cnameRule_eq_some.mpr ⟨others, last, named⟩
    nomatch ends.symm.trans decides
  cases chain with
  | follow earlier decides other fresh =>
    obtain ⟨_, before, _⟩ := cnameRule_eq_some.mp decides
    refine (returns_iff initial).mpr ⟨(Option.some (final :: others), none), ?_, rfl⟩
    apply ((earlier.follow decides other fresh).ends_iff initial before _).mpr
    rw [last, Option.getD_some]
    exact .leave (chainRound_plain (by simpa using unnamed))

/-- Chains of names are resolved exactly where they do not go on for ever and a chain that ends
at a name without rules comes there by a wildcard. -/
theorem resolvesChains_iff (engine : Engine) (dReq : DNSRequest) :
    ResolvesChains engine dReq ↔ BoundedChains engine dReq ∧ EndsAtWildcard engine dReq := by
  constructor
  · intro resolves
    refine ⟨returns_iff_bounded.mp resolves.terminates, ?_⟩
    intro rule rules chain last
    have expected := resolves.unresolved rule rules chain last
    have returned := chain.returns_unresolved last
    by_contra other
    rw [if_neg other] at returned
    nomatch expected.unique returned
  · intro ⟨bounded, wildcards⟩
    refine ⟨returns_iff_bounded.mpr bounded, ?_, ?_⟩
    · intro rule rules chain last
      have returned := chain.returns_unresolved last
      rwa [if_pos (wildcards rule rules chain last)] at returned
    · intro rule rules found chain last some ends
      exact chain.returns_resolved last some ends

end Results

section Examples

private def toHost : NetworkRule :=
  ⟨lit "|www.host.com^$dnsrewrite=NOERROR;CNAME;host.com", 1, ⟨lit "host.com", 0, 0, .nil⟩⟩

private def oneRule : Engine := fun host _ =>
  if host = lit "www.host.com" then some [toHost] else none

/-- The rewrite of `www.host.com` to `host.com`, which has no rules, is taken for a loop. -/
theorem last_target_is_taken_for_a_loop :
    ¬ ∀ (engine : Engine) (dReq : DNSRequest), ResolvesChains engine dReq := by
  intro always
  have resolves := always oneRule ⟨lit "www.host.com", .a⟩
  have chain : CNAMEChain oneRule ⟨lit "www.host.com", .a⟩ [toHost] :=
    .follow .start (by decide) (by decide) (by simp)
  have expected := resolves.unresolved toHost [] chain (by unfold NoRules; decide)
  have returned : Returns oneRule ⟨lit "www.host.com", .a⟩ [] := ⟨2, by decide⟩
  nomatch expected.unique returned

end Examples

end AdGuardHome.Rewrite
