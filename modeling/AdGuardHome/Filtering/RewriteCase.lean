import AdGuardHome.Filtering.RewriteVariants

namespace AdGuardHome.Filtering

open Looping Netip Sorting Strings

/-- The rewrite step of `CheckHost`, with fuel for the rounds of the loop. -/
def checkHostRewrites (funcs : NameFuncs) (sortFunc : SortFunc LegacyRewrite)
    (conf : RewriteConf) (filteringEnabled : Bool) (host : Bytes) (qtype : RRType) (fuel : Nat) :
    Option Result :=
  if host = [] then some (.ofReason .notFilteredNotFound)
  else
    let host := funcs.toLower host
    if filteringEnabled then processRewrites sortFunc conf host qtype fuel
    else some (.ofReason .notFilteredNotFound)

/-- The same reason, set of addresses and, up to the letter case, canonical name. -/
structure SameUpToCase (funcs : NameFuncs) (res other : Result) : Prop where
  reason : res.reason = other.reason
  addresses : ∀ ip, ip ∈ res.ipList ↔ ip ∈ other.ipList
  canonName : funcs.toLower res.canonName = funcs.toLower other.canonName

/-- A configuration with its switches, as it is read, and a question. -/
structure RewriteQuestion where
  rewrites : List LegacyRewrite
  rewritesEnabled : Bool
  filteringEnabled : Bool
  host : Bytes
  qtype : RRType

section

variable (funcs : NameFuncs) (sort : ParametricSort LegacyRewrite)

/-- The question is answered with the result by the prepared configuration. -/
def RewriteQuestion.Gives (question : RewriteQuestion) (res : Result) : Prop :=
  ∃ prepared,
    prepareRewrites funcs.toLower funcs.parseAddr funcs.validDomainName question.rewrites =
      some prepared ∧
    ∃ fuel, checkHostRewrites funcs sort.toSortFunc ⟨prepared, question.rewritesEnabled⟩
      question.filteringEnabled question.host question.qtype fuel = some res

/-- The letter case of the entries and of the host does not change the result. -/
def CaseInsensitive (question : RewriteQuestion) : Prop :=
  ∀ rewrites host, List.Forall₂ (CaseVariant funcs) question.rewrites rewrites →
    funcs.toLower host = funcs.toLower question.host → (host = [] ↔ question.host = []) →
    ∀ res other, question.Gives funcs sort res →
      { question with rewrites, host }.Gives funcs sort other → SameUpToCase funcs res other

/-- The entries found for a spelling of a name give it no address and no other name. -/
def Quiet (entries : List LegacyRewrite) (qtype : RRType) (name spelling : Bytes) : Prop :=
  ∀ e ∈ (findRewrites sort.toSortFunc entries spelling qtype).1,
    if e.type = .cname then
      funcs.toLower e.answer = funcs.toLower name ∧ ¬ funcs.Spells name e.domain
    else e.type ≠ qtype

/-- Where the host has a CNAME, no spelling of its answer is the host or the pattern itself,
and none has an address or another name. -/
def EndsAtName (entries : List LegacyRewrite) (host : Bytes) (qtype : RRType) : Prop :=
  ∀ rw, cnameRewrite sort.toSortFunc entries qtype host = some rw →
    ∀ spelling, funcs.Spells rw.answer spelling →
      host ≠ spelling ∧ rw.domain ≠ spelling ∧ Quiet funcs sort entries qtype rw.answer spelling

end

def Unmatched (entries : List LegacyRewrite) (name : Bytes) : Prop :=
  ∀ e ∈ entries, e.matchesHost name = false ∧ e.domain ≠ name

/-- Each CNAME answer has a spelling that no pattern is or matches. -/
def Respellable (funcs : NameFuncs) (entries : List LegacyRewrite) : Prop :=
  ∀ rw ∈ entries, rw.type = .cname → ∃ spelling,
    funcs.Spells rw.answer spelling ∧ Unmatched entries spelling

section Runs

variable {funcs : NameFuncs} {sort : ParametricSort LegacyRewrite}
variable {entries others : List LegacyRewrite} {host : Bytes} {qtype : RRType}

/-- Without a CNAME the addresses of the host are the result. -/
theorem rewrites_of_plain {sortFunc : SortFunc LegacyRewrite} {conf : RewriteConf} {res : Result}
    (absent : cnameRewrite sortFunc conf.rewrites qtype host = none)
    (returned : Rewrites sortFunc conf host qtype res) :
    res = if conf.rewritesEnabled = true ∧ (findRewrites sortFunc conf.rewrites host qtype).2 = true
      then setRewriteResult qtype (.ofReason .rewritten)
        (findRewrites sortFunc conf.rewrites host qtype).1
      else .ofReason .notFilteredNotFound := by
  split
  next active =>
    have ends := (rewrites_iff active.1 active.2).mp returned
    have left := rewriteRound_plain host (RewriteState.initial_found sortFunc _ host qtype) absent
    exact ends.unique (.leave left)
  next inactive =>
    apply rewrites_of_unmatched _ returned
    simpa only [not_and_or, Bool.not_eq_true] using inactive

structure OnlyName (funcs : NameFuncs) (name : Bytes) (res : Result) : Prop where
  reason : res.reason = .rewritten
  addresses : res.ipList = []
  canonName : funcs.toLower res.canonName = funcs.toLower name

theorem OnlyName.sameUpToCase {name : Bytes} {res other : Result} (one : OnlyName funcs name res)
    (second : OnlyName funcs name other) : SameUpToCase funcs res other where
  reason := one.reason.trans second.reason.symm
  addresses := by simp [one.addresses, second.addresses]
  canonName := one.canonName.trans second.canonName.symm

/-- What the loop keeps once it stands at a spelling of a name. -/
structure Settled (funcs : NameFuncs) (sortFunc : SortFunc LegacyRewrite)
    (entries : List LegacyRewrite) (qtype : RRType) (name : Bytes) (s : RewriteState) : Prop where
  found : (s.rewrites, s.matched) = findRewrites sortFunc entries s.host qtype
  host : funcs.Spells name s.host
  res : s.res = { Result.ofReason .rewritten with canonName := s.host }

theorem Quiet.addresses {name spelling : Bytes}
    (quiet : Quiet funcs sort entries qtype name spelling) :
    addresses qtype (findRewrites sort.toSortFunc entries spelling qtype).1 = [] := by
  rw [Filtering.addresses, List.map_eq_nil_iff, List.filter_eq_nil_iff]
  intro e member asked
  obtain ⟨same, address⟩ := of_decide_eq_true asked
  have silent := quiet e member
  split at silent
  next isName =>
    rw [← same, isName] at address
    revert address
    decide
  next => exact silent same

variable {rw : LegacyRewrite}

/-- In another letter case a host has the same CNAME, with a spelling of its answer. -/
theorem respelled_cname (named : Named funcs entries)
    (respelled : List.Forall₂ (Respelled funcs) entries others)
    (first : cnameRewrite sort.toSortFunc entries qtype host = some rw) :
    ∃ other, cnameRewrite sort.toSortFunc others qtype host = some other ∧
      other.domain = rw.domain ∧ funcs.Spells rw.answer other.answer := by
  have related := cnameRewrite_related sort respelled_sameButAnswer
    respelled host qtype
  rw [first] at related
  generalize cnameRewrite sort.toSortFunc others qtype host = found at related
  cases related with
  | @some _ other same =>
    obtain ⟨member, isName⟩ := matching_of_cnameRewrite first
    refine ⟨other, rfl, same.domain, ?_⟩
    rcases same.answer with unchanged | ⟨_, spells⟩
    · rw [unchanged]
      exact ⟨named rw (of_mem_matching member).1 isName, rfl⟩
    · exact spells

/-- In any letter case the CNAME found for a spelling of a quiet name spells it again. -/
theorem Quiet.cname {name spelling : Bytes} (named : Named funcs entries)
    (respelled : List.Forall₂ (Respelled funcs) entries others)
    (quiet : Quiet funcs sort entries qtype name spelling)
    (first : cnameRewrite sort.toSortFunc others qtype spelling = some rw) :
    funcs.Spells name rw.answer ∧ ¬ funcs.Spells name rw.domain := by
  obtain ⟨e, found⟩ : ∃ e, cnameRewrite sort.toSortFunc entries qtype spelling = some e := by
    have related := cnameRewrite_related sort respelled_sameButAnswer
      respelled spelling qtype
    rw [first] at related
    generalize cnameRewrite sort.toSortFunc entries qtype spelling = original at related
    cases related with
    | some _ => exact ⟨_, rfl⟩
  obtain ⟨other, again, domain, spells⟩ := respelled_cname named respelled found
  obtain rfl := Option.some.inj (first.symm.trans again)
  obtain ⟨⟨rest, listed⟩, isName⟩ := cnameRewrite_eq_some.mp found
  have silent := quiet e (listed ▸ List.mem_cons_self)
  rw [if_pos isName] at silent
  rw [domain]
  exact ⟨⟨spells.isName, spells.same.trans silent.1⟩, silent.2⟩

section Settled

variable {name origHost : Bytes} {s : RewriteState}

/-- A round that goes on goes to another spelling of the name. -/
theorem Settled.next (named : Named funcs entries)
    (respelled : List.Forall₂ (Respelled funcs) entries others)
    (quiet : ∀ spelling, funcs.Spells name spelling →
      Quiet funcs sort entries qtype name spelling)
    (settled : Settled funcs sort.toSortFunc others qtype name s) {next : RewriteState}
    (goes : RoundResult sort.toSortFunc others origHost qtype s (.inl next)) :
    Settled funcs sort.toSortFunc others qtype name next := by
  cases goes with
  | goesOn hop other fresh =>
    obtain ⟨rw, first, _, rfl⟩ := hop
    have spells := ((quiet _ settled.host).cname named respelled first).1
    exact ⟨rfl, spells, by rw [RewriteState.hop, settled.res]⟩

/-- A round that leaves does so with the name and nothing else. -/
theorem Settled.leaves (named : Named funcs entries)
    (respelled : List.Forall₂ (Respelled funcs) entries others)
    (other : ¬ funcs.Spells name origHost)
    (quiet : ∀ spelling, funcs.Spells name spelling →
      Quiet funcs sort entries qtype name spelling)
    (settled : Settled funcs sort.toSortFunc others qtype name s) {res : Result}
    (left : RoundResult sort.toSortFunc others origHost qtype s (.inr res)) :
    OnlyName funcs name res := by
  have here : OnlyName funcs name s.res := by
    rw [settled.res]
    exact ⟨rfl, rfl, settled.host.same⟩
  cases left with
  | plain absent =>
    have related := findRewrites_related sort respelled_sameButAnswer
      respelled s.host qtype
    have nothing := (quiet _ settled.host).addresses
    have rewrites : s.rewrites = (findRewrites sort.toSortFunc others s.host qtype).1 :=
      congrArg Prod.fst settled.found
    rw [rewrites, ← setRewriteResult_related respelled_sameButAnswer related.1,
      setRewriteResult_of_plain _ (by simp [HasException, nothing]), nothing, List.append_nil]
    exact here
  | exception first self =>
    obtain ⟨spells, different⟩ := (quiet _ settled.host).cname named respelled first
    rcases self with same | same
    · exact absurd (same ▸ spells) other
    · exact absurd (same ▸ spells) different
  | wildcard first wild other hop => exact ⟨here.reason, here.addresses, settled.host.same⟩
  | seen hop other member => exact here

end Settled

/-- A host whose CNAME ends at its name is answered with that name in any letter case. -/
theorem EndsAtName.onlyName (ends : EndsAtName funcs sort entries host qtype)
    (named : Named funcs entries) (respelled : List.Forall₂ (Respelled funcs) entries others)
    (first : cnameRewrite sort.toSortFunc entries qtype host = some rw)
    {res : Result} (returned : Rewrites sort.toSortFunc ⟨others, true⟩ host qtype res) :
    OnlyName funcs rw.answer res := by
  obtain ⟨other, found, domain, spells⟩ := respelled_cname named respelled first
  obtain ⟨⟨rest, listed⟩, _⟩ := cnameRewrite_eq_some.mp found
  have matched := findRewrites_matched listed
  have loop := (rewrites_iff rfl matched).mp returned
  have start := rewriteRound_result host _ (RewriteState.initial_found sort.toSortFunc others host qtype)
  generalize goes : rewriteRound sort.toSortFunc others host qtype _ = outcome at start
  have notHost : ¬ funcs.Spells rw.answer host := fun same => (ends rw first host same).1 rfl
  have quiet : ∀ spelling, funcs.Spells rw.answer spelling →
      Quiet funcs sort entries qtype rw.answer spelling := fun spelling same =>
    (ends rw first spelling same).2.2
  cases start with
  | plain absent => nomatch absent.symm.trans found
  | exception again self =>
    obtain rfl := Option.some.inj (found.symm.trans again)
    rcases self with same | same
    · exact absurd (same ▸ spells) notHost
    · exact absurd (domain.symm.trans same) (ends rw first _ spells).2.1
  | wildcard _ _ different _ => exact absurd rfl different
  | seen _ _ member => nomatch member
  | goesOn hop _ _ =>
    obtain ⟨again, same, _, rfl⟩ := hop
    obtain rfl := Option.some.inj (found.symm.trans same)
    have settled : Settled funcs sort.toSortFunc others qtype rw.answer
        ((RewriteState.initial sort.toSortFunc others host qtype).hop sort.toSortFunc others qtype
          other.answer) := ⟨rfl, spells, rfl⟩
    apply ((ends_again goes).mp loop).post
      (Settled funcs sort.toSortFunc others qtype rw.answer) _ settled
    · intro s next now again
      have round := rewriteRound_result host s now.found
      exact now.next named respelled quiet (again ▸ round)
    · intro s res now left
      have round := rewriteRound_result host s now.found
      exact now.leaves named respelled notHost quiet (left ▸ round)

end Runs

section Questions

variable {funcs : NameFuncs} {sort : ParametricSort LegacyRewrite}

theorem SameUpToCase.refl (res : Result) : SameUpToCase funcs res res :=
  ⟨rfl, fun _ => Iff.rfl, rfl⟩

theorem forall₂_respelled_refl (entries : List LegacyRewrite) :
    List.Forall₂ (Respelled funcs) entries entries :=
  List.forall₂_same.mpr fun _ _ => ⟨⟨rfl, rfl, rfl, rfl⟩, .inl rfl⟩

def RewriteQuestion.Active (question : RewriteQuestion) : Prop :=
  question.host ≠ [] ∧ question.filteringEnabled = true ∧ question.rewritesEnabled = true

variable {question : RewriteQuestion}

theorem RewriteQuestion.gives_of_active (active : question.Active)
    {res : Result} : question.Gives funcs sort res ↔
      ∃ prepared, prepareRewrites funcs.toLower funcs.parseAddr funcs.validDomainName
          question.rewrites = some prepared ∧
        Rewrites sort.toSortFunc ⟨prepared, true⟩ (funcs.toLower question.host) question.qtype
          res := by
  obtain ⟨nonempty, filtering, rewriting⟩ := active
  simp [RewriteQuestion.Gives, checkHostRewrites, Rewrites, nonempty, filtering, rewriting]

theorem RewriteQuestion.gives_of_inactive (inactive : ¬ question.Active) {res : Result}
    (gives : question.Gives funcs sort res) :
    res = .ofReason .notFilteredNotFound := by
  obtain ⟨prepared, _, fuel, done⟩ := gives
  simp only [checkHostRewrites] at done
  split at done
  next => exact (Option.some.inj done).symm
  next nonempty =>
    split at done
    next filtering =>
      have disabled : question.rewritesEnabled = false := by
        rw [← Bool.not_eq_true]
        exact fun rewriting => inactive ⟨nonempty, filtering, rewriting⟩
      exact rewrites_of_unmatched (.inl disabled) ⟨fuel, done⟩
    next => exact (Option.some.inj done).symm

/-- The question is not asked of the rewrites, has no CNAME, or ends at its name however that
is spelled. -/
def EndsInAnyCase (funcs : NameFuncs) (sort : ParametricSort LegacyRewrite)
    (question : RewriteQuestion) : Prop :=
  question.Active → ∀ prepared,
    prepareRewrites funcs.toLower funcs.parseAddr funcs.validDomainName question.rewrites =
      some prepared →
    EndsAtName funcs sort prepared (funcs.toLower question.host) question.qtype

theorem EndsInAnyCase.caseInsensitive
    (ends : EndsInAnyCase funcs sort question) : CaseInsensitive funcs sort question := by
  intro rewrites host variants letters emptiness res other gives again
  have switches : RewriteQuestion.Active { question with rewrites, host } ↔ question.Active := by
    simp [RewriteQuestion.Active, emptiness]
  by_cases active : question.Active
  · obtain ⟨prepared, done, returned⟩ := (RewriteQuestion.gives_of_active active).mp gives
    obtain ⟨found, doneAgain, returnedAgain⟩ :=
      (RewriteQuestion.gives_of_active (switches.mpr active)).mp again
    have respelled := prepareRewrites_respelled variants done doneAgain
    have named := prepareRewrites_named done
    simp only [letters] at returnedAgain
    rcases first : cnameRewrite sort.toSortFunc prepared question.qtype
        (funcs.toLower question.host) with _ | rw
    · have related := findRewrites_related sort respelled_sameButAnswer respelled
        (funcs.toLower question.host) question.qtype
      have absent := cnameRewrite_related sort respelled_sameButAnswer respelled
        (funcs.toLower question.host) question.qtype
      rw [first] at absent
      generalize second : cnameRewrite sort.toSortFunc found question.qtype
        (funcs.toLower question.host) = original at absent
      cases absent
      rw [rewrites_of_plain first returned, rewrites_of_plain second returnedAgain, related.2,
        setRewriteResult_related respelled_sameButAnswer related.1]
      exact .refl _
    · have quiet := ends active prepared done
      exact (quiet.onlyName named (forall₂_respelled_refl prepared) first returned).sameUpToCase
        (quiet.onlyName named respelled first returnedAgain)
  · rw [RewriteQuestion.gives_of_inactive active gives,
      RewriteQuestion.gives_of_inactive (fun both => active (switches.mp both)) again]
    exact .refl _

end Questions

def respell (spell : LegacyRewrite → Bytes) (e : LegacyRewrite) : LegacyRewrite :=
  if e.type = .cname then { e with answer := spell e } else e

section Respelling

variable {funcs : NameFuncs} {sort : ParametricSort LegacyRewrite}
variable {entries : List LegacyRewrite} {host : Bytes} {qtype : RRType}
variable {spell : LegacyRewrite → Bytes}

theorem respell_sameButAnswer (e other : LegacyRewrite) (same : other = respell spell e) :
    SameButAnswer e other := by
  rw [same, respell]
  split
  · exact ⟨rfl, rfl, rfl, rfl⟩
  · exact ⟨rfl, rfl, rfl, rfl⟩

theorem forall₂_respell (spell : LegacyRewrite → Bytes) (entries : List LegacyRewrite) :
    List.Forall₂ (fun e other => other = respell spell e) entries
      (entries.map (respell spell)) := by
  rw [List.forall₂_map_right_iff]
  exact List.forall₂_same.mpr fun _ _ => rfl

theorem findRewrites_respell (sort : ParametricSort LegacyRewrite)
    (spell : LegacyRewrite → Bytes) (entries : List LegacyRewrite) (host : Bytes)
    (qtype : RRType) :
    (findRewrites sort.toSortFunc (entries.map (respell spell)) host qtype).1 =
      (findRewrites sort.toSortFunc entries host qtype).1.map (respell spell) := by
  have related := (findRewrites_related sort respell_sameButAnswer
    (forall₂_respell spell entries) host qtype).1
  generalize (findRewrites sort.toSortFunc entries host qtype).1 = found at related ⊢
  generalize (findRewrites sort.toSortFunc _ host qtype).1 = others at related ⊢
  induction related with
  | nil => rfl
  | cons head _ ih => rw [head, ih, List.map_cons]

theorem cnameRewrite_respell {rw : LegacyRewrite}
    (first : cnameRewrite sort.toSortFunc entries qtype host = some rw) :
    cnameRewrite sort.toSortFunc (entries.map (respell spell)) qtype host =
      some { rw with answer := spell rw } := by
  obtain ⟨⟨rest, found⟩, isName⟩ := cnameRewrite_eq_some.mp first
  rw [cnameRewrite_eq_some, findRewrites_respell, found]
  exact ⟨⟨rest.map (respell spell), by rw [List.map_cons, respell, if_pos isName]⟩, isName⟩

theorem cnameRewrite_respell_none
    (absent : cnameRewrite sort.toSortFunc entries qtype host = none) :
    cnameRewrite sort.toSortFunc (entries.map (respell spell)) qtype host = none := by
  have related := cnameRewrite_related sort respell_sameButAnswer
    (forall₂_respell spell entries) host qtype
  rw [absent] at related
  generalize cnameRewrite sort.toSortFunc _ qtype host = found at related ⊢
  cases related
  rfl

theorem Unmatched.findRewrites {name : Bytes} (unmatched : Unmatched entries name)
    (sortFunc : SortFunc LegacyRewrite) (qtype : RRType) :
    (findRewrites sortFunc entries name qtype).1 = [] := by
  apply List.eq_nil_iff_forall_not_mem.mpr
  intro e member
  obtain ⟨among, matched⟩ := of_mem_matching (mem_of_mem_findRewrites member)
  rw [(unmatched e among).1] at matched
  cases matched

def Spelling (funcs : NameFuncs) (entries : List LegacyRewrite)
    (spell : LegacyRewrite → Bytes) : Prop :=
  ∀ e ∈ entries, e.type = .cname → funcs.Spells e.answer (spell e)

/-- Any spelling of the answers is that of a variant of the configuration. -/
theorem exists_variant {raws : List LegacyRewrite}
    (done : prepareRewrites funcs.toLower funcs.parseAddr funcs.validDomainName raws =
      some entries) (spells : Spelling funcs entries spell) :
    ∃ others, List.Forall₂ (CaseVariant funcs) raws others ∧
      prepareRewrites funcs.toLower funcs.parseAddr funcs.validDomainName others =
        some (entries.map (respell spell)) := by
  simp only [prepareRewrites_eq_some] at done ⊢
  induction done with
  | nil => exact ⟨[], .nil, .nil⟩
  | @cons raw e rest prepared normal _ ih =>
    obtain ⟨others, variants, prepares⟩ := ih fun e member =>
      spells e (List.mem_cons_of_mem _ member)
    obtain ⟨resolved, shape⟩ := normalize_some_iff.mp normal
    by_cases isName : e.type = .cname
    · have spelling := spells e List.mem_cons_self isName
      have answer : e.answer = raw.answer := by rw [shape]
      rw [isName] at resolved
      have ip : raw.ip = e.ip := by
        have again := (isName_of_resolveAnswer resolved).resolveAnswer raw.ip
        exact (Prod.mk.inj (Option.some.inj (again.symm.trans resolved))).1
      refine ⟨{ raw with answer := spell e } :: others, .cons ?_ variants, .cons ?_ prepares⟩
      · exact ⟨rfl, .inr ⟨isName_of_resolveAnswer resolved, answer ▸ spelling⟩, rfl, rfl, rfl⟩
      · rw [normalize_some_iff, respell, if_pos isName, isName, ← ip]
        refine ⟨spelling.isName.resolveAnswer _, ?_⟩
        rw [shape]
    · refine ⟨raw :: others, .cons ⟨rfl, .inl rfl, rfl, rfl, rfl⟩ variants, .cons ?_ prepares⟩
      rwa [respell, if_neg isName]

section Converse

variable {question : RewriteQuestion}

/-- Where the letter case does not matter, all spellings of the answers give what the one gives
that no pattern matches. -/
theorem CaseInsensitive.onlyName (insensitive : CaseInsensitive funcs sort question)
    (active : question.Active)
    (done : prepareRewrites funcs.toLower funcs.parseAddr funcs.validDomainName
      question.rewrites = some entries) {rw : LegacyRewrite}
    (first : cnameRewrite sort.toSortFunc entries question.qtype (funcs.toLower question.host) =
      some rw)
    {unmatched : LegacyRewrite → Bytes} (silent : ∀ e ∈ entries, e.type = .cname →
      funcs.Spells e.answer (unmatched e) ∧ Unmatched entries (unmatched e))
    (spells : Spelling funcs entries spell) {res : Result}
    (returned : Rewrites sort.toSortFunc ⟨entries.map (respell spell), true⟩
      (funcs.toLower question.host) question.qtype res) : OnlyName funcs rw.answer res := by
  -- The result of the configuration itself, to compare both with.
  obtain ⟨given, gives⟩ := processRewrites_returns sort.toSortFunc ⟨entries, true⟩
    (funcs.toLower question.host) question.qtype
  have compared : ∀ spell, Spelling funcs entries spell → ∀ res,
      Rewrites sort.toSortFunc ⟨entries.map (respell spell), true⟩ (funcs.toLower question.host)
        question.qtype res → SameUpToCase funcs given res := by
    intro spell spells res returned
    obtain ⟨others, variants, prepares⟩ := exists_variant done spells
    apply insensitive others question.host variants rfl Iff.rfl
    · exact (RewriteQuestion.gives_of_active active).mpr ⟨entries, done, _, gives⟩
    · have activeToo : RewriteQuestion.Active { question with rewrites := others } := active
      exact (RewriteQuestion.gives_of_active activeToo).mpr ⟨_, prepares, returned⟩
  have here := compared spell spells res returned
  -- The spelling that no pattern matches ends the chain.
  obtain ⟨member, isName⟩ := matching_of_cnameRewrite first
  have among : rw ∈ entries := (of_mem_matching member).1
  obtain ⟨spelling, nobody⟩ := silent rw among isName
  have nothing := findRewrites_respell sort unmatched entries (unmatched rw) question.qtype
  rw [nobody.findRewrites, List.map_nil] at nothing
  have chain : ChainEnds sort.toSortFunc (entries.map (respell unmatched)) question.qtype
      (funcs.toLower question.host) (unmatched rw) := by
    refine ⟨.single ⟨_, cnameRewrite_respell first, (nobody rw among).2, rfl⟩, ?_⟩
    rw [cnameRewrite, nothing]
    rfl
  obtain ⟨silentRes, silentGives⟩ := processRewrites_returns sort.toSortFunc
    ⟨entries.map (respell unmatched), true⟩ (funcs.toLower question.host) question.qtype
  have silentReturned : Rewrites sort.toSortFunc _ _ _ silentRes := ⟨_, silentGives⟩
  have there := compared unmatched (fun e member isName => (silent e member isName).1) silentRes
    silentReturned
  have shape := silentReturned.of_chainEnds rfl chain
  rw [nothing, setRewriteResult] at shape
  refine ⟨?_, ?_, ?_⟩
  · rw [← here.reason, there.reason, shape]
    rfl
  · apply List.eq_nil_iff_forall_not_mem.mpr
    intro ip member
    have listed := (there.addresses ip).mp ((here.addresses ip).mpr member)
    rw [shape] at listed
    exact List.not_mem_nil listed
  · rw [← here.canonName, there.canonName, shape]
    exact spelling.same

theorem OnlyName.not_exception {name : Bytes} {res : Result} (only : OnlyName funcs name res) :
    res ≠ .ofReason .notFilteredNotFound := by
  rintro rfl
  nomatch only.reason

variable {name spelling : Bytes}

theorem OnlyName.not_asked {rewrites : List LegacyRewrite}
    (only : OnlyName funcs name (setRewriteResult qtype
      { Result.ofReason .rewritten with canonName := spelling } rewrites)) :
    Filtering.addresses qtype rewrites = [] := by
  have reason := only.reason
  rw [setRewriteResult_reason _ rfl] at reason
  have plain : ¬ HasException qtype rewrites := by
    intro hasException
    rw [if_pos hasException] at reason
    nomatch reason
  have listed := only.addresses
  rw [setRewriteResult_of_plain _ plain] at listed
  exact listed

/-- Without a CNAME and an address nothing found says anything. -/
theorem quiet_of_plain (absent : cnameRewrite sort.toSortFunc entries qtype spelling = none)
    (nothing : addresses qtype (findRewrites sort.toSortFunc entries spelling qtype).1 = []) :
    Quiet funcs sort entries qtype name spelling := by
  intro e member
  have order : (findRewrites sort.toSortFunc entries spelling qtype).1.Pairwise
      fun a b => b.type = .cname → a.type = .cname := namesFirst
  have asked := (List.mem_filter.mp (mem_of_mem_findRewrites member)).2
  rw [cnameRewrite] at absent
  generalize (findRewrites sort.toSortFunc entries spelling qtype).1 = rewrites at *
  have address : e.type ≠ .cname := by
    intro isName
    cases rewrites with
    | nil => cases member
    | cons head rest =>
      have headName : head.type = .cname := by
        rcases List.mem_cons.mp member with rfl | later
        · exact isName
        · exact (List.pairwise_cons.mp order).1 e later isName
      simp [headName] at absent
  rw [if_neg address]
  intro same
  have type : qtype = .a ∨ qtype = .aaaa := by
    by_contra other
    rw [LegacyRewrite.matchesQType, if_neg address, if_pos (not_or.mp other)] at asked
    cases asked
  have listed : e.ip ∈ addresses qtype rewrites :=
    List.mem_map.mpr ⟨e, List.mem_filter.mpr ⟨member, decide_eq_true ⟨same, type⟩⟩, rfl⟩
  rw [nothing] at listed
  cases listed

/-- A wildcard that is found has nothing beside it. -/
theorem quiet_of_wildcard {rw : LegacyRewrite}
    (first : cnameRewrite sort.toSortFunc entries qtype spelling = some rw)
    (moves : rw.domain ≠ spelling) (answer : funcs.toLower rw.answer = funcs.toLower name)
    (domain : ¬ funcs.Spells name rw.domain) : Quiet funcs sort entries qtype name spelling := by
  obtain ⟨⟨rest, found⟩, isName⟩ := cnameRewrite_eq_some.mp first
  have wild := matching_wildcard (matching_of_cnameRewrite first).1 moves
  obtain rfl := findRewrites_wildcard found wild
  intro e member
  rw [found, List.mem_singleton] at member
  rw [member, if_pos isName]
  exact ⟨answer, domain⟩

theorem Spelling.update (spells : Spelling funcs entries spell) {v : LegacyRewrite} {name : Bytes}
    (given : funcs.Spells v.answer name) :
    Spelling funcs entries (Function.update spell v name) := by
  intro e member isName
  by_cases same : e = v
  · rw [same, Function.update_self]
    exact given
  · rw [Function.update_of_ne same]
    exact spells e member isName

/-- However the answers are spelled, the host gives the name of the entry and nothing else. -/
def AlwaysName (funcs : NameFuncs) (sort : ParametricSort LegacyRewrite)
    (entries : List LegacyRewrite) (host : Bytes) (qtype : RRType) (rw : LegacyRewrite) : Prop :=
  ∀ spell, Spelling funcs entries spell → ∃ res,
    Rewrites sort.toSortFunc ⟨entries.map (respell spell), true⟩ host qtype res ∧
      OnlyName funcs rw.answer res

section Always

variable {rw v : LegacyRewrite} {name : Bytes}

/-- No spelling of the answer is the host or the pattern, which would be an exception. -/
theorem AlwaysName.different (always : AlwaysName funcs sort entries host qtype rw)
    (first : cnameRewrite sort.toSortFunc entries qtype host = some rw)
    (spells : Spelling funcs entries spell) (given : funcs.Spells rw.answer name) :
    host ≠ name ∧ rw.domain ≠ name := by
  rw [← not_or]
  intro self
  obtain ⟨res, returned, only⟩ := always _ (spells.update given)
  refine only.not_exception (returned.exception rfl (cnameRewrite_respell first) ?_)
  simpa only [Function.update_self] using self

theorem hop_respell (first : cnameRewrite sort.toSortFunc entries qtype host = some rw)
    (moves : rw.domain ≠ name) (chosen : spell rw = name) :
    Hop sort.toSortFunc (entries.map (respell spell)) qtype host name :=
  ⟨_, cnameRewrite_respell first, chosen ▸ moves, chosen⟩

/-- A spelling without a CNAME of its own has no address. -/
theorem AlwaysName.quiet_of_absent (always : AlwaysName funcs sort entries host qtype rw)
    (first : cnameRewrite sort.toSortFunc entries qtype host = some rw)
    (spells : Spelling funcs entries spell) (given : funcs.Spells rw.answer name)
    (absent : cnameRewrite sort.toSortFunc entries qtype name = none) :
    Quiet funcs sort entries qtype rw.answer name := by
  obtain ⟨_, moves⟩ := always.different first spells given
  obtain ⟨res, returned, only⟩ := always _ (spells.update given)
  have hop := hop_respell first moves (Function.update_self rw name spell)
  rw [returned.of_chainEnds rfl ⟨.single hop, cnameRewrite_respell_none absent⟩] at only
  have related := findRewrites_related sort respell_sameButAnswer
    (forall₂_respell (Function.update spell rw name) entries) name qtype
  rw [← setRewriteResult_related respell_sameButAnswer related.1] at only
  exact quiet_of_plain absent only.not_asked

/-- Another CNAME of a spelling has an answer that is a spelling too. -/
theorem AlwaysName.answer_of_cname (always : AlwaysName funcs sort entries host qtype rw)
    (first : cnameRewrite sort.toSortFunc entries qtype host = some rw)
    (spells : Spelling funcs entries spell)
    (unmatched : ∀ e ∈ entries, e.type = .cname → Unmatched entries (spell e))
    (given : funcs.Spells rw.answer name)
    (second : cnameRewrite sort.toSortFunc entries qtype name = some v) (distinct : v ≠ rw) :
    funcs.toLower v.answer = funcs.toLower rw.answer := by
  obtain ⟨member, isName⟩ := matching_of_cnameRewrite second
  have among : v ∈ entries := (of_mem_matching member).1
  have nobody := unmatched v among isName
  obtain ⟨_, moves⟩ := always.different first spells given
  obtain ⟨res, returned, only⟩ := always _ (spells.update given)
  -- The chain goes on to a spelling of the other answer and ends there.
  have hop := hop_respell first moves (Function.update_self rw name spell)
  have again := hop_respell second (nobody v among).2
    (Function.update_of_ne distinct name spell)
  have absent : cnameRewrite sort.toSortFunc entries qtype (spell v) = none := by
    rw [cnameRewrite, nobody.findRewrites]
    rfl
  rw [returned.of_chainEnds rfl ⟨(Relation.TransGen.single hop).tail again,
    cnameRewrite_respell_none absent⟩] at only
  have canonName := only.canonName
  rw [setRewriteResult_canonName] at canonName
  exact (spells v among isName).same.symm.trans canonName

/-- The CNAME of a spelling has an answer that is a spelling too, and its pattern is none. -/
theorem AlwaysName.quiet_of_cname (always : AlwaysName funcs sort entries host qtype rw)
    (first : cnameRewrite sort.toSortFunc entries qtype host = some rw)
    (spells : Spelling funcs entries spell)
    (unmatched : ∀ e ∈ entries, e.type = .cname → Unmatched entries (spell e))
    (given : funcs.Spells rw.answer name)
    (second : cnameRewrite sort.toSortFunc entries qtype name = some v) :
    Quiet funcs sort entries qtype rw.answer name := by
  obtain ⟨other, moves⟩ := always.different first spells given
  by_cases same : v = rw
  · subst same
    exact quiet_of_wildcard second moves rfl fun own => (always.different first spells own).2 rfl
  · have answer := always.answer_of_cname first spells unmatched given second same
    have pattern : ∀ spelling, funcs.Spells rw.answer spelling → v.domain ≠ spelling := by
      intro spelling own self
      -- With its own pattern as its answer the other CNAME would be an exception.
      have chosen : funcs.Spells v.answer spelling := ⟨own.isName, own.same.trans answer.symm⟩
      obtain ⟨res, returned, only⟩ := always _ ((spells.update given).update chosen)
      have goes : Function.update (Function.update spell rw name) v spelling rw = name := by
        rw [Function.update_of_ne (Ne.symm same), Function.update_self]
      have hop := hop_respell first moves goes
      refine only.not_exception
        (returned.exception_of_hop rfl hop other (cnameRewrite_respell second) (.inr ?_))
      rw [Function.update_self]
      exact self
    exact quiet_of_wildcard second (pattern name given) answer fun own => pattern _ own rfl

end Always

/-- Where each name can be spelled so that no pattern matches it, only hosts that end at their
name do not depend on the letter case. -/
theorem CaseInsensitive.endsInAnyCase (insensitive : CaseInsensitive funcs sort question)
    (respellable : ∀ prepared, prepareRewrites funcs.toLower funcs.parseAddr funcs.validDomainName
      question.rewrites = some prepared → Respellable funcs prepared) :
    EndsInAnyCase funcs sort question := by
  intro active prepared done rw first name given
  choose! unmatched silent using respellable prepared done
  have spells : Spelling funcs prepared unmatched := fun e member isName =>
    (silent e member isName).1
  have always : AlwaysName funcs sort prepared (funcs.toLower question.host) question.qtype
      rw := by
    intro spell spells
    obtain ⟨res, gives⟩ := processRewrites_returns sort.toSortFunc
      ⟨prepared.map (respell spell), true⟩ (funcs.toLower question.host) question.qtype
    exact ⟨res, ⟨_, gives⟩, insensitive.onlyName active done first silent spells ⟨_, gives⟩⟩
  obtain ⟨other, moves⟩ := always.different first spells given
  refine ⟨other, moves, ?_⟩
  rcases second : cnameRewrite sort.toSortFunc prepared question.qtype name with _ | v
  · exact always.quiet_of_absent first spells given second
  · exact always.quiet_of_cname first spells (fun e member isName => (silent e member isName).2)
      given second

end Converse

end Respelling

/-- The letter case does not matter where a question ends in any case; and, where each name has
a spelling that no pattern matches, only there. -/
theorem caseInsensitive_iff (funcs : NameFuncs) (sort : ParametricSort LegacyRewrite)
    (question : RewriteQuestion) :
    (EndsInAnyCase funcs sort question → CaseInsensitive funcs sort question) ∧
    ((∀ prepared, prepareRewrites funcs.toLower funcs.parseAddr funcs.validDomainName
        question.rewrites = some prepared → Respellable funcs prepared) →
      (CaseInsensitive funcs sort question ↔ EndsInAnyCase funcs sort question)) :=
  ⟨EndsInAnyCase.caseInsensitive, fun respellable =>
    ⟨fun insensitive => insensitive.endsInAnyCase respellable, EndsInAnyCase.caseInsensitive⟩⟩

section Examples

private def asciiNames : NameFuncs where
  toLower := toLowerASCII
  parseAddr answer := if answer = lit "192.0.2.1" then some (.v4 0xc0000201) else none
  validDomainName _ := true

/-- A name outside the list, asked for in capitals. -/
private def outside : RewriteQuestion :=
  ⟨[⟨lit "www.example.org", lit "Example.COM", .zero, 0, true⟩,
      ⟨lit "mail.example.org", lit "192.0.2.1", .zero, 0, true⟩], true, true,
    lit "WWW.example.org", .a⟩

private def outsidePrepared : List LegacyRewrite :=
  [⟨lit "www.example.org", lit "Example.COM", .zero, .cname, true⟩,
    ⟨lit "mail.example.org", lit "192.0.2.1", .v4 0xc0000201, .a, true⟩]

private theorem unmatched_outside {spelling : Bytes}
    (same : toLowerASCII spelling = lit "example.com") : Unmatched outsidePrepared spelling := by
  intro e member
  have plain : ∀ e ∈ outsidePrepared, isWildcard e.domain = false ∧
      toLowerASCII e.domain ≠ lit "example.com" := by decide
  obtain ⟨exact_, apart⟩ := plain e member
  have different : e.domain ≠ spelling := fun equal => apart (equal ▸ same)
  simp [LegacyRewrite.matchesHost, matchDomainWildcard, exact_, different]

theorem caseInsensitive_outside :
    EndsInAnyCase asciiNames .insertion outside ∧ CaseInsensitive asciiNames .insertion outside := by
  have prepares : prepareRewrites asciiNames.toLower asciiNames.parseAddr
      asciiNames.validDomainName outside.rewrites = some outsidePrepared := by decide
  have only : ∀ rw ∈ outsidePrepared, rw.type = .cname →
      toLowerASCII rw.answer = lit "example.com" ∧ toLowerASCII rw.domain ≠ lit "example.com" := by
    decide
  have ends : EndsInAnyCase asciiNames .insertion outside := by
    intro _ prepared done rw first spelling spells
    obtain rfl := Option.some.inj (prepares.symm.trans done)
    obtain ⟨member, isName⟩ := matching_of_cnameRewrite first
    obtain ⟨answer, domain⟩ := only rw (of_mem_matching member).1 isName
    have same : toLowerASCII spelling = lit "example.com" := spells.same.trans answer
    refine ⟨?_, fun equal => domain (equal ▸ same), ?_⟩
    · rintro rfl
      exact absurd same (by decide)
    · intro e found
      rw [(unmatched_outside same).findRewrites] at found
      cases found
  refine ⟨ends, ((caseInsensitive_iff asciiNames .insertion outside).2 ?_).mpr ends⟩
  intro prepared done rw member isName
  obtain rfl := Option.some.inj (prepares.symm.trans done)
  exact ⟨rw.answer, ⟨prepareRewrites_named done rw member isName, rfl⟩,
    unmatched_outside (only rw member isName).1⟩

private def answeredWith (answer : String) : List LegacyRewrite :=
  [⟨lit "www.example.org", lit answer, .zero, 0, true⟩,
    ⟨lit "example.com", lit "192.0.2.1", .zero, 0, true⟩]

private def asked (answer : String) : RewriteQuestion :=
  ⟨answeredWith answer, true, true, lit "www.example.org", .a⟩

private def reads (question : RewriteQuestion) (fuel : Nat) : Option (List Addr) := do
  let prepared ← prepareRewrites asciiNames.toLower asciiNames.parseAddr
    asciiNames.validDomainName question.rewrites
  let res ← checkHostRewrites asciiNames .insertion ⟨prepared, question.rewritesEnabled⟩
    question.filteringEnabled question.host question.qtype fuel
  return res.ipList

private theorem gives_of_reads (question : RewriteQuestion) (fuel : Nat) (ips : List Addr)
    (done : reads question fuel = some ips) :
    ∃ res, question.Gives asciiNames .insertion res ∧ res.ipList = ips := by
  simp only [reads, Option.bind_eq_bind, Option.bind_eq_some_iff, Option.pure_def,
    Option.some.injEq] at done
  obtain ⟨prepared, prepares, res, result, listed⟩ := done
  exact ⟨res, ⟨prepared, prepares, fuel, result⟩, listed⟩

/-- A capital letter in the answer loses the address of `example.com`. -/
theorem capital_answer_loses_address :
    ¬ ∀ (funcs : NameFuncs) (sort : ParametricSort LegacyRewrite) (question : RewriteQuestion),
      CaseInsensitive funcs sort question := by
  intro always
  have variants : List.Forall₂ (CaseVariant asciiNames) (answeredWith "example.com")
      (answeredWith "Example.COM") := by
    refine .cons ⟨by decide, .inr ⟨?_, ?_⟩, rfl, rfl, rfl⟩ (.cons ⟨rfl, .inl rfl, rfl, rfl, rfl⟩ .nil)
    · exact ⟨by decide, by decide, by decide, rfl⟩
    · exact ⟨⟨by decide, by decide, by decide, rfl⟩, by decide⟩
  obtain ⟨res, gives, found⟩ :=
    gives_of_reads (asked "example.com") 3 [.v4 0xc0000201] (by decide +kernel)
  obtain ⟨other, again, lost⟩ := gives_of_reads (asked "Example.COM") 3 [] (by decide +kernel)
  have same := (always asciiNames .insertion (asked "example.com") (answeredWith "Example.COM")
    (lit "www.example.org") variants rfl Iff.rfl res other gives again).addresses (.v4 0xc0000201)
  rw [found, lost] at same
  exact List.not_mem_nil (same.mp List.mem_cons_self)

end Examples

end AdGuardHome.Filtering
