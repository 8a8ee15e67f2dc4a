import AdGuardHome.Filtering.RewriteChains

namespace AdGuardHome.Filtering

open Netip Sorting Strings

/-- `strings.ToLower`, `netip.ParseAddr` and `netutil.ValidateDomainName`. -/
structure NameFuncs where
  toLower : Bytes → Bytes
  parseAddr : Bytes → Option Addr
  validDomainName : Bytes → Bool

/-- An answer that is the name of a host, neither an address nor a special value. -/
structure NameFuncs.IsName (funcs : NameFuncs) (answer : Bytes) : Prop where
  notAAAA : answer ≠ lit "AAAA"
  notA : answer ≠ lit "A"
  noAddr : funcs.parseAddr answer = none
  valid : funcs.validDomainName answer = true

structure NameFuncs.Spells (funcs : NameFuncs) (name spelling : Bytes) : Prop where
  isName : funcs.IsName spelling
  same : funcs.toLower spelling = funcs.toLower name

/-- The entry with its domain and its CNAME answer in another letter case. -/
structure CaseVariant (funcs : NameFuncs) (rw other : LegacyRewrite) : Prop where
  domain : funcs.toLower other.domain = funcs.toLower rw.domain
  answer : other.answer = rw.answer ∨
    funcs.IsName rw.answer ∧ funcs.Spells rw.answer other.answer
  rest : other.ip = rw.ip ∧ other.type = rw.type ∧ other.enabled = rw.enabled

section Prepared

variable {funcs : NameFuncs}

structure SameButAnswer (e other : LegacyRewrite) : Prop where
  domain : other.domain = e.domain
  ip : other.ip = e.ip
  type : other.type = e.type
  enabled : other.enabled = e.enabled

/-- The entries differ in nothing but a CNAME answer in another letter case. -/
structure Respelled (funcs : NameFuncs) (e other : LegacyRewrite) : Prop
    extends SameButAnswer e other where
  answer : other.answer = e.answer ∨ e.type = .cname ∧ funcs.Spells e.answer other.answer

theorem respelled_sameButAnswer (e other : LegacyRewrite) (same : Respelled funcs e other) :
    SameButAnswer e other := same.toSameButAnswer

def Named (funcs : NameFuncs) (entries : List LegacyRewrite) : Prop :=
  ∀ e ∈ entries, e.type = .cname → funcs.IsName e.answer

theorem NameFuncs.IsName.resolveAnswer {answer : Bytes} (isName : funcs.IsName answer)
    (ip : Addr) :
    LegacyRewrite.resolveAnswer funcs.parseAddr funcs.validDomainName answer ip =
      some (ip, .cname) := by
  simp [LegacyRewrite.resolveAnswer, isName.notAAAA, isName.notA, isName.noAddr, isName.valid]

theorem isName_of_resolveAnswer {answer : Bytes} {ip found : Addr}
    (resolved : LegacyRewrite.resolveAnswer funcs.parseAddr funcs.validDomainName answer ip =
      some (found, .cname)) : funcs.IsName answer := by
  simp only [LegacyRewrite.resolveAnswer] at resolved
  split at resolved
  next => simp [RRType.aaaa, RRType.cname] at resolved
  next notAAAA =>
    split at resolved
    next => simp [RRType.a, RRType.cname] at resolved
    next notA =>
      split at resolved
      next noAddr =>
        split at resolved
        next valid => exact ⟨notAAAA, notA, noAddr, valid⟩
        next => cases resolved
      next =>
        have address := congrArg Prod.snd (Option.some.inj resolved)
        split at address <;> simp [RRType.a, RRType.aaaa, RRType.cname] at address

/-- What normalizing makes of an entry. -/
theorem normalize_some_iff {raw e : LegacyRewrite} :
    raw.normalize funcs.toLower funcs.parseAddr funcs.validDomainName = some e ↔
      LegacyRewrite.resolveAnswer funcs.parseAddr funcs.validDomainName raw.answer raw.ip =
        some (e.ip, e.type) ∧
      e = { raw with domain := funcs.toLower raw.domain, ip := e.ip, type := e.type } := by
  rw [LegacyRewrite.normalize_eq, Option.map_eq_some_iff]
  constructor
  · rintro ⟨found, resolved, rfl⟩
    exact ⟨resolved, rfl⟩
  · intro ⟨resolved, shape⟩
    exact ⟨_, resolved, shape.symm⟩

/-- The prepared entries of two variants are respelled. -/
theorem CaseVariant.respelled {raw other e found : LegacyRewrite}
    (variant : CaseVariant funcs raw other)
    (normal : raw.normalize funcs.toLower funcs.parseAddr funcs.validDomainName = some e)
    (again : other.normalize funcs.toLower funcs.parseAddr funcs.validDomainName = some found) :
    Respelled funcs e found := by
  obtain ⟨resolved, shape⟩ := normalize_some_iff.mp normal
  obtain ⟨resolvedAgain, shapeAgain⟩ := normalize_some_iff.mp again
  obtain ⟨ip, type, enabled⟩ := variant.rest
  have answer : e.answer = raw.answer := by rw [shape]
  have answerAgain : found.answer = other.answer := by rw [shapeAgain]
  have domain : found.domain = e.domain := by
    rw [shapeAgain, shape]
    exact variant.domain
  have enabledSame : found.enabled = e.enabled := by
    rw [shapeAgain, shape]
    exact enabled
  rcases variant.answer with same | ⟨isName, spells⟩
  · rw [same, ip, resolved] at resolvedAgain
    obtain ⟨ipSame, typeSame⟩ := Prod.mk.inj (Option.some.inj resolvedAgain)
    refine ⟨⟨domain, ipSame.symm, typeSame.symm, enabledSame⟩, Or.inl ?_⟩
    rw [answerAgain, same, answer]
  · rw [isName.resolveAnswer] at resolved
    rw [spells.isName.resolveAnswer] at resolvedAgain
    obtain ⟨ipFirst, typeFirst⟩ := Prod.mk.inj (Option.some.inj resolved)
    obtain ⟨ipOther, typeOther⟩ := Prod.mk.inj (Option.some.inj resolvedAgain)
    refine ⟨⟨domain, ?_, ?_, enabledSame⟩, Or.inr ⟨typeFirst.symm, ?_⟩⟩
    · rw [← ipOther, ← ipFirst, ip]
    · rw [← typeOther, ← typeFirst]
    · rwa [answer, answerAgain]

theorem prepareRewrites_named {raws prepared : List LegacyRewrite}
    (done : prepareRewrites funcs.toLower funcs.parseAddr funcs.validDomainName raws =
      some prepared) : Named funcs prepared := by
  intro e member isName
  obtain ⟨raw, normal⟩ := prepareRewrites_normalized done e member
  obtain ⟨resolved, shape⟩ := normalize_some_iff.mp normal
  rw [isName] at resolved
  rw [shape]
  exact isName_of_resolveAnswer resolved

theorem prepareRewrites_respelled {raws others prepared found : List LegacyRewrite}
    (variants : List.Forall₂ (CaseVariant funcs) raws others)
    (done : prepareRewrites funcs.toLower funcs.parseAddr funcs.validDomainName raws =
      some prepared)
    (again : prepareRewrites funcs.toLower funcs.parseAddr funcs.validDomainName others =
      some found) : List.Forall₂ (Respelled funcs) prepared found := by
  rw [prepareRewrites_eq_some] at done again
  induction variants generalizing prepared found with
  | nil =>
    cases done
    cases again
    exact .nil
  | cons variant _ ih =>
    cases done with
    | cons normal rest =>
      cases again with
      | cons normalAgain restAgain =>
        exact .cons (variant.respelled normal normalAgain) (ih rest restAgain)

end Prepared

section Found

variable {R : LegacyRewrite → LegacyRewrite → Prop}
variable {entries others : List LegacyRewrite}

namespace SameButAnswer

variable {e other : LegacyRewrite}

theorem matchesHost (same : SameButAnswer e other) (host : Bytes) :
    e.matchesHost host = other.matchesHost host := by
  rw [LegacyRewrite.matchesHost, LegacyRewrite.matchesHost, same.domain, same.enabled]

theorem matchesQType (same : SameButAnswer e other) (qtype : RRType) :
    e.matchesQType qtype = other.matchesQType qtype := by
  rw [LegacyRewrite.matchesQType, LegacyRewrite.matchesQType, same.type, same.ip]

theorem compare {b b' : LegacyRewrite} (same : SameButAnswer e other)
    (second : SameButAnswer b b') : e.compare b = other.compare b' := by
  rw [LegacyRewrite.compare, LegacyRewrite.compare, same.type, same.domain, second.type,
    second.domain]

end SameButAnswer

private theorem findIdx?_related {p : LegacyRewrite → Bool}
    (agree : ∀ e other, R e other → p e = p other) {rewrites found : List LegacyRewrite}
    (related : List.Forall₂ R rewrites found) : rewrites.findIdx? p = found.findIdx? p := by
  induction related with
  | nil => rfl
  | cons head _ ih => rw [List.findIdx?_cons, List.findIdx?_cons, agree _ _ head, ih]

/-- The answers have no part in what is found. -/
theorem findRewrites_related (sort : ParametricSort LegacyRewrite)
    (agree : ∀ e other, R e other → SameButAnswer e other)
    (related : List.Forall₂ R entries others) (host : Bytes) (qtype : RRType) :
    List.Forall₂ R (findRewrites sort.toSortFunc entries host qtype).1
        (findRewrites sort.toSortFunc others host qtype).1 ∧
      (findRewrites sort.toSortFunc entries host qtype).2 =
        (findRewrites sort.toSortFunc others host qtype).2 := by
  have found : List.Forall₂ R (entries.filter (·.matchesHost host))
      (others.filter (·.matchesHost host)) := by
    apply List.rel_filter _ related
    intro e other same
    exact iff_of_eq (congrArg (· = true) ((agree e other same).matchesHost host))
  have rewrites : List.Forall₂ R (matching entries host qtype) (matching others host qtype) := by
    apply List.rel_filter _ found
    intro e other same
    exact iff_of_eq (congrArg (· = true) ((agree e other same).matchesQType qtype))
  have sorted := sort.parametric R LegacyRewrite.compare LegacyRewrite.compare _ _
    (fun e other b b' first second => (agree e other first).compare (agree b b' second)) rewrites
  have cut : List.Forall₂ R (finalizeRewrites sort.toSortFunc (matching entries host qtype))
      (finalizeRewrites sort.toSortFunc (matching others host qtype)) := by
    have index := findIdx?_related (p := (isWildcard ·.domain))
      (fun e other same => by rw [(agree e other same).domain]) sorted
    simp only [finalizeRewrites, index]
    split
    · exact List.forall₂_take _ sorted
    · exact sorted
  constructor
  · simp only [findRewrites]
    have length := rewrites.length_eq
    simp only [matching] at length cut
    rw [length]
    split
    · exact .nil
    · exact cut
  · simp only [findRewrites]
    generalize entries.filter (·.matchesHost host) = first at found ⊢
    generalize others.filter (·.matchesHost host) = second at found ⊢
    cases found with
    | nil => rfl
    | cons => rfl

theorem cnameRewrite_related (sort : ParametricSort LegacyRewrite)
    (agree : ∀ e other, R e other → SameButAnswer e other)
    (related : List.Forall₂ R entries others) (host : Bytes) (qtype : RRType) :
    Option.Rel R (cnameRewrite sort.toSortFunc entries qtype host)
      (cnameRewrite sort.toSortFunc others qtype host) := by
  have found := (findRewrites_related sort agree related host qtype).1
  unfold cnameRewrite
  generalize (findRewrites sort.toSortFunc entries host qtype).1 = rewrites at found ⊢
  generalize (findRewrites sort.toSortFunc others host qtype).1 = again at found ⊢
  cases found with
  | nil => exact .none
  | @cons e other _ _ head _ =>
    simp only [List.head?_cons]
    by_cases isName : e.type = .cname
    · have isNameToo : other.type = .cname := (agree e other head).type.trans isName
      simp only [Option.filter_some, isName, isNameToo, decide_true, if_true]
      exact .some head
    · have isNameToo : other.type ≠ .cname := fun type =>
        isName ((agree e other head).type.symm.trans type)
      simp only [Option.filter_some, isName, isNameToo, decide_false]
      exact .none

/-- The addresses come from the entries without their answers. -/
theorem setRewriteResult_related (agree : ∀ e other, R e other → SameButAnswer e other)
    (related : List.Forall₂ R entries others) (qtype : RRType) (res : Result) :
    setRewriteResult qtype res entries = setRewriteResult qtype res others := by
  induction related generalizing res with
  | nil => rfl
  | cons head _ ih =>
    rw [setRewriteResult, setRewriteResult, (agree _ _ head).type, (agree _ _ head).ip]
    simp only [ih]

end Found

end AdGuardHome.Filtering
