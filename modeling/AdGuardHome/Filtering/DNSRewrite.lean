import AdGuardHome.Filtering.Engine

/-! `dnsrewrite.go`: the result that the `$dnsrewrite` rules for a host give. -/
namespace AdGuardHome.Filtering

open Strings

/-- `dns.RcodeSuccess`. -/
def rcodeSuccess : Nat := 0

/-- `rules.DNSRewrite`. -/
structure DNSRewrite where
  newCNAME : Bytes
  rcode : Nat
  rrType : RRType
  value : RRValue
deriving DecidableEq

/-- `rules.NetworkRule` with the `$dnsrewrite` modifier. -/
structure NetworkRule where
  text : Bytes
  filterListID : BitVec 64
  dnsRewrite : DNSRewrite
deriving DecidableEq

/-- `NewResultRule`. -/
def newResultRule (r : NetworkRule) : ResultRule := ⟨r.text, .zero, r.filterListID⟩

namespace DNSRewriteResult

def add (dnsrr : DNSRewriteResult) (rrType : RRType) (value : RRValue) : DNSRewriteResult :=
  { dnsrr with
    response := dnsrr.response.map fun response rr =>
      if rr = rrType then response rr ++ [value] else response rr }

end DNSRewriteResult

def cnameResult (nr : NetworkRule) : Result :=
  { Result.ofReason .rewrittenRule with
    rules := [newResultRule nr]
    canonName := nr.dnsRewrite.newCNAME }

/-- The result of a rule with a response code that is not success. -/
def codeResult (nr : NetworkRule) : Result :=
  { Result.ofReason .rewrittenRule with
    dnsRewriteResult := some ⟨nr.dnsRewrite.rcode, none⟩
    rules := [newResultRule nr] }

def valuesResult (dnsrr : DNSRewriteResult) (rules : List ResultRule) : Result :=
  { Result.ofReason .rewrittenRule with dnsRewriteResult := some dnsrr, rules }

/-- The loop of `processDNSRewrites`, with the values and the rules so far. -/
def processRules : List NetworkRule → DNSRewriteResult → List ResultRule → Result
  | [], dnsrr, rules => valuesResult dnsrr rules
  | nr :: rest, dnsrr, rules =>
    let dr := nr.dnsRewrite
    if dr.newCNAME ≠ [] then cnameResult nr
    else if dr.rcode = rcodeSuccess then
      processRules rest ({ dnsrr with rcode := dr.rcode }.add dr.rrType dr.value)
        (rules ++ [newResultRule nr])
    else codeResult nr

/-- `processDNSRewrites`. -/
def processDNSRewrites (dnsr : List NetworkRule) : Result :=
  processRules dnsr ⟨rcodeSuccess, some fun _ => []⟩ []

/-- `processDNSResultRewrites` for the rules that `DNSRewrites` returns. -/
def processDNSResultRewrites (dnsr : List NetworkRule) (host : Bytes) : Result :=
  if dnsr.length = 0 then .ofReason .notFilteredNotFound
  else
    let res := processDNSRewrites dnsr
    -- A rewrite of a host to itself.
    if res.reason = .rewrittenRule ∧ res.canonName = host then .ofReason .notFilteredNotFound
    else res

namespace NetworkRule

def Renames (nr : NetworkRule) : Prop := nr.dnsRewrite.newCNAME ≠ []

def Refuses (nr : NetworkRule) : Prop :=
  nr.dnsRewrite.newCNAME = [] ∧ nr.dnsRewrite.rcode ≠ rcodeSuccess

/-- The rule has a value and leaves the decision to the others. -/
def Answers (nr : NetworkRule) : Prop :=
  nr.dnsRewrite.newCNAME = [] ∧ nr.dnsRewrite.rcode = rcodeSuccess

instance (nr : NetworkRule) : Decidable nr.Renames := inferInstanceAs (Decidable (_ ≠ _))

instance (nr : NetworkRule) : Decidable nr.Refuses := inferInstanceAs (Decidable (_ ∧ _))

theorem answers_of_neither {nr : NetworkRule} (stays : ¬ nr.Renames) (permits : ¬ nr.Refuses) :
    nr.Answers := by
  have unnamed : nr.dnsRewrite.newCNAME = [] := not_not.mp stays
  refine ⟨unnamed, ?_⟩
  by_contra code
  exact permits ⟨unnamed, code⟩

end NetworkRule

def valuesOf (dnsr : List NetworkRule) (rr : RRType) : List RRValue :=
  (dnsr.filter (·.dnsRewrite.rrType = rr)).map (·.dnsRewrite.value)

def gathered (dnsr : List NetworkRule) : Result :=
  valuesResult ⟨rcodeSuccess, some (valuesOf dnsr)⟩ (dnsr.map newResultRule)

/-- The kinds of result that `processDNSRewrites` makes. -/
inductive RewriteKind where
  | cname
  | code
  | values
deriving DecidableEq

def Result.rewriteKind (res : Result) : RewriteKind :=
  if res.canonName ≠ [] then .cname
  else
    match res.dnsRewriteResult with
    | some dnsrr => if dnsrr.rcode ≠ rcodeSuccess then .code else .values
    | none => .values

section Loop

/-- The loop over rules that only have values gathers all of them. -/
theorem processRules_gathers {dnsr : List NetworkRule} (plain : ∀ nr ∈ dnsr, nr.Answers)
    (response : RRType → List RRValue) (rules : List ResultRule) :
    processRules dnsr ⟨rcodeSuccess, some response⟩ rules =
      valuesResult ⟨rcodeSuccess, some fun rr => response rr ++ valuesOf dnsr rr⟩
        (rules ++ dnsr.map newResultRule) := by
  induction dnsr generalizing response rules with
  | nil => simp [processRules, valuesOf]
  | cons nr rest ih =>
    obtain ⟨unnamed, success⟩ := plain nr List.mem_cons_self
    have later : ∀ nr ∈ rest, nr.Answers := fun nr member => plain nr (List.mem_cons_of_mem _ member)
    have values : (fun rr =>
        (if rr = nr.dnsRewrite.rrType then response rr ++ [nr.dnsRewrite.value] else response rr) ++
          valuesOf rest rr) = fun rr => response rr ++ valuesOf (nr :: rest) rr := by
      funext rr
      by_cases same : rr = nr.dnsRewrite.rrType
      · simp [valuesOf, same]
      · simp [valuesOf, same, Ne.symm same]
    rw [processRules, if_neg (not_not.mpr unnamed), if_pos success, success,
      DNSRewriteResult.add, Option.map_some, ih later, values, List.append_assoc]
    rfl

/-- The first rule that does not only have a value ends the loop. -/
theorem processRules_stops {front rest : List NetworkRule} {nr : NetworkRule}
    (plain : ∀ nr ∈ front, nr.Answers) (stops : nr.Renames ∨ nr.Refuses)
    (dnsrr : DNSRewriteResult) (rules : List ResultRule) :
    processRules (front ++ nr :: rest) dnsrr rules =
      if nr.Renames then cnameResult nr else codeResult nr := by
  induction front generalizing dnsrr rules with
  | nil =>
    rw [List.nil_append, processRules]
    by_cases renames : nr.Renames
    · rw [if_pos renames, if_pos (show nr.dnsRewrite.newCNAME ≠ [] from renames)]
    · obtain ⟨unnamed, code⟩ := stops.resolve_left renames
      rw [if_neg renames, if_neg (not_not.mpr unnamed), if_neg code]
  | cons first front ih =>
    obtain ⟨unnamed, success⟩ := plain first List.mem_cons_self
    rw [List.cons_append, processRules, if_neg (not_not.mpr unnamed), if_pos success]
    exact ih (fun nr member => plain nr (List.mem_cons_of_mem _ member)) _ _

theorem plain_or_stops (dnsr : List NetworkRule) :
    (∀ nr ∈ dnsr, nr.Answers) ∨ ∃ front nr rest, dnsr = front ++ nr :: rest ∧
      (∀ nr ∈ front, nr.Answers) ∧ (nr.Renames ∨ nr.Refuses) := by
  induction dnsr with
  | nil => left; simp
  | cons first rest ih =>
    by_cases stops : first.Renames ∨ first.Refuses
    · exact Or.inr ⟨[], first, rest, rfl, by simp, stops⟩
    · have answers := NetworkRule.answers_of_neither (fun renames => stops (.inl renames))
        fun refuses => stops (.inr refuses)
      rcases ih with plain | ⟨front, nr, back, split, plain, ends⟩
      · left
        intro nr member
        rcases List.mem_cons.mp member with rfl | later
        · exact answers
        · exact plain nr later
      · refine Or.inr ⟨first :: front, nr, back, by simp [split], ?_, ends⟩
        intro nr member
        rcases List.mem_cons.mp member with rfl | later
        · exact answers
        · exact plain nr later

/-- The three outcomes of the loop. -/
theorem processDNSRewrites_cases (dnsr : List NetworkRule) :
    ((∀ nr ∈ dnsr, nr.Answers) ∧ processDNSRewrites dnsr = gathered dnsr) ∨
    (∃ nr ∈ dnsr, nr.Renames ∧ processDNSRewrites dnsr = cnameResult nr) ∨
    (∃ nr ∈ dnsr, nr.Refuses ∧ processDNSRewrites dnsr = codeResult nr) := by
  rcases plain_or_stops dnsr with plain | ⟨front, nr, rest, rfl, plain, stops⟩
  · left
    refine ⟨plain, ?_⟩
    rw [processDNSRewrites, processRules_gathers plain]
    rfl
  · right
    have member : nr ∈ front ++ nr :: rest := List.mem_append_right _ List.mem_cons_self
    have result : processRules (front ++ nr :: rest) _ _ = _ :=
      processRules_stops plain stops ⟨rcodeSuccess, some fun _ => []⟩ []
    by_cases renames : nr.Renames
    · exact Or.inl ⟨nr, member, renames, result.trans (if_pos renames)⟩
    · exact Or.inr ⟨nr, member, stops.resolve_left renames, result.trans (if_neg renames)⟩

end Loop

section Kinds

variable {nr : NetworkRule}

theorem NetworkRule.Renames.kind (renames : nr.Renames) :
    (cnameResult nr).rewriteKind = .cname := if_pos renames

theorem NetworkRule.Refuses.kind (refuses : nr.Refuses) :
    (codeResult nr).rewriteKind = .code := by
  simp [codeResult, Result.ofReason, Result.rewriteKind, refuses.2]

theorem gathered_kind (dnsr : List NetworkRule) : (gathered dnsr).rewriteKind = .values := by
  simp [gathered, valuesResult, Result.ofReason, Result.rewriteKind]

end Kinds

/-- A new name goes before a code and a code before the values, and the order of the rules
does not choose between them. -/
structure Prioritized (dnsr : List NetworkRule) : Prop where
  cname : (∃ nr ∈ dnsr, nr.Renames) →
    ∃ nr ∈ dnsr, nr.Renames ∧ processDNSRewrites dnsr = cnameResult nr
  code : (¬ ∃ nr ∈ dnsr, nr.Renames) → (∃ nr ∈ dnsr, nr.Refuses) →
    ∃ nr ∈ dnsr, nr.Refuses ∧ processDNSRewrites dnsr = codeResult nr
  values : (¬ ∃ nr ∈ dnsr, nr.Renames) → (¬ ∃ nr ∈ dnsr, nr.Refuses) →
    processDNSRewrites dnsr = gathered dnsr
  anyOrder : ∀ shuffled, shuffled.Perm dnsr →
    (processDNSRewrites shuffled).rewriteKind = (processDNSRewrites dnsr).rewriteKind

def Mixed (dnsr : List NetworkRule) : Prop :=
  (∃ nr ∈ dnsr, nr.Renames) ∧ ∃ nr ∈ dnsr, nr.Refuses

/-- What the kind of the result says of the rules. -/
theorem kind_of_unmixed {dnsr : List NetworkRule} (unmixed : ¬ Mixed dnsr) :
    (processDNSRewrites dnsr).rewriteKind =
      if ∃ nr ∈ dnsr, nr.Renames then .cname
      else if ∃ nr ∈ dnsr, nr.Refuses then .code
      else .values := by
  rcases processDNSRewrites_cases dnsr with ⟨plain, result⟩ | ⟨nr, member, renames, result⟩ |
    ⟨nr, member, refuses, result⟩
  · have nobodyRenames : ¬ ∃ nr ∈ dnsr, nr.Renames := by
      rintro ⟨nr, member, renames⟩
      exact renames (plain nr member).1
    have nobodyRefuses : ¬ ∃ nr ∈ dnsr, nr.Refuses := by
      rintro ⟨nr, member, refuses⟩
      exact refuses.2 (plain nr member).2
    rw [result, gathered_kind, if_neg nobodyRenames, if_neg nobodyRefuses]
  · rw [result, renames.kind, if_pos ⟨nr, member, renames⟩]
  · have nobodyRenames : ¬ ∃ nr ∈ dnsr, nr.Renames := fun named =>
      unmixed ⟨named, nr, member, refuses⟩
    rw [result, refuses.kind, if_neg nobodyRenames, if_pos ⟨nr, member, refuses⟩]

/-- The documented priority holds exactly for the lists that do not hold both a rule with a
new name and a rule with another code than success. -/
theorem prioritized_iff (dnsr : List NetworkRule) : Prioritized dnsr ↔ ¬ Mixed dnsr := by
  constructor
  · rintro prioritized ⟨someRenames, nr, member, refuses⟩
    -- With the refusing rule in front the same rules give its code.
    obtain ⟨named, _, renames, result⟩ := prioritized.cname someRenames
    obtain ⟨rest, shuffled⟩ : ∃ rest, (nr :: rest).Perm dnsr :=
      ⟨dnsr.erase nr, (List.perm_cons_erase member).symm⟩
    have first : processRules ([] ++ nr :: rest) _ _ = _ :=
      processRules_stops (by simp) (Or.inr refuses) ⟨rcodeSuccess, some fun _ => []⟩ []
    rw [if_neg (fun renames => renames refuses.1)] at first
    have kinds := prioritized.anyOrder _ shuffled
    rw [show processDNSRewrites (nr :: rest) = codeResult nr from first, result, refuses.kind,
      renames.kind] at kinds
    cases kinds
  · intro unmixed
    refine ⟨?_, ?_, ?_, ?_⟩
    · rintro ⟨named, member, renames⟩
      rcases processDNSRewrites_cases dnsr with ⟨plain, _⟩ | found | ⟨nr, among, refuses, _⟩
      · exact absurd (plain named member).1 renames
      · exact found
      · exact absurd ⟨⟨named, member, renames⟩, nr, among, refuses⟩ unmixed
    · rintro nobodyRenames ⟨other, member, refuses⟩
      rcases processDNSRewrites_cases dnsr with ⟨plain, _⟩ | ⟨nr, among, renames, _⟩ | found
      · exact absurd (plain other member).2 refuses.2
      · exact absurd ⟨nr, among, renames⟩ nobodyRenames
      · exact found
    · intro nobodyRenames nobodyRefuses
      rcases processDNSRewrites_cases dnsr with ⟨_, result⟩ | ⟨nr, among, renames, _⟩ |
        ⟨nr, among, refuses, _⟩
      · exact result
      · exact absurd ⟨nr, among, renames⟩ nobodyRenames
      · exact absurd ⟨nr, among, refuses⟩ nobodyRefuses
    · intro shuffled same
      have members : ∀ nr, nr ∈ shuffled ↔ nr ∈ dnsr := fun _ => same.mem_iff
      have unmixedToo : ¬ Mixed shuffled := by simpa only [Mixed, members] using unmixed
      rw [kind_of_unmixed unmixed, kind_of_unmixed unmixedToo]
      simp only [members]

section Examples

private def refused : NetworkRule :=
  ⟨lit "|example.org^$dnsrewrite=REFUSED", 1, ⟨[], 5, 0, .nil⟩⟩

private def renamingRule : NetworkRule :=
  ⟨lit "|example.org^$dnsrewrite=example.com", 1, ⟨lit "example.com", 0, 0, .nil⟩⟩

/-- A refusing rule before a rule with a new name hides the name. -/
theorem refusal_hides_cname : ¬ ∀ dnsr : List NetworkRule, dnsr ≠ [] → Prioritized dnsr := by
  intro always
  have prioritized := always [refused, renamingRule] (by simp)
  have kind := prioritized.anyOrder [renamingRule, refused] (List.Perm.swap _ _ _)
  revert kind
  decide

end Examples

end AdGuardHome.Filtering
