import AdGuardHome.Devicedetect.Detector

namespace AdGuardHome.Devicedetect

open Strings

namespace FingerprintRule

/-- The end of the names below the domain of a rule; one of the patterns has its dot already. -/
def dotted (rule : FingerprintRule) : Bytes :=
  if hasPrefix rule.pattern (lit ".") then rule.pattern else lit "." ++ rule.pattern

/-- A rule matches its domain, or a name below it that ends there at a label boundary. -/
def matchesAtLabel (rule : FingerprintRule) (name : Bytes) : Bool :=
  if rule.isExact then name == rule.pattern
  else rule.isSuffix && (name == rule.pattern || hasSuffix name rule.dotted)

def moreSpecific (rule general : FingerprintRule) : Bool :=
  general.isSuffix && rule.pattern != general.pattern && hasSuffix rule.pattern general.dotted

theorem suffix_dotted (rule : FingerprintRule) : rule.pattern <:+ rule.dotted := by
  unfold dotted
  split
  · exact List.suffix_refl _
  · exact List.suffix_append _ _

theorem matchesDomain_of_atLabel {rule : FingerprintRule} {name : Bytes}
    (atLabel : rule.matchesAtLabel name = true) : rule.matchesDomain name = true := by
  unfold matchesAtLabel at atLabel
  unfold matchesDomain
  cases exact_rule : rule.isExact with
  | true =>
    rw [exact_rule, if_pos rfl] at atLabel
    simp [atLabel]
  | false =>
    rw [exact_rule, if_neg (by decide), Bool.and_eq_true, Bool.or_eq_true] at atLabel
    obtain ⟨isSuffix, same | below⟩ := atLabel
    · rw [beq_iff_eq] at same
      simp [isSuffix, same, hasSuffix]
    · simp only [isSuffix, Bool.false_and, Bool.false_eq_true, if_false, if_true]
      exact hasSuffix_iff.mpr ((suffix_dotted rule).trans (hasSuffix_iff.mp below))

theorem suffix_of_matchesDomain {rule : FingerprintRule} {name : Bytes}
    (matched : rule.matchesDomain name = true) : rule.pattern <:+ name := by
  unfold matchesDomain at matched
  split at matched
  next same =>
    rw [Bool.and_eq_true, beq_iff_eq] at same
    rw [same.2]
  next =>
    split at matched
    · exact hasSuffix_iff.mp matched
    · cases matched

end FingerprintRule

def agree : Bytes → Bytes → Bool
  | [], _ => true
  | _, [] => true
  | a :: left, b :: right => a == b && agree left right

theorem agree_of_prefix {left right whole : Bytes} (first : left <+: whole)
    (second : right <+: whole) : agree left right = true := by
  induction whole generalizing left right with
  | nil => rw [List.prefix_nil.mp first]; rfl
  | cons c rest ih =>
    cases left with
    | nil => rfl
    | cons a left =>
      cases right with
      | nil => rfl
      | cons b right =>
        obtain ⟨rfl, left_rest⟩ := List.cons_prefix_cons.mp first
        obtain ⟨rfl, right_rest⟩ := List.cons_prefix_cons.mp second
        simp [agree, ih left_rest right_rest]

def FingerprintRule.reversed (rule : FingerprintRule) : Bytes := rule.pattern.reverse

theorem agree_of_matches {rule other : FingerprintRule} {name : Bytes}
    (matched : rule.matchesDomain name = true) (also : other.matchesDomain name = true) :
    agree rule.reversed other.reversed = true :=
  agree_of_prefix (List.reverse_prefix.mpr (FingerprintRule.suffix_of_matchesDomain matched))
    (List.reverse_prefix.mpr (FingerprintRule.suffix_of_matchesDomain also))

/-- The domains whose rules come after the rules of their parent domains. -/
def shadowedDomains : List Bytes :=
  [lit "osb.samsungcloudsolution.com", lit "tvx.samsungcloudsolution.com",
    lit "ps5.ac.playstation.net", lit "ps4.ac.playstation.net"]

def FingerprintRule.isShadowed (rule : FingerprintRule) : Bool := rule.pattern ∈ shadowedDomains

/-- An earlier rule for some of the names of a later one: it is as good and as specific, or the
later one is shadowed by it. -/
def Precedes (earlier later : FingerprintRule) : Prop :=
  earlier.isShadowed = false ∧
    if later.isShadowed then earlier.confidence = 95 ∧ later.moreSpecific earlier = true
    else later.confidence ≤ earlier.confidence ∧ later.moreSpecific earlier = false

instance (earlier later : FingerprintRule) : Decidable (Precedes earlier later) :=
  inferInstanceAs (Decidable (_ ∧ _))

theorem domainRules_order : domainRules.Pairwise fun earlier later =>
    agree earlier.reversed later.reversed = true → Precedes earlier later := by
  decide +kernel

/-- The rule found first precedes the others that match. -/
theorem find?_related {α : Type} {rel : α → α → Prop} {rules : List α} (order : rules.Pairwise rel)
    {test : α → Bool} {found other : α} (first : rules.find? test = some found)
    (member : other ∈ rules) (matched : test other = true) : other = found ∨ rel found other := by
  obtain ⟨-, before, after, rfl, earlier⟩ := List.find?_eq_some_iff_append.mp first
  obtain front | rfl | back : other ∈ before ∨ other = found ∨ other ∈ after := by
    simpa using member
  · have quiet : test other = false := by simpa using earlier other front
    rw [matched] at quiet
    cases quiet
  · exact .inl rfl
  · have rest := (List.pairwise_append.mp order).2.1
    exact .inr ((List.pairwise_cons.mp rest).1 other back)

theorem precedes_of_first {name : Bytes} {found other : FingerprintRule}
    (first : domainRules.find? (·.matchesDomain name) = some found) (member : other ∈ domainRules)
    (matched : other.matchesDomain name = true) : other = found ∨ Precedes found other := by
  have hit : found.matchesDomain name = true := by simpa using List.find?_some first
  obtain same | related := find?_related domainRules_order first member matched
  · exact .inl same
  · exact .inr (related (agree_of_matches hit matched))

theorem confidence_le {rule : FingerprintRule} (member : rule ∈ domainRules ++ hostRules)
    (plain : rule.isShadowed = false) : rule.confidence ≤ 95 := by
  have bound : ∀ rule ∈ domainRules ++ hostRules,
      rule.confidence ≤ 95 ∨ rule.isShadowed = true := by
    decide +kernel
  obtain low | shadowed := bound rule member
  · exact low
  · rw [plain] at shadowed
    cases shadowed

/-- A shadowed rule is one for a suffix, and the rule of its parent domain matches its names. -/
theorem shadowed_rules : ∀ rule ∈ domainRules, rule.isShadowed = true →
    rule.isSuffix = true ∧ rule.isExact = false ∧ rule.dotted = lit "." ++ rule.pattern ∧
      ∃ general ∈ domainRules, general.isShadowed = false ∧ general.isSuffix = true ∧
        hasSuffix rule.pattern general.pattern = true := by
  decide +kernel

theorem shadowedDomains_rules : ∀ domain ∈ shadowedDomains,
    ∃ rule ∈ domainRules, rule.pattern = domain := by
  decide +kernel

theorem ruleName_inj {rule other : FingerprintRule} (member : rule ∈ domainRules ++ hostRules)
    (also : other ∈ domainRules ++ hostRules) (same : rule.ruleName = other.ruleName) :
    rule = other := by
  have distinct : ((domainRules ++ hostRules).map (·.ruleName)).Nodup := by decide +kernel
  exact List.inj_on_of_nodup_map distinct member also same

theorem suffix_not_exact : ∀ rule ∈ domainRules, rule.isSuffix = true → rule.isExact = false := by
  decide

theorem hostRules_plain : ∀ rule ∈ hostRules,
    rule.isSuffix = false ∧ rule.isShadowed = false := by
  decide +kernel

def AtOrBelow (name domain : Bytes) : Prop := name = domain ∨ lit "." ++ domain <:+ name

namespace Inspection

def Matching (i : Inspection) (rule : FingerprintRule) : Prop :=
  match i.kind with
  | .query => rule ∈ domainRules ∧ rule.matchesAtLabel i.name = true
  | .hostname => rule ∈ hostRules ∧ rule.matchesHostname i.name = true

variable {i : Inspection} {rule other : FingerprintRule}

theorem Matching.mem (matching : i.Matching rule) : rule ∈ domainRules ++ hostRules := by
  unfold Matching at matching
  split at matching
  · exact List.mem_append_left _ matching.1
  · exact List.mem_append_right _ matching.1

theorem mem_of_first (first : i.first = some rule) : rule ∈ domainRules ++ hostRules := by
  have member := List.mem_of_find?_eq_some first
  cases kind : i.kind with
  | query =>
    rw [kind] at member
    exact List.mem_append_left _ member
  | hostname =>
    rw [kind] at member
    exact List.mem_append_right _ member

theorem first_query (kind : i.kind = .query) :
    i.first = domainRules.find? (·.matchesDomain i.name) := by
  rw [first, kind]
  rfl

theorem first_hostname (kind : i.kind = .hostname) :
    i.first = hostRules.find? (·.matchesHostname i.name) := by
  rw [first, kind]
  rfl

theorem matching_query (kind : i.kind = .query) :
    i.Matching rule ↔ rule ∈ domainRules ∧ rule.matchesAtLabel i.name = true := by
  simp only [Matching, kind]

theorem matching_hostname (kind : i.kind = .hostname) :
    i.Matching rule ↔ rule ∈ hostRules ∧ rule.matchesHostname i.name = true := by
  simp only [Matching, kind]

theorem first_of_matching (matching : i.Matching rule) : ∃ found, i.first = some found := by
  cases kind : i.kind with
  | query =>
    obtain ⟨member, matched⟩ := (matching_query kind).mp matching
    rw [first_query kind, ← Option.isSome_iff_exists, List.find?_isSome]
    exact ⟨rule, member, FingerprintRule.matchesDomain_of_atLabel matched⟩
  | hostname =>
    obtain ⟨member, matched⟩ := (matching_hostname kind).mp matching
    rw [first_hostname kind, ← Option.isSome_iff_exists, List.find?_isSome]
    exact ⟨rule, member, matched⟩

theorem first_precedes (kind : i.kind = .query) (found : i.first = some rule)
    (matching : i.Matching other) : other = rule ∨ Precedes rule other := by
  obtain ⟨member, matched⟩ := (matching_query kind).mp matching
  rw [first_query kind] at found
  exact precedes_of_first found member (FingerprintRule.matchesDomain_of_atLabel matched)

theorem not_shadowed_of_first (found : i.first = some rule) : rule.isShadowed = false := by
  have member := List.mem_of_find?_eq_some found
  cases kind : i.kind with
  | hostname =>
    rw [kind] at member
    exact (hostRules_plain rule member).2
  | query =>
    rw [kind] at member
    rw [first_query kind] at found
    by_contra shadowed
    rw [Bool.not_eq_false] at shadowed
    obtain ⟨-, -, -, general, there, plain, isSuffix, below⟩ := shadowed_rules rule member shadowed
    have hit : rule.matchesDomain i.name = true := by simpa using List.find?_some found
    have general_suffix := (hasSuffix_iff.mp below).trans
      (FingerprintRule.suffix_of_matchesDomain hit)
    have matched : general.matchesDomain i.name = true := by
      rw [FingerprintRule.matchesDomain, if_pos isSuffix]
      split
      · rfl
      · exact hasSuffix_iff.mpr general_suffix
    obtain rfl | precedes := precedes_of_first found there matched
    · rw [plain] at shadowed
      cases shadowed
    · rw [precedes.1] at shadowed
      cases shadowed

theorem confidence_of_first (found : i.first = some rule) : rule.confidence ≤ 95 :=
  confidence_le (mem_of_first found) (not_shadowed_of_first found)

theorem matchesAtLabel_shadowed (member : rule ∈ domainRules) (shadowed : rule.isShadowed = true)
    (name : Bytes) : rule.matchesAtLabel name = true ↔ AtOrBelow name rule.pattern := by
  obtain ⟨isSuffix, isExact, dotted, -⟩ := shadowed_rules rule member shadowed
  simp [FingerprintRule.matchesAtLabel, isSuffix, isExact, dotted, AtOrBelow, hasSuffix_iff]

theorem shadowed_iff (kind : i.kind = .query) :
    (∃ domain ∈ shadowedDomains, AtOrBelow i.name domain) ↔
      ∃ rule, i.Matching rule ∧ rule.isShadowed = true := by
  constructor
  · rintro ⟨domain, listed, below⟩
    obtain ⟨rule, member, rfl⟩ := shadowedDomains_rules domain listed
    have shadowed : rule.isShadowed = true := by simpa [FingerprintRule.isShadowed] using listed
    exact ⟨rule, (matching_query kind).mpr
      ⟨member, (matchesAtLabel_shadowed member shadowed i.name).mpr below⟩, shadowed⟩
  · rintro ⟨rule, matching, shadowed⟩
    obtain ⟨member, matched⟩ := (matching_query kind).mp matching
    exact ⟨rule.pattern, by simpa [FingerprintRule.isShadowed] using shadowed,
      (matchesAtLabel_shadowed member shadowed i.name).mp matched⟩

end Inspection

namespace Detector

variable (d : Detector)

/-- The profile of a device is that of the best evidence there has been: of a rule that matches a
name inspected for it, no rule that matches one has a higher confidence, and for the name that it
was taken from there is no more specific rule. -/
structure Best (key : Bytes) : Prop where
  present : ∀ i ∈ d.inspected, i.key = key → ∀ rule, i.Matching rule → d.profile key ≠ none
  best : ∀ p, d.profile key = some p → ∃ rule, p = .of rule p.matchedDomain ∧
    (∃ i ∈ d.inspected, i.key = key ∧ i.Matching rule) ∧
    ∀ i ∈ d.inspected, i.key = key → ∀ other, i.Matching other →
      other.confidence ≤ rule.confidence
  unshadowed : ∀ p, d.profile key = some p →
    ∀ rule ∈ domainRules, p = .of rule p.matchedDomain →
      ∀ i ∈ d.inspected, i.key = key → i.kind = .query → i.name = p.matchedDomain →
        ∀ other, i.Matching other → other.moreSpecific rule = false

/-- A name that does not lead the detector astray. A query is not at or below a shadowed domain, and
if the rule found for it only ends like the name, the profile that there is is better or the rule
has matched a name of the device before. A hostname that several rules match is found by one with
the highest confidence of them, or the profile that there is has that. -/
def Settled (i : Inspection) : Prop :=
  match i.kind with
  | .query =>
    (∀ domain ∈ shadowedDomains, ¬ AtOrBelow i.name domain) ∧
    ∀ rule, i.first = some rule → rule.matchesAtLabel i.name = false →
      (∃ p, d.profile i.key = some p ∧ rule.confidence < p.confidence) ∨
        ∃ j ∈ d.inspected, j.key = i.key ∧ j.Matching rule
  | .hostname =>
    ∀ rule, i.first = some rule → ∀ other ∈ hostRules, other.matchesHostname i.name = true →
      other.confidence ≤ rule.confidence ∨
        ∃ p, d.profile i.key = some p ∧ other.confidence ≤ p.confidence

/-- No profile has a confidence above that of the rules that can be found. -/
def Capped : Prop := ∀ key p, d.profile key = some p → p.confidence ≤ 95

variable {d} {rule other : FingerprintRule} {i : Inspection}

theorem of_inj {name otherName : Bytes} (member : rule ∈ domainRules ++ hostRules)
    (also : other ∈ domainRules ++ hostRules)
    (same : Profile.of rule name = Profile.of other otherName) : rule = other :=
  ruleName_inj member also (congrArg (·.ruleName) same)

/-- What `store` does, by whether it writes the profile. -/
theorem store_cases (before : Option Profile) {rule : FingerprintRule}
    (found : i.first = some rule) :
    ((∀ p, before = some p → p.confidence ≤ rule.confidence) ∧
        store before i = some (.of rule i.name)) ∨
      ∃ p, before = some p ∧ rule.confidence < p.confidence ∧ store before i = some p := by
  cases before with
  | none => exact .inl ⟨fun p there => (nomatch there), by simp [store, found]⟩
  | some p =>
    by_cases weaker : p.confidence ≤ rule.confidence
    · refine .inl ⟨?_, by simp [store, found, weaker]⟩
      intro other same
      rw [← Option.some.inj same]
      exact weaker
    · exact .inr ⟨p, rfl, Nat.lt_of_not_le weaker, by simp [store, found, weaker]⟩

theorem Inspects.capped {after : Detector} (inspects : d.Inspects after i)
    (capped : d.Capped) : after.Capped := by
  intro key p there
  rw [inspects.profile] at there
  split at there
  · cases found : i.first with
    | none =>
      simp only [store, found] at there
      exact capped key p there
    | some rule =>
      obtain ⟨-, stored⟩ | ⟨old, before, -, stored⟩ := store_cases (d.profile key) found
      · obtain rfl := Option.some.inj (stored.symm.trans there)
        exact Inspection.confidence_of_first found
      · obtain rfl := Option.some.inj (stored.symm.trans there)
        exact capped key old before
  · exact capped key p there

theorem Inspects.mem {after : Detector} {i j : Inspection} (inspects : d.Inspects after i) :
    j ∈ after.inspected ↔ j ∈ d.inspected ∨ j = i := by
  simp [inspects.inspected]

theorem Inspects.best_other {after : Detector} (inspects : d.Inspects after i) {key : Bytes}
    (other : key ≠ i.key) : after.Best key ↔ d.Best key := by
  have same : after.profile key = d.profile key := by rw [inspects.profile, if_neg other]
  have names : ∀ (P : Inspection → Prop), (∀ j ∈ after.inspected, j.key = key → P j) ↔
      ∀ j ∈ d.inspected, j.key = key → P j := by
    intro P
    constructor
    · exact fun all j member => all j (inspects.mem.mpr (.inl member))
    · intro all j member here
      obtain old | rfl := inspects.mem.mp member
      · exact all j old here
      · exact absurd here.symm other
  have some_name : ∀ (P : Inspection → Prop), (∃ j ∈ after.inspected, j.key = key ∧ P j) ↔
      ∃ j ∈ d.inspected, j.key = key ∧ P j := by
    intro P
    constructor
    · rintro ⟨j, member, here, holds⟩
      obtain old | rfl := inspects.mem.mp member
      · exact ⟨j, old, here, holds⟩
      · exact absurd here.symm other
    · rintro ⟨j, member, holds⟩
      exact ⟨j, inspects.mem.mpr (.inl member), holds⟩
  constructor
  · rintro ⟨present, best, unshadowed⟩
    simp only [same, names, some_name] at present best unshadowed
    exact ⟨present, best, unshadowed⟩
  · rintro ⟨present, best, unshadowed⟩
    constructor <;> simp only [same, names, some_name]
    · exact present
    · exact best
    · exact unshadowed

theorem Inspects.settled {after : Detector} (inspects : d.Inspects after i) (capped : d.Capped)
    (best : after.Best i.key) : d.Settled i := by
  have here : i ∈ after.inspected := inspects.mem.mpr (.inr rfl)
  have stored : after.profile i.key = store (d.profile i.key) i := by
    rw [inspects.profile, if_pos rfl]
  cases kind : i.kind with
  | query =>
    have goal : (∀ domain ∈ shadowedDomains, ¬ AtOrBelow i.name domain) ∧
        ∀ rule, i.first = some rule → rule.matchesAtLabel i.name = false →
          (∃ p, d.profile i.key = some p ∧ rule.confidence < p.confidence) ∨
            ∃ j ∈ d.inspected, j.key = i.key ∧ j.Matching rule := by
      constructor
      · intro domain listed below
        obtain ⟨other, matching, shadowed⟩ :=
          (Inspection.shadowed_iff kind).mp ⟨domain, listed, below⟩
        obtain ⟨rule, found⟩ := Inspection.first_of_matching matching
        obtain rfl | precedes := Inspection.first_precedes kind found matching
        · rw [Inspection.not_shadowed_of_first found] at shadowed
          cases shadowed
        · obtain ⟨-, beaten⟩ := precedes
          rw [if_pos shadowed] at beaten
          obtain ⟨-, written⟩ | ⟨p, before, higher, -⟩ := store_cases (d.profile i.key) found
          · have member := List.mem_of_find?_eq_some found
            rw [kind] at member
            have quiet := best.unshadowed _ (stored.trans written) rule member rfl i here rfl kind
              rfl other matching
            rw [beaten.2] at quiet
            cases quiet
          · have := capped i.key p before
            omega
      · intro rule found mid_label
        obtain ⟨-, written⟩ | ⟨p, before, higher, -⟩ := store_cases (d.profile i.key) found
        · obtain ⟨other, same, ⟨j, member, j_key, matching⟩, -⟩ := best.best _ (stored.trans written)
          obtain rfl := of_inj (Inspection.mem_of_first found) matching.mem same
          obtain old | rfl := inspects.mem.mp member
          · exact .inr ⟨j, old, j_key, matching⟩
          · rw [((Inspection.matching_query kind).mp matching).2] at mid_label
            cases mid_label
        · exact .inl ⟨p, before, higher⟩
    simpa only [Settled, kind] using goal
  | hostname =>
    have goal : ∀ rule, i.first = some rule → ∀ other ∈ hostRules,
        other.matchesHostname i.name = true → other.confidence ≤ rule.confidence ∨
          ∃ p, d.profile i.key = some p ∧ other.confidence ≤ p.confidence := by
      intro rule found other listed matched
      have matching := (Inspection.matching_hostname kind).mpr ⟨listed, matched⟩
      obtain ⟨-, written⟩ | ⟨p, before, -, kept⟩ := store_cases (d.profile i.key) found
      · obtain ⟨best_rule, same, -, highest⟩ := best.best _ (stored.trans written)
        have bound := highest i here rfl other matching
        have equal : rule.confidence = best_rule.confidence :=
          congrArg (fun p : Profile => p.confidence) same
        exact .inl (equal ▸ bound)
      · obtain ⟨best_rule, same, -, highest⟩ := best.best _ (stored.trans kept)
        have bound := highest i here rfl other matching
        have equal : p.confidence = best_rule.confidence :=
          congrArg (fun p : Profile => p.confidence) same
        exact .inr ⟨p, before, equal ▸ bound⟩
    simpa only [Settled, kind] using goal

/-- The rule that is found for a query that settles is as good as the others that match it, and
none of them is more specific. -/
theorem Settled.first (settled : d.Settled i) (kind : i.kind = .query) (found : i.first = some rule)
    (matching : i.Matching other) :
    other.confidence ≤ rule.confidence ∧ other.moreSpecific rule = false := by
  simp only [Settled, kind] at settled
  obtain rfl | ⟨-, order⟩ := Inspection.first_precedes kind found matching
  · exact ⟨Nat.le_refl _, by simp [FingerprintRule.moreSpecific]⟩
  · split at order
    next shadowed =>
      obtain ⟨domain, listed, below⟩ := (Inspection.shadowed_iff kind).mpr
        ⟨other, matching, shadowed⟩
      exact absurd below (settled.1 domain listed)
    next => exact order

theorem Settled.bound (settled : d.Settled i) (found : i.first = some rule)
    (matching : i.Matching other) :
    other.confidence ≤ rule.confidence ∨
      ∃ p, d.profile i.key = some p ∧ other.confidence ≤ p.confidence := by
  cases kind : i.kind with
  | hostname =>
    obtain ⟨listed, matched⟩ := (Inspection.matching_hostname kind).mp matching
    simp only [Settled, kind] at settled
    exact settled rule found other listed matched
  | query => exact .inl (settled.first kind found matching).1

theorem matching_general (kind : i.kind = .query) (matching : i.Matching other)
    (member : rule ∈ domainRules) (general : other.moreSpecific rule = true) : i.Matching rule := by
  obtain ⟨-, matched⟩ := (Inspection.matching_query kind).mp matching
  have ends := FingerprintRule.suffix_of_matchesDomain
    (FingerprintRule.matchesDomain_of_atLabel matched)
  simp only [FingerprintRule.moreSpecific, Bool.and_eq_true] at general
  obtain ⟨⟨isSuffix, -⟩, below⟩ := general
  have plain := suffix_not_exact rule member isSuffix
  have name_below := hasSuffix_iff.mpr ((hasSuffix_iff.mp below).trans ends)
  refine (Inspection.matching_query kind).mpr ⟨member, ?_⟩
  simp [FingerprintRule.matchesAtLabel, plain, isSuffix, name_below]

/-- A name that leaves the profile as it is. -/
theorem Inspects.best_kept {after : Detector} (inspects : d.Inspects after i) (best : d.Best i.key)
    (settled : d.Settled i) (same : after.profile i.key = d.profile i.key)
    (higher : ∀ rule, i.first = some rule →
      ∃ p, d.profile i.key = some p ∧ rule.confidence < p.confidence) : after.Best i.key := by
  have known : ∀ {rule}, i.Matching rule →
      ∃ p, d.profile i.key = some p ∧ rule.confidence ≤ p.confidence := by
    intro rule matching
    obtain ⟨first, found⟩ := Inspection.first_of_matching matching
    obtain below | there := settled.bound found matching
    · obtain ⟨p, there, less⟩ := higher first found
      exact ⟨p, there, by omega⟩
    · exact there
  constructor
  · intro j member key rule matching
    rw [same]
    obtain old | rfl := inspects.mem.mp member
    · exact best.present j old key rule matching
    · obtain ⟨p, there, -⟩ := known matching
      rw [there]
      simp
  · intro p there
    rw [same] at there
    obtain ⟨rule, taken, ⟨j, member, evidence⟩, highest⟩ := best.best p there
    refine ⟨rule, taken, ⟨j, inspects.mem.mpr (.inl member), evidence⟩, ?_⟩
    intro j member key other matching
    obtain old | rfl := inspects.mem.mp member
    · exact highest j old key other matching
    · obtain ⟨p', there', bound⟩ := known matching
      obtain rfl := Option.some.inj (there'.symm.trans there)
      have equal : p'.confidence = rule.confidence :=
        congrArg (fun p : Profile => p.confidence) taken
      exact equal ▸ bound
  · intro p there rule listed taken j member key kind name other matching
    rw [same] at there
    obtain old | rfl := inspects.mem.mp member
    · exact best.unshadowed p there rule listed taken j old key kind name other matching
    · by_contra specific
      rw [Bool.not_eq_false] at specific
      have general := matching_general kind matching listed specific
      obtain ⟨first, found⟩ := Inspection.first_of_matching general
      have bound := (settled.first kind found general).1
      obtain ⟨p', there', less⟩ := higher first found
      obtain rfl := Option.some.inj (there'.symm.trans there)
      have equal : p'.confidence = rule.confidence :=
        congrArg (fun p : Profile => p.confidence) taken
      omega

/-- A name whose rule is written to the profile. -/
theorem Inspects.best_written {after : Detector} (inspects : d.Inspects after i)
    (best : d.Best i.key) (settled : d.Settled i) {rule : FingerprintRule}
    (found : i.first = some rule)
    (weaker : ∀ p, d.profile i.key = some p → p.confidence ≤ rule.confidence)
    (written : after.profile i.key = some (.of rule i.name)) : after.Best i.key := by
  have highest : ∀ j ∈ after.inspected, j.key = i.key → ∀ other, j.Matching other →
      other.confidence ≤ rule.confidence := by
    intro j member key other matching
    obtain old | rfl := inspects.mem.mp member
    · obtain ⟨p, there⟩ := Option.ne_none_iff_exists'.mp (best.present j old key other matching)
      obtain ⟨best_rule, taken, -, bound⟩ := best.best p there
      have equal : p.confidence = best_rule.confidence :=
        congrArg (fun p : Profile => p.confidence) taken
      have := bound j old key other matching
      have := weaker p there
      omega
    · obtain bound | ⟨p, there, bound⟩ := settled.bound found matching
      · exact bound
      · exact bound.trans (weaker p there)
  have evidence : ∃ j ∈ after.inspected, j.key = i.key ∧ j.Matching rule := by
    have member := List.mem_of_find?_eq_some found
    have hit := List.find?_some found
    cases kind : i.kind with
    | hostname =>
      rw [kind] at member hit
      exact ⟨i, inspects.mem.mpr (.inr rfl), rfl,
        (Inspection.matching_hostname kind).mpr ⟨member, hit⟩⟩
    | query =>
      rw [kind] at member
      cases atLabel : rule.matchesAtLabel i.name with
      | true =>
        exact ⟨i, inspects.mem.mpr (.inr rfl), rfl,
          (Inspection.matching_query kind).mpr ⟨member, atLabel⟩⟩
      | false =>
        simp only [Settled, kind] at settled
        obtain ⟨p, there, higher⟩ | ⟨j, old, key, matching⟩ := settled.2 rule found atLabel
        · have := weaker p there
          omega
        · exact ⟨j, inspects.mem.mpr (.inl old), key, matching⟩
  constructor
  · intro j _ _ other _
    rw [written]
    simp
  · intro p there
    obtain rfl := Option.some.inj (written.symm.trans there)
    exact ⟨rule, rfl, evidence, highest⟩
  · intro p there other listed taken j member key kind name specific matching
    obtain rfl := Option.some.inj (written.symm.trans there)
    obtain rfl := of_inj (Inspection.mem_of_first found) (List.mem_append_left _ listed) taken
    cases kind_i : i.kind with
    | hostname =>
      have from_hosts := List.mem_of_find?_eq_some found
      rw [kind_i] at from_hosts
      simp [FingerprintRule.moreSpecific, (hostRules_plain rule from_hosts).1]
    | query =>
      have same : i.Matching specific := by
        rw [Inspection.matching_query kind] at matching
        rw [Inspection.matching_query kind_i]
        have same_name : j.name = i.name := name
        exact ⟨matching.1, same_name ▸ matching.2⟩
      exact (settled.first kind_i found same).2

theorem Inspects.best_iff {after : Detector} (inspects : d.Inspects after i) (capped : d.Capped)
    (best : ∀ key, d.Best key) : (∀ key, after.Best key) ↔ d.Settled i := by
  constructor
  · exact fun all => inspects.settled capped (all i.key)
  · intro settled key
    by_cases here : key = i.key
    · subst here
      have stored : after.profile i.key = store (d.profile i.key) i := by
        rw [inspects.profile, if_pos rfl]
      cases found : i.first with
      | none =>
        apply inspects.best_kept (best _) settled
        · rw [stored]
          simp only [store, found]
        · intro rule there
          rw [found] at there
          cases there
      | some rule =>
        obtain ⟨weaker, written⟩ | ⟨p, before, higher, kept⟩ :=
          store_cases (d.profile i.key) found
        · exact inspects.best_written (best _) settled found weaker (stored.trans written)
        · apply inspects.best_kept (best _) settled
          · rw [stored, kept, before]
          · intro other there
            obtain rfl := Option.some.inj (found.symm.trans there)
            exact ⟨p, before, higher⟩
    · exact (inspects.best_other here).mpr (best key)

section Runs
variable (toLower : Bytes → Bytes)

def after (calls : List Call) (steps : Nat) : Detector :=
  (machine toLower).run new (calls.take steps)

/-- Over a run of calls every profile is that of the best evidence at each moment, and the
confidence of a device never decreases. -/
structure BestEvidence (calls : List Call) : Prop where
  best : ∀ steps key, (after toLower calls steps).Best key
  rises : ∀ steps key p, (after toLower calls steps).profile key = some p →
    ∃ later, (after toLower calls (steps + 1)).profile key = some later ∧
      p.confidence ≤ later.confidence

theorem next_capped (d : Detector) (call : Call) (capped : d.Capped) :
    ((machine toLower).next d call).Capped := by
  have inspects := d.next_inspects toLower call
  cases inspection : call.inspection toLower with
  | none =>
    simp only [inspection] at inspects
    rwa [inspects]
  | some i =>
    simp only [inspection] at inspects
    exact inspects.capped capped

theorem next_rises (d : Detector) (call : Call) {key : Bytes} {p : Profile}
    (there : d.profile key = some p) :
    ∃ later, ((machine toLower).next d call).profile key = some later ∧
      p.confidence ≤ later.confidence := by
  have inspects := d.next_inspects toLower call
  cases inspection : call.inspection toLower with
  | none =>
    simp only [inspection] at inspects
    exact ⟨p, by rw [inspects, there], Nat.le_refl _⟩
  | some i =>
    simp only [inspection] at inspects
    rw [inspects.profile]
    split
    next here =>
      cases found : i.first with
      | none => exact ⟨p, by simp only [store, found, there], Nat.le_refl _⟩
      | some rule =>
        obtain ⟨weaker, written⟩ | ⟨old, before, -, kept⟩ := store_cases (d.profile key) found
        · exact ⟨_, written, weaker p there⟩
        · obtain rfl := Option.some.inj (before.symm.trans there)
          exact ⟨old, kept, Nat.le_refl _⟩
    next => exact ⟨p, there, Nat.le_refl _⟩

theorem run_rises (calls : List Call) (d : Detector) (steps : Nat) {key : Bytes} {p : Profile}
    (there : ((machine toLower).run d (calls.take steps)).profile key = some p) :
    ∃ later, ((machine toLower).run d (calls.take (steps + 1))).profile key = some later ∧
      p.confidence ≤ later.confidence := by
  induction calls generalizing d steps with
  | nil => exact ⟨p, by simpa using there, Nat.le_refl _⟩
  | cons call rest ih =>
    cases steps with
    | zero => exact next_rises toLower d call there
    | succ steps => exact ih _ steps there

/-- What a call has to meet for the profiles to stay the best ones. -/
def Sound (d : Detector) (call : Call) : Prop :=
  ∀ i, call.inspection toLower = some i → d.Settled i

/-- The profiles are those of the best evidence throughout a run exactly if every name in it
settles when it is inspected. -/
theorem bestEvidence_iff (calls : List Call) :
    BestEvidence toLower calls ↔ (machine toLower).Allowed (Sound toLower) new calls := by
  have exactly : ∀ (d : Detector) (call : Call), (d.Capped ∧ ∀ key, d.Best key) →
      ((((machine toLower).next d call).Capped ∧ ∀ key, ((machine toLower).next d call).Best key) ↔
        Sound toLower d call) := by
    rintro d call ⟨capped, best⟩
    have inspects := d.next_inspects toLower call
    unfold Sound
    cases inspection : call.inspection toLower with
    | none =>
      simp only [inspection] at inspects
      rw [inspects]
      simp [capped, best]
    | some i =>
      simp only [inspection] at inspects
      rw [inspects.best_iff capped best]
      simp [inspects.capped capped]
  have start : new.Capped ∧ ∀ key, new.Best key := by
    refine ⟨fun _ _ there => (nomatch there), fun key => ?_⟩
    constructor
    · intro i member
      cases member
    · intro p there
      cases there
    · intro p there
      cases there
  have runs := (machine toLower).run_invariant_iff exactly new calls
  constructor
  · intro evidence
    apply (runs.mp _).2
    intro steps
    have reached : (machine toLower).Reachable new
        ((machine toLower).run new (calls.take steps)) := ⟨_, rfl⟩
    exact ⟨(machine toLower).reachable_invariant Capped
      (fun d call => next_capped toLower d call) start.1 reached, evidence.best steps⟩
  · intro allowed
    exact ⟨fun steps => (runs.mpr ⟨start, allowed⟩ steps).2,
      fun steps _ _ there => run_rises toLower calls new steps there⟩

theorem settled_of_single {call : Call} (evidence : BestEvidence toLower [call]) {i : Inspection}
    (inspection : call.inspection toLower = some i) : new.Settled i := by
  have inspects := new.next_inspects toLower call
  simp only [inspection] at inspects
  exact inspects.settled (fun _ _ there => nomatch there) (evidence.best 1 i.key)

/-- A console is not told by the rule of its generation, a hostname not by the better of two rules,
and a domain that only ends like another one is taken for it. -/
theorem evidence_lost :
    ¬ BestEvidence toLowerASCII
      [.query 0 ⟨lit "192.0.2.1", true⟩ [] (lit "ps5.ac.playstation.net.")] ∧
    ¬ BestEvidence toLowerASCII
      [.hostname 0 ⟨lit "192.0.2.1", true⟩ [] (lit "Windows-Xbox")] ∧
    ¬ BestEvidence toLowerASCII
      [.query 0 ⟨lit "192.0.2.1", true⟩ [] (lit "unmask.icloud.com.")] := by
  refine ⟨?_, ?_, ?_⟩
  · intro evidence
    have inspection : (Call.query 0 ⟨lit "192.0.2.1", true⟩ []
        (lit "ps5.ac.playstation.net.")).inspection toLowerASCII =
          some ⟨lit "192.0.2.1", .query, lit "ps5.ac.playstation.net"⟩ := by
      decide +kernel
    have settled := settled_of_single toLowerASCII evidence inspection
    exact settled.1 (lit "ps5.ac.playstation.net") (by simp [shadowedDomains]) (.inl rfl)
  · intro evidence
    have inspection : (Call.hostname 0 ⟨lit "192.0.2.1", true⟩ []
        (lit "Windows-Xbox")).inspection toLowerASCII =
          some ⟨lit "192.0.2.1", .hostname, lit "Windows-Xbox"⟩ := by
      decide +kernel
    have settled := settled_of_single toLowerASCII evidence inspection
    have found : ∃ rule ∈ hostRules, hostRules.find? (·.matchesHostname (lit "Windows-Xbox")) =
        some rule ∧ ∃ other ∈ hostRules, other.matchesHostname (lit "Windows-Xbox") = true ∧
          rule.confidence < other.confidence := by
      decide +kernel
    obtain ⟨rule, -, first, other, member, matched, higher⟩ := found
    obtain bound | ⟨p, there, -⟩ := settled rule first other member matched
    · omega
    · cases there
  · intro evidence
    have inspection : (Call.query 0 ⟨lit "192.0.2.1", true⟩ []
        (lit "unmask.icloud.com.")).inspection toLowerASCII =
          some ⟨lit "192.0.2.1", .query, lit "unmask.icloud.com"⟩ := by
      decide +kernel
    have settled := settled_of_single toLowerASCII evidence inspection
    have found : ∃ rule, domainRules.find? (·.matchesDomain (lit "unmask.icloud.com")) =
        some rule ∧ rule.matchesAtLabel (lit "unmask.icloud.com") = false :=
      ⟨_, rfl, by decide +kernel⟩
    obtain ⟨rule, first, mid_label⟩ := found
    obtain ⟨p, there, -⟩ | ⟨j, member, -⟩ := settled.2 rule first mid_label
    · cases there
    · cases member

end Runs

end Detector

end AdGuardHome.Devicedetect
