import AdGuardHome.Filtering.Rewrites
import Mathlib.Data.Prod.Lex

namespace AdGuardHome.Filtering

open Sorting Strings

namespace LegacyRewrite

/-- What `Compare` compares: CNAME first, exact before wildcard, longer before shorter. -/
def rank (rw : LegacyRewrite) : Nat ×ₗ Nat ×ₗ Int :=
  toLex (if rw.type = .cname then 0 else 1,
    toLex (if isWildcard rw.domain then 1 else 0, -(rw.domain.length : Int)))

theorem compare_lt {a b : LegacyRewrite} : a.compare b < 0 ↔ a.rank < b.rank := by
  simp only [compare, rank, Prod.Lex.toLex_lt_toLex]
  by_cases aName : a.type = .cname <;> by_cases bName : b.type = .cname <;>
    cases aWild : isWildcard a.domain <;> cases bWild : isWildcard b.domain <;>
    simp [aName, bName]

theorem strictWeakOrder : StrictWeakOrder compare := .ofKey rank fun _ _ => compare_lt

theorem compare_type {a b : LegacyRewrite} (name : a.type = .cname) (address : b.type ≠ .cname) :
    a.compare b < 0 := by
  simp [compare, name, address]

theorem compare_wildcard {a b : LegacyRewrite} (exact : isWildcard a.domain = false)
    (wild : isWildcard b.domain = true) (types : a.type = .cname ∨ b.type ≠ .cname) :
    a.compare b < 0 := by
  by_cases name : a.type = .cname <;> by_cases other : b.type = .cname <;>
    simp_all [compare]

/-- Among wildcards of one kind the longer one goes first. -/
theorem compare_length {a b : LegacyRewrite} (aWild : isWildcard a.domain = true)
    (bWild : isWildcard b.domain = true) (types : a.type = .cname ∨ b.type ≠ .cname)
    (longer : b.domain.length < a.domain.length) : a.compare b < 0 := by
  by_cases name : a.type = .cname <;> by_cases other : b.type = .cname <;>
    simp_all [compare]

end LegacyRewrite

def matching (entries : List LegacyRewrite) (host : Bytes) (qtype : RRType) :
    List LegacyRewrite :=
  (entries.filter (·.matchesHost host)).filter (·.matchesQType qtype)

def HasExact (found : List LegacyRewrite) (host : Bytes) : Prop := ∃ e ∈ found, e.domain = host

instance (found : List LegacyRewrite) (host : Bytes) : Decidable (HasExact found host) :=
  inferInstanceAs (Decidable (∃ e ∈ found, e.domain = host))

def longest (found : List LegacyRewrite) : List LegacyRewrite :=
  found.filter fun e => found.all fun other => other.domain.length ≤ e.domain.length

/-- The documented result: CNAME entries come first; an exact match hides the wildcards and
is returned whole; otherwise the entries of the longest wildcard are. The order of the
configuration does not matter. -/
structure Documented (sortFunc : SortFunc LegacyRewrite) (entries : List LegacyRewrite)
    (host : Bytes) (qtype : RRType) : Prop where
  namesFirst : (findRewrites sortFunc entries host qtype).1.Pairwise
    fun a b => b.type = .cname → a.type = .cname
  exact : HasExact (matching entries host qtype) host →
    (∀ e ∈ (findRewrites sortFunc entries host qtype).1, isWildcard e.domain = false) ∧
    ∀ e ∈ matching entries host qtype, e.domain = host →
      e ∈ (findRewrites sortFunc entries host qtype).1
  wildcard : ¬ HasExact (matching entries host qtype) host →
    ∀ e, e ∈ (findRewrites sortFunc entries host qtype).1 ↔
      e ∈ longest (matching entries host qtype)
  anyOrder : ∀ shuffled, shuffled.Perm entries → ∀ e,
    e ∈ (findRewrites sortFunc shuffled host qtype).1 ↔
      e ∈ (findRewrites sortFunc entries host qtype).1

/-- Beside an exact address there is no CNAME wildcard, and the longest wildcard has one
entry, which is a CNAME if any entry is. -/
def Resolvable (found : List LegacyRewrite) (host : Bytes) : Prop :=
  (HasExact found host → isWildcard host = false ∧
    ((∀ e ∈ found, isWildcard e.domain = true → e.type ≠ .cname) ∨
      ∀ e ∈ found, e.domain = host → e.type = .cname)) ∧
  (¬ HasExact found host →
    (∀ a ∈ longest found, ∀ b ∈ longest found, a = b) ∧
    ((∃ e ∈ found, e.type = .cname) → ∀ e ∈ longest found, e.type = .cname))

def Expected (found : List LegacyRewrite) (host : Bytes) (e : LegacyRewrite) : Prop :=
  (HasExact found host → e ∈ found ∧ e.domain = host) ∧
    (¬ HasExact found host → e ∈ longest found)

section Shuffled

variable {found other : List LegacyRewrite} {host : Bytes}

theorem mem_longest {e : LegacyRewrite} : e ∈ longest found ↔
    e ∈ found ∧ ∀ other ∈ found, other.domain.length ≤ e.domain.length := by
  simp [longest]

private theorem hasExact_congr (same : ∀ e, e ∈ other ↔ e ∈ found) :
    HasExact other host ↔ HasExact found host := by
  simp only [HasExact, same]

private theorem longest_congr (same : ∀ e, e ∈ other ↔ e ∈ found) (e : LegacyRewrite) :
    e ∈ longest other ↔ e ∈ longest found := by
  simp only [mem_longest, same]

theorem Resolvable.congr (same : ∀ e, e ∈ other ↔ e ∈ found) (good : Resolvable found host) :
    Resolvable other host := by
  simpa only [Resolvable, hasExact_congr same, longest_congr same, same] using good

theorem Expected.congr (same : ∀ e, e ∈ other ↔ e ∈ found) (e : LegacyRewrite) :
    Expected other host e ↔ Expected found host e := by
  simp only [Expected, hasExact_congr same, longest_congr same, same]

theorem exists_longest (some : found ≠ []) : ∃ e, e ∈ longest found := by
  induction found with
  | nil => exact absurd rfl some
  | cons head tail ih =>
    cases tail with
    | nil => exact ⟨head, by simp [mem_longest]⟩
    | cons next rest =>
      obtain ⟨best, among⟩ := ih (by simp)
      rw [mem_longest] at among
      by_cases longer : best.domain.length ≤ head.domain.length
      · refine ⟨head, mem_longest.mpr ⟨List.mem_cons_self, ?_⟩⟩
        intro other member
        rcases List.mem_cons.mp member with rfl | later
        · exact Nat.le_refl _
        · exact Nat.le_trans (among.2 other later) longer
      · refine ⟨best, mem_longest.mpr ⟨List.mem_cons_of_mem _ among.1, ?_⟩⟩
        intro other member
        rcases List.mem_cons.mp member with rfl | later
        · omega
        · exact among.2 other later

end Shuffled

theorem matching_wildcard {entries : List LegacyRewrite} {host : Bytes} {qtype : RRType}
    {e : LegacyRewrite} (member : e ∈ matching entries host qtype) (other : e.domain ≠ host) :
    isWildcard e.domain = true := by
  simp only [matching, List.mem_filter, LegacyRewrite.matchesHost, matchDomainWildcard,
    Bool.and_eq_true, Bool.or_eq_true, beq_iff_eq] at member
  rcases member.1.2.2 with same | wild
  · exact absurd same other
  · exact wild.1

/-- Where the truncation falls: nowhere, behind a wildcard that comes first, or before the
first wildcard. -/
inductive Cut (sorted : List LegacyRewrite) : List LegacyRewrite → Prop where
  | whole (exact : ∀ e ∈ sorted, isWildcard e.domain = false) : Cut sorted sorted
  | first {w : LegacyRewrite} {rest : List LegacyRewrite} (split : sorted = w :: rest)
      (wild : isWildcard w.domain = true) : Cut sorted [w]
  | front {front rest : List LegacyRewrite} {w : LegacyRewrite} (some : front ≠ [])
      (split : sorted = front ++ w :: rest) (exact : ∀ e ∈ front, isWildcard e.domain = false)
      (wild : isWildcard w.domain = true) : Cut sorted front

theorem Cut.sublist {sorted result : List LegacyRewrite} (cut : Cut sorted result) :
    result.Sublist sorted := by
  cases cut with
  | whole exact => exact List.Sublist.refl _
  | first split wild =>
    rw [split]
    exact List.Sublist.cons_cons _ (List.nil_sublist _)
  | front some split exact wild =>
    rw [split]
    exact List.sublist_append_left _ _

theorem finalizeRewrites_cut (sortFunc : SortFunc LegacyRewrite) (rewrites : List LegacyRewrite) :
    Cut (sortFunc.sort LegacyRewrite.compare rewrites) (finalizeRewrites sortFunc rewrites) := by
  simp only [finalizeRewrites]
  generalize sortFunc.sort LegacyRewrite.compare rewrites = sorted
  cases position : sorted.findIdx? (isWildcard ·.domain) with
  | none =>
    apply Cut.whole
    intro e member
    have plain := List.findIdx?_eq_none_iff.mp position
    simpa using plain e member
  | some i =>
    obtain ⟨bound, wild, before⟩ := List.findIdx?_eq_some_iff_getElem.mp position
    have split : sorted = sorted.take i ++ sorted[i] :: sorted.drop (i + 1) := by
      rw [List.getElem_cons_drop, List.take_append_drop]
    cases i with
    | zero =>
      cases sorted with
      | nil => simp at bound
      | cons w rest => exact .first rfl wild
    | succ i =>
      have cut : max 1 (i + 1) = i + 1 := by omega
      simp only [cut]
      refine .front ?_ split ?_ wild
      · apply List.ne_nil_of_length_pos
        rw [List.length_take]
        omega
      · intro e member
        obtain ⟨j, inside, rfl⟩ := List.mem_take_iff_getElem.mp member
        have plain := before j (by omega)
        simpa using plain

section Result

variable {sortFunc : SortFunc LegacyRewrite} {entries : List LegacyRewrite} {host : Bytes}
variable {qtype : RRType}

theorem findRewrites_cut :
    Cut (sortFunc.sort LegacyRewrite.compare (matching entries host qtype))
      (findRewrites sortFunc entries host qtype).1 := by
  have result : (findRewrites sortFunc entries host qtype).1 =
      if (matching entries host qtype).length = 0 then []
      else finalizeRewrites sortFunc (matching entries host qtype) := rfl
  rw [result]
  split
  · rename_i nothing
    rw [List.length_eq_zero_iff.mp nothing]
    have empty : sortFunc.sort LegacyRewrite.compare [] = [] :=
      List.Perm.eq_nil (sortFunc.perm _ [])
    rw [empty]
    exact .whole (by simp)
  · exact finalizeRewrites_cut sortFunc _

/-- A resolvable question with an exact match has it before every wildcard. -/
theorem Resolvable.compare_lt {found : List LegacyRewrite} (good : Resolvable found host)
    (hasExact : HasExact found host) {e w : LegacyRewrite} (eMember : e ∈ found)
    (exact : e.domain = host) (wMember : w ∈ found) (wild : isWildcard w.domain = true) :
    e.compare w < 0 := by
  obtain ⟨hostPlain, types⟩ := good.1 hasExact
  apply LegacyRewrite.compare_wildcard (exact ▸ hostPlain) wild
  rcases types with addresses | names
  · exact Or.inr (addresses w wMember wild)
  · exact Or.inl (names e eMember exact)

section Sorted

variable {found sorted result : List LegacyRewrite}
variable (listed : ∀ e, e ∈ sorted ↔ e ∈ found)
variable (order : sorted.Pairwise fun a b => ¬ b.compare a < 0)
variable (wildcards : ∀ e ∈ found, e.domain ≠ host → isWildcard e.domain = true)

include listed order wildcards

theorem Resolvable.mem_cut_exact (good : Resolvable found host) (cut : Cut sorted result)
    (hasExact : HasExact found host) (e : LegacyRewrite) :
    e ∈ result ↔ e ∈ found ∧ e.domain = host := by
  have plain : ∀ e ∈ found, isWildcard e.domain = false → e.domain = host := by
    intro e member exact
    by_contra other
    simp [wildcards e member other] at exact
  cases cut with
  | whole exact =>
    rw [listed]
    exact ⟨fun member => ⟨member, plain e member (exact e ((listed e).mpr member))⟩, And.left⟩
  | first split wild =>
    -- An exact entry would have come before the wildcard.
    obtain ⟨best, bestMember, bestExact⟩ := hasExact
    rename_i w rest
    have wMember : w ∈ found := (listed w).mp (split ▸ List.mem_cons_self)
    have before := good.compare_lt ⟨best, bestMember, bestExact⟩ bestMember bestExact wMember wild
    have later : best ∈ w :: rest := split ▸ (listed best).mpr bestMember
    exact absurd before (LegacyRewrite.strictWeakOrder.head_least (split ▸ order) later)
  | front some split exact wild =>
    rename_i rest w
    have wMember : w ∈ found := (listed w).mp (by simp [split])
    constructor
    · intro member
      have eMember := (listed e).mp (by simp [split, member])
      exact ⟨eMember, plain e eMember (exact e member)⟩
    · intro expected
      have inList : e ∈ result ++ w :: rest := split ▸ (listed e).mpr expected.1
      have before := good.compare_lt hasExact expected.1 expected.2 wMember wild
      rcases List.mem_append.mp inList with inFront | behind
      · exact inFront
      · have back := (List.pairwise_append.mp (split ▸ order)).2.1
        exact absurd before (LegacyRewrite.strictWeakOrder.head_least back behind)

theorem Resolvable.head_longest (good : Resolvable found host) (none : ¬ HasExact found host)
    {w : LegacyRewrite} {rest : List LegacyRewrite} (split : sorted = w :: rest) :
    w ∈ longest found := by
  have allWild : ∀ e ∈ found, isWildcard e.domain = true := by
    intro e member
    exact wildcards e member fun exact => none ⟨e, member, exact⟩
  have wMember : w ∈ found := (listed w).mp (split ▸ List.mem_cons_self)
  obtain ⟨best, bestLongest⟩ := exists_longest (List.ne_nil_of_mem wMember)
  obtain ⟨bestMember, bestLength⟩ := mem_longest.mp bestLongest
  have inList : best ∈ w :: rest := split ▸ (listed best).mpr bestMember
  have least := LegacyRewrite.strictWeakOrder.head_least (split ▸ order) inList
  have types : best.type = .cname ∨ w.type ≠ .cname := by
    by_cases name : w.type = .cname
    · exact Or.inl ((good.2 none).2 ⟨w, wMember, name⟩ _ bestLongest)
    · exact Or.inr name
  rw [mem_longest]
  refine ⟨wMember, ?_⟩
  intro other member
  by_contra longer
  have shorter := bestLength other member
  apply least
  exact LegacyRewrite.compare_length (allWild best bestMember) (allWild w wMember) types (by omega)

theorem Resolvable.mem_cut_longest (good : Resolvable found host) (cut : Cut sorted result)
    (none : ¬ HasExact found host) (e : LegacyRewrite) : e ∈ result ↔ e ∈ longest found := by
  have allWild : ∀ e ∈ found, isWildcard e.domain = true := by
    intro e member
    exact wildcards e member fun exact => none ⟨e, member, exact⟩
  cases cut with
  | whole exact =>
    -- There are no entries at all.
    have nobody : ∀ e, e ∉ found := by
      intro e member
      have plain := exact e ((listed e).mpr member)
      simp [allWild e member] at plain
    simp [listed, mem_longest, nobody]
  | first split wild =>
    rename_i w rest
    have wLongest := good.head_longest listed order wildcards none split
    rw [List.mem_singleton]
    constructor
    · rintro rfl
      exact wLongest
    · intro member
      exact (good.2 none).1 e member w wLongest
  | front some split exact wild =>
    obtain ⟨e, member⟩ := List.exists_mem_of_ne_nil _ some
    have plain := exact e member
    simp [allWild e ((listed e).mp (by simp [split, member]))] at plain

end Sorted

theorem mem_findRewrites (good : Resolvable (matching entries host qtype) host)
    (e : LegacyRewrite) : e ∈ (findRewrites sortFunc entries host qtype).1 ↔
      Expected (matching entries host qtype) host e := by
  have listed : ∀ e, e ∈ sortFunc.sort LegacyRewrite.compare (matching entries host qtype) ↔
      e ∈ matching entries host qtype := fun _ => sortFunc.mem_sort
  have order := sortFunc.sorted LegacyRewrite.compare (matching entries host qtype)
    LegacyRewrite.strictWeakOrder
  have wildcards : ∀ e ∈ matching entries host qtype, e.domain ≠ host →
      isWildcard e.domain = true := fun _ member other => matching_wildcard member other
  by_cases hasExact : HasExact (matching entries host qtype) host
  · rw [good.mem_cut_exact listed order wildcards findRewrites_cut hasExact e]
    simp [Expected, hasExact]
  · rw [good.mem_cut_longest listed order wildcards findRewrites_cut hasExact e]
    simp [Expected, hasExact]

theorem namesFirst :
    (findRewrites sortFunc entries host qtype).1.Pairwise
      fun a b => b.type = .cname → a.type = .cname := by
  have order := sortFunc.sorted LegacyRewrite.compare (matching entries host qtype)
    LegacyRewrite.strictWeakOrder
  apply (order.sublist findRewrites_cut.sublist).imp
  intro a b notBefore name
  by_contra address
  exact notBefore (LegacyRewrite.compare_type name address)

theorem Resolvable.documented (good : Resolvable (matching entries host qtype) host) :
    Documented sortFunc entries host qtype := by
  constructor
  · exact namesFirst
  · intro hasExact
    constructor
    · intro e member
      have expected := ((mem_findRewrites good e).mp member).1 hasExact
      exact expected.2 ▸ (good.1 hasExact).1
    · intro e member exact
      exact (mem_findRewrites good e).mpr ⟨fun _ => ⟨member, exact⟩, fun none => absurd hasExact none⟩
  · intro none e
    rw [mem_findRewrites good]
    simp [Expected, none]
  · intro shuffled perm e
    have same : ∀ e, e ∈ matching shuffled host qtype ↔ e ∈ matching entries host qtype := by
      intro e
      simp only [matching, List.mem_filter, perm.mem_iff]
    rw [mem_findRewrites good, mem_findRewrites (good.congr same), Expected.congr same]

/-- An exact address is lost behind a CNAME wildcard: either that comes first in the
sorted list, or it is where the list is cut. -/
theorem Documented.resolvable_exact (documented : Documented sortFunc entries host qtype)
    (hasExact : HasExact (matching entries host qtype) host) : isWildcard host = false ∧
      ((∀ e ∈ matching entries host qtype, isWildcard e.domain = true → e.type ≠ .cname) ∨
        ∀ e ∈ matching entries host qtype, e.domain = host → e.type = .cname) := by
  obtain ⟨noWildcard, allExact⟩ := documented.exact hasExact
  obtain ⟨best, bestMember, bestExact⟩ := hasExact
  constructor
  · rw [← bestExact]
    exact noWildcard best (allExact best bestMember bestExact)
  · by_contra mixed
    simp only [not_or, not_forall, not_not] at mixed
    obtain ⟨⟨name, nameMember, nameWild, isName⟩, address, addressMember, exact, isAddress⟩ := mixed
    have cut : Cut (sortFunc.sort LegacyRewrite.compare (matching entries host qtype))
      (findRewrites sortFunc entries host qtype).1 := findRewrites_cut
    have order := sortFunc.sorted LegacyRewrite.compare (matching entries host qtype)
      LegacyRewrite.strictWeakOrder
    have kept := allExact address addressMember exact
    have listed : name ∈ sortFunc.sort LegacyRewrite.compare (matching entries host qtype) :=
      sortFunc.mem_sort.mpr nameMember
    generalize (findRewrites sortFunc entries host qtype).1 = result at *
    generalize sortFunc.sort LegacyRewrite.compare (matching entries host qtype) = sorted at *
    cases cut with
    | whole plain =>
      have plainName := plain name listed
      simp [nameWild] at plainName
    | @first w rest split wild =>
      have plain := noWildcard w List.mem_cons_self
      simp [wild] at plain
    | @front front rest w some split plain wild =>
      rw [split] at listed order
      rcases List.mem_append.mp listed with inFront | behind
      · have plainName := plain name inFront
        simp [nameWild] at plainName
      · exact (List.pairwise_append.mp order).2.2 address kept name behind
          (LegacyRewrite.compare_type isName isAddress)

/-- The truncation behind a wildcard leaves one entry, the first of the sorted list. -/
theorem Documented.resolvable_wildcard (documented : Documented sortFunc entries host qtype)
    (none : ¬ HasExact (matching entries host qtype) host) :
    (∀ a ∈ longest (matching entries host qtype), ∀ b ∈ longest (matching entries host qtype),
      a = b) ∧
    ((∃ e ∈ matching entries host qtype, e.type = .cname) →
      ∀ e ∈ longest (matching entries host qtype), e.type = .cname) := by
  have returned := documented.wildcard none
  have cut : Cut (sortFunc.sort LegacyRewrite.compare (matching entries host qtype))
    (findRewrites sortFunc entries host qtype).1 := findRewrites_cut
  have order := sortFunc.sorted LegacyRewrite.compare (matching entries host qtype)
    LegacyRewrite.strictWeakOrder
  have listed : ∀ e, e ∈ sortFunc.sort LegacyRewrite.compare (matching entries host qtype) ↔
      e ∈ matching entries host qtype := fun _ => sortFunc.mem_sort
  have allWild : ∀ e ∈ matching entries host qtype, isWildcard e.domain = true := by
    intro e member
    exact matching_wildcard member fun exact => none ⟨e, member, exact⟩
  generalize (findRewrites sortFunc entries host qtype).1 = result at *
  generalize matching entries host qtype = found at *
  generalize sortFunc.sort LegacyRewrite.compare found = sorted at *
  cases cut with
  | whole plain =>
    have nobody : ∀ e, e ∉ found := by
      intro e member
      have plainWild := plain e ((listed e).mpr member)
      simp [allWild e member] at plainWild
    simp [mem_longest, nobody]
  | @first w rest split wild =>
    have only : ∀ e ∈ longest found, e = w := by
      intro e member
      exact List.mem_singleton.mp ((returned e).mpr member)
    constructor
    · intro a aMember b bMember
      rw [only a aMember, only b bMember]
    · intro ⟨name, nameMember, isName⟩ e member
      rw [only e member]
      by_contra isAddress
      have inList : name ∈ w :: rest := split ▸ (listed name).mpr nameMember
      exact LegacyRewrite.strictWeakOrder.head_least (split ▸ order) inList
        (LegacyRewrite.compare_type isName isAddress)
  | @front front rest w some split plain wild =>
    obtain ⟨e, member⟩ := List.exists_mem_of_ne_nil _ some
    have plainWild := plain e member
    simp [allWild e ((listed e).mp (by simp [split, member]))] at plainWild

/-- The documented priority holds exactly where no exact address stands beside a CNAME
wildcard and the longest wildcard has a single entry that no CNAME goes before. -/
theorem documented_iff (sortFunc : SortFunc LegacyRewrite) (entries : List LegacyRewrite)
    (host : Bytes) (qtype : RRType) :
    Documented sortFunc entries host qtype ↔ Resolvable (matching entries host qtype) host := by
  constructor
  · intro documented
    exact ⟨documented.resolvable_exact, documented.resolvable_wildcard⟩
  · exact Resolvable.documented

end Result

section Examples

private def parseAddr (answer : Bytes) : Option Netip.Addr :=
  if answer = lit "192.0.2.1" then some (.v4 0xc0000201) else none

private def raw (domain answer : String) : LegacyRewrite :=
  ⟨lit domain, lit answer, .zero, 0, true⟩

private def configured : List LegacyRewrite :=
  [raw "*.example.org" "example.com", raw "www.example.org" "192.0.2.1"]

private def normalized : List LegacyRewrite :=
  configured.filterMap (·.normalize toLowerASCII parseAddr fun _ => true)

/-- The exact address of `www.example.org` gives way to the CNAME of the wildcard. -/
theorem wildcard_name_hides_exact_address :
    ¬ ∀ (entries : List LegacyRewrite) (host : Bytes) (qtype : RRType),
      (∀ e ∈ entries, ∃ raw : LegacyRewrite,
        raw.normalize toLowerASCII parseAddr (fun _ => true) = some e) →
      Documented .insertion entries host qtype := by
  intro always
  have fromRaw : ∀ e ∈ normalized, ∃ raw : LegacyRewrite,
      raw.normalize toLowerASCII parseAddr (fun _ => true) = some e := by
    intro e member
    obtain ⟨raw, _, result⟩ := List.mem_filterMap.mp member
    exact ⟨raw, result⟩
  have documented := always normalized (lit "www.example.org") .a fromRaw
  have hasExact : HasExact (matching normalized (lit "www.example.org") .a)
    (lit "www.example.org") := by decide +kernel
  have plain := (documented.exact hasExact).1
  revert plain
  decide +kernel

end Examples

end AdGuardHome.Filtering
