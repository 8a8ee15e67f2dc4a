import AdGuardHome.Lib.BinarySearch
import AdGuardHome.Strings

/-! The strict SNI check of `config.go`: which server names a certificate is given for. -/
namespace AdGuardHome.Dnsforward

open Strings

/-- `x509.Certificate`: the names that the check looks at. -/
structure Leaf where
  dnsNames : List Bytes
  commonName : Bytes
deriving DecidableEq

/-- `tls.Certificate`. -/
structure Certificate where
  leaf : Option Leaf
deriving DecidableEq

inductive CertificateError where
  | original (err : Bytes)
  | notSet
  | unknownSNI
deriving DecidableEq

/-- `isWildcard`. -/
def isWildcard (host : Bytes) : Bool := hasPrefix host (lit "*.")

/-- `matchesDomainWildcard`. -/
def matchesDomainWildcard (host pat : Bytes) : Bool :=
  isWildcard pat && hasSuffix host (pat.drop 1)

/-- `slices.BinarySearch`: the position that the search ends at, if the target is there. -/
def binarySearch (names : List Bytes) (target : Bytes) : Option Nat :=
  let i := BinarySearch.lowerBound (fun name => decide (name < target)) names
  if names[i]? = some target then some i else none

def Leaf.names (leaf : Leaf) : List Bytes :=
  if leaf.dnsNames.length = 0 then [leaf.commonName] else leaf.dnsNames

section Check

-- `netutil.IsValidHostname` and `netutil.IsValidIPString`.
variable (isValidHostname isValidIPString : Bytes → Bool)

/-- `anyNameMatches`. -/
def anyNameMatches (dnsNames : List Bytes) (sni : Bytes) : Bool :=
  if !isValidHostname sni && !isValidIPString sni then false
  else if (binarySearch dnsNames sni).isSome then true
  else dnsNames.any (matchesDomainWildcard sni)

/-- The function that `replaceGetCertificate` sets, for the answer of the original one. -/
def getCertificate (original : Except Bytes (Option Certificate)) (serverName : Bytes) :
    Except CertificateError Certificate :=
  match original with
  | .error err => .error (.original err)
  | .ok none => .error .notSet
  | .ok (some cert) =>
    match cert.leaf with
    | none => .error .notSet
    | some leaf =>
      if anyNameMatches isValidHostname isValidIPString leaf.names serverName then .ok cert
      else .error .unknownSNI

end Check

def Covers (name host : Bytes) : Prop :=
  ∃ domain, name = lit "*." ++ domain ∧ lit "." ++ domain <:+ host

def Named (names : List Bytes) (host : Bytes) : Prop :=
  host ∈ names ∨ ∃ name ∈ names, Covers name host

/-- The host is at a position where the halving of the list, by the names as they stand, ends. -/
def Reached (names : List Bytes) (host : Bytes) : Prop :=
  ∃ k, names[k]? = some host ∧ ∀ i ∈ BinarySearch.path k names.length 0 names.length,
    names[i]?.any (fun name => decide (name < host)) = decide (i < k)

theorem matchesDomainWildcard_iff {host pat : Bytes} :
    matchesDomainWildcard host pat = true ↔ Covers pat host := by
  simp only [matchesDomainWildcard, isWildcard, hasPrefix, Bool.and_eq_true, hasSuffix_iff,
    List.isPrefixOf_iff_prefix]
  constructor
  · intro ⟨⟨domain, same⟩, suffix⟩
    refine ⟨domain, same.symm, ?_⟩
    rw [← same] at suffix
    exact suffix
  · intro ⟨domain, same, suffix⟩
    refine ⟨⟨domain, same.symm⟩, ?_⟩
    rw [same]
    exact suffix

theorem binarySearch_isSome_iff {names : List Bytes} {host : Bytes} :
    (binarySearch names host).isSome = true ↔ Reached names host := by
  have here : (binarySearch names host).isSome = true ↔ names[BinarySearch.lowerBound
      (fun name => decide (name < host)) names]? = some host := by
    unfold binarySearch
    dsimp only
    split <;> simp_all
  rw [here]
  constructor
  · intro found
    have bounded := (List.getElem?_eq_some_iff.mp found).1
    exact ⟨_, found, (BinarySearch.lowerBound_eq_iff _ names _ (Nat.le_of_lt bounded)).mp rfl⟩
  · intro ⟨k, found, agrees⟩
    have bounded := (List.getElem?_eq_some_iff.mp found).1
    rw [(BinarySearch.lowerBound_eq_iff _ names k (Nat.le_of_lt bounded)).mpr agrees]
    exact found

theorem Reached.mem {names : List Bytes} {host : Bytes} (reached : Reached names host) :
    host ∈ names :=
  have ⟨_, found, _⟩ := reached
  List.mem_of_getElem? found

section

variable {isValidHostname isValidIPString : Bytes → Bool} {sni : Bytes}
  (valid : isValidHostname sni = true ∨ isValidIPString sni = true)

include valid

theorem anyNameMatches_iff {names : List Bytes} :
    anyNameMatches isValidHostname isValidIPString names sni = true ↔
      Reached names sni ∨ ∃ name ∈ names, Covers name sni := by
  have accepted : (!isValidHostname sni && !isValidIPString sni) = false := by
    rcases valid with valid | valid <;> simp [valid]
  rw [anyNameMatches, accepted, if_neg Bool.false_ne_true, ← binarySearch_isSome_iff]
  split
  next found => simp [found]
  next missed =>
    simp only [missed, List.any_eq_true, matchesDomainWildcard_iff]
    simp

/-- The check gives the certificate for exactly its names if and only if a host that is among
them is where the search ends, or is covered by a wildcard name as well. -/
theorem getCertificate_exact_iff (leaf : Leaf) :
    (getCertificate isValidHostname isValidIPString (.ok (some ⟨some leaf⟩)) sni =
        .ok ⟨some leaf⟩ ↔ Named leaf.names sni) ↔
      (sni ∈ leaf.names → Reached leaf.names sni ∨ ∃ name ∈ leaf.names, Covers name sni) := by
  have given : getCertificate isValidHostname isValidIPString (.ok (some ⟨some leaf⟩)) sni =
      .ok ⟨some leaf⟩ ↔ Reached leaf.names sni ∨ ∃ name ∈ leaf.names, Covers name sni := by
    rw [← anyNameMatches_iff valid]
    simp only [getCertificate]
    split
    next matched => simp [matched]
    next unknown => simp [unknown]
  rw [given, Named]
  constructor
  · intro exact_ member
    exact exact_.mpr (Or.inl member)
  · intro found
    constructor
    · exact Or.imp_left Reached.mem
    · intro named
      rcases named with member | covered
      · exact found member
      · exact Or.inr covered

end

theorem reached_of_sorted {names : List Bytes} {host : Bytes} (sorted : names.Pairwise (· ≤ ·))
    (member : host ∈ names) : Reached names host := by
  have ascending : ∀ i j : Nat, ∀ a b, i < j → names[i]? = some a → names[j]? = some b → a ≤ b := by
    intro i j a b earlier here there
    obtain ⟨first, rfl⟩ := List.getElem?_eq_some_iff.mp here
    obtain ⟨second, rfl⟩ := List.getElem?_eq_some_iff.mp there
    exact List.pairwise_iff_getElem.mp sorted i j first second earlier
  have ordered : BinarySearch.Partitioned (fun name => decide (name < host)) names := by
    intro i j early late
    rcases Nat.lt_or_eq_of_le early with earlier | same
    · obtain ⟨name, here, less⟩ := (Option.any_eq_true _ _).mp late
      have bounded := (List.getElem?_eq_some_iff.mp here).1
      have first : names[i]? = some (names.get ⟨i, by omega⟩) := List.getElem?_eq_getElem _
      rw [first]
      exact decide_eq_true
        (List.lt_of_le_of_lt (ascending i j _ _ earlier first here) (of_decide_eq_true less))
    · exact same ▸ late
  obtain ⟨_, front, back⟩ := BinarySearch.lowerBound_spec _ names ordered
  rw [← binarySearch_isSome_iff]
  unfold binarySearch
  dsimp only
  generalize BinarySearch.lowerBound (fun name => decide (name < host)) names = b at front back
  obtain ⟨k, there⟩ := List.mem_iff_getElem?.mp member
  have before : b ≤ k := by
    by_contra after
    have less := front k (Nat.lt_of_not_le after)
    rw [there] at less
    exact List.lt_irrefl host (of_decide_eq_true less)
  have bounded := (List.getElem?_eq_some_iff.mp there).1
  have here : names[b]? = some (names.get ⟨b, by omega⟩) := List.getElem?_eq_getElem _
  have notLess := back b (Nat.le_refl b)
  rw [here] at notLess
  have above : host ≤ names.get ⟨b, by omega⟩ := List.not_lt.mp (of_decide_eq_false notLess)
  have same : names.get ⟨b, by omega⟩ = host := by
    rcases Nat.lt_or_eq_of_le before with earlier | same
    · exact List.le_antisymm (ascending b k _ _ earlier here there) above
    · subst same
      exact Option.some.inj (here.symm.trans there)
  rw [here, same, if_pos rfl]
  rfl

/-- A certificate whose names are sorted, and one whose names are not. -/
private def sortedLeaf : Leaf := ⟨[lit "*.example.org", lit "example.com"], []⟩
private def unsortedLeaf : Leaf := ⟨[lit "www.example.com", lit "example.com"], []⟩

theorem getCertificate_sorted :
    getCertificate (fun _ => true) (fun _ => false) (.ok (some ⟨some sortedLeaf⟩))
        (lit "example.com") = .ok ⟨some sortedLeaf⟩ ↔ Named sortedLeaf.names (lit "example.com") :=
  (getCertificate_exact_iff (Or.inl rfl) sortedLeaf).mpr fun member =>
    Or.inl (reached_of_sorted (by decide +kernel) member)

/-- The certificate is refused for the second of its names. -/
theorem getCertificate_unsorted :
    ¬ (getCertificate (fun _ => true) (fun _ => false) (.ok (some ⟨some unsortedLeaf⟩))
        (lit "example.com") = .ok ⟨some unsortedLeaf⟩ ↔
      Named unsortedLeaf.names (lit "example.com")) := by
  intro exact_
  have given := exact_.mpr (Or.inl (by decide +kernel))
  exact absurd given (by decide +kernel)

end AdGuardHome.Dnsforward
