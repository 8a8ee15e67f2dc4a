import Mathlib.Data.BitVec

/-! Package `strings`: a Go string is a sequence of bytes. -/
namespace AdGuardHome.Strings

abbrev Bytes := List (BitVec 8)

instance : LawfulBEq Bytes := inferInstance

def lit (literal : String) : Bytes := literal.toList.map fun c => BitVec.ofNat 8 c.toNat

def hasPrefix (s pref : Bytes) : Bool := pref.isPrefixOf s

def hasSuffix (s suffix : Bytes) : Bool := suffix.isSuffixOf s

def trimPrefix (s pref : Bytes) : Bytes := if hasPrefix s pref then s.drop pref.length else s

def trimSuffix (s suffix : Bytes) : Bytes :=
  if hasSuffix s suffix then s.take (s.length - suffix.length) else s

/-- `strings.Contains`. -/
def contains : Bytes → Bytes → Bool
  | [], part => part.isEmpty
  | s@(_ :: rest), part => hasPrefix s part || contains rest part

/-- `strings.Split` at a one-byte separator. -/
def split (separator : BitVec 8) (s : Bytes) : List Bytes := s.splitOn separator

/-- The UTF-8 encodings of the code points of `unicode.IsSpace`. -/
def spaces : List Bytes :=
  [[9], [10], [11], [12], [13], [32], [0xc2, 0x85], [0xc2, 0xa0], [0xe1, 0x9a, 0x80],
    [0xe2, 0x80, 0xa8], [0xe2, 0x80, 0xa9], [0xe2, 0x80, 0xaf], [0xe2, 0x81, 0x9f],
    [0xe3, 0x80, 0x80]] ++
  (List.range 11).map fun i => [0xe2, 0x80, BitVec.ofNat 8 (0x80 + i)]

/-- `strings.TrimSpace`; each round takes a space off at one end. -/
def trimSpace (s : Bytes) : Bytes := trimRight s.length (trimLeft s.length s)
where
  trimLeft : Nat → Bytes → Bytes
    | 0, s => s
    | fuel + 1, s =>
      match spaces.find? (hasPrefix s) with
      | some space => trimLeft fuel (s.drop space.length)
      | none => s
  trimRight : Nat → Bytes → Bytes
    | 0, s => s
    | fuel + 1, s =>
      match spaces.find? (hasSuffix s) with
      | some space => trimRight fuel (s.take (s.length - space.length))
      | none => s

/-- `strings.ToLower` on ASCII bytes. -/
def toLowerASCII (s : Bytes) : Bytes :=
  s.map fun byte => if 65 ≤ byte ∧ byte ≤ 90 then byte + 32 else byte

theorem hasSuffix_iff {s suffix : Bytes} : hasSuffix s suffix = true ↔ suffix <:+ s := by
  simp [hasSuffix]

structure Trimmed (s : Bytes) : Prop where
  left : ∀ space ∈ spaces, ¬ space <+: s
  right : ∀ space ∈ spaces, ¬ space <:+ s

theorem length_pos_of_mem_spaces {space : Bytes} (member : space ∈ spaces) : 0 < space.length := by
  have nonempty : ∀ space ∈ spaces, 0 < space.length := by decide
  exact nonempty space member

namespace trimSpace

theorem trimLeft_suffix (fuel : Nat) (s : Bytes) : trimLeft fuel s <:+ s := by
  induction fuel generalizing s with
  | zero => exact List.suffix_refl s
  | succ fuel ih =>
    simp only [trimLeft]
    split
    · exact (ih _).trans (List.drop_suffix _ _)
    · exact List.suffix_refl s

theorem trimRight_prefix (fuel : Nat) (s : Bytes) : trimRight fuel s <+: s := by
  induction fuel generalizing s with
  | zero => exact List.prefix_refl s
  | succ fuel ih =>
    simp only [trimRight]
    split
    · exact (ih _).trans (List.take_prefix _ _)
    · exact List.prefix_refl s

theorem trimLeft_trimmed {fuel : Nat} {s : Bytes} (enough : s.length ≤ fuel) :
    ∀ space ∈ spaces, ¬ space <+: trimLeft fuel s := by
  induction fuel generalizing s with
  | zero =>
    obtain rfl := List.length_eq_zero_iff.mp (Nat.le_zero.mp enough)
    intro space member isPrefix
    have positive := length_pos_of_mem_spaces member
    simp [List.prefix_nil.mp isPrefix] at positive
  | succ fuel ih =>
    simp only [trimLeft]
    split
    next space found =>
      have positive := length_pos_of_mem_spaces (List.mem_of_find?_eq_some found)
      refine ih ?_
      rw [List.length_drop]
      omega
    next none =>
      intro space member isPrefix
      have absent := List.find?_eq_none.mp none space member
      exact absent (List.isPrefixOf_iff_prefix.mpr isPrefix)

theorem trimRight_trimmed {fuel : Nat} {s : Bytes} (enough : s.length ≤ fuel) :
    ∀ space ∈ spaces, ¬ space <:+ trimRight fuel s := by
  induction fuel generalizing s with
  | zero =>
    obtain rfl := List.length_eq_zero_iff.mp (Nat.le_zero.mp enough)
    intro space member isSuffix
    have positive := length_pos_of_mem_spaces member
    simp [List.suffix_nil.mp isSuffix] at positive
  | succ fuel ih =>
    simp only [trimRight]
    split
    next space found =>
      have positive := length_pos_of_mem_spaces (List.mem_of_find?_eq_some found)
      refine ih ?_
      rw [List.length_take]
      omega
    next none =>
      intro space member isSuffix
      have absent := List.find?_eq_none.mp none space member
      exact absent (hasSuffix_iff.mpr isSuffix)

end trimSpace

theorem trimSpace_trimmed (s : Bytes) : Trimmed (trimSpace s) := by
  have left := trimSpace.trimLeft_trimmed (le_refl s.length)
  have shorter := (trimSpace.trimLeft_suffix s.length s).length_le
  constructor
  · intro space member isPrefix
    exact left space member (isPrefix.trans (trimSpace.trimRight_prefix _ _))
  · exact trimSpace.trimRight_trimmed shorter

theorem trimSpace_infix (s : Bytes) : trimSpace s <:+: s :=
  (trimSpace.trimRight_prefix _ _).isInfix.trans (trimSpace.trimLeft_suffix _ _).isInfix

theorem trimSpace_of_trimmed {s : Bytes} (trimmed : Trimmed s) : trimSpace s = s := by
  have left : ∀ fuel, trimSpace.trimLeft fuel s = s := by
    intro fuel
    cases fuel with
    | zero => rfl
    | succ fuel =>
      have none : spaces.find? (hasPrefix s) = none := List.find?_eq_none.mpr fun space member found =>
        trimmed.left space member (List.isPrefixOf_iff_prefix.mp found)
      simp only [trimSpace.trimLeft, none]
  have right : ∀ fuel, trimSpace.trimRight fuel s = s := by
    intro fuel
    cases fuel with
    | zero => rfl
    | succ fuel =>
      have none : spaces.find? (hasSuffix s) = none := List.find?_eq_none.mpr fun space member found =>
        trimmed.right space member (hasSuffix_iff.mp found)
      simp only [trimSpace.trimRight, none]
  rw [trimSpace, left, right]

example : trimSpace (lit " a b \n") = lit "a b" := by decide

end AdGuardHome.Strings
