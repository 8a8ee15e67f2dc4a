import Mathlib.Data.BitVec

/-! Texts of bytes in UTF-8, and what is made of a text that is not. -/
namespace UTF8

abbrev Text := List (BitVec 8)

def within (low high b : BitVec 8) : Bool := low ≤ b && b ≤ high

/-- A byte after the first one of a character. -/
def tail (b : BitVec 8) : Bool := within 0x80 0xBF b

/-- The number of bytes of the character that a text starts with; zero when there is none. -/
def characterLength : Text → Nat
  | [] => 0
  | a :: rest =>
    if within 0x00 0x7F a then 1
    else if within 0xC2 0xDF a then
      match rest with
      | b :: _ => if tail b then 2 else 0
      | _ => 0
    else if within 0xE0 0xEF a then
      match rest with
      | b :: c :: _ =>
        let low := if a = 0xE0 then 0xA0 else 0x80
        let high := if a = 0xED then 0x9F else 0xBF
        if within low high b && tail c then 3 else 0
      | _ => 0
    else if within 0xF0 0xF4 a then
      match rest with
      | b :: c :: d :: _ =>
        let low := if a = 0xF0 then 0x90 else 0x80
        let high := if a = 0xF4 then 0x8F else 0xBF
        if within low high b && tail c && tail d then 4 else 0
      | _ => 0
    else 0

/-- The replacement character. -/
def replacement : Text := [0xEF, 0xBF, 0xBD]

/-- The text with the replacement character for each byte that is in no character. The
length of the text is a number of rounds that is enough. -/
def repair : Nat → Text → Text
  | 0, _ => []
  | _ + 1, [] => []
  | rounds + 1, a :: rest =>
    match characterLength (a :: rest) with
    | 0 => replacement ++ repair rounds rest
    | more + 1 => a :: rest.take more ++ repair rounds (rest.drop more)

def toValid (s : Text) : Text := repair s.length s

@[simp] theorem toValid_nil : toValid [] = [] := rfl

/-- A part of a text: a character, or a byte that is in none. -/
inductive Piece where
  | character (bytes : Text)
  | wrong (b : BitVec 8)
deriving DecidableEq

def Piece.bytes : Piece → Text
  | .character bytes => bytes
  | .wrong b => [b]

def Piece.repaired : Piece → Text
  | .character bytes => bytes
  | .wrong _ => replacement

/-- The parts of a text, as `repair` finds them. -/
def piecesOf : Nat → Text → List Piece
  | 0, _ => []
  | _ + 1, [] => []
  | rounds + 1, a :: rest =>
    match characterLength (a :: rest) with
    | 0 => .wrong a :: piecesOf rounds rest
    | more + 1 => .character (a :: rest.take more) :: piecesOf rounds (rest.drop more)

def pieces (s : Text) : List Piece := piecesOf s.length s

/-- A character is a byte of ASCII or has no such byte; a byte in no character is not one. -/
def Piece.Separate : Piece → Prop
  | .character bytes => (∃ a : BitVec 8, a < 0x80 ∧ bytes = [a]) ∨ ∀ b ∈ bytes, 0x80 ≤ b
  | .wrong b => 0x80 ≤ b

theorem not_ascii {low high b : BitVec 8} (inside : within low high b = true)
    (from_ : 0x80 ≤ low) : 0x80 ≤ b := by
  rw [within, Bool.and_eq_true, decide_eq_true_iff, decide_eq_true_iff] at inside
  exact BitVec.le_trans from_ inside.1

theorem tail_not_ascii {b : BitVec 8} (inside : tail b = true) : 0x80 ≤ b :=
  not_ascii inside (by decide)

theorem ascii_within {a : BitVec 8} : within 0x00 0x7F a = true ↔ a < 0x80 := by
  rw [within, Bool.and_eq_true, decide_eq_true_iff, decide_eq_true_iff]
  bv_omega

theorem characterLength_zero {a : BitVec 8} {rest : Text}
    (none_ : characterLength (a :: rest) = 0) : 0x80 ≤ a := by
  by_contra small
  have inside : within 0x00 0x7F a = true := ascii_within.mpr (by bv_omega)
  unfold characterLength at none_
  dsimp only at none_
  rw [if_pos inside] at none_
  cases none_

theorem character_separate {a : BitVec 8} {rest : Text} {more : Nat}
    (length : characterLength (a :: rest) = more + 1) :
    Piece.Separate (.character (a :: rest.take more)) := by
  unfold characterLength at length
  dsimp only at length
  split at length
  · rename_i inside
    cases length
    exact .inl ⟨a, ascii_within.mp inside, by rw [List.take_zero]⟩
  refine .inr ?_
  split at length
  · rename_i first
    split at length
    · split at length
      · rename_i second
        cases length
        simp only [List.take_succ_cons, List.take_zero, List.forall_mem_cons]
        exact ⟨not_ascii first (by decide), tail_not_ascii second, List.forall_mem_nil _⟩
      · cases length
    · cases length
  split at length
  · rename_i first
    split at length
    · have from_ : (0x80 : BitVec 8) ≤ if a = 0xE0 then 0xA0 else 0x80 := by split <;> decide
      generalize (if a = 0xE0 then 0xA0 else 0x80 : BitVec 8) = low at length from_
      generalize (if a = 0xED then 0x9F else 0xBF : BitVec 8) = high at length
      split at length
      · rename_i inside
        rw [Bool.and_eq_true] at inside
        cases length
        simp only [List.take_succ_cons, List.take_zero, List.forall_mem_cons]
        exact ⟨not_ascii first (by decide), not_ascii inside.1 from_, tail_not_ascii inside.2,
          List.forall_mem_nil _⟩
      · cases length
    · cases length
  split at length
  · rename_i first
    split at length
    · have from_ : (0x80 : BitVec 8) ≤ if a = 0xF0 then 0x90 else 0x80 := by split <;> decide
      generalize (if a = 0xF0 then 0x90 else 0x80 : BitVec 8) = low at length from_
      generalize (if a = 0xF4 then 0x8F else 0xBF : BitVec 8) = high at length
      split at length
      · rename_i inside
        rw [Bool.and_eq_true, Bool.and_eq_true] at inside
        cases length
        simp only [List.take_succ_cons, List.take_zero, List.forall_mem_cons]
        exact ⟨not_ascii first (by decide), not_ascii inside.1.1 from_,
          tail_not_ascii inside.1.2, tail_not_ascii inside.2, List.forall_mem_nil _⟩
      · cases length
    · cases length
  · cases length

theorem piecesOf_separate {rounds : Nat} {s : Text} {piece : Piece}
    (member : piece ∈ piecesOf rounds s) : piece.Separate := by
  induction rounds generalizing s with
  | zero => cases member
  | succ rounds ih =>
    cases s with
    | nil => cases member
    | cons a rest =>
      rw [piecesOf] at member
      split at member
      · rename_i none_
        rcases List.mem_cons.mp member with rfl | later
        · exact characterLength_zero none_
        · exact ih later
      · rename_i more length
        rcases List.mem_cons.mp member with rfl | later
        · exact character_separate length
        · exact ih later

theorem piecesOf_bytes {rounds : Nat} {s : Text} (enough : s.length ≤ rounds) :
    (piecesOf rounds s).flatMap Piece.bytes = s := by
  induction rounds generalizing s with
  | zero =>
    rw [List.eq_nil_of_length_eq_zero (Nat.le_zero.mp enough)]
    rfl
  | succ rounds ih =>
    cases s with
    | nil => rfl
    | cons a rest =>
      have less : rest.length ≤ rounds := Nat.le_of_succ_le_succ enough
      rw [piecesOf]
      split
      · rw [List.flatMap_cons, ih less]
        rfl
      · rename_i more _
        have dropped : (rest.drop more).length ≤ rounds := by
          rw [List.length_drop]
          exact le_trans (Nat.sub_le _ _) less
        rw [List.flatMap_cons, ih dropped, Piece.bytes, List.cons_append, List.take_append_drop]

theorem repair_eq (rounds : Nat) (s : Text) :
    repair rounds s = (piecesOf rounds s).flatMap Piece.repaired := by
  induction rounds generalizing s with
  | zero => rfl
  | succ rounds ih =>
    cases s with
    | nil => rfl
    | cons a rest =>
      rw [repair, piecesOf]
      split
      · rw [ih]
        rfl
      · rw [ih]
        rfl

theorem pieces_separate {s : Text} {piece : Piece} (member : piece ∈ pieces s) :
    piece.Separate :=
  piecesOf_separate member

theorem pieces_bytes (s : Text) : (pieces s).flatMap Piece.bytes = s :=
  piecesOf_bytes (Nat.le_refl _)

theorem toValid_eq (s : Text) : toValid s = (pieces s).flatMap Piece.repaired :=
  repair_eq s.length s

/-- The characters of a text, with the replacement character for each byte that is in none. -/
def runes (s : Text) : List Text := (pieces s).map Piece.repaired

theorem Piece.Separate.count {piece : Piece} (separate : piece.Separate) {b : BitVec 8}
    (ascii : b < 0x80) : [piece.repaired].count [b] = piece.bytes.count b ∧
      piece.repaired.count b = piece.bytes.count b := by
  cases piece with
  | character bytes =>
    refine ⟨?_, rfl⟩
    rcases separate with ⟨a, _, rfl⟩ | far
    · change [[a]].count [b] = [a].count b
      rw [List.count_singleton, List.count_singleton]
      simp
    · have absent : b ∉ bytes := fun inside => absurd (far b inside) (by bv_omega)
      rw [Piece.bytes, List.count_eq_zero.mpr absent, List.count_eq_zero]
      intro same
      rw [← show [b] = bytes from List.mem_singleton.mp same] at absent
      exact absent List.mem_cons_self
  | wrong c =>
    have far : (0x80 : BitVec 8) ≤ c := separate
    have other : b ∉ [c] := by
      intro same
      rw [List.mem_singleton.mp same] at ascii
      bv_omega
    have replaced : b ∉ replacement := by
      simp only [replacement, List.mem_cons, List.not_mem_nil, or_false, not_or]
      exact ⟨by bv_omega, by bv_omega, by bv_omega⟩
    rw [Piece.bytes, List.count_eq_zero.mpr other, Piece.repaired, List.count_eq_zero.mpr replaced,
      List.count_eq_zero]
    refine ⟨fun same => ?_, rfl⟩
    cases List.mem_singleton.mp same

theorem runes_count (s : Text) {b : BitVec 8} (ascii : b < 0x80) :
    (runes s).count [b] = s.count b ∧ (toValid s).count b = s.count b := by
  have all : ∀ parts : List Piece, (∀ piece ∈ parts, piece.Separate) →
      (parts.map Piece.repaired).count [b] = (parts.flatMap Piece.bytes).count b ∧
        (parts.flatMap Piece.repaired).count b = (parts.flatMap Piece.bytes).count b := by
    intro parts separate
    induction parts with
    | nil => exact ⟨rfl, rfl⟩
    | cons piece parts ih =>
      rw [List.forall_mem_cons] at separate
      obtain ⟨one, other⟩ := separate.1.count ascii
      obtain ⟨more, others⟩ := ih separate.2
      rw [List.flatMap_cons, List.flatMap_cons, List.count_append, List.count_append, other, others,
        List.map_cons, List.count_cons, more, ← one, List.count_singleton, Nat.add_comm]
      exact ⟨rfl, rfl⟩
  have whole := all (pieces s) fun _ => pieces_separate
  rw [pieces_bytes, ← toValid_eq] at whole
  exact whole

def letter (b : BitVec 8) : Bool := within 0x41 0x5A b || within 0x61 0x7A b

/-- A character for all those that differ from one in their case only; nothing but itself does
from a character of ASCII that is no letter. -/
structure CaseFolding where
  fold : Text → Text
  alone : ∀ b : BitVec 8, b < 0x80 → letter b = false → ∀ c, fold c = fold [b] → c = [b]

namespace CaseFolding

variable (folding : CaseFolding)

/-- `strings.EqualFold`. -/
def equalFold (s t : Text) : Bool := (runes s).map folding.fold = (runes t).map folding.fold

theorem equalFold_self (s : Text) : folding.equalFold s s = true := decide_eq_true rfl

theorem equalFold_count {s t : Text} (same : folding.equalFold s t = true) {b : BitVec 8}
    (ascii : b < 0x80) (other : letter b = false) : s.count b = t.count b := by
  have folded : ∀ u : List Text, (u.map folding.fold).count (folding.fold [b]) = u.count [b] := by
    intro u
    induction u with
    | nil => rfl
    | cons c u ih =>
      have iff_ : folding.fold c = folding.fold [b] ↔ c = [b] :=
        ⟨folding.alone b ascii other c, fun here => by rw [here]⟩
      rw [List.map_cons, List.count_cons, List.count_cons, ih]
      simp only [beq_iff_eq, iff_]
  rw [← (runes_count s ascii).1, ← (runes_count t ascii).1, ← folded, ← folded,
    of_decide_eq_true same]

end CaseFolding

def lower (b : BitVec 8) : BitVec 8 := if within 0x41 0x5A b then b + 0x20 else b

/-- The folding of the letters of ASCII only. -/
def foldASCII : Text → Text
  | [b] => [lower b]
  | c => c

theorem foldASCII_alone (b : BitVec 8) (_ : b < 0x80) (other : letter b = false) (c : Text)
    (same : foldASCII c = foldASCII [b]) : c = [b] := by
  have lowered : ∀ x : BitVec 8, letter (lower x) = true ∨ lower x = x := by decide
  have fixed : lower b = b := by
    rcases lowered b with letter_ | fixed
    · unfold lower at letter_
      split at letter_
      · rename_i upper
        rw [letter, upper] at other
        cases other
      · rw [other] at letter_
        cases letter_
    · exact fixed
  rw [show foldASCII [b] = [b] from congrArg (fun d => [d]) fixed] at same
  rcases c with _ | ⟨x, _ | ⟨y, rest⟩⟩
  · cases same
  · have head : lower x = b := (List.cons.inj same).1
    rcases lowered x with letter_ | fixed_
    · rw [head, other] at letter_
      cases letter_
    · rw [← head, fixed_]
  · cases same

def CaseFolding.ascii : CaseFolding := ⟨foldASCII, foldASCII_alone⟩

end UTF8
