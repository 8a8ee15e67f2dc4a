import AdGuardHome.Lib.UTF8
import AdGuardHome.Lib.JSONTokens

/-! JSON as it is written: strings with their escapes, the tokens of a text with the commas and
the colons between them, and where a key is found in such a text. -/
namespace JSONText

open UTF8

abbrev quoteMark : BitVec 8 := 0x22

abbrev backslash : BitVec 8 := 0x5C

abbrev comma : BitVec 8 := 0x2C

abbrev colon : BitVec 8 := 0x3A

/-- A digit to the base sixteen. -/
def hexDigit (n : BitVec 8) : BitVec 8 := if n < 10 then n + 0x30 else n + 0x57

/-- A byte of ASCII in a string. The brackets of HTML and its ampersand are escaped too. -/
def escapedByte (b : BitVec 8) : Text :=
  if b = quoteMark ∨ b = backslash then [backslash, b]
  else if b = 0x08 then [backslash, 0x62]
  else if b = 0x0C then [backslash, 0x66]
  else if b = 0x0A then [backslash, 0x6E]
  else if b = 0x0D then [backslash, 0x72]
  else if b = 0x09 then [backslash, 0x74]
  else if b < 0x20 ∨ b = 0x3C ∨ b = 0x3E ∨ b = 0x26 then
    [backslash, 0x75, 0x30, 0x30, hexDigit (b >>> 4), hexDigit (b &&& 0x0F)]
  else [b]

/-- A character of several bytes in a string; two separators of lines are escaped. -/
def escapedBytes (bytes : Text) : Text :=
  if bytes = [0xE2, 0x80, 0xA8] then [backslash, 0x75, 0x32, 0x30, 0x32, 0x38]
  else if bytes = [0xE2, 0x80, 0xA9] then [backslash, 0x75, 0x32, 0x30, 0x32, 0x39]
  else bytes

def escapedPiece : Piece → Text
  | .character [b] => escapedByte b
  | .character bytes => escapedBytes bytes
  | .wrong _ => [backslash, 0x75, 0x66, 0x66, 0x66, 0x64]

/-- The characters of a string between its quotation marks. -/
def escape (s : Text) : Text := (pieces s).flatMap escapedPiece

def string (s : Text) : Text := quoteMark :: (escape s ++ [quoteMark])

/-- A number to the base ten. -/
def decimal (n : Nat) : Text := (Nat.toDigits 10 n).map fun c => BitVec.ofNat 8 c.toNat

def number : Int → Text
  | .ofNat n => decimal n
  | .negSucc n => 0x2D :: decimal (n + 1)

def bool (b : Bool) : Text :=
  if b then [0x74, 0x72, 0x75, 0x65] else [0x66, 0x61, 0x6C, 0x73, 0x65]

section Escaped

/-- Every quotation mark is escaped, and every backslash escapes something. -/
inductive Escaped : Text → Prop where
  | nil : Escaped []
  | plain {b : BitVec 8} {rest : Text} (mark : b ≠ quoteMark) (slash : b ≠ backslash)
    (later : Escaped rest) : Escaped (b :: rest)
  | pair {b : BitVec 8} {rest : Text} (later : Escaped rest) : Escaped (backslash :: b :: rest)

theorem Escaped.append {s t : Text} (first : Escaped s) (second : Escaped t) :
    Escaped (s ++ t) := by
  induction first with
  | nil => exact second
  | plain mark slash _ ih => exact .plain mark slash ih
  | pair _ ih => exact .pair ih

theorem Escaped.of_free {s : Text} (mark : quoteMark ∉ s) (slash : backslash ∉ s) :
    Escaped s := by
  induction s with
  | nil => exact .nil
  | cons b rest ih =>
    rw [List.mem_cons, not_or] at mark slash
    exact .plain (Ne.symm mark.1) (Ne.symm slash.1) (ih mark.2 slash.2)

end Escaped

section Pieces

theorem hexDigit_free : ∀ n : BitVec 8, n < 16 → hexDigit n ≠ quoteMark ∧ hexDigit n ≠ backslash := by
  decide

theorem nibbles : ∀ b : BitVec 8, b >>> 4 < 16 ∧ b &&& 0x0F < 16 := by
  decide

/-- How a part of a text is written: as it is, or with a backslash before something. -/
inductive Written (piece : Piece) : Prop where
  | plain (same : escapedPiece piece = piece.bytes) (valid : piece.repaired = piece.bytes)
    (mark : quoteMark ∉ piece.bytes) (slash : backslash ∉ piece.bytes)
  | escaped (c : BitVec 8) (rest : Text) (same : escapedPiece piece = backslash :: c :: rest)
    (mark : quoteMark ∉ rest) (slash : backslash ∉ rest)
    (marks : piece.bytes.count quoteMark = [c].count quoteMark)
    (slashes : piece.bytes.count backslash = [c].count backslash)

theorem count_first (a c : BitVec 8) (rest : Text) :
    (c :: rest).count a = [c].count a + rest.count a :=
  @List.count_append _ _ a [c] rest

theorem count_other {b c : BitVec 8} (other : b ≠ c) : [b].count c = 0 :=
  List.count_eq_zero.mpr fun inside => other (List.mem_singleton.mp inside).symm

theorem escapedByte_written (b : BitVec 8) : Written (.character [b]) := by
  by_cases special : b = quoteMark ∨ b = backslash
  · refine .escaped b [] ?_ (List.not_mem_nil) (List.not_mem_nil) rfl rfl
    rw [escapedPiece, escapedByte, if_pos special]
  rw [not_or] at special
  have marks : [b].count quoteMark = 0 := count_other special.1
  have slashes : [b].count backslash = 0 := count_other special.2
  have letter : ∀ c : BitVec 8, escapedByte b = [backslash, c] → c ≠ quoteMark → c ≠ backslash →
      Written (.character [b]) :=
    fun c same mark slash => .escaped c [] same List.not_mem_nil List.not_mem_nil
      (marks.trans (count_other mark).symm) (slashes.trans (count_other slash).symm)
  by_cases backspace : b = 0x08
  · exact letter 0x62 (by rw [backspace]; decide) (by decide) (by decide)
  by_cases formFeed : b = 0x0C
  · exact letter 0x66 (by rw [formFeed]; decide) (by decide) (by decide)
  by_cases newline : b = 0x0A
  · exact letter 0x6E (by rw [newline]; decide) (by decide) (by decide)
  by_cases return_ : b = 0x0D
  · exact letter 0x72 (by rw [return_]; decide) (by decide) (by decide)
  by_cases tab : b = 0x09
  · exact letter 0x74 (by rw [tab]; decide) (by decide) (by decide)
  have others : escapedByte b =
      if b < 0x20 ∨ b = 0x3C ∨ b = 0x3E ∨ b = 0x26 then
        [backslash, 0x75, 0x30, 0x30, hexDigit (b >>> 4), hexDigit (b &&& 0x0F)]
      else [b] := by
    rw [escapedByte, if_neg (not_or.mpr special), if_neg backspace, if_neg formFeed,
      if_neg newline, if_neg return_, if_neg tab]
  by_cases escaped : b < 0x20 ∨ b = 0x3C ∨ b = 0x3E ∨ b = 0x26
  · rw [if_pos escaped] at others
    have high := hexDigit_free (b >>> 4) (nibbles b).1
    have low := hexDigit_free (b &&& 0x0F) (nibbles b).2
    refine .escaped 0x75 _ others ?_ ?_ (marks.trans (count_other (by decide)).symm)
      (slashes.trans (count_other (by decide)).symm)
    · simpa using ⟨high.1.symm, low.1.symm⟩
    · simpa using ⟨high.2.symm, low.2.symm⟩
  · rw [if_neg escaped] at others
    exact .plain others rfl (fun inside => special.1 (List.mem_singleton.mp inside).symm)
      fun inside => special.2 (List.mem_singleton.mp inside).symm

theorem free_of_not_ascii {bytes : Text} (far : ∀ b ∈ bytes, 0x80 ≤ b) {c : BitVec 8}
    (near : c < 0x80) : c ∉ bytes := by
  intro inside
  have same := far c inside
  bv_omega

theorem escapedBytes_cases (bytes : Text) : escapedBytes bytes = bytes ∨
    ∃ rest, escapedBytes bytes = backslash :: 0x75 :: rest ∧ quoteMark ∉ rest ∧
      backslash ∉ rest := by
  unfold escapedBytes
  split
  · exact .inr ⟨_, rfl, by decide, by decide⟩
  split
  · exact .inr ⟨_, rfl, by decide, by decide⟩
  · exact .inl rfl

variable {piece : Piece}

theorem piece_written (separate : piece.Separate) : Written piece := by
  cases piece with
  | wrong b =>
    have far : ∀ c ∈ [b], 0x80 ≤ c := by
      intro c inside
      rw [List.mem_singleton.mp inside]
      exact separate
    have marks : quoteMark ∉ [b] := free_of_not_ascii far (by decide)
    have slashes : backslash ∉ [b] := free_of_not_ascii far (by decide)
    exact .escaped 0x75 _ rfl (by decide) (by decide) (List.count_eq_zero.mpr marks)
      (List.count_eq_zero.mpr slashes)
  | character bytes =>
    rcases separate with ⟨a, _, rfl⟩ | far
    · exact escapedByte_written a
    · have marks : quoteMark ∉ bytes := free_of_not_ascii far (by decide)
      have slashes : backslash ∉ bytes := free_of_not_ascii far (by decide)
      rcases bytes with _ | ⟨a, _ | ⟨b, rest⟩⟩
      · exact .plain rfl rfl marks slashes
      · exact escapedByte_written a
      rcases escapedBytes_cases (a :: b :: rest) with same | ⟨more, same, mark, slash⟩
      · exact .plain same rfl marks slashes
      · exact .escaped 0x75 more same mark slash (List.count_eq_zero.mpr marks)
          (List.count_eq_zero.mpr slashes)

theorem Written.isEscaped (written : Written piece) :
    Escaped (escapedPiece piece) := by
  cases written with
  | plain same _ mark slash =>
    rw [same]
    exact .of_free mark slash
  | escaped c rest same mark slash _ _ =>
    rw [same]
    exact .pair (.of_free mark slash)

theorem Written.marks (written : Written piece) :
    (escapedPiece piece).count quoteMark = piece.bytes.count quoteMark := by
  cases written with
  | plain same _ _ _ => rw [same]
  | escaped c rest same mark _ marks _ =>
    rw [same, marks, List.count_cons_of_ne (by decide), count_first, List.count_eq_zero.mpr mark,
      Nat.add_zero]

/-- There are more backslashes than before, unless nothing is escaped. -/
theorem Written.slashes (written : Written piece) :
    piece.bytes.count backslash < (escapedPiece piece).count backslash ∨
      escapedPiece piece = piece.bytes ∧ piece.repaired = piece.bytes ∧
        quoteMark ∉ piece.bytes := by
  cases written with
  | plain same valid mark _ => exact .inr ⟨same, valid, mark⟩
  | escaped c rest same _ slash _ slashes =>
    refine .inl ?_
    rw [same, slashes, List.count_cons_self, count_first _ c rest, List.count_eq_zero.mpr slash]
    exact Nat.lt_succ_self _

end Pieces

section Escape

theorem escape_escaped (s : Text) : Escaped (escape s) := by
  have all : ∀ parts : List Piece, (∀ piece ∈ parts, piece.Separate) →
      Escaped (parts.flatMap escapedPiece) := by
    intro parts separate
    induction parts with
    | nil => exact .nil
    | cons piece parts ih =>
      rw [List.forall_mem_cons] at separate
      rw [List.flatMap_cons]
      exact (piece_written separate.1).isEscaped.append (ih separate.2)
  exact all _ fun _ => pieces_separate

theorem escape_marks (s : Text) : (escape s).count quoteMark = s.count quoteMark := by
  have all : ∀ parts : List Piece, (∀ piece ∈ parts, piece.Separate) →
      (parts.flatMap escapedPiece).count quoteMark =
        (parts.flatMap Piece.bytes).count quoteMark := by
    intro parts separate
    induction parts with
    | nil => rfl
    | cons piece parts ih =>
      rw [List.forall_mem_cons] at separate
      rw [List.flatMap_cons, List.flatMap_cons, List.count_append, List.count_append,
        (piece_written separate.1).marks, ih separate.2]
  rw [escape, all _ fun _ => pieces_separate, pieces_bytes]

/-- No character of the text is escaped. -/
def Plain (s : Text) : Prop := escape s = s

instance (s : Text) : Decidable (Plain s) := inferInstanceAs (Decidable (escape s = s))

theorem escape_slashes (s : Text) :
    s.count backslash < (escape s).count backslash ∨
      Plain s ∧ toValid s = s ∧ quoteMark ∉ s := by
  have all : ∀ parts : List Piece, (∀ piece ∈ parts, piece.Separate) →
      (parts.flatMap Piece.bytes).count backslash <
          (parts.flatMap escapedPiece).count backslash ∨
        parts.flatMap escapedPiece = parts.flatMap Piece.bytes ∧
          parts.flatMap Piece.repaired = parts.flatMap Piece.bytes ∧
            quoteMark ∉ parts.flatMap Piece.bytes := by
    intro parts separate
    induction parts with
    | nil => exact .inr ⟨rfl, rfl, List.not_mem_nil⟩
    | cons piece parts ih =>
      rw [List.forall_mem_cons] at separate
      simp only [List.flatMap_cons, List.count_append, List.mem_append, not_or]
      rcases (piece_written separate.1).slashes with more | ⟨same, valid, mark⟩
      · refine .inl (Nat.add_lt_add_of_lt_of_le more ?_)
        rcases ih separate.2 with more | ⟨same, _, _⟩
        · exact Nat.le_of_lt more
        · rw [same]
      · rw [same, valid]
        rcases ih separate.2 with more | ⟨same, valid, mark'⟩
        · exact .inl (Nat.add_lt_add_left more _)
        · exact .inr ⟨by rw [same], by rw [valid], mark, mark'⟩
  have whole := all (pieces s) fun _ => pieces_separate
  rw [pieces_bytes] at whole
  rw [toValid_eq]
  exact whole

end Escape

section Passes

/-- No occurrence of the pattern starts in the first text where the other one follows it. -/
def Passes (pattern : Text) : Text → Text → Prop
  | [], _ => True
  | c :: s, t => ¬ pattern <+: c :: (s ++ t) ∧ Passes pattern s t

variable {pattern : Text}

theorem Passes.append {s s' t : Text} (first : Passes pattern s (s' ++ t))
    (second : Passes pattern s' t) : Passes pattern (s ++ s') t := by
  induction s with
  | nil => exact second
  | cons c s ih =>
    obtain ⟨here, later⟩ := first
    refine ⟨?_, ih later⟩
    change ¬ pattern <+: c :: ((s ++ s') ++ t)
    rw [List.append_assoc]
    exact here

theorem Passes.of_not_mem {c : BitVec 8} {s : Text} (absent : c ∉ s) (rest t : Text) :
    Passes (c :: rest) s t := by
  induction s with
  | nil => trivial
  | cons b s ih =>
    rw [List.mem_cons, not_or] at absent
    exact ⟨fun start => absent.1 (List.cons_prefix_cons.mp start).1, ih absent.2⟩

/-- A key of an object, up to where its value starts. -/
def keyOf (name start : Text) : Text := quoteMark :: (name ++ quoteMark :: colon :: start)

/-- The name of a key starts with a capital letter, and nothing in it is escaped. -/
structure Name (name : Text) : Prop where
  mark : quoteMark ∉ name
  slash : backslash ∉ name
  head : name.head?.any (within 0x41 0x5A) = true

instance (name : Text) : Decidable (Name name) :=
  decidable_of_iff (quoteMark ∉ name ∧ backslash ∉ name ∧
    name.head?.any (within 0x41 0x5A) = true)
    ⟨fun all => ⟨all.1, all.2.1, all.2.2⟩, fun known => ⟨known.mark, known.slash, known.head⟩⟩

/-- Neither the name of a key nor the value under it starts here. -/
def Outside (t : Text) : Prop := ∀ c rest, t = c :: rest → c ≠ colon ∧ within 0x41 0x5A c = false

theorem passes_of {s t : Text}
    (absent : ∀ u v, s = u ++ v → v ≠ [] → ¬ pattern <+: v ++ t) : Passes pattern s t := by
  induction s with
  | nil => trivial
  | cons c s ih =>
    refine ⟨absent [] (c :: s) rfl (List.cons_ne_nil c s), ih fun u v same some_ => ?_⟩
    exact absent (c :: u) v (by rw [same, List.cons_append]) some_

variable {name start : Text}

theorem Escaped.closing {e : Text} (escaped : Escaped e) (mark : quoteMark ∉ name)
    (slash : backslash ∉ name) {s t : Text}
    (here : name ++ quoteMark :: s <+: e ++ quoteMark :: t) : name = e ∧ s <+: t := by
  induction escaped generalizing name with
  | nil =>
    rcases name with _ | ⟨c, rest⟩
    · exact ⟨rfl, (List.cons_prefix_cons.mp here).2⟩
    · cases (List.cons_prefix_cons.mp here).1
      exact absurd List.mem_cons_self mark
  | plain mark' slash' _ ih =>
    rcases name with _ | ⟨c, rest⟩
    · exact absurd (List.cons_prefix_cons.mp here).1.symm mark'
    · obtain ⟨rfl, inside⟩ := List.cons_prefix_cons.mp here
      rw [List.mem_cons, not_or] at mark slash
      obtain ⟨same, after_⟩ := ih mark.2 slash.2 inside
      exact ⟨congrArg _ same, after_⟩
  | pair _ _ =>
    rcases name with _ | ⟨c, rest⟩
    · exact absurd (List.cons_prefix_cons.mp here).1 (by decide)
    · cases (List.cons_prefix_cons.mp here).1
      exact absurd List.mem_cons_self slash

theorem Escaped.of_mark {e u r : Text} (escaped : Escaped e) (same : e = u ++ quoteMark :: r) :
    Escaped r := by
  induction escaped generalizing u with
  | nil => exact absurd same.symm (by simp)
  | plain mark _ _ ih =>
    rcases u with _ | ⟨c, u⟩
    · exact absurd (List.cons.inj same).1 mark
    · exact ih (List.cons.inj same).2
  | pair later ih =>
    rcases u with _ | ⟨c, _ | ⟨d, u⟩⟩
    · exact absurd (List.cons.inj same).1 (by decide)
    · cases (List.cons.inj (List.cons.inj same).2).2
      exact later
    · exact ih (List.cons.inj (List.cons.inj same).2).2

theorem string_mark {s u v : Text} (same : string s = u ++ quoteMark :: v) :
    v = [] ∨ ∃ r, v = r ++ [quoteMark] ∧ Escaped r ∧ quoteMark :: escape s = u ++ quoteMark :: r := by
  rcases List.eq_nil_or_concat v with none_ | ⟨r, c, rfl⟩
  · exact .inl none_
  have split_ : (quoteMark :: escape s) ++ [quoteMark] = (u ++ quoteMark :: r) ++ [c] := by
    rw [List.cons_append, List.append_assoc, List.cons_append, ← List.concat_eq_append,
      ← List.concat_eq_append]
    rw [string, ← List.concat_eq_append] at same
    exact same
  obtain ⟨inside, last⟩ := List.append_inj' split_ rfl
  cases last
  refine .inr ⟨r, List.concat_eq_append, ?_, inside⟩
  rcases u with _ | ⟨d, u⟩
  · rw [← (List.cons.inj inside).2]
    exact escape_escaped s
  · exact (escape_escaped s).of_mark (List.cons.inj inside).2

theorem Name.closing (known : Name name) {t : Text}
    (other : ∀ c rest, t = c :: rest → within 0x41 0x5A c = false) :
    ¬ keyOf name start <+: quoteMark :: t := by
  intro here
  have inside := (List.cons_prefix_cons.mp here).2
  have capital := known.head
  rcases name with _ | ⟨c, rest⟩
  · cases capital
  rcases t with _ | ⟨d, t⟩
  · cases List.prefix_nil.mp inside
  · cases (List.cons_prefix_cons.mp inside).1
    rw [List.head?_cons, Option.any_some, other c t rfl] at capital
    cases capital

/-- Whether a key ends in a name: it is the name, or has it behind a quotation mark of its
own. -/
def endsIn (name s : Text) : Bool := (quoteMark :: name).isSuffixOf (quoteMark :: escape s)

theorem string_passes (known : Name name) {s t : Text}
    (closing : ¬ keyOf name start <+: quoteMark :: t)
    (apart : colon :: start <+: t → endsIn name s = false) :
    Passes (keyOf name start) (string s) t := by
  refine passes_of fun u v same some_ here => ?_
  obtain ⟨c, v, rfl⟩ := List.exists_cons_of_ne_nil some_
  cases (List.cons_prefix_cons.mp here).1
  rcases string_mark same with rfl | ⟨r, rfl, escaped, inside⟩
  · exact closing here
  · rw [List.cons_append, List.append_assoc] at here
    obtain ⟨rfl, follows⟩ :=
      escaped.closing known.mark known.slash (List.cons_prefix_cons.mp here).2
    have ends : endsIn name s = true := by
      rw [endsIn, List.isSuffixOf_iff_suffix, inside]
      exact List.suffix_append _ _
    rw [apart follows] at ends
    cases ends

theorem string_ends (known : Name name) {s : Text} (ends : endsIn name s = true) (t : Text) :
    ∃ u, string s ++ colon :: t = u ++ keyOf name t ∧ Passes (keyOf name start) u (keyOf name t) := by
  rw [endsIn, List.isSuffixOf_iff_suffix] at ends
  obtain ⟨u, inside⟩ := ends
  have whole : string s = u ++ quoteMark :: (name ++ [quoteMark]) := by
    rw [string, ← List.cons_append, ← inside]
    simp only [List.append_assoc, List.cons_append]
  refine ⟨u, ?_, passes_of fun v w same some_ here => ?_⟩
  · rw [whole, keyOf]
    simp only [List.append_assoc, List.cons_append, List.nil_append]
  · obtain ⟨c, w, rfl⟩ := List.exists_cons_of_ne_nil some_
    cases (List.cons_prefix_cons.mp here).1
    -- An earlier quotation mark has more than the name after it.
    have further : string s = v ++ quoteMark :: (w ++ quoteMark :: (name ++ [quoteMark])) := by
      rw [whole, same]
      simp only [List.append_assoc, List.cons_append]
    rcases string_mark further with none_ | ⟨r, same_, escaped, _⟩
    · simp at none_
    · have rest : r = w ++ quoteMark :: name := by
        have split_ : (w ++ quoteMark :: name) ++ [quoteMark] = r ++ [quoteMark] := by
          rw [← same_]
          simp only [List.append_assoc, List.cons_append]
        exact (List.append_inj' split_ rfl).1.symm
      subst rest
      have following : name ++ quoteMark :: colon :: start <+:
          (w ++ quoteMark :: name) ++ quoteMark :: colon :: t := by
        rw [keyOf, keyOf, List.cons_append] at here
        simpa only [List.append_assoc, List.cons_append] using (List.cons_prefix_cons.mp here).2
      have length := congrArg List.length
        (escaped.closing known.mark known.slash following).1
      simp only [List.length_append, List.length_cons] at length
      omega

end Passes

section Tokens

open JSONTokens

def delimByte : Delim → BitVec 8
  | .arrayStart => 0x5B
  | .arrayEnd => 0x5D
  | .objectStart => 0x7B
  | .objectEnd => 0x7D

/-- A token by itself. Only integers are written here. -/
def tokenText : Token Text → Text
  | .delim d => [delimByte d]
  | .string s => string s
  | .number (.int n) => number n
  | .number .other => []
  | .bool b => bool b
  | .null => [0x6E, 0x75, 0x6C, 0x6C]

def opens : Token Text → Bool
  | .delim .arrayStart => true
  | .delim .objectStart => true
  | _ => false

def closes : Token Text → Bool
  | .delim .arrayEnd => true
  | .delim .objectEnd => true
  | _ => false

/-- Whether the token is the key of a member. -/
def isKey (frames : List Frame) : Token Text → Bool
  | .string _ => frames.head? = some .key
  | _ => false

/-- The comma between two elements or two members. -/
def separator (first : Bool) (frames : List Frame) (token : Token Text) : Text :=
  if first || closes token || frames.head? = none || frames.head? = some .value then [] else [comma]

/-- The tokens one after the other; `first` is whether the last one was an opening bracket. -/
def render : Bool → List Frame → List (Token Text) → Text
  | _, _, [] => []
  | first, frames, token :: rest =>
    separator first frames token ++ (tokenText token ++
      ((if isKey frames token then [colon] else []) ++
        render (opens token) (token.move frames) rest))

/-- A text with these tokens. -/
def text (tokens : List (Token Text)) : Text := render true [] tokens

/-- Whether the token is a key that ends in the name. -/
def named (name : Text) (frames : List Frame) : Token Text → Bool
  | .string s => frames.head? = some .key && endsIn name s
  | _ => false

/-- The start of the value of the first member whose key ends in the name, among the values
that are asked for. -/
def lookup (wanted : Token Text → Bool) (name : Text) : List Frame → List (Token Text) →
    Option (Token Text)
  | _, [] => none
  | frames, token :: rest =>
    (rest.head?.filter fun value => named name frames token && wanted value).or
      (lookup wanted name (token.move frames) rest)

def isString : Token Text → Bool
  | .string _ => true
  | _ => false

theorem decimal_digits {n : Nat} {c : BitVec 8} (inside : c ∈ decimal n) :
    0x30 ≤ c ∧ c ≤ 0x39 := by
  obtain ⟨d, digit, rfl⟩ := List.mem_map.mp inside
  have known := Nat.isDigit_of_mem_toDigits (by decide) (by decide) digit
  rw [Char.isDigit, Bool.and_eq_true, decide_eq_true_iff, decide_eq_true_iff] at known
  have low : 48 ≤ d.toNat := UInt32.le_iff_toNat_le.mp known.1
  have high : d.toNat ≤ 57 := UInt32.le_iff_toNat_le.mp known.2
  rw [BitVec.le_def, BitVec.le_def, BitVec.toNat_ofNat, Nat.mod_eq_of_lt (by omega)]
  exact ⟨low, high⟩

theorem decimal_head (n : Nat) : ∃ c rest, decimal n = c :: rest ∧ 0x30 ≤ c ∧ c ≤ 0x39 := by
  rcases same : decimal n with _ | ⟨c, rest⟩
  · exact absurd (List.map_eq_nil_iff.mp same) Nat.toDigits_ne_nil
  · have first : c ∈ decimal n := by
      rw [same]
      exact List.mem_cons_self
    exact ⟨c, rest, rfl, decimal_digits first⟩

theorem decimal_inj {n k : Nat} (same : decimal n = decimal k) : n = k := by
  have digits : ∀ m, (decimal m).map (fun b => Char.ofNat b.toNat) = Nat.toDigits 10 m := by
    intro m
    rw [decimal, List.map_map]
    refine (List.map_congr_left fun c inside => ?_).trans (List.map_id _)
    have known := Nat.isDigit_of_mem_toDigits (by decide) (by decide) inside
    rw [Char.isDigit, Bool.and_eq_true, decide_eq_true_iff, decide_eq_true_iff] at known
    have high : c.toNat ≤ 57 := UInt32.le_iff_toNat_le.mp known.2
    rw [Function.comp_apply, BitVec.toNat_ofNat, Nat.mod_eq_of_lt (by omega), Char.ofNat_toNat]
    rfl
  rw [← @Nat.ofDigitChars_ten_toDigits n, ← @Nat.ofDigitChars_ten_toDigits k, ← digits n, same,
    digits k]

theorem tokenText_head {token : Token Text} (integral : token ≠ .number .other) :
    ∃ c rest, tokenText token = c :: rest ∧ (c ≠ colon ∧ within 0x41 0x5A c = false) ∧
      (isString token = true ↔ c = quoteMark) := by
  cases token with
  | delim d => exact ⟨_, [], rfl, by cases d <;> decide, by cases d <;> decide⟩
  | string s => exact ⟨quoteMark, _, rfl, by decide, fun _ => rfl, fun _ => rfl⟩
  | number n =>
    cases n with
    | other => exact absurd rfl integral
    | int n =>
      cases n with
      | ofNat n =>
        obtain ⟨c, rest, same, low, high⟩ := decimal_head n
        refine ⟨c, rest, same, ⟨by bv_omega, ?_⟩, ?_⟩
        · rw [within, Bool.and_eq_false_iff]
          exact .inl (decide_eq_false (by bv_omega))
        · exact ⟨fun never => (by cases never), fun same => (by bv_omega)⟩
      | negSucc n =>
        exact ⟨0x2D, _, rfl, by decide, fun never => (by cases never), fun never => (by cases never)⟩
  | bool b => cases b <;> exact ⟨_, _, rfl, by decide, by decide⟩
  | null => exact ⟨_, _, rfl, by decide, by decide⟩

theorem tokenText_marks {token : Token Text} (other : isString token = false) :
    quoteMark ∉ tokenText token := by
  have free : ∀ n, quoteMark ∉ decimal n := fun n inside =>
    absurd (decimal_digits inside).1 (by decide)
  cases token with
  | delim d => cases d <;> decide
  | string s => cases other
  | number n =>
    cases n with
    | other => exact List.not_mem_nil
    | int n =>
      cases n with
      | ofNat n => exact free n
      | negSucc n =>
        rw [tokenText, number, List.mem_cons, not_or]
        exact ⟨by decide, free (n + 1)⟩
  | bool b => cases b <;> decide
  | null => decide

theorem separator_cases (first : Bool) (frames : List Frame) (token : Token Text) :
    separator first frames token = [] ∨ separator first frames token = [comma] := by
  unfold separator
  split
  · exact .inl rfl
  · exact .inr rfl

theorem separator_marks (first : Bool) (frames : List Frame) (token : Token Text) :
    quoteMark ∉ separator first frames token := by
  rcases separator_cases first frames token with same | same <;> rw [same] <;> decide

theorem render_outside {tokens : List (Token Text)} (integral : ∀ t ∈ tokens, t ≠ .number .other)
    (first : Bool) (frames : List Frame) : Outside (render first frames tokens) := by
  intro c rest same
  rcases tokens with _ | ⟨token, tokens⟩
  · cases same
  rw [render] at same
  rcases separator_cases first frames token with none_ | some_
  · obtain ⟨d, more, head, outside, _⟩ := tokenText_head (integral token List.mem_cons_self)
    rw [none_, head, List.nil_append, List.cons_append] at same
    cases (List.cons.inj same).1
    exact outside
  · rw [some_, List.singleton_append] at same
    cases (List.cons.inj same).1
    decide

section Lookup

variable {wanted : Token Text → Bool} {name start : Text}

/-- The pattern goes on with the start of just the values that are wanted. -/
def Starts (start : Text) (wanted : Token Text → Bool) : Prop :=
  ∀ token : Token Text, token ≠ .number .other → ∀ t,
    start <+: tokenText token ++ t ↔ wanted token = true

theorem starts_any : Starts [] fun _ => true :=
  fun _ _ _ => ⟨fun _ => rfl, fun _ => List.nil_prefix⟩

theorem starts_string : Starts [quoteMark] isString := by
  intro token integral t
  obtain ⟨c, rest, same, _, quoted⟩ := tokenText_head integral
  rw [same, List.cons_append, quoted]
  exact ⟨fun here => (List.cons_prefix_cons.mp here).1.symm,
    fun here => List.cons_prefix_cons.mpr ⟨here.symm, List.nil_prefix⟩⟩

/-- No key starts in a token that is not a key with the name, or goes on otherwise. -/
theorem token_passes (known : Name name) (first : Bool) (frames : List Frame)
    (token : Token Text) {t : Text} (outside : Outside t)
    (apart : start <+: t → named name frames token = false) :
    Passes (keyOf name start) (separator first frames token ++ (tokenText token ++
      if isKey frames token then [colon] else [])) t := by
  refine Passes.append (.of_not_mem (separator_marks first frames token) _ _) ?_
  cases quoted : isString token with
  | false =>
    have plain : isKey frames token = false := by
      cases token <;> first | rfl | cases quoted
    rw [plain, if_neg (by decide), List.append_nil]
    exact .of_not_mem (tokenText_marks quoted) _ _
  | true =>
    obtain ⟨s, rfl⟩ : ∃ s, token = .string s := by
      cases token <;> first | exact ⟨_, rfl⟩ | cases quoted
    by_cases key : frames.head? = some .key
    · have here : isKey frames (.string s) = true := decide_eq_true key
      rw [here, if_pos rfl]
      refine Passes.append (string_passes known (known.closing ?_) ?_)
        (.of_not_mem (by decide) _ _)
      · intro c rest same
        cases same
        decide
      · intro follows
        have none_ := apart (List.cons_prefix_cons.mp follows).2
        rw [named, decide_eq_true key, Bool.true_and] at none_
        exact none_
    · have here : isKey frames (.string s) = false := decide_eq_false key
      rw [here, if_neg (by decide), List.append_nil]
      refine string_passes known (known.closing fun c rest same => (outside c rest same).2) ?_
      intro follows
      rcases t with _ | ⟨c, t⟩
      · cases List.prefix_nil.mp follows
      · exact absurd (List.cons_prefix_cons.mp follows).1.symm (outside c t rfl).1

variable {frames : List Frame} {tokens : List (Token Text)}

theorem isKey_of_named {token : Token Text} (here : named name frames token = true) :
    ∃ s outer, token = .string s ∧ frames = .key :: outer ∧ endsIn name s = true := by
  cases token with
  | string s =>
    rw [named, Bool.and_eq_true, decide_eq_true_iff] at here
    rcases frames with _ | ⟨frame, outer⟩
    · cases here.1
    · cases Option.some.inj here.1
      exact ⟨s, outer, rfl, rfl, here.2⟩
  | _ => cases here

theorem render_value (outer : List Frame) (value : Token Text) (rest : List (Token Text)) :
    render false (.value :: outer) (value :: rest) =
      tokenText value ++ render (opens value) (value.move (.value :: outer)) rest := by
  have plain : isKey (.value :: outer) value = false := by cases value <;> rfl
  rw [render, plain, if_neg (by decide), List.nil_append, separator, if_pos (by simp),
    List.nil_append]

/-- What goes on as the pattern does is under another key, when the value is not looked up. -/
theorem not_named (starts : Starts start wanted) {token : Token Text}
    (integral : ∀ t ∈ tokens, t ≠ .number .other) (some_ : tokens ≠ [])
    (passed : tokens.head?.filter (fun value => named name frames token && wanted value) = none)
    (follows : start <+: render (opens token) (token.move frames) tokens) :
    named name frames token = false := by
  by_contra here
  rw [Bool.not_eq_false] at here
  obtain ⟨s, outer, rfl, rfl, _⟩ := isKey_of_named here
  obtain ⟨value, rest, rfl⟩ := List.exists_cons_of_ne_nil some_
  have asked : wanted value = true := by
    change start <+: render false (.value :: outer) (value :: rest) at follows
    rw [render_value] at follows
    exact (starts value (integral value List.mem_cons_self) _).mp follows
  rw [List.head?_cons, Option.filter_some, here, asked, Bool.true_and, if_pos rfl] at passed
  cases passed

/-- A key that is looked up, up to its value, and what comes after the value. -/
theorem render_found (known : Name name) (starts : Starts start wanted)
    (integral : ∀ t ∈ tokens, t ≠ .number .other)
    {value : Token Text}
    (found : lookup wanted name frames tokens = some value) (first : Bool) :
    ∃ s outer rest, value :: rest <:+ tokens ∧
      render first frames tokens = s ++ keyOf name (render false (.value :: outer) (value :: rest)) ∧
      Passes (keyOf name start) s (keyOf name (render false (.value :: outer) (value :: rest))) := by
  induction tokens generalizing first frames with
  | nil => cases found
  | cons token tokens ih =>
    rw [List.forall_mem_cons] at integral
    rw [lookup] at found
    cases here : tokens.head?.filter (fun value => named name frames token && wanted value) with
    | some v =>
      rw [here, Option.some_or] at found
      cases found
      obtain ⟨head, both⟩ := Option.filter_eq_some_iff.mp here
      rw [Bool.and_eq_true] at both
      obtain ⟨s, outer, rfl, rfl, ends⟩ := isKey_of_named both.1
      rcases tokens with _ | ⟨v, rest⟩
      · cases head
      cases Option.some.inj head
      obtain ⟨u, same, passes⟩ := @string_ends _ start known _ ends
        (render false (.value :: outer) (value :: rest))
      refine ⟨separator first (.key :: outer) (.string s) ++ u, outer, rest,
        List.suffix_cons _ _, ?_, ?_⟩
      · rw [List.append_assoc, ← same]
        rfl
      · exact Passes.append (.of_not_mem (separator_marks first _ _) _ _) passes
    | none =>
      rw [here, Option.none_or] at found
      obtain ⟨s, outer, rest, suffix, same, passes⟩ := ih integral.2 found (opens token)
      refine ⟨(separator first frames token ++ (tokenText token ++
        if isKey frames token then [colon] else [])) ++ s, outer, rest,
        suffix.trans (List.suffix_cons _ _), ?_, ?_⟩
      · rw [render, same]
        simp only [List.append_assoc]
      · refine Passes.append ?_ passes
        rw [← same]
        refine token_passes known first frames token (render_outside integral.2 _ _) ?_
        refine not_named starts integral.2 ?_ here
        rintro rfl
        cases found

/-- No key is found in a text where none is looked up. -/
theorem render_missing (known : Name name) (starts : Starts start wanted)
    (integral : ∀ t ∈ tokens, t ≠ .number .other)
    (last : ∀ s, tokens.getLast? ≠ some (.string s))
    (missing : lookup wanted name frames tokens = none) (first : Bool) :
    Passes (keyOf name start) (render first frames tokens) [] := by
  induction tokens generalizing first frames with
  | nil => trivial
  | cons token tokens ih =>
    rw [List.forall_mem_cons] at integral
    rw [lookup, Option.or_eq_none_iff] at missing
    have later : ∀ s, tokens.getLast? ≠ some (.string s) := by
      intro s same
      refine last s ?_
      rw [List.getLast?_cons, same]
      rfl
    have step : render first frames (token :: tokens) =
        (separator first frames token ++ (tokenText token ++
          if isKey frames token then [colon] else [])) ++
            render (opens token) (token.move frames) tokens := by
      rw [render]
      simp only [List.append_assoc]
    rw [step]
    refine Passes.append ?_ (ih integral.2 later missing.2 (opens token))
    rw [List.append_nil]
    refine token_passes known first frames token (render_outside integral.2 _ _) ?_
    rcases tokens with _ | ⟨value, rest⟩
    · cases token with
      | string s => exact absurd rfl (last s)
      | _ => exact fun _ => rfl
    · exact not_named starts integral.2 (List.cons_ne_nil _ _) missing.1

end Lookup

section Nested

variable {wanted : Token Text → Bool} {name : Text}

/-- The tokens of one value, in which a lookup does not depend on what is around it. -/
def Whole (value : List (Token Text)) : Prop :=
  ∀ (wanted : Token Text → Bool) (name : Text) (frames : List Frame) (rest : List (Token Text)),
    frames.head? ≠ some .key → lookup wanted name frames (value ++ rest) =
      (lookup wanted name [] value).or (lookup wanted name (valueEnd frames) rest)

/-- The tokens of the members of an object. -/
def Members (fields : List (Token Text)) : Prop :=
  ∀ (wanted : Token Text → Bool) (name : Text) (outer : List Frame) (rest : List (Token Text)),
    lookup wanted name (.key :: outer) (fields ++ rest) =
      (lookup wanted name [.key] fields).or (lookup wanted name (.key :: outer) rest)

variable {token : Token Text} {fields : List (Token Text)}

theorem lookup_other {frames : List Frame} (other : named name frames token = false)
    (rest : List (Token Text)) :
    lookup wanted name frames (token :: rest) = lookup wanted name (token.move frames) rest := by
  have none_ : rest.head?.filter (fun value => named name frames token && wanted value) = none := by
    rw [Option.filter_eq_none_iff]
    intro value _
    rw [other, Bool.false_and]
    exact Bool.false_ne_true
  rw [lookup, none_, Option.none_or]

theorem named_eq_false {frames : List Frame}
    (other : frames.head? ≠ some .key ∨ isString token = false) :
    named name frames token = false := by
  cases token with
  | string s =>
    rcases other with other | never
    · rw [named, decide_eq_false other, Bool.false_and]
    · cases never
  | _ => rfl

theorem Whole.literal (flat : token.isDelim = false) : Whole [token] := by
  intro wanted name frames rest other
  have moved : token.move frames = valueEnd frames := by
    cases token with
    | delim d => cases flat
    | string s =>
      rcases frames with _ | ⟨frame, outer⟩
      · rfl
      · cases frame with
        | key => exact absurd rfl other
        | _ => rfl
    | _ => rfl
  rw [List.singleton_append, lookup_other (named_eq_false (.inl other)), moved, lookup,
    List.head?_nil, Option.filter_none, lookup, Option.or_none, Option.none_or]

theorem Members.nil : Members [] := by
  intro wanted name outer rest
  rw [List.nil_append, lookup, Option.none_or]

theorem Members.append {fields more : List (Token Text)} (first : Members fields)
    (second : Members more) : Members (fields ++ more) := by
  intro wanted name outer rest
  rw [List.append_assoc, first, second, first wanted name [] more, Option.or_assoc]

theorem flatMap_induction {Entry : Type} {P : List (Token Text) → Prop} (nil : P [])
    (append : ∀ {first second}, P first → P second → P (first ++ second)) {entries : List Entry}
    {fields : Entry → List (Token Text)} (all : ∀ entry ∈ entries, P (fields entry)) :
    P (entries.flatMap fields) := by
  induction entries with
  | nil => exact nil
  | cons entry entries ih =>
    rw [List.forall_mem_cons] at all
    rw [List.flatMap_cons]
    exact append all.1 (ih all.2)

variable {value : List (Token Text)} {values : List (List (Token Text))}

/-- The key of a member, and its value. -/
theorem lookup_member (whole : Whole value) (some_ : value ≠ []) (key : Text) (outer : List Frame)
    (rest : List (Token Text)) :
    lookup wanted name (.key :: outer) (.string key :: value ++ rest) =
      ((value.head?.filter fun v => endsIn name key && wanted v).or
        (lookup wanted name [] value)).or (lookup wanted name (.key :: outer) rest) := by
  obtain ⟨first, more, rfl⟩ := List.exists_cons_of_ne_nil some_
  have inside := whole wanted name (.value :: outer) rest (by simp)
  rw [List.cons_append, lookup]
  change Option.or _ (lookup wanted name (.value :: outer) (first :: more ++ rest)) = _
  rw [inside, ← Option.or_assoc]
  rfl

theorem Members.member (whole : Whole value) (some_ : value ≠ [])
    (key : Text) : Members (.string key :: value) := by
  intro wanted name outer rest
  have alone := @lookup_member wanted name _ whole some_ key [] []
  rw [List.append_nil, lookup, Option.or_none] at alone
  rw [lookup_member whole some_, alone]

theorem lookup_object (members : Members fields) (frames : List Frame) (rest : List (Token Text)) :
    lookup wanted name frames (.delim .objectStart :: (fields ++ [.delim .objectEnd]) ++ rest) =
      (lookup wanted name [.key] fields).or (lookup wanted name (valueEnd frames) rest) := by
  rw [List.cons_append, List.append_assoc, lookup_other (named_eq_false (.inr rfl))]
  change lookup wanted name (.key :: frames) _ = _
  rw [members, List.singleton_append, lookup_other (named_eq_false (.inr rfl))]
  rfl

theorem Whole.object (members : Members fields) :
    Whole (.delim .objectStart :: (fields ++ [.delim .objectEnd])) := by
  intro wanted name frames rest _
  have alone := @lookup_object wanted name _ members [] []
  rw [List.append_nil, lookup, Option.or_none] at alone
  rw [lookup_object members, alone]

theorem lookup_elements (whole : ∀ value ∈ values, Whole value) (outer : List Frame)
    (rest : List (Token Text)) :
    lookup wanted name (.element :: outer) (values.flatten ++ rest) =
      (values.findSome? (lookup wanted name [])).or
        (lookup wanted name (.element :: outer) rest) := by
  induction values with
  | nil => rfl
  | cons value values ih =>
    rw [List.forall_mem_cons] at whole
    rw [List.flatten_cons, List.append_assoc, whole.1 wanted name _ _ (by simp)]
    change Option.or _ (lookup wanted name (.element :: outer) _) = _
    rw [ih whole.2, ← Option.or_assoc]
    congr 1
    rw [List.findSome?_cons]
    cases lookup wanted name [] value <;> rfl

theorem lookup_array (whole : ∀ value ∈ values, Whole value) (frames : List Frame)
    (rest : List (Token Text)) :
    lookup wanted name frames
        (.delim .arrayStart :: (values.flatten ++ [.delim .arrayEnd]) ++ rest) =
      (values.findSome? (lookup wanted name [])).or (lookup wanted name (valueEnd frames) rest) := by
  rw [List.cons_append, List.append_assoc, lookup_other (named_eq_false (.inr rfl))]
  change lookup wanted name (.element :: frames) _ = _
  rw [lookup_elements whole, List.singleton_append, lookup_other (named_eq_false (.inr rfl))]
  rfl

theorem Whole.array (whole : ∀ value ∈ values, Whole value) :
    Whole (.delim .arrayStart :: (values.flatten ++ [.delim .arrayEnd])) := by
  intro wanted name frames rest _
  have alone := @lookup_array wanted name _ whole [] []
  rw [List.append_nil, lookup, Option.or_none] at alone
  rw [lookup_array whole, alone]

/-- The tokens that a value is written as when it has no number but integers. -/
inductive IsValue : List (Token Text) → Prop where
  | literal {token : Token Text} (flat : token.isDelim = false)
    (integral : token ≠ .number .other) : IsValue [token]
  | array {values : List (List (Token Text))} (all : ∀ value ∈ values, IsValue value) :
    IsValue (.delim .arrayStart :: (values.flatten ++ [.delim .arrayEnd]))
  | object {members : List (Text × List (Token Text))}
    (all : ∀ member ∈ members, IsValue member.2) :
    IsValue (.delim .objectStart ::
      ((members.flatMap fun member => .string member.1 :: member.2) ++ [.delim .objectEnd]))

theorem IsValue.nonempty (isValue : IsValue value) : value ≠ [] := by
  cases isValue <;> exact List.cons_ne_nil _ _

theorem IsValue.whole (isValue : IsValue value) : Whole value := by
  induction isValue with
  | literal flat _ => exact .literal flat
  | array _ ih => exact .array ih
  | object all ih =>
    exact .object (flatMap_induction Members.nil Members.append fun member inside =>
      .member (ih member inside) (all member inside).nonempty member.1)

theorem IsValue.integral (isValue : IsValue value) :
    ∀ t ∈ value, t ≠ .number .other := by
  induction isValue with
  | literal _ integral =>
    rintro t inside
    rw [List.mem_singleton.mp inside]
    exact integral
  | array _ ih =>
    rintro t inside rfl
    simp only [List.mem_cons, List.mem_append, List.mem_flatten, reduceCtorEq, false_or,
      List.not_mem_nil, or_false] at inside
    obtain ⟨value, member, inside⟩ := inside
    exact ih value member _ inside rfl
  | object _ ih =>
    rintro t inside rfl
    simp only [List.mem_cons, List.mem_append, List.mem_flatMap, reduceCtorEq, false_or,
      List.not_mem_nil, or_false] at inside
    obtain ⟨member, known, inside⟩ := inside
    exact ih member known _ inside rfl

end Nested

end Tokens

end JSONText
