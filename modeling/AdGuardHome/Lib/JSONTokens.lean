import Mathlib.Data.List.Basic

/-! The token stream of a JSON decoder: the tokens of a text up to where it ends or is
malformed, read one by one or a value at a time. -/
namespace JSONTokens

universe u

inductive Delim where
  | arrayStart
  | arrayEnd
  | objectStart
  | objectEnd
deriving DecidableEq

/-- A number literal: an integer, or one with a fraction or an exponent. -/
inductive Number where
  | int (value : Int)
  | other
deriving DecidableEq

def minInt64 : Int := -9223372036854775808

def maxInt64 : Int := 9223372036854775807

/-- The value as a 64-bit integer and whether it is one. Where an integer is too large, the
value is the nearest one. -/
def Number.int64 : Number → Int × Bool
  | .int value =>
    if value < minInt64 then (minInt64, false)
    else if maxInt64 < value then (maxInt64, false)
    else (value, true)
  | .other => (0, false)

inductive Token (S : Type u) where
  | delim (d : Delim)
  | string (s : S)
  | number (n : Number)
  | bool (b : Bool)
  | null
deriving DecidableEq

/-- What comes next in an array or an object that is not closed yet. -/
inductive Frame where
  | element
  | key
  | value
deriving DecidableEq

variable {S : Type u}

def Token.isDelim : Token S → Bool
  | .delim _ => true
  | _ => false

/-- After a value in an object a key follows. -/
def valueEnd : List Frame → List Frame
  | .value :: outer => .key :: outer
  | frames => frames

def Token.move : Token S → List Frame → List Frame
  | .delim .arrayStart, frames => .element :: frames
  | .delim .objectStart, frames => .key :: frames
  | .delim .arrayEnd, frames => valueEnd frames.tail
  | .delim .objectEnd, frames => valueEnd frames.tail
  | .string _, .key :: outer => .value :: outer
  | _, frames => valueEnd frames

def maxNestingDepth : Nat := 10000

def Token.depth : Token S → Nat → Nat
  | .delim .arrayStart, depth => depth + 1
  | .delim .objectStart, depth => depth + 1
  | .delim .arrayEnd, depth => depth - 1
  | .delim .objectEnd, depth => depth - 1
  | _, depth => depth

/-- The tokens of the rest of a value at some depth in it, and what comes after. -/
def splitValue : Nat → List (Token S) → Option (List (Token S) × List (Token S))
  | _, [] => none
  | depth, token :: rest =>
    if token.depth depth = 0 then some ([token], rest)
    else if maxNestingDepth < token.depth depth then none
    else (splitValue (token.depth depth) rest).map fun (value, rest) => (token :: value, rest)

/-- A decoder with the tokens that are left. After the last one every read is an error. -/
structure Decoder (S : Type u) where
  tokens : List (Token S)
  frames : List Frame

namespace Decoder

/-- The decoder before a text with these tokens. -/
def new (tokens : List (Token S)) : Decoder S := ⟨tokens, []⟩

def token (dec : Decoder S) : Option (Token S × Decoder S) :=
  match dec.tokens with
  | [] => none
  | token :: rest => some (token, ⟨rest, token.move dec.frames⟩)

/-- Whether a value can start here: not where a key has to follow, nor where a bracket
closes. -/
def valueAllowed (dec : Decoder S) : Bool :=
  dec.frames.head? != some .key &&
    (match dec.tokens with
      | .delim .arrayEnd :: _ => false
      | .delim .objectEnd :: _ => false
      | _ => true)

/-- The tokens of a whole value, or an error. After a value that is malformed or cut, only
delimiters are read. -/
def decode (dec : Decoder S) : Option (List (Token S)) × Decoder S :=
  if dec.valueAllowed then
    match splitValue 0 dec.tokens with
    | some (value, rest) => (some value, ⟨rest, valueEnd dec.frames⟩)
    | none => (none, ⟨dec.tokens.takeWhile Token.isDelim, dec.frames⟩)
  else (none, dec)

variable {dec next : Decoder S}

theorem token_length {token : Token S} (read : dec.token = some (token, next)) :
    next.tokens.length < dec.tokens.length := by
  unfold Decoder.token at read
  split at read
  · cases read
  · rename_i rest tokens
    cases read
    rw [tokens]
    exact Nat.lt_succ_self _

end Decoder

theorem splitValue_eq {depth : Nat} {tokens value rest : List (Token S)}
    (split_ : splitValue depth tokens = some (value, rest)) : tokens = value ++ rest := by
  induction tokens generalizing depth value with
  | nil => cases split_
  | cons token tokens ih =>
    rw [splitValue] at split_
    split at split_
    · cases split_
      rfl
    · split at split_
      · cases split_
      · obtain ⟨⟨inner, after_⟩, found, same⟩ := Option.map_eq_some_iff.mp split_
        cases same
        rw [ih found]
        rfl

/-- At a depth in a value these tokens are passed over. -/
def Passed (depth : Nat) (tokens : List (Token S)) : Prop :=
  ∀ rest, splitValue depth (tokens ++ rest) =
    (splitValue depth rest).map fun (value, after_) => (tokens ++ value, after_)

namespace Passed

variable {depth : Nat} {tokens : List (Token S)}

theorem nil : Passed (S := S) depth [] := by
  intro rest
  rw [List.nil_append]
  cases splitValue depth rest with
  | none => rfl
  | some parts => rfl

theorem append {more : List (Token S)} (first : Passed depth tokens) (second : Passed depth more) :
    Passed depth (tokens ++ more) := by
  intro rest
  rw [List.append_assoc, first, second]
  cases splitValue depth rest with
  | none => rfl
  | some parts => simp only [Option.map_some, List.append_assoc]

theorem flatten {values : List (List (Token S))} (all : ∀ value ∈ values, Passed depth value) :
    Passed depth values.flatten := by
  induction values with
  | nil => exact nil
  | cons value values ih =>
    rw [List.flatten_cons]
    exact (all value List.mem_cons_self).append
      (ih fun other member => all other (List.mem_cons_of_mem value member))

/-- A token that changes the depth to another one inside of the value. -/
theorem cons {next : Nat} {token : Token S} (moves : token.depth depth = next)
    (inside : 0 < next) (shallow : next ≤ maxNestingDepth)
    (rest : List (Token S)) : splitValue depth (token :: rest) =
      (splitValue next rest).map fun (value, after_) => (token :: value, after_) := by
  rw [splitValue, moves, if_neg (Nat.ne_of_gt inside), if_neg (Nat.not_lt_of_le shallow)]

theorem literal {token : Token S} (flat : token.isDelim = false) (inside : 0 < depth)
    (shallow : depth ≤ maxNestingDepth) : Passed depth [token] := by
  intro rest
  have moves : token.depth depth = depth := by
    cases token with
    | delim d => cases flat
    | string s => rfl
    | number n => rfl
    | bool b => rfl
    | null => rfl
  exact cons moves inside shallow rest

/-- The tokens between two brackets. -/
theorem bracketed {start stop : Token S} (up : start.depth depth = depth + 1)
    (down : stop.depth (depth + 1) = depth) (inside : 0 < depth)
    (shallow : depth + 1 ≤ maxNestingDepth) (inner : Passed (depth + 1) tokens) :
    Passed depth (start :: (tokens ++ [stop])) := by
  intro rest
  rw [List.cons_append, List.append_assoc, cons up (Nat.succ_pos depth) shallow, inner,
    List.singleton_append, cons down inside (Nat.le_of_succ_le shallow)]
  cases splitValue depth rest with
  | none => rfl
  | some parts => simp only [Option.map_some, List.cons_append, List.append_assoc, List.nil_append]

/-- A whole value between two brackets. -/
theorem whole {start stop : Token S} (up : start.depth 0 = 1) (down : stop.depth 1 = 0)
    (inner : Passed 1 tokens) (rest : List (Token S)) :
    splitValue 0 (start :: (tokens ++ [stop]) ++ rest) =
      some (start :: (tokens ++ [stop]), rest) := by
  have shallow : 1 ≤ maxNestingDepth := by decide
  rw [List.cons_append, List.append_assoc, cons up Nat.one_pos shallow, inner,
    List.singleton_append, splitValue, down, if_pos rfl]
  rfl

end Passed

theorem Decoder.decode_length (dec : Decoder S) :
    dec.decode.2.tokens.length ≤ dec.tokens.length := by
  unfold Decoder.decode
  split
  · split
    · rename_i value rest found
      rw [splitValue_eq found, List.length_append]
      exact Nat.le_add_left _ _
    · exact (List.takeWhile_sublist _).length_le
  · exact Nat.le_refl _

end JSONTokens
