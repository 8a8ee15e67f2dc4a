import Mathlib.Data.List.Basic
import Mathlib.Algebra.Group.Nat.Defs
import Mathlib.Data.Nat.Basic

/-! Bytes written as pairs of hexadecimal digits. -/
namespace Hex

/-- The digit for a number below sixteen. -/
def digit (value : Nat) : BitVec 8 := BitVec.ofNat 8 (if value < 10 then 48 + value else 87 + value)

/-- The value of a digit, in either letter case. -/
def value (digit : BitVec 8) : Option Nat :=
  if 48 ≤ digit ∧ digit ≤ 57 then some (digit.toNat - 48)
  else if 97 ≤ digit ∧ digit ≤ 102 then some (digit.toNat - 87)
  else if 65 ≤ digit ∧ digit ≤ 70 then some (digit.toNat - 55)
  else none

def encode : List (BitVec 8) → List (BitVec 8)
  | [] => []
  | byte :: rest => digit (byte.toNat / 16) :: digit (byte.toNat % 16) :: encode rest

/-- Nothing but pairs of digits is decoded. -/
def decode : List (BitVec 8) → Option (List (BitVec 8))
  | [] => some []
  | [_] => none
  | high :: low :: rest =>
    match value high, value low with
    | some first, some second =>
      (decode rest).map (BitVec.ofNat 8 (16 * first + second) :: ·)
    | _, _ => none

theorem value_digit {number : Nat} (small : number < 16) : value (digit number) = some number := by
  have all : ∀ number : Fin 16, value (digit number) = some number.val := by decide
  exact all ⟨number, small⟩

@[simp] theorem decode_encode (bytes : List (BitVec 8)) : decode (encode bytes) = some bytes := by
  induction bytes with
  | nil => rfl
  | cons byte rest ih =>
    have high : byte.toNat / 16 < 16 := by omega
    have low : byte.toNat % 16 < 16 := Nat.mod_lt _ (by omega)
    have whole : 16 * (byte.toNat / 16) + byte.toNat % 16 = byte.toNat := Nat.div_add_mod _ _
    rw [encode, decode, value_digit high, value_digit low]
    simp only [ih, Option.map_some, whole, BitVec.ofNat_toNat, BitVec.setWidth_eq]

theorem encode_injective {first second : List (BitVec 8)} (same : encode first = encode second) :
    first = second := by
  have decoded := decode_encode first
  rw [same, decode_encode] at decoded
  exact (Option.some.inj decoded).symm

@[simp] theorem length_encode (bytes : List (BitVec 8)) :
    (encode bytes).length = 2 * bytes.length := by
  induction bytes with
  | nil => rfl
  | cons byte rest ih =>
    rw [encode, List.length_cons, List.length_cons, List.length_cons, ih]
    omega

end Hex

namespace BigEndian

/-- The `length` lowest bytes of a number, the highest of them first. -/
def put : Nat → Nat → List (BitVec 8)
  | 0, _ => []
  | length + 1, n => BitVec.ofNat 8 (n / 256 ^ length) :: put length n

/-- The number that some bytes stand for. -/
def get : List (BitVec 8) → Nat
  | [] => 0
  | byte :: rest => byte.toNat * 256 ^ rest.length + get rest

@[simp] theorem length_put (length n : Nat) : (put length n).length = length := by
  induction length with
  | zero => rfl
  | succ length ih => rw [put, List.length_cons, ih]

@[simp] theorem get_put (length n : Nat) : get (put length n) = n % 256 ^ length := by
  induction length with
  | zero => rw [put, get, Nat.pow_zero, Nat.mod_one]
  | succ length ih =>
    rw [put, get, length_put, ih, BitVec.toNat_ofNat]
    have width : 2 ^ 8 = 256 := by decide
    calc n / 256 ^ length % 2 ^ 8 * 256 ^ length + n % 256 ^ length
        = n % 256 ^ length + 256 ^ length * (n / 256 ^ length % 256) := by
          rw [Nat.add_comm, Nat.mul_comm, width]
      _ = n % 256 ^ (length + 1) := by rw [Nat.pow_succ, Nat.mod_mul]

theorem put_mul_add (length high low : Nat) :
    put length (high * 256 ^ length + low) = put length low := by
  induction length generalizing high with
  | zero => rfl
  | succ length ih =>
    have carried : high * 256 ^ (length + 1) + low = (high * 256) * 256 ^ length + low := by
      rw [Nat.pow_succ, Nat.mul_comm (256 ^ length), Nat.mul_assoc]
    have positive : 0 < 256 ^ length := Nat.pow_pos (by decide)
    rw [carried, put, put, ih, Nat.mul_comm (high * 256), Nat.mul_add_div positive]
    congr 1
    apply BitVec.eq_of_toNat_eq
    rw [BitVec.toNat_ofNat, BitVec.toNat_ofNat]
    omega

theorem get_lt (bytes : List (BitVec 8)) : get bytes < 256 ^ bytes.length := by
  induction bytes with
  | nil => decide
  | cons byte rest ih =>
    have digit : byte.toNat ≤ 255 := Nat.le_of_lt_succ byte.isLt
    calc byte.toNat * 256 ^ rest.length + get rest
        < byte.toNat * 256 ^ rest.length + 256 ^ rest.length := Nat.add_lt_add_left ih _
      _ = (byte.toNat + 1) * 256 ^ rest.length := (Nat.succ_mul _ _).symm
      _ ≤ 256 * 256 ^ rest.length := Nat.mul_le_mul_right _ (Nat.succ_le_succ digit)
      _ = 256 ^ (byte :: rest).length := by rw [List.length_cons, Nat.pow_succ, Nat.mul_comm]

theorem put_get (bytes : List (BitVec 8)) : put bytes.length (get bytes) = bytes := by
  induction bytes with
  | nil => rfl
  | cons byte rest ih =>
    have below := get_lt rest
    have positive : 0 < 256 ^ rest.length := Nat.pow_pos (by decide)
    have head : (byte.toNat * 256 ^ rest.length + get rest) / 256 ^ rest.length = byte.toNat := by
      rw [Nat.mul_comm, Nat.mul_add_div positive, Nat.div_eq_of_lt below, Nat.add_zero]
    have others : put rest.length (byte.toNat * 256 ^ rest.length + get rest) =
        put rest.length (get rest) := put_mul_add rest.length byte.toNat (get rest)
    rw [List.length_cons, put, get, head, others, ih, BitVec.ofNat_toNat, BitVec.setWidth_eq]

end BigEndian
