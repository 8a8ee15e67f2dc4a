import AdGuardHome.Lib.BigEndian

/-! Options one after the other, each a code and a length of two bytes and a payload of that
length. -/
namespace Tlv

open BigEndian

/-- An option whose payload fits its length field. -/
structure Item where
  code : BitVec 16
  payload : List (BitVec 8)
  short : payload.length < 65536

namespace Item

/-- The code and the length. -/
def header (item : Item) : List (BitVec 8) := put 2 item.code.toNat ++ put 2 item.payload.length

def encode (item : Item) : List (BitVec 8) := item.header ++ item.payload

@[simp] theorem length_header (item : Item) : item.header.length = 4 := by simp [header]

theorem length_encode (item : Item) : item.encode.length = 4 + item.payload.length := by
  rw [encode, List.length_append, length_header]

variable (item : Item) (rest : List (BitVec 8))

theorem take_code : (item.encode ++ rest).take 2 = put 2 item.code.toNat := by
  simp [encode, header]

theorem take_length : ((item.encode ++ rest).drop 2).take 2 = put 2 item.payload.length := by
  simp [encode, header]

theorem take_payload : ((item.encode ++ rest).drop 4).take item.payload.length = item.payload := by
  simp [encode]

theorem drop_encode : (item.encode ++ rest).drop (4 + item.payload.length) = rest := by
  rw [← length_encode, List.drop_left]

theorem code_eq : BitVec.ofNat 16 (get ((item.encode ++ rest).take 2)) = item.code := by
  have bound : item.code.toNat < 256 ^ 2 := item.code.isLt
  rw [take_code, get_put, Nat.mod_eq_of_lt bound, BitVec.ofNat_toNat, BitVec.setWidth_eq]

theorem length_eq : get (((item.encode ++ rest).drop 2).take 2) = item.payload.length := by
  rw [take_length, get_put]
  exact Nat.mod_eq_of_lt item.short

end Item

theorem exists_item {data : List (BitVec 8)} (headed : 4 ≤ data.length)
    (fits : get ((data.drop 2).take 2) ≤ data.length - 4) :
    ∃ item : Item, item.encode ++ data.drop (4 + item.payload.length) = data := by
  have two : (data.take 2).length = 2 := by rw [List.length_take]; omega
  have nextTwo : ((data.drop 2).take 2).length = 2 := by
    rw [List.length_take, List.length_drop]
    omega
  have length : ((data.drop 4).take (get ((data.drop 2).take 2))).length =
      get ((data.drop 2).take 2) := by
    rw [List.length_take, List.length_drop]
    omega
  have codeBound : get (data.take 2) < 2 ^ 16 := by
    have bound := get_lt (data.take 2)
    rwa [two] at bound
  have lengthBound := get_lt ((data.drop 2).take 2)
  rw [nextTwo] at lengthBound
  refine ⟨⟨BitVec.ofNat 16 (get (data.take 2)), (data.drop 4).take (get ((data.drop 2).take 2)),
    by rw [length]; exact lengthBound⟩, ?_⟩
  have code := put_get (data.take 2)
  have size := put_get ((data.drop 2).take 2)
  rw [two] at code
  rw [nextTwo] at size
  simp only [Item.encode, Item.header, BitVec.toNat_ofNat, length, size]
  rw [Nat.mod_eq_of_lt codeBound, code, ← List.drop_drop, List.append_assoc,
    List.take_append_drop, List.append_assoc, show 4 = 2 + 2 from rfl, ← List.drop_drop,
    List.take_append_drop, List.take_append_drop]

/-- Bytes are split into complete options and a rest that is too short for another one. -/
inductive Splits : List (BitVec 8) → List Item → List (BitVec 8) → Prop where
  | tail {tail : List (BitVec 8)} (short : tail.length < 4) : Splits tail [] tail
  | item (item : Item) {data tail : List (BitVec 8)} {items : List Item}
      (rest : Splits data items tail) : Splits (item.encode ++ data) (item :: items) tail

theorem splits_iff {data tail : List (BitVec 8)} {items : List Item} :
    Splits data items tail ↔ data = items.flatMap Item.encode ++ tail ∧ tail.length < 4 := by
  constructor
  · intro splits
    induction splits with
    | tail short => exact ⟨rfl, short⟩
    | item item _ ih => exact ⟨by rw [ih.1, List.flatMap_cons, List.append_assoc], ih.2⟩
  · rintro ⟨rfl, short⟩
    induction items with
    | nil => exact .tail short
    | cons item rest ih =>
      rw [List.flatMap_cons, List.append_assoc]
      exact .item item ih

end Tlv
