import AdGuardHome.Dhcpsvc.V6
import AdGuardHome.Lib.Tlv

/-! `options6.go`: the IA_NA option on the wire. Every access to the received bytes checks
its bounds, and `none` is the panic that Go has for one that is out of them. -/
namespace AdGuardHome.Dhcpsvc.IANACodec

open Netip
open BigEndian (put)

/-- `data[low:high]`. -/
def slice (data : Bytes) (low high : Nat) : Option Bytes :=
  if low ≤ high ∧ high ≤ data.length then some ((data.drop low).take (high - low)) else none

/-- `binary.BigEndian.Uint16`. -/
def uint16 (data : Bytes) : Option (BitVec 16) :=
  if 2 ≤ data.length then some (BitVec.ofNat 16 (BigEndian.get (data.take 2))) else none

/-- `binary.BigEndian.Uint32`. -/
def uint32 (data : Bytes) : Option (BitVec 32) :=
  if 4 ≤ data.length then some (BitVec.ofNat 32 (BigEndian.get (data.take 4))) else none

/-- The errors, with the names and numbers that their texts tell. -/
inductive OptionError where
  | noLessThan (name : String) (value min : Nat)
  | noGreaterThan (name : String) (value max : Nat)
  | invalidIPv6
  | nestedOption (index : Nat) (err : OptionError)
  | nestedIAAddr (index : Nat) (err : OptionError)
deriving DecidableEq

/-- `IAAddrOption.UnmarshalBinary`: the receiver as it is left, and the error. -/
def unmarshalIAAddr (ia : IAAddrOption) (data : Bytes) :
    Option (IAAddrOption × Option OptionError) :=
  if data.length < iaAddrDataLen then
    some (ia, some (.noLessThan "data length" data.length iaAddrDataLen))
  else do
    match addrFromSlice (← slice data 0 16) with
    | none => some ({ ia with addr := .zero }, some .invalidIPv6)
    | some addr =>
      let preferred ← uint32 (← slice data 16 20)
      let valid ← uint32 (← slice data 20 24)
      some (⟨addr, ofSeconds preferred, ofSeconds valid⟩, none)

/-- `IAAddrOption{}`. -/
def emptyIAAddr : IAAddrOption := ⟨.zero, 0, 0⟩

/-- One round of the loop of `IANAOption.UnmarshalBinary`: the receiver, and the error or the
bytes behind the nested option. -/
def unmarshalNestedOption (opt : IANAOption) (i : Nat) (nested : Bytes) :
    Option (IANAOption × (OptionError ⊕ Bytes)) := do
  let code ← uint16 (← slice nested 0 2)
  let l := (← uint16 (← slice nested 2 4)).toNat
  if nested.length - 4 < l then
    some (opt, .inl (.nestedOption i
      (.noGreaterThan "nested option length" l (nested.length - 4))))
  else if code = DHCPv6Option.iaAddr then
    match ← unmarshalIAAddr emptyIAAddr (← slice nested 4 (4 + l)) with
    | (_, some err) => some (opt, .inl (.nestedIAAddr i err))
    | (addr, none) =>
      let rest ← slice nested (4 + l) nested.length
      some ({ opt with nested := opt.nested ++ [addr] }, .inr rest)
  else
    let rest ← slice nested (4 + l) nested.length
    some (opt, .inr rest)

/-- `IAAddrOption.appendTo`. -/
def appendTo (env : Env) (ia : IAAddrOption) (orig : Bytes) : Bytes :=
  orig ++ put 2 DHCPv6Option.iaAddr.toNat ++ put 2 iaAddrDataLen ++ appendBinary ia.addr ++
    put 4 (uint32Seconds env ia.preferredLifetime).toNat ++
    put 4 (uint32Seconds env ia.validLifetime).toNat
where
  /-- `netip.Addr.AppendBinary`. -/
  appendBinary : Addr → Bytes
    | .zero => []
    | .v4 value => put 4 value.toNat
    | .v6 value zone => put 16 value.toNat ++ zone.toUTF8.data.toList.map (·.toBitVec)

/-- `IANAOption.Encode`. -/
def encode (env : Env) (opt : IANAOption) : DHCPv6Option :=
  ⟨DHCPv6Option.iana, opt.nested.foldl (fun data addr => appendTo env addr data)
    (put 4 opt.id.toNat ++ put 4 (uint32Seconds env opt.t1).toNat ++
      put 4 (uint32Seconds env opt.t2).toNat)⟩

@[simp] theorem slice_eq (data : Bytes) {low high : Nat} (ordered : low ≤ high)
    (inside : high ≤ data.length) : slice data low high = some ((data.drop low).take (high - low)) :=
  if_pos ⟨ordered, inside⟩

/-- The first bytes of a slice as a number, as `uint16` and `uint32` read it. -/
theorem uint_slice {width : Nat} (size : Nat) (data : Bytes) (low : Nat)
    (inside : low + size ≤ data.length) :
    ((slice data low (low + size)).bind fun bytes =>
        if size ≤ bytes.length then some (BitVec.ofNat width (BigEndian.get (bytes.take size)))
        else none) =
      some (BitVec.ofNat width (BigEndian.get ((data.drop low).take size))) := by
  have enough : size ≤ ((data.drop low).take (low + size - low)).length := by
    rw [List.length_take, List.length_drop]
    omega
  rw [slice_eq data (Nat.le_add_right _ _) inside, Option.bind_some, if_pos enough,
    Nat.add_sub_cancel_left, List.take_take, Nat.min_self]

theorem uint16_slice (data : Bytes) (low : Nat) (inside : low + 2 ≤ data.length) :
    (slice data low (low + 2)).bind uint16 =
      some (BitVec.ofNat 16 (BigEndian.get ((data.drop low).take 2))) := uint_slice 2 data low inside

theorem uint32_slice (data : Bytes) (low : Nat) (inside : low + 4 ≤ data.length) :
    (slice data low (low + 4)).bind uint32 =
      some (BitVec.ofNat 32 (BigEndian.get ((data.drop low).take 4))) := uint_slice 4 data low inside

theorem natOfBytes_eq (data : Bytes) : natOfBytes data = BigEndian.get data := by
  have folded : ∀ value, data.foldl (fun value byte => value * 256 + byte.toNat) value =
      value * 256 ^ data.length + BigEndian.get data := by
    induction data with
    | nil => simp [BigEndian.get]
    | cons byte rest ih =>
      intro value
      rw [List.foldl_cons, ih, BigEndian.get, List.length_cons, Nat.pow_succ]
      grind
  rw [natOfBytes, folded, Nat.zero_mul, Nat.zero_add]

/-- The option that the data of an IA Address option stand for. -/
def iaAddrOf (data : Bytes) : IAAddrOption where
  addr := .v6 (BitVec.ofNat 128 (BigEndian.get (data.take 16))) ""
  preferredLifetime := ofSeconds (BitVec.ofNat 32 (BigEndian.get ((data.drop 16).take 4)))
  validLifetime := ofSeconds (BitVec.ofNat 32 (BigEndian.get ((data.drop 20).take 4)))

theorem addrFromSlice_16 {data : Bytes} (length : data.length = 16) :
    addrFromSlice data = some (.v6 (BitVec.ofNat 128 (BigEndian.get data)) "") := by
  rw [addrFromSlice, length, if_neg (by decide), if_pos rfl, natOfBytes_eq]

/-- Data of an IA Address option are parsed iff they are long enough. -/
theorem unmarshalIAAddr_eq (ia : IAAddrOption) (data : Bytes) :
    unmarshalIAAddr ia data =
      some (if data.length < iaAddrDataLen
        then (ia, some (.noLessThan "data length" data.length iaAddrDataLen))
        else (iaAddrOf data, none)) := by
  unfold unmarshalIAAddr
  by_cases short : data.length < iaAddrDataLen
  · rw [if_pos short, if_pos short]
  · have enough : 24 ≤ data.length := Nat.le_of_not_lt short
    have addr : ((data.drop 0).take (16 - 0)).length = 16 := by
      rw [List.length_take, List.length_drop]
      omega
    have preferred := uint32_slice data 16 (by omega)
    have valid := uint32_slice data 20 (by omega)
    have address : slice data 0 16 = some ((data.drop 0).take (16 - 0)) :=
      slice_eq data (by omega) (by omega)
    rw [if_neg short, if_neg short]
    simp only [Option.bind_eq_bind, address, Option.bind_some, addrFromSlice_16 addr, ← Option.bind_assoc]
    simp only [Nat.reduceAdd] at preferred valid
    rw [preferred, Option.bind_some, valid, Option.bind_some]
    rfl

theorem unmarshalNestedOption_eq (opt : IANAOption) {nested : Bytes} (headed : 4 ≤ nested.length)
    (i : Nat) :
    unmarshalNestedOption opt i nested =
      let code := BitVec.ofNat 16 (BigEndian.get (nested.take 2))
      let l := BigEndian.get ((nested.drop 2).take 2)
      if nested.length - 4 < l then
        some (opt, .inl (.nestedOption i
          (.noGreaterThan "nested option length" l (nested.length - 4))))
      else if code = DHCPv6Option.iaAddr then
        if ((nested.drop 4).take l).length < iaAddrDataLen then
          some (opt, .inl (.nestedIAAddr i
            (.noLessThan "data length" ((nested.drop 4).take l).length iaAddrDataLen)))
        else some ({ opt with nested := opt.nested ++ [iaAddrOf ((nested.drop 4).take l)] },
          .inr (nested.drop (4 + l)))
      else some (opt, .inr (nested.drop (4 + l))) := by
  have code := uint16_slice nested 0 (by omega)
  have length := uint16_slice nested 2 (by omega)
  have small : BigEndian.get ((nested.drop 2).take 2) < 2 ^ 16 := by
    have bound := BigEndian.get_lt ((nested.drop 2).take 2)
    rwa [List.length_take, List.length_drop, Nat.min_eq_left (by omega)] at bound
  simp only [Nat.zero_add, Nat.reduceAdd, List.drop_zero] at code length
  unfold unmarshalNestedOption
  simp only [Option.bind_eq_bind, ← Option.bind_assoc]
  rw [code, Option.bind_some, length, Option.bind_some, BitVec.toNat_ofNat, Nat.mod_eq_of_lt small]
  generalize BigEndian.get ((nested.drop 2).take 2) = l
  by_cases long : nested.length - 4 < l
  · rw [if_pos long, if_pos long]
  · have rest : slice nested (4 + l) nested.length = some (nested.drop (4 + l)) := by
      rw [slice_eq nested (by omega) le_rfl, ← List.length_drop, List.take_length]
    have payload : slice nested 4 (4 + l) = some ((nested.drop 4).take l) := by
      rw [slice_eq nested (by omega) (by omega), Nat.add_sub_cancel_left]
    rw [if_neg long, if_neg long]
    simp only [rest, payload, Option.bind_some, unmarshalIAAddr_eq]
    split
    · by_cases short : ((nested.drop 4).take l).length < iaAddrDataLen
      · simp only [if_pos short]
      · simp only [if_neg short]
    · rfl

theorem rest_shorter {opt after : IANAOption} {nested rest : Bytes} {i : Nat}
    (headed : ¬ nested.length < 4)
    (round : unmarshalNestedOption opt i nested = some (after, .inr rest)) :
    rest.length < nested.length := by
  rw [unmarshalNestedOption_eq opt (by omega) i] at round
  simp only at round
  have dropped : ∀ l, (nested.drop (4 + l)).length < nested.length := by
    intro l
    rw [List.length_drop]
    omega
  split at round
  · cases round
  · split at round
    · split at round
      · cases round
      · cases round
        exact dropped _
    · cases round
      exact dropped _

/-- The loop of `IANAOption.UnmarshalBinary` from a nested option on. -/
def unmarshalNested (opt : IANAOption) (i : Nat) (nested : Bytes) :
    Option (IANAOption × Option OptionError) :=
  if headed : nested.length < 4 then some (opt, none)
  else
    match round : unmarshalNestedOption opt i nested with
    | none => none
    | some (opt, .inl err) => some (opt, some err)
    | some (opt, .inr rest) =>
      have shorter := rest_shorter headed round
      unmarshalNested opt (i + 1) rest
termination_by nested.length

/-- `IANAOption.UnmarshalBinary`: the receiver as it is left, and the error. -/
def unmarshalBinary (opt : IANAOption) (data : Bytes) : Option (IANAOption × Option OptionError) :=
  if data.length < iaNAMinLen then
    some (opt, some (.noLessThan "data length" data.length iaNAMinLen))
  else do
    let id ← uint32 (← slice data 0 4)
    let t1 ← uint32 (← slice data 4 8)
    let t2 ← uint32 (← slice data 8 12)
    let nested ← slice data iaNAMinLen data.length
    unmarshalNested { opt with id, t1 := ofSeconds t1, t2 := ofSeconds t2 } 0 nested

open Tlv (Item Splits)

def addresses (items : List Item) : List IAAddrOption :=
  (items.filter (·.code = DHCPv6Option.iaAddr)).map (iaAddrOf ·.payload)

def AddressesFit (items : List Item) : Prop :=
  ∀ item ∈ items, item.code = DHCPv6Option.iaAddr → iaAddrDataLen ≤ item.payload.length

/-- A round on a complete nested option. -/
theorem unmarshalNestedOption_item (opt : IANAOption) (i : Nat) (item : Item) (rest : Bytes) :
    unmarshalNestedOption opt i (item.encode ++ rest) =
      if item.code = DHCPv6Option.iaAddr then
        if item.payload.length < iaAddrDataLen then
          some (opt, .inl (.nestedIAAddr i
            (.noLessThan "data length" item.payload.length iaAddrDataLen)))
        else some ({ opt with nested := opt.nested ++ [iaAddrOf item.payload] }, .inr rest)
      else some (opt, .inr rest) := by
  have total : (item.encode ++ rest).length = 4 + item.payload.length + rest.length := by
    rw [List.length_append, Tlv.Item.length_encode]
  have complete : ¬ (item.encode ++ rest).length - 4 < item.payload.length := by omega
  rw [unmarshalNestedOption_eq opt (by omega) i]
  simp only [item.code_eq rest, item.length_eq rest, item.take_payload rest, item.drop_encode rest,
    if_neg complete]

theorem unmarshalNested_next {opt after : IANAOption} {i : Nat} {nested rest : Bytes}
    (headed : ¬ nested.length < 4)
    (round : unmarshalNestedOption opt i nested = some (after, .inr rest)) :
    unmarshalNested opt i nested = unmarshalNested after (i + 1) rest := by
  rw [unmarshalNested, dif_neg headed]
  split
  next none => rw [none] at round; cases round
  next failed => rw [failed] at round; cases round
  next goes =>
    rw [goes] at round
    cases round
    rfl

theorem unmarshalNested_failed {opt after : IANAOption} {i : Nat} {nested : Bytes}
    {err : OptionError} (headed : ¬ nested.length < 4)
    (round : unmarshalNestedOption opt i nested = some (after, .inl err)) :
    unmarshalNested opt i nested = some (after, some err) := by
  rw [unmarshalNested, dif_neg headed]
  split
  next none => rw [none] at round; cases round
  next failed =>
    rw [failed] at round
    cases round
    rfl
  next goes => rw [goes] at round; cases round

theorem addresses_cons (item : Item) (items : List Item) :
    addresses (item :: items) =
      (if item.code = DHCPv6Option.iaAddr then [iaAddrOf item.payload] else []) ++
        addresses items := by
  by_cases isAddr : item.code = DHCPv6Option.iaAddr <;> simp [addresses, isAddr]

theorem headed_of_item (item : Item) (rest : Bytes) : ¬ (item.encode ++ rest).length < 4 := by
  rw [List.length_append, Item.length_encode]
  omega

theorem unmarshalNested_splits {data tail : Bytes} {items : List Item}
    (splits : Splits data items tail) (fit : AddressesFit items) (opt : IANAOption) (i : Nat) :
    unmarshalNested opt i data = some ({ opt with nested := opt.nested ++ addresses items }, none) := by
  induction splits generalizing opt i with
  | tail short =>
    rw [unmarshalNested, dif_pos short]
    simp [addresses]
  | @item item data tail items rest ih =>
    have laterFit : AddressesFit items := fun other later => fit other (List.mem_cons_of_mem _ later)
    have round := unmarshalNestedOption_item opt i item data
    rw [addresses_cons]
    by_cases isAddr : item.code = DHCPv6Option.iaAddr
    · have long := Nat.not_lt.mpr (fit item List.mem_cons_self isAddr)
      rw [if_pos isAddr, if_neg long] at round
      rw [unmarshalNested_next (headed_of_item item data) round, ih laterFit, if_pos isAddr,
        List.append_assoc]
    · rw [if_neg isAddr] at round
      rw [unmarshalNested_next (headed_of_item item data) round, ih laterFit, if_neg isAddr,
        List.nil_append]

theorem unmarshalNested_cases (opt : IANAOption) (i : Nat) (nested : Bytes) :
    (∃ items tail, Splits nested items tail ∧ AddressesFit items) ∨
      ∃ after err, unmarshalNested opt i nested = some (after, some err) := by
  induction length : nested.length using Nat.strong_induction_on generalizing opt i nested with
  | _ n ih =>
    by_cases short : nested.length < 4
    · exact .inl ⟨[], nested, .tail short, fun _ absent => by cases absent⟩
    by_cases long : nested.length - 4 < BigEndian.get ((nested.drop 2).take 2)
    · have round := unmarshalNestedOption_eq opt (Nat.le_of_not_lt short) i
      simp only [if_pos long] at round
      exact .inr ⟨_, _, unmarshalNested_failed short round⟩
    · obtain ⟨item, whole⟩ := Tlv.exists_item (Nat.le_of_not_lt short) (Nat.le_of_not_lt long)
      generalize nested.drop (4 + item.payload.length) = rest at whole
      subst whole
      have smaller : rest.length < n := by
        rw [← length, List.length_append, Item.length_encode]
        omega
      have round := unmarshalNestedOption_item opt i item rest
      -- what is left of the bytes is split, or it has an error
      have later : ∀ after, unmarshalNestedOption opt i (item.encode ++ rest) = some (after, .inr rest) →
          (item.code = DHCPv6Option.iaAddr → iaAddrDataLen ≤ item.payload.length) →
          (∃ items tail, Splits (item.encode ++ rest) items tail ∧ AddressesFit items) ∨
            ∃ after err, unmarshalNested opt i (item.encode ++ rest) = some (after, some err) := by
        intro after goes fits
        rw [unmarshalNested_next short goes]
        rcases ih rest.length smaller after (i + 1) rest rfl with ⟨items, tail, splits, fit⟩ | failed
        · exact .inl ⟨item :: items, tail, .item item splits, List.forall_mem_cons.mpr ⟨fits, fit⟩⟩
        · exact .inr failed
      by_cases isAddr : item.code = DHCPv6Option.iaAddr
      · by_cases tooShort : item.payload.length < iaAddrDataLen
        · rw [if_pos isAddr, if_pos tooShort] at round
          exact .inr ⟨_, _, unmarshalNested_failed short round⟩
        · rw [if_pos isAddr, if_neg tooShort] at round
          exact later _ round fun _ => Nat.le_of_not_lt tooShort
      · rw [if_neg isAddr] at round
        exact later _ round fun isAddr' => absurd isAddr' isAddr

/-- An option has been parsed from data: the fixed fields, and the addresses of all complete
nested options in order, behind those that the receiver has had. -/
structure Parses (receiver : IANAOption) (data : Bytes) (opt : IANAOption) : Prop where
  headed : iaNAMinLen ≤ data.length
  id : opt.id = BitVec.ofNat 32 (BigEndian.get (data.take 4))
  t1 : opt.t1 = ofSeconds (BitVec.ofNat 32 (BigEndian.get ((data.drop 4).take 4)))
  t2 : opt.t2 = ofSeconds (BitVec.ofNat 32 (BigEndian.get ((data.drop 8).take 4)))
  nested : ∃ items tail, Splits (data.drop iaNAMinLen) items tail ∧ AddressesFit items ∧
    opt.nested = receiver.nested ++ addresses items

theorem unmarshalBinary_eq (receiver : IANAOption) {data : Bytes}
    (headed : iaNAMinLen ≤ data.length) :
    unmarshalBinary receiver data = unmarshalNested ⟨receiver.nested,
      BitVec.ofNat 32 (BigEndian.get (data.take 4)),
      ofSeconds (BitVec.ofNat 32 (BigEndian.get ((data.drop 4).take 4))),
      ofSeconds (BitVec.ofNat 32 (BigEndian.get ((data.drop 8).take 4)))⟩ 0
      (data.drop iaNAMinLen) := by
  have enough : 12 ≤ data.length := headed
  have id := uint32_slice data 0 (by omega)
  have t1 := uint32_slice data 4 (by omega)
  have t2 := uint32_slice data 8 (by omega)
  have nested : slice data iaNAMinLen data.length = some (data.drop iaNAMinLen) := by
    rw [slice_eq data headed le_rfl, ← List.length_drop, List.take_length]
  simp only [Nat.zero_add, Nat.reduceAdd, List.drop_zero] at id t1 t2
  rw [unmarshalBinary, if_neg (Nat.not_lt.mpr headed)]
  simp only [Option.bind_eq_bind, ← Option.bind_assoc]
  rw [id, Option.bind_some, t1, Option.bind_some, t2, Option.bind_some, nested, Option.bind_some]

theorem Parses.unmarshalBinary {receiver opt : IANAOption} {data : Bytes}
    (parses : Parses receiver data opt) : unmarshalBinary receiver data = some (opt, none) := by
  obtain ⟨headed, id, t1, t2, items, tail, splits, fit, nested⟩ := parses
  rw [unmarshalBinary_eq receiver headed, unmarshalNested_splits splits fit, ← id, ← t1, ← t2]
  simp only [← nested]

/-- The parser returns an error, or it has parsed the data. -/
theorem unmarshalBinary_cases (receiver : IANAOption) (data : Bytes) :
    (∃ opt err, unmarshalBinary receiver data = some (opt, some err)) ∨
      ∃ opt, unmarshalBinary receiver data = some (opt, none) ∧ Parses receiver data opt := by
  by_cases headed : iaNAMinLen ≤ data.length
  · rcases unmarshalNested_cases _ 0 (data.drop iaNAMinLen) with
      ⟨items, tail, splits, fit⟩ | ⟨opt, err, failed⟩
    · have parses : Parses receiver data ⟨receiver.nested ++ addresses items, _, _, _⟩ :=
        ⟨headed, rfl, rfl, rfl, items, tail, splits, fit, rfl⟩
      exact .inr ⟨_, parses.unmarshalBinary, parses⟩
    · rw [unmarshalBinary_eq receiver headed]
      exact .inl ⟨opt, err, failed⟩
  · exact .inl ⟨_, _, if_pos (Nat.lt_of_not_le headed)⟩

/-- A whole number of seconds below `2 ^ 32`. -/
def Whole (d : Duration) : Prop := ∃ seconds : BitVec 32, d = ofSeconds seconds

/-- A nested option that is written as it is: with an IPv6 address without a zone. -/
structure EncodableAddr (ia : IAAddrOption) : Prop where
  addr : ∃ value, ia.addr = .v6 value ""
  preferredLifetime : Whole ia.preferredLifetime
  validLifetime : Whole ia.validLifetime

structure Encodable (opt : IANAOption) : Prop where
  t1 : Whole opt.t1
  t2 : Whole opt.t2
  nested : ∀ ia ∈ opt.nested, EncodableAddr ia

def addrPayload (value : BitVec 128) (preferred valid : BitVec 32) : Bytes :=
  put 16 value.toNat ++ put 4 preferred.toNat ++ put 4 valid.toNat

theorem length_addrPayload (value : BitVec 128) (preferred valid : BitVec 32) :
    (addrPayload value preferred valid).length = iaAddrDataLen := by
  simp [addrPayload, iaAddrDataLen]

theorem addrPayload_short (value : BitVec 128) (preferred valid : BitVec 32) :
    (addrPayload value preferred valid).length < 65536 := by
  rw [length_addrPayload]
  decide

theorem ofNat_get_put {width length : Nat} (value : BitVec width) (fits : 2 ^ width = 256 ^ length) :
    BitVec.ofNat width (BigEndian.get (put length value.toNat)) = value := by
  rw [BigEndian.get_put, ← fits, Nat.mod_eq_of_lt value.isLt, BitVec.ofNat_toNat,
    BitVec.setWidth_eq]

theorem iaAddrOf_addrPayload (value : BitVec 128) (preferred valid : BitVec 32) :
    iaAddrOf (addrPayload value preferred valid) =
      ⟨.v6 value "", ofSeconds preferred, ofSeconds valid⟩ := by
  have first : (addrPayload value preferred valid).take 16 = put 16 value.toNat := by
    simp [addrPayload]
  have second : ((addrPayload value preferred valid).drop 16).take 4 = put 4 preferred.toNat := by
    simp [addrPayload]
  have third : ((addrPayload value preferred valid).drop 20).take 4 = put 4 valid.toNat := by
    have fields : (put 16 value.toNat ++ put 4 preferred.toNat).length = 20 := by simp
    rw [addrPayload, ← fields, List.drop_left]
    simp
  rw [iaAddrOf, first, second, third, ofNat_get_put value (by decide),
    ofNat_get_put preferred (by decide), ofNat_get_put valid (by decide)]

/-- A nested option is appended as one item, from which it is read back. -/
theorem EncodableAddr.item {ia : IAAddrOption} (encodable : EncodableAddr ia) (env : Env) :
    ∃ item : Item, (∀ orig, appendTo env ia orig = orig ++ item.encode) ∧
      item.code = DHCPv6Option.iaAddr ∧ item.payload.length = iaAddrDataLen ∧
      iaAddrOf item.payload = ia := by
  obtain ⟨⟨value, addr⟩, ⟨preferred, first⟩, ⟨valid, second⟩⟩ := encodable
  refine ⟨⟨DHCPv6Option.iaAddr, addrPayload value preferred valid,
    addrPayload_short value preferred valid⟩, ?_, rfl, length_addrPayload _ _ _, ?_⟩
  · intro orig
    have zoneless : "".toUTF8.data.toList.map (·.toBitVec) = [] := rfl
    have length := length_addrPayload value preferred valid
    simp only [Item.encode, Item.header, length]
    simp only [appendTo, appendTo.appendBinary, addr, first, second, uint32Seconds_ofSeconds,
      zoneless, List.append_nil, addrPayload, List.append_assoc]
  · rw [iaAddrOf_addrPayload, ← addr, ← first, ← second]

theorem foldl_appendTo (env : Env) {nested : List IAAddrOption}
    (encodable : ∀ ia ∈ nested, EncodableAddr ia) (orig : Bytes) :
    ∃ items, nested.foldl (fun data addr => appendTo env addr data) orig =
        orig ++ items.flatMap Item.encode ∧ AddressesFit items ∧ addresses items = nested := by
  induction nested generalizing orig with
  | nil => exact ⟨[], (List.append_nil orig).symm, (fun _ absent => by cases absent), rfl⟩
  | cons ia rest ih =>
    obtain ⟨first, later⟩ := List.forall_mem_cons.mp encodable
    obtain ⟨item, appended, code, length, read⟩ := first.item env
    obtain ⟨items, folded, fit, found⟩ := ih later (appendTo env ia orig)
    refine ⟨item :: items, ?_, List.forall_mem_cons.mpr ⟨fun _ => length.ge, fit⟩, ?_⟩
    · rw [List.foldl_cons, folded, appended, List.flatMap_cons, List.append_assoc]
    · rw [addresses_cons, if_pos code, read, found]
      rfl

theorem encode_parses {opt : IANAOption} (encodable : Encodable opt) (env : Env)
    {receiver : IANAOption} (fresh : receiver.nested = []) :
    Parses receiver (encode env opt).data opt := by
  obtain ⟨⟨t1, first⟩, ⟨t2, second⟩, nested⟩ := encodable
  obtain ⟨items, folded, fit, found⟩ := foldl_appendTo env nested
    (put 4 opt.id.toNat ++ put 4 t1.toNat ++ put 4 t2.toNat)
  have data : (encode env opt).data =
      put 4 opt.id.toNat ++ (put 4 t1.toNat ++ (put 4 t2.toNat ++ items.flatMap Item.encode)) := by
    simp only [encode, first, second, uint32Seconds_ofSeconds]
    rw [folded, List.append_assoc, List.append_assoc]
  have fixed : (put 4 opt.id.toNat ++ put 4 t1.toNat ++ put 4 t2.toNat).length = iaNAMinLen := by
    simp [iaNAMinLen]
  have behind : (encode env opt).data.drop iaNAMinLen = items.flatMap Item.encode := by
    rw [data, ← List.append_assoc, ← List.append_assoc, ← fixed, List.drop_left]
  constructor
  · rw [data, ← List.append_assoc, ← List.append_assoc, List.length_append, fixed]
    exact Nat.le_add_right _ _
  · rw [data, List.take_left' (BigEndian.length_put 4 _), ofNat_get_put opt.id (by decide)]
  · rw [data, List.drop_left' (BigEndian.length_put 4 _),
      List.take_left' (BigEndian.length_put 4 _), ofNat_get_put t1 (by decide), first]
  · rw [data, ← List.append_assoc, List.drop_left' (by simp),
      List.take_left' (BigEndian.length_put 4 _), ofNat_get_put t2 (by decide), second]
  · refine ⟨items, [], ?_, fit, by rw [fresh, found]; rfl⟩
    rw [behind]
    exact Tlv.splits_iff.mpr ⟨(List.append_nil _).symm, by decide⟩

/-- An encodable option is read back from its data, and any data are parsed without a panic:
with an error, or to the addresses of all complete nested options in order. -/
theorem iana_codec :
    (∀ (env : Env) (receiver opt : IANAOption), receiver.nested = [] → Encodable opt →
      unmarshalBinary receiver (encode env opt).data = some (opt, none)) ∧
    ∀ (receiver : IANAOption) (data : Bytes),
      (∃ opt err, unmarshalBinary receiver data = some (opt, some err)) ∨
        ∃ opt, unmarshalBinary receiver data = some (opt, none) ∧ Parses receiver data opt :=
  ⟨fun env _ _ fresh encodable => (encode_parses encodable env fresh).unmarshalBinary,
    unmarshalBinary_cases⟩

/-- Two addresses, the lifetimes of one of them at the bounds. -/
theorem iana_codec_two :
    let env : Env := ⟨id, fun _ => true, fun _ => true, fun _ => 0⟩
    let opt : IANAOption := ⟨[⟨.v6 1 "", ofSeconds 60, ofSeconds 120⟩,
      ⟨.v6 (-1) "", ofSeconds 0, ofSeconds 0xffffffff⟩], 7, ofSeconds 30, ofSeconds 45⟩
    unmarshalBinary ⟨[], 0, 0, 0⟩ (encode env opt).data = some (opt, none) := by
  intro env opt
  refine iana_codec.1 env ⟨[], 0, 0, 0⟩ opt rfl ⟨⟨30, rfl⟩, ⟨45, rfl⟩, ?_⟩
  refine List.forall_mem_cons.mpr ⟨⟨⟨1, rfl⟩, ⟨60, rfl⟩, ⟨120, rfl⟩⟩, ?_⟩
  exact List.forall_mem_singleton.mpr ⟨⟨-1, rfl⟩, ⟨0, rfl⟩, ⟨0xffffffff, rfl⟩⟩

end AdGuardHome.Dhcpsvc.IANACodec
