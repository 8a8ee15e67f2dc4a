import Mathlib.Data.BitVec

namespace AdGuardHome

/-- `net.HardwareAddr`: any byte string. -/
abbrev HardwareAddr := List (BitVec 8)

/-- `macKey`: an array of 6, 8 or 20 bytes. -/
abbrev MacKey := { mac : HardwareAddr // mac.length = 6 ∨ mac.length = 8 ∨ mac.length = 20 }

/-- `macToKey`, where `none` is the panic on any other length. -/
def macToKey (mac : HardwareAddr) : Option MacKey :=
  if valid : mac.length = 6 ∨ mac.length = 8 ∨ mac.length = 20 then some ⟨mac, valid⟩ else none

theorem macToKey_eq_some {mac : HardwareAddr} {key : MacKey} :
    macToKey mac = some key ↔ key.val = mac := by
  unfold macToKey
  split
  · simp [Subtype.ext_iff, eq_comm]
  · rename_i invalid
    constructor
    · simp
    · rintro rfl
      exact absurd key.property invalid

@[simp] theorem macToKey_val (key : MacKey) : macToKey key.val = some key :=
  macToKey_eq_some.mpr rfl

end AdGuardHome

namespace AdGuardHome.Net

/-- `net.IP`: 4 or 16 bytes; any other length is not an address. -/
abbrev IP := List (BitVec 8)

namespace IP

/-- `IP.To4`. -/
def to4 (ip : IP) : Option IP :=
  if ip.length = 4 then some ip
  else if ip.length = 16 ∧ ip.take 12 = List.replicate 10 0 ++ [0xff, 0xff] then some (ip.drop 12)
  else none

/-- The byte at a position, which the callers know to be there. -/
def byte (ip : IP) (i : Nat) : BitVec 8 := ip.getD i 0

def isLoopback (ip : IP) : Bool :=
  match ip.to4 with
  | some ip4 => ip4.byte 0 == 127
  | none => ip == List.replicate 15 0 ++ [1]

def isPrivate (ip : IP) : Bool :=
  match ip.to4 with
  | some ip4 => ip4.byte 0 == 10 || (ip4.byte 0 == 172 && ip4.byte 1 &&& 0xf0 == 16) ||
      (ip4.byte 0 == 192 && ip4.byte 1 == 168)
  | none => ip.length == 16 && ip.byte 0 &&& 0xfe == 0xfc

def isLinkLocalUnicast (ip : IP) : Bool :=
  match ip.to4 with
  | some ip4 => ip4.byte 0 == 169 && ip4.byte 1 == 254
  | none => ip.length == 16 && ip.byte 0 == 0xfe && ip.byte 1 &&& 0xc0 == 0x80

def isLinkLocalMulticast (ip : IP) : Bool :=
  match ip.to4 with
  | some ip4 => ip4.byte 0 == 224 && ip4.byte 1 == 0 && ip4.byte 2 == 0
  | none => ip.length == 16 && ip.byte 0 == 0xff && ip.byte 1 &&& 0x0f == 0x02

def isUnspecified (ip : IP) : Bool :=
  match ip.to4 with
  | some ip4 => ip4 == List.replicate 4 0
  | none => ip == List.replicate 16 0

end IP

end AdGuardHome.Net
