import AdGuardHome.Net
import AdGuardHome.Netip

/-! Package `dhcpsvc`: leases. -/
namespace AdGuardHome.Dhcpsvc

open Netip

/-- A moment, in nanoseconds since the zero value of `time.Time`. -/
abbrev Time := Int

abbrev Duration := Int

/-- `Lease`. -/
structure Lease where
  ip : Addr
  expiry : Time
  hostname : String
  hwAddr : HardwareAddr
  isStatic : Bool
deriving DecidableEq

instance : Inhabited Lease := ⟨⟨.zero, 0, "", [], false⟩⟩

/-- `EUI48AddrLen`. -/
def eui48AddrLen : Nat := 6

/-- `BlockedHardwareAddr`. -/
def blockedHardwareAddr : HardwareAddr := List.replicate eui48AddrLen 0

namespace Lease

/-- `Lease.IsBlocked`. -/
def isBlocked (l : Lease) : Bool := l.hwAddr == blockedHardwareAddr

/-- `Lease.isExpiredAt`. -/
def isExpiredAt (l : Lease) (now : Time) : Bool := if l.isStatic then false else decide (l.expiry < now)

/-- `Lease.updateExpiry`. -/
def updateExpiry (l : Lease) (now : Time) (ttl : Duration) : Lease :=
  if l.isStatic then l
  else if now < l.expiry then l
  else { l with expiry := now + ttl }

variable (l : Lease) (now : Time) (ttl : Duration)

theorem updateExpiry_eq : l.updateExpiry now ttl = l ∨
    l.isStatic = false ∧ l.expiry ≤ now ∧ l.updateExpiry now ttl = { l with expiry := now + ttl } := by
  unfold updateExpiry
  split
  · exact .inl rfl
  · rename_i dynamic
    split
    · exact .inl rfl
    · rename_i expired
      exact .inr ⟨by simpa using dynamic, Int.not_lt.mp expired, rfl⟩

@[simp] theorem updateExpiry_ip : (l.updateExpiry now ttl).ip = l.ip := by
  rcases l.updateExpiry_eq now ttl with same | ⟨_, _, later⟩ <;> simp [*]

@[simp] theorem updateExpiry_hwAddr : (l.updateExpiry now ttl).hwAddr = l.hwAddr := by
  rcases l.updateExpiry_eq now ttl with same | ⟨_, _, later⟩ <;> simp [*]

@[simp] theorem updateExpiry_hostname : (l.updateExpiry now ttl).hostname = l.hostname := by
  rcases l.updateExpiry_eq now ttl with same | ⟨_, _, later⟩ <;> simp [*]

@[simp] theorem updateExpiry_isStatic : (l.updateExpiry now ttl).isStatic = l.isStatic := by
  rcases l.updateExpiry_eq now ttl with same | ⟨_, _, later⟩ <;> simp [*]

end Lease

end AdGuardHome.Dhcpsvc
