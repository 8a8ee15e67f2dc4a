import AdGuardHome.Dhcpsvc.Server
import AdGuardHome.Lib.BinarySearch
import AdGuardHome.Lib.UTF8

/-! Package `dhcpsvc`: the database file for the leases of a server. -/
namespace AdGuardHome.Dhcpsvc

open Netip Heap BinarySearch

/-- A moment as the layout `time.RFC3339` spells it: in whole seconds since the zero value
of `time.Time`. -/
abbrev RFC3339 := Int

/-- `jsonLease`. The text of the expiry is `none` if it is empty, and the hardware address
stands for the text that spells it. -/
structure JSONLease where
  expiry : Option RFC3339
  ip : Addr
  hostname : String
  hwAddr : HardwareAddr
  isStatic : Bool
deriving DecidableEq

/-- `net.ParseMAC` of what `HardwareAddr.String` spells. -/
def parseMAC (hwAddr : HardwareAddr) : Option HardwareAddr := (macToKey hwAddr).map (·.val)

/-- `toJSONLease`. -/
def toJSONLease (l : Lease) : JSONLease where
  expiry := if l.isStatic then none else some (l.expiry / second)
  ip := l.ip
  hostname := l.hostname
  hwAddr := l.hwAddr
  isStatic := l.isStatic

namespace JSONLease

/-- `jsonLease.compareNames`. -/
def compareNames (jl other : JSONLease) : Int :=
  if jl.hostname = other.hostname then 0 else if jl.hostname < other.hostname then -1 else 1

/-- `jsonLease.toInternal`, where `none` is an error. -/
def toInternal (jl : JSONLease) : Option Lease :=
  match parseMAC jl.hwAddr with
  | none => none
  | some mac =>
    if jl.isStatic then some ⟨jl.ip, 0, jl.hostname, mac, true⟩
    else match jl.expiry with
      | none => none
      | some expiry => some ⟨jl.ip, expiry * second, jl.hostname, mac, false⟩

theorem toInternal_ip {jl : JSONLease} {l : Lease} (read : jl.toInternal = some l) :
    l.ip = jl.ip := by
  unfold toInternal at read
  repeat' split at read
  all_goals cases read
  all_goals rfl

end JSONLease

def Lease.reread (l : Lease) : Lease :=
  { l with expiry := if l.isStatic then 0 else l.expiry / second * second }

theorem toInternal_toJSONLease (l : Lease) :
    (toJSONLease l).toInternal = (macToKey l.hwAddr).map fun _ => l.reread := by
  unfold JSONLease.toInternal parseMAC toJSONLease
  dsimp only
  cases valid : macToKey l.hwAddr with
  | none => rfl
  | some key =>
    have mac : key.val = l.hwAddr := macToKey_eq_some.mp valid
    cases static : l.isStatic with
    | true => simp [Lease.reread, mac, static]
    | false => simp [Lease.reread, mac, static]

/-- The bytes of a string that has its bytes as characters. -/
def bytesOfString (s : String) : Bytes := s.toList.map fun c => BitVec.ofNat 8 c.toNat

/-- What is read again of a string that `encoding/json` has written: a byte that is in no character
of UTF-8 comes back as the replacement character. -/
def jsonString (s : String) : String := stringOfBytes (UTF8.toValid (bytesOfString s))

/-- The bytes of the string are in UTF-8. -/
structure IsUTF8 (s : String) : Prop where
  bytes : ∀ c ∈ s.toList, c.toNat < 256
  valid : UTF8.toValid (bytesOfString s) = bytesOfString s

theorem toNat_ofByte (b : BitVec 8) : (Char.ofNat b.toNat).toNat = b.toNat := by
  have small := b.isLt
  have valid : b.toNat.isValidChar := .inl (by omega)
  rw [Char.ofNat, dif_pos valid]
  rfl

theorem bytesOfString_stringOfBytes (data : Bytes) : bytesOfString (stringOfBytes data) = data := by
  rw [bytesOfString, stringOfBytes, String.toList_ofList, List.map_map]
  refine (List.map_congr_left fun b _ => ?_).trans (List.map_id data)
  rw [Function.comp_apply, toNat_ofByte, BitVec.ofNat_toNat]
  exact BitVec.setWidth_eq b

theorem stringOfBytes_bytesOfString {s : String} (bytes : ∀ c ∈ s.toList, c.toNat < 256) :
    stringOfBytes (bytesOfString s) = s := by
  have chars : (bytesOfString s).map (fun byte => Char.ofNat byte.toNat) = s.toList := by
    rw [bytesOfString, List.map_map]
    refine (List.map_congr_left fun c member => ?_).trans (List.map_id s.toList)
    rw [Function.comp_apply, BitVec.toNat_ofNat, Nat.mod_eq_of_lt (bytes c member)]
    exact Char.ofNat_toNat c
  rw [stringOfBytes, chars, String.ofList_toList]

theorem jsonString_eq_iff (s : String) : jsonString s = s ↔ IsUTF8 s := by
  constructor
  · intro same
    have valid : UTF8.toValid (bytesOfString s) = bytesOfString s := by
      have bytes := congrArg bytesOfString same
      rwa [jsonString, bytesOfString_stringOfBytes] at bytes
    refine ⟨fun c member => ?_, valid⟩
    rw [← same, jsonString, stringOfBytes, String.toList_ofList] at member
    obtain ⟨b, _, rfl⟩ := List.mem_map.mp member
    rw [toNat_ofByte]
    exact b.isLt
  · intro utf8
    rw [jsonString, utf8.valid, stringOfBytes_bytesOfString utf8.bytes]

/-- The lease as it is read from the file that it is written to. -/
def JSONLease.written (jl : JSONLease) : JSONLease := { jl with hostname := jsonString jl.hostname }

def Lease.reopened (l : Lease) : Lease := { l.reread with hostname := jsonString l.hostname }

theorem toInternal_written (l : Lease) :
    (toJSONLease l).written.toInternal = (macToKey l.hwAddr).map fun _ => l.reopened := by
  have split : (toJSONLease l).written.toInternal =
      (toJSONLease l).toInternal.map fun read => { read with hostname := jsonString l.hostname } := by
    unfold JSONLease.toInternal JSONLease.written
    dsimp only
    cases parseMAC (toJSONLease l).hwAddr with
    | none => rfl
    | some mac =>
      dsimp only
      cases (toJSONLease l).isStatic with
      | true => rfl
      | false => cases (toJSONLease l).expiry <;> rfl
  rw [split, toInternal_toJSONLease, Option.map_map]
  rfl

namespace JSONDatabase

/-- One round of the loop in `JSONDatabase.Store`. -/
def insert (file : List JSONLease) (lease : JSONLease) : List JSONLease :=
  file.insertIdx (lowerBound (fun other => decide (other.compareNames lease < 0)) file) lease

/-- `JSONDatabase.Store`: the stored leases. -/
def store (leases : List Lease) : List JSONLease :=
  (leases.foldl (fun file l => insert file (toJSONLease l)) []).map JSONLease.written

/-- `JSONDatabase.Load`, where `none` is an error. -/
def load (file : List JSONLease) : Option (List Lease) :=
  if file.all fun l => l.toInternal.isSome then some (file.filterMap JSONLease.toInternal)
  else none

theorem insert_perm (file : List JSONLease) (lease : JSONLease) :
    (insert file lease).Perm (lease :: file) := by
  apply List.perm_insertIdx
  exact (loop_mem _ file file.length 0 file.length (Nat.zero_le _)).2

theorem store_perm (leases : List Lease) :
    (store leases).Perm (leases.map fun l => (toJSONLease l).written) := by
  have rounds : ∀ file : List JSONLease,
      (leases.foldl (fun file l => insert file (toJSONLease l)) file).Perm
        (leases.map toJSONLease ++ file) := by
    induction leases with
    | nil => exact fun file => .refl file
    | cons l rest ih =>
      intro file
      refine (ih _).trans ?_
      exact ((insert_perm file _).append_left _).trans List.perm_middle
  have whole := (rounds []).map JSONLease.written
  rwa [List.append_nil, List.map_map] at whole

theorem load_store {leases loaded : List Lease} (done : load (store leases) = some loaded) :
    loaded.Perm (leases.map Lease.reopened) ∧ ∀ l ∈ leases, (macToKey l.hwAddr).isSome = true := by
  unfold load at done
  split at done
  · rename_i readable
    have valid : ∀ l ∈ leases, (macToKey l.hwAddr).isSome = true := by
      intro l member
      have stored := (store_perm leases).mem_iff.mpr (List.mem_map_of_mem member)
      have read := List.all_eq_true.mp readable _ stored
      rwa [toInternal_written, Option.isSome_map] at read
    refine ⟨?_, valid⟩
    obtain rfl := Option.some.inj done
    refine ((store_perm leases).filterMap _).trans (.of_eq ?_)
    rw [List.filterMap_map, ← List.filterMap_eq_map]
    apply List.filterMap_congr
    intro l member
    obtain ⟨key, found⟩ := Option.isSome_iff_exists.mp (valid l member)
    rw [Function.comp_apply, toInternal_written, found]
    rfl
  · cases done

theorem load_store_isSome {leases : List Lease}
    (valid : ∀ l ∈ leases, (macToKey l.hwAddr).isSome = true) :
    ∃ loaded, load (store leases) = some loaded := by
  refine ⟨_, if_pos ?_⟩
  rw [List.all_eq_true]
  intro jl member
  obtain ⟨l, present, rfl⟩ := List.mem_map.mp ((store_perm leases).mem_iff.mp member)
  rw [toInternal_written, Option.isSome_map]
  exact valid l present

end JSONDatabase

namespace DHCPServer

def leaseByAddr (s : DHCPServer) (ip : Addr) : Option Lease :=
  (s.leases.byAddr.get ip).map s.heap.read

/-- `leaseIndex.dbStore`, walking over the index in some order. -/
def dbStore (s : DHCPServer) (order : WalkOrder Addr) : List JSONLease :=
  JSONDatabase.store ((order.arrange s.leases.byAddr.keys).filterMap s.leaseByAddr)

/-- `New` with `leaseIndex.dbLoad`, where `none` is an error. -/
def dbLoad (env : Env) (conf : Config) (file : List JSONLease) : Option DHCPServer :=
  (JSONDatabase.load file).map (new env conf)

end DHCPServer

end AdGuardHome.Dhcpsvc
