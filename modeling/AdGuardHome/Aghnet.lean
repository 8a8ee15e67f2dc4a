import AdGuardHome.Netip
import AdGuardHome.Strings

/-! Package `aghnet`: generated hostnames, and the addresses of interfaces and upstreams. -/
namespace AdGuardHome.Aghnet

open Netip Strings

def hexGroup (group : Nat) : String :=
  String.ofList ([3, 2, 1, 0].map fun i => Nat.digitChar (group / 16 ^ i % 16))

/-- `GenerateHostname`. -/
def generateHostname (ip : Addr) : String :=
  match ip.unmap with
  | .zero => ""
  | .v4 value =>
    "-".intercalate ([3, 2, 1, 0].map fun i => toString (value.toNat / 256 ^ i % 256))
  | .v6 value zone =>
    let expanded := "-".intercalate
      ([7, 6, 5, 4, 3, 2, 1, 0].map fun i => hexGroup (value.toNat / 65536 ^ i % 65536))
    if zone = "" then expanded else expanded ++ "%" ++ zone.replace ":" "-"

example : generateHostname (.v4 0xc0a80a01) = "192-168-10-1" := by decide

/-- `IsCommentOrEmpty`. -/
def isCommentOrEmpty (s : Bytes) : Bool := s.length == 0 || s.head? == some 35

/-- `CollectAllIfacesAddrs`, for the texts of the addresses that the system gives. -/
def collectAllIfacesAddrs {ε : Type} (netInterfaceAddrs : Except ε (List Bytes))
    (parsePrefix : Bytes → Except ε Prefix) : Except ε (List Addr) := do
  let ifaceAddrs ← netInterfaceAddrs
  let prefixes ← ifaceAddrs.mapM parsePrefix
  return prefixes.map (·.addr)

/-- `ParseAddrPort`, with the host of the URL that the text may be and the parsers of package
`netip`. -/
def parseAddrPort (urlHost : Bytes → Option Bytes) (parse : Bytes → Option AddrPort)
    (parseAddr : Bytes → Option Addr) (s : Bytes) (defaultPort : BitVec 16) : Option AddrPort :=
  let s := match urlHost s with
    | some host => if host ≠ [] then host else s
    | none => s
  match parse s with
  | some ipp => some ipp
  | none => (parseAddr s).map fun ip => ⟨ip, defaultPort⟩

section Valid

variable {urlHost : Bytes → Option Bytes} {parse : Bytes → Option AddrPort}
variable {parseAddr : Bytes → Option Addr}

/-- What is parsed is an address. -/
theorem parseAddrPort_valid (parse_valid : ∀ s ipp, parse s = some ipp → ipp.addr.isValid = true)
    (parseAddr_valid : ∀ s ip, parseAddr s = some ip → ip.isValid = true) {s : Bytes}
    {defaultPort : BitVec 16} {ipp : AddrPort}
    (parsed : parseAddrPort urlHost parse parseAddr s defaultPort = some ipp) :
    ipp.addr.isValid = true := by
  simp only [parseAddrPort] at parsed
  generalize (match urlHost s with | some host => if host ≠ [] then host else s | none => s) = text
    at parsed
  cases found : parse text with
  | some other =>
    simp only [found, Option.some.injEq] at parsed
    exact parsed ▸ parse_valid _ _ found
  | none =>
    simp only [found, Option.map_eq_some_iff] at parsed
    obtain ⟨ip, address, rfl⟩ := parsed
    exact parseAddr_valid _ _ address

end Valid

end AdGuardHome.Aghnet
