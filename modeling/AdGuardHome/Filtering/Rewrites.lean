import AdGuardHome.Filtering.Engine
import AdGuardHome.Lib.Sort

/-! `rewrites.go`: which legacy rewrites answer a question. -/
namespace AdGuardHome.Filtering

open Netip Sorting Strings

/-- `LegacyRewrite`. -/
structure LegacyRewrite where
  domain : Bytes
  answer : Bytes
  ip : Addr
  type : RRType
  enabled : Bool
deriving DecidableEq

/-- `isWildcard`. -/
def isWildcard (pat : Bytes) : Bool := hasPrefix pat (lit "*.")

/-- `matchDomainWildcard`. -/
def matchDomainWildcard (host wildcard : Bytes) : Bool :=
  isWildcard wildcard && hasSuffix host wildcard.tail

namespace LegacyRewrite

/-- `LegacyRewrite.matchesQType`. -/
def matchesQType (rw : LegacyRewrite) (qt : RRType) : Bool :=
  if rw.type = .cname then true
  else if qt ≠ .a ∧ qt ≠ .aaaa then false
  else rw.type == qt || rw.ip == .zero

/-- `LegacyRewrite.normalize`, with `none` for an invalid name. -/
def normalize (toLower : Bytes → Bytes) (parseAddr : Bytes → Option Addr)
    (validDomainName : Bytes → Bool) (rw : LegacyRewrite) : Option LegacyRewrite :=
  let rw := { rw with domain := toLower rw.domain }
  if rw.answer = lit "AAAA" then some { rw with ip := .zero, type := .aaaa }
  else if rw.answer = lit "A" then some { rw with ip := .zero, type := .a }
  else
    match parseAddr rw.answer with
    | none => if validDomainName rw.answer then some { rw with type := .cname } else none
    | some ip => some { rw with ip, type := if ip.is4 then .a else .aaaa }

def resolveAnswer (parseAddr : Bytes → Option Addr) (validDomainName : Bytes → Bool)
    (answer : Bytes) (ip : Addr) : Option (Addr × RRType) :=
  if answer = lit "AAAA" then some (.zero, .aaaa)
  else if answer = lit "A" then some (.zero, .a)
  else
    match parseAddr answer with
    | none => if validDomainName answer then some (ip, .cname) else none
    | some ip => some (ip, if ip.is4 then .a else .aaaa)

/-- Normalizing changes the domain, the address and the type, and nothing else. -/
theorem normalize_eq (toLower : Bytes → Bytes) (parseAddr : Bytes → Option Addr)
    (validDomainName : Bytes → Bool) (rw : LegacyRewrite) :
    rw.normalize toLower parseAddr validDomainName =
      (resolveAnswer parseAddr validDomainName rw.answer rw.ip).map fun found =>
        { rw with domain := toLower rw.domain, ip := found.1, type := found.2 } := by
  simp only [normalize, resolveAnswer]
  split
  · rfl
  · split
    · rfl
    · split
      · split <;> rfl
      · rfl

/-- `LegacyRewrite.Compare`. -/
def compare (rw b : LegacyRewrite) : Int :=
  if rw.type = .cname ∧ b.type ≠ .cname then -1
  else if rw.type ≠ .cname ∧ b.type = .cname then 1
  else if isWildcard rw.domain = isWildcard b.domain then b.domain.length - rw.domain.length
  else if isWildcard rw.domain then 1
  else -1

def matchesHost (e : LegacyRewrite) (host : Bytes) : Bool :=
  e.enabled && (e.domain == host || matchDomainWildcard host e.domain)

end LegacyRewrite

/-- `finalizeRewrites`. -/
def finalizeRewrites (sortFunc : SortFunc LegacyRewrite) (rewrites : List LegacyRewrite) :
    List LegacyRewrite :=
  let rewrites := sortFunc.sort LegacyRewrite.compare rewrites
  match rewrites.findIdx? (isWildcard ·.domain) with
  | some i => rewrites.take (max 1 i)
  | none => rewrites

/-- `findRewrites`. -/
def findRewrites (sortFunc : SortFunc LegacyRewrite) (entries : List LegacyRewrite) (host : Bytes)
    (qtype : RRType) : List LegacyRewrite × Bool :=
  let found := entries.filter (·.matchesHost host)
  let rewrites := found.filter (·.matchesQType qtype)
  (if rewrites.length = 0 then [] else finalizeRewrites sortFunc rewrites, !found.isEmpty)

end AdGuardHome.Filtering
