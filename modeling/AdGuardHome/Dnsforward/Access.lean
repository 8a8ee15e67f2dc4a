import AdGuardHome.Dnsforward.ClientID
import AdGuardHome.Netip

/-! `access.go`: which clients the access lists block. -/
namespace AdGuardHome.Dnsforward

open Netip Strings

/-- `accessManager`, without the blocked hosts. -/
structure AccessManager where
  allowedIPs : List Addr
  blockedIPs : List Addr
  allowedClientIDs : List Bytes
  blockedClientIDs : List Bytes
  allowedNets : List Prefix
  blockedNets : List Prefix
deriving DecidableEq

structure AccessClients where
  ips : List Addr
  nets : List Prefix
  clientIDs : List Bytes

/-- A value that is not an address, a prefix or a ClientID, with its index. -/
inductive AccessError where
  | allowed (value : Bytes) (index : Nat)
  | blocked (value : Bytes) (index : Nat)
deriving DecidableEq

/-- What a client is matched by; `none` is the empty string. -/
inductive AccessRule where
  | none
  | ip (addr : Addr)
  | net (pref : Prefix)
  | clientID (id : Bytes)
deriving DecidableEq

/-- The parsers of the entries: `netip.ParseAddr`, `netip.ParsePrefix` and
`client.ValidateClientID`. -/
structure EntryParsers where
  parseAddr : Bytes → Option Addr
  parsePrefix : Bytes → Option Prefix
  isValidClientID : Bytes → Bool

section Build

variable (p : EntryParsers)

/-- `processAccessClients`, with the value and the index that it fails at. -/
def processAccessClients : List Bytes → Nat → AccessClients → Except (Bytes × Nat) AccessClients
  | [], _, sets => .ok sets
  | s :: rest, i, sets =>
    match p.parseAddr s with
    | some ip => processAccessClients rest (i + 1) { sets with ips := ip :: sets.ips }
    | none =>
      match p.parsePrefix s with
      | some ipnet =>
        processAccessClients rest (i + 1) { sets with nets := sets.nets ++ [ipnet] }
      | none =>
        if p.isValidClientID s then
          processAccessClients rest (i + 1) { sets with clientIDs := s :: sets.clientIDs }
        else .error (s, i)

/-- `newAccessCtx`. -/
def newAccessCtx (allowed blocked : List Bytes) : Except AccessError AccessManager :=
  match processAccessClients p allowed 0 ⟨[], [], []⟩ with
  | .error (value, index) => .error (.allowed value index)
  | .ok a =>
    match processAccessClients p blocked 0 ⟨[], [], []⟩ with
    | .error (value, index) => .error (.blocked value index)
    | .ok b => .ok ⟨a.ips, b.ips, a.clientIDs, b.clientIDs, a.nets, b.nets⟩

end Build

namespace AccessManager

variable (a : AccessManager)

/-- `allowlistMode`. -/
def allowlistMode : Bool :=
  a.allowedIPs.length != 0 || a.allowedClientIDs.length != 0 || a.allowedNets.length != 0

/-- `isBlockedClientID`. -/
def isBlockedClientID (id : Bytes) : Bool :=
  if id = [] then a.allowlistMode
  else if a.allowlistMode then !decide (id ∈ a.allowedClientIDs)
  else decide (id ∈ a.blockedClientIDs)

/-- `isBlockedIP`. -/
def isBlockedIP (ip : Addr) : Bool × AccessRule :=
  let blocked := !a.allowlistMode
  let ips := if a.allowlistMode then a.allowedIPs else a.blockedIPs
  let ipnets := if a.allowlistMode then a.allowedNets else a.blockedNets
  if ip ∈ ips then (blocked, .ip ip)
  else
    match ipnets.find? fun ipnet => ipnet.contains (ip.withZone "") with
    | some ipnet => (blocked, .net ipnet)
    | none => (!blocked, .none)

/-- `Server.IsBlockedClient`. -/
def isBlockedClient (ip : Addr) (clientID : Bytes) : Bool × AccessRule :=
  let (blockedByIP, rule) := if ip = .zero then (false, .none) else a.isBlockedIP ip
  let blockedByClientID := a.isBlockedClientID clientID
  if a.allowlistMode && blockedByIP && blockedByClientID then (true, rule)
  else
    (!a.allowlistMode && (blockedByIP || blockedByClientID),
      if rule = .none ∧ clientID ≠ [] then .clientID clientID else rule)

end AccessManager

/-- An entry of the lists covers an address: it is this address, or a prefix that the address
without its zone is in. -/
def CoversAddr (p : EntryParsers) (entry : Bytes) (ip : Addr) : Prop :=
  ip ≠ .zero ∧ (p.parseAddr entry = some ip ∨ p.parseAddr entry = none ∧
    ∃ pref, p.parsePrefix entry = some pref ∧ pref.contains (ip.withZone "") = true)

/-- An entry of the lists covers a ClientID: it is the same but for the case. -/
def CoversClientID (p : EntryParsers) (entry id : Bytes) : Prop :=
  id ≠ [] ∧ p.parseAddr entry = none ∧ p.parsePrefix entry = none ∧
    toLowerASCII entry = toLowerASCII id

def ShouldBlock (p : EntryParsers) (allowed disallowed : List Bytes) (ip : Addr) (id : Bytes) :
    Prop :=
  if allowed ≠ [] then
    ¬ ((∃ entry ∈ allowed, CoversAddr p entry ip) ∨ ∃ entry ∈ allowed, CoversClientID p entry id)
  else (∃ entry ∈ disallowed, CoversAddr p entry ip) ∨
    ∃ entry ∈ disallowed, CoversClientID p entry id

/-- There is no address, and no entry of the allowed ones covers the ClientID. -/
def UnknownWithoutAddr (p : EntryParsers) (allowed : List Bytes) (ip : Addr) (id : Bytes) : Prop :=
  allowed ≠ [] ∧ ip = .zero ∧ ¬ ∃ entry ∈ allowed, CoversClientID p entry id

/-- The client is covered by its ClientID alone, and all entries for it have upper-case letters. -/
def OnlyUpperCase (p : EntryParsers) (entries : List Bytes) (ip : Addr) (id : Bytes) : Prop :=
  (¬ ∃ entry ∈ entries, CoversAddr p entry ip) ∧ (∃ entry ∈ entries, CoversClientID p entry id) ∧
    ∀ entry ∈ entries, CoversClientID p entry id → ¬ Lower entry

variable {p : EntryParsers} {entries allowed disallowed : List Bytes} {ip : Addr} {id : Bytes}

/-- An entry that is an address or a prefix is no ClientID. -/
theorem mem_cons_of_parsed {s : Bytes} {rest : List Bytes}
    (parsed : p.parseAddr s ≠ none ∨ p.parsePrefix s ≠ none) (id : Bytes) :
    (id ∈ s :: rest ∧ p.parseAddr id = none ∧ p.parsePrefix id = none) ↔
      id ∈ rest ∧ p.parseAddr id = none ∧ p.parsePrefix id = none := by
  constructor
  · rintro ⟨member, notAddr, notPrefix⟩
    rcases List.mem_cons.mp member with rfl | later
    · rcases parsed with addr | pref
      · exact absurd notAddr addr
      · exact absurd notPrefix pref
    · exact ⟨later, notAddr, notPrefix⟩
  · rintro ⟨member, rest⟩
    exact ⟨List.mem_cons_of_mem _ member, rest⟩

/-- The sets hold what the entries are parsed into, beside what was there. -/
theorem processAccessClients_mem {i : Nat} {start sets : AccessClients}
    (done : processAccessClients p entries i start = .ok sets) :
    (∀ addr, addr ∈ sets.ips ↔ addr ∈ start.ips ∨ ∃ s ∈ entries, p.parseAddr s = some addr) ∧
    (∀ pref, pref ∈ sets.nets ↔ pref ∈ start.nets ∨
      ∃ s ∈ entries, p.parseAddr s = none ∧ p.parsePrefix s = some pref) ∧
    (∀ id, id ∈ sets.clientIDs ↔ id ∈ start.clientIDs ∨
      (id ∈ entries ∧ p.parseAddr id = none ∧ p.parsePrefix id = none)) := by
  induction entries generalizing i start with
  | nil =>
    obtain rfl := Except.ok.inj done
    simp
  | cons s rest ih =>
    unfold processAccessClients at done
    split at done
    next addr parsed =>
      obtain ⟨ips, nets, ids⟩ := ih done
      refine ⟨?_, ?_, ?_⟩
      · intro other
        rw [ips]
        simp only [List.mem_cons, exists_eq_or_imp, parsed, Option.some.injEq]
        rw [@eq_comm _ other addr, or_assoc]
        exact or_left_comm
      · intro pref
        rw [nets]
        simp [parsed]
      · intro id
        rw [ids, mem_cons_of_parsed (Or.inl (by simp [parsed]))]
    next notAddr =>
      split at done
      next pref parsed =>
        obtain ⟨ips, nets, ids⟩ := ih done
        refine ⟨?_, ?_, ?_⟩
        · intro other
          rw [ips]
          simp [notAddr]
        · intro other
          rw [nets]
          simp only [List.mem_append, List.mem_singleton, List.exists_mem_cons_iff, notAddr, parsed,
            Option.some.injEq, true_and]
          rw [or_assoc, eq_comm]
        · intro id
          rw [ids, mem_cons_of_parsed (Or.inr (by simp [parsed]))]
      next notPrefix =>
        split at done
        next valid =>
          obtain ⟨ips, nets, ids⟩ := ih done
          refine ⟨?_, ?_, ?_⟩
          · intro other
            rw [ips]
            simp [notAddr]
          · intro other
            rw [nets]
            simp [notAddr, notPrefix]
          · intro id
            rw [ids]
            simp only [List.mem_cons]
            constructor
            · intro here
              rcases here with (same | there) | ⟨member, rest⟩
              · exact Or.inr ⟨Or.inl same, same ▸ notAddr, same ▸ notPrefix⟩
              · exact Or.inl there
              · exact Or.inr ⟨Or.inr member, rest⟩
            · intro here
              rcases here with there | ⟨same | member, rest⟩
              · exact Or.inl (Or.inr there)
              · exact Or.inl (Or.inl same)
              · exact Or.inr ⟨member, rest⟩
        next => nomatch done

section Accepted

variable {a : AccessManager} (accepted : newAccessCtx p allowed disallowed = .ok a)

include accepted

/-- The sets of an access manager are those of its two lists. -/
theorem newAccessCtx_ok :
    ∃ first second, processAccessClients p allowed 0 ⟨[], [], []⟩ = .ok first ∧
      processAccessClients p disallowed 0 ⟨[], [], []⟩ = .ok second ∧
        a = ⟨first.ips, second.ips, first.clientIDs, second.clientIDs, first.nets, second.nets⟩ := by
  unfold newAccessCtx at accepted
  split at accepted
  · nomatch accepted
  next first parsed =>
    split at accepted
    · nomatch accepted
    next second parsed' => exact ⟨first, second, parsed, parsed', (Except.ok.inj accepted).symm⟩

end Accepted

variable {sets : AccessClients} {a : AccessManager}

/-- A list of clients has an entry when one of its sets does. -/
theorem processAccessClients_nonempty
    (done : processAccessClients p entries 0 ⟨[], [], []⟩ = .ok sets) :
    (sets.ips.length != 0 || sets.clientIDs.length != 0 || sets.nets.length != 0) =
      decide (entries ≠ []) := by
  obtain ⟨ips, nets, ids⟩ := processAccessClients_mem done
  cases entries with
  | nil =>
    obtain rfl := Except.ok.inj done
    rfl
  | cons s rest =>
    have some_ : sets.ips ≠ [] ∨ sets.clientIDs ≠ [] ∨ sets.nets ≠ [] := by
      cases addr : p.parseAddr s with
      | some ip => exact Or.inl (List.ne_nil_of_mem ((ips ip).mpr (Or.inr ⟨s, by simp, addr⟩)))
      | none =>
        cases pref : p.parsePrefix s with
        | some net =>
          exact Or.inr (Or.inr (List.ne_nil_of_mem
            ((nets net).mpr (Or.inr ⟨s, by simp, addr, pref⟩))))
        | none =>
          exact Or.inr (Or.inl (List.ne_nil_of_mem
            ((ids s).mpr (Or.inr ⟨by simp, addr, pref⟩))))
    rw [decide_eq_true (List.cons_ne_nil s rest)]
    rcases some_ with here | here | here <;> simp [here]

/-- Whether the address sets of a list have an address. -/
theorem covers_addr_iff (done : processAccessClients p entries 0 ⟨[], [], []⟩ = .ok sets)
    (present : ip ≠ .zero) :
    (ip ∈ sets.ips ∨ ∃ pref ∈ sets.nets, pref.contains (ip.withZone "") = true) ↔
      ∃ entry ∈ entries, CoversAddr p entry ip := by
  obtain ⟨ips, nets, _⟩ := processAccessClients_mem done
  simp only [ips, nets, CoversAddr, List.not_mem_nil, false_or]
  constructor
  · intro covered
    rcases covered with ⟨s, member, parsed⟩ | ⟨pref, ⟨s, member, notAddr, parsed⟩, inside⟩
    · exact ⟨s, member, present, Or.inl parsed⟩
    · exact ⟨s, member, present, Or.inr ⟨notAddr, pref, parsed, inside⟩⟩
  · intro ⟨s, member, _, covers⟩
    rcases covers with parsed | ⟨notAddr, pref, parsed, inside⟩
    · exact Or.inl ⟨s, member, parsed⟩
    · exact Or.inr ⟨pref, ⟨s, member, notAddr, parsed⟩, inside⟩

/-- A ClientID of a request is in the set of a list if a lower-case entry covers it. -/
theorem covers_clientID_iff (done : processAccessClients p entries 0 ⟨[], [], []⟩ = .ok sets)
    (lower : Lower id) (present : id ≠ []) :
    id ∈ sets.clientIDs ↔ ∃ entry ∈ entries, CoversClientID p entry id ∧ Lower entry := by
  obtain ⟨_, _, ids⟩ := processAccessClients_mem done
  simp only [ids, List.not_mem_nil, false_or]
  constructor
  · intro ⟨member, notAddr, notPrefix⟩
    exact ⟨id, member, ⟨present, notAddr, notPrefix, rfl⟩, lower⟩
  · intro ⟨entry, member, ⟨_, notAddr, notPrefix, same⟩, lower'⟩
    obtain rfl : entry = id := lower'.symm.trans (same.trans lower)
    exact ⟨member, notAddr, notPrefix⟩

/-- What the sets of a list say about an address. -/
theorem isBlockedIP_fst (mode : Bool)
    (done : processAccessClients p entries 0 ⟨[], [], []⟩ = .ok sets)
    (inMode : a.allowlistMode = mode)
    (ips : (if mode then a.allowedIPs else a.blockedIPs) = sets.ips)
    (nets : (if mode then a.allowedNets else a.blockedNets) = sets.nets) (present : ip ≠ .zero) :
    (a.isBlockedIP ip).1 = true ↔
      (mode = false ↔ ∃ entry ∈ entries, CoversAddr p entry ip) := by
  rw [← covers_addr_iff done present]
  simp only [AccessManager.isBlockedIP, inMode, ips, nets]
  split
  next member => cases mode <;> simp [member]
  next outside =>
    split
    next pref found =>
      have covered : ∃ pref ∈ sets.nets, pref.contains (ip.withZone "") = true :=
        ⟨pref, List.mem_of_find?_eq_some found, by simpa using List.find?_some found⟩
      cases mode <;> simp [covered]
    next missed =>
      have uncovered : ¬ ∃ pref ∈ sets.nets, pref.contains (ip.withZone "") = true := by
        intro ⟨pref, member, inside⟩
        exact absurd inside (by simpa using List.find?_eq_none.mp missed pref member)
      cases mode <;> simp [outside, uncovered]

/-- What the ClientID sets of a list say about a ClientID of a request. -/
theorem isBlockedClientID_iff {mode : Bool}
    (done : processAccessClients p entries 0 ⟨[], [], []⟩ = .ok sets)
    (inMode : a.allowlistMode = mode)
    (ids : (if mode then a.allowedClientIDs else a.blockedClientIDs) = sets.clientIDs)
    (lower : Lower id) :
    a.isBlockedClientID id = true ↔
      (mode = false ↔ ∃ entry ∈ entries, CoversClientID p entry id ∧ Lower entry) := by
  unfold AccessManager.isBlockedClientID
  rw [inMode]
  by_cases absent : id = []
  · have uncovered : ¬ ∃ entry ∈ entries, CoversClientID p entry id ∧ Lower entry := by
      intro ⟨_, _, covers, _⟩
      exact covers.1 absent
    rw [if_pos absent]
    cases mode <;> simp [uncovered]
  · rw [← covers_clientID_iff done lower absent, ← ids, if_neg absent]
    cases mode <;> simp

/-- The list that the mode of an access manager makes it look into. -/
theorem newAccessCtx_sets (accepted : newAccessCtx p allowed disallowed = .ok a) :
    a.allowlistMode = decide (allowed ≠ []) ∧
    ∃ sets, processAccessClients p (if allowed ≠ [] then allowed else disallowed) 0 ⟨[], [], []⟩ =
        .ok sets ∧
      (if decide (allowed ≠ []) then a.allowedIPs else a.blockedIPs) = sets.ips ∧
      (if decide (allowed ≠ []) then a.allowedNets else a.blockedNets) = sets.nets ∧
      (if decide (allowed ≠ []) then a.allowedClientIDs else a.blockedClientIDs) =
        sets.clientIDs := by
  obtain ⟨first, second, parsed, parsed', rfl⟩ := newAccessCtx_ok accepted
  refine ⟨processAccessClients_nonempty parsed, ?_⟩
  by_cases some_ : allowed ≠ []
  · exact ⟨first, by rw [if_pos some_, parsed], by simp [some_], by simp [some_], by simp [some_]⟩
  · exact ⟨second, by rw [if_neg some_, parsed'], by simp [some_], by simp [some_], by simp [some_]⟩

/-- How the two checks are combined. -/
theorem isBlockedClient_fst (a : AccessManager) (ip : Addr) (id : Bytes) :
    (a.isBlockedClient ip id).1 = true ↔
      if a.allowlistMode = true then
        (ip ≠ .zero ∧ (a.isBlockedIP ip).1 = true) ∧ a.isBlockedClientID id = true
      else (ip ≠ .zero ∧ (a.isBlockedIP ip).1 = true) ∨ a.isBlockedClientID id = true := by
  unfold AccessManager.isBlockedClient
  by_cases absent : ip = .zero
  · cases a.allowlistMode <;> simp [absent]
  · obtain ⟨blocked, rule⟩ := a.isBlockedIP ip
    cases a.allowlistMode <;> cases blocked <;> cases a.isBlockedClientID id <;> simp [absent]

/-- A client is blocked as the lists say unless it has no address and an allowlist does not know
it, or only an entry with upper-case letters covers it. -/
theorem isBlockedClient_iff {a : AccessManager} {names : Names} {conf : TLSConf}
    {pctx : ConnContext} (accepted : newAccessCtx p allowed disallowed = .ok a)
    (extracted : clientIDFromDNSContext names conf pctx = .ok id) (ip : Addr) :
    ((a.isBlockedClient ip id).1 = true ↔ ShouldBlock p allowed disallowed ip id) ↔
      ¬ UnknownWithoutAddr p allowed ip id ∧
      ((allowed ≠ [] → ip ≠ .zero) →
        ¬ OnlyUpperCase p (if allowed ≠ [] then allowed else disallowed) ip id) := by
  obtain ⟨inMode, sets, done, ips, nets, ids⟩ := newAccessCtx_sets accepted
  have byClientID := isBlockedClientID_iff done inMode ids (lower_clientID extracted)
  have byIP := fun present : ip ≠ .zero => isBlockedIP_fst _ done inMode ips nets present
  have uncovered : ip = .zero → ∀ entries : List Bytes, ¬ ∃ entry ∈ entries, CoversAddr p entry ip := by
    intro absent entries ⟨_, _, present, _⟩
    exact present absent
  have cased : ∀ entries : List Bytes, (∃ entry ∈ entries, CoversClientID p entry id ∧ Lower entry) ↔
      (∃ entry ∈ entries, CoversClientID p entry id) ∧
        ¬ ∀ entry ∈ entries, CoversClientID p entry id → ¬ Lower entry := by
    intro entries
    constructor
    · intro ⟨entry, member, covers, lower⟩
      exact ⟨⟨entry, member, covers⟩, fun upper => upper entry member covers lower⟩
    · intro ⟨_, mixed⟩
      push Not at mixed
      exact mixed
  rw [cased] at byClientID
  rw [isBlockedClient_fst, inMode, byClientID]
  unfold ShouldBlock UnknownWithoutAddr OnlyUpperCase
  by_cases some_ : allowed ≠ []
  · simp only [if_pos some_, decide_eq_true some_] at byIP ⊢
    have covered := fun absent => uncovered absent allowed
    generalize (∃ entry ∈ allowed, CoversAddr p entry ip) = addr at byIP covered ⊢
    generalize (∃ entry ∈ allowed, CoversClientID p entry id) = clientID
    generalize (∀ entry ∈ allowed, CoversClientID p entry id → ¬ Lower entry) = upper
    by_cases absent : ip = .zero
    · have none := covered absent
      by_cases clientID <;> by_cases upper <;> simp [*]
    · rw [byIP absent]
      by_cases addr <;> by_cases clientID <;> by_cases upper <;> simp [*]
  · simp only [if_neg some_, decide_eq_false some_] at byIP ⊢
    have covered := fun absent => uncovered absent disallowed
    generalize (∃ entry ∈ disallowed, CoversAddr p entry ip) = addr at byIP covered ⊢
    generalize (∃ entry ∈ disallowed, CoversClientID p entry id) = clientID
    generalize (∀ entry ∈ disallowed, CoversClientID p entry id → ¬ Lower entry) = upper
    by_cases absent : ip = .zero
    · have none := covered absent
      by_cases clientID <;> by_cases upper <;> simp [*]
    · rw [byIP absent]
      by_cases addr <;> by_cases clientID <;> by_cases upper <;> simp [*]

/-- The parsers as they are on the entries below, and the request of a phone over HTTPS. -/
private def sampleParsers : EntryParsers where
  parseAddr s := if s = lit "192.0.2.1" then some (.v4 0xC0000201) else none
  parsePrefix s := if s = lit "10.0.0.0/8" then some (.ofAddr (.v4 0x0A000000) 8) else none
  isValidClientID s := decide (s ∈ [lit "tablet", lit "MyPhone"])

private def sampleNames : Names where
  isValidHostnameLabel id := decide (id = lit "MyPhone")
  isImmediateSubdomain _ _ := false
  splitHost host := some host

private def phoneRequest : ConnContext where
  proto := .https
  httpRequest :=
    some ⟨lit "/dns-query/\x7bClientID\x7d", lit "MyPhone", some (lit "example.org"), []⟩
  conn := none
  quicServerName := []

theorem isBlockedClient_inPrefix :
    ((⟨[], [.v4 0xC0000201], [], [lit "tablet"], [], [.ofAddr (.v4 0x0A000000) 8]⟩ :
        AccessManager).isBlockedClient (.v4 0x0A010203) (lit "myphone")).1 = true ↔
      ShouldBlock sampleParsers [] [lit "192.0.2.1", lit "10.0.0.0/8", lit "tablet"]
        (.v4 0x0A010203) (lit "myphone") := by
  have accepted : newAccessCtx sampleParsers [] [lit "192.0.2.1", lit "10.0.0.0/8", lit "tablet"] =
      .ok ⟨[], [.v4 0xC0000201], [], [lit "tablet"], [], [.ofAddr (.v4 0x0A000000) 8]⟩ := by
    decide +kernel
  have extracted : clientIDFromDNSContext sampleNames ⟨[], false⟩ phoneRequest =
      .ok (lit "myphone") := by decide +kernel
  refine (isBlockedClient_iff accepted extracted (.v4 0x0A010203)).mpr
    ⟨fun unknown => unknown.1 rfl, fun _ upper => ?_⟩
  obtain ⟨_, ⟨entry, member, _, _, _, same⟩, _⟩ := upper
  revert entry
  decide +kernel

/-- The phone is allowed under the name that it uses, and is blocked. -/
theorem isBlockedClient_upperCase :
    newAccessCtx sampleParsers [lit "MyPhone"] [] = .ok ⟨[], [], [lit "MyPhone"], [], [], []⟩ ∧
    clientIDFromDNSContext sampleNames ⟨[], false⟩ phoneRequest = .ok (lit "myphone") ∧
    ¬ (((⟨[], [], [lit "MyPhone"], [], [], []⟩ : AccessManager).isBlockedClient (.v4 0xC0000201)
        (lit "myphone")).1 = true ↔
      ShouldBlock sampleParsers [lit "MyPhone"] [] (.v4 0xC0000201) (lit "myphone")) := by
  refine ⟨by decide +kernel, by decide +kernel, ?_⟩
  intro agrees
  have blocked := agrees.mp (by decide +kernel)
  refine blocked (Or.inr ⟨lit "MyPhone", List.mem_singleton_self _, ?_⟩)
  unfold CoversClientID
  decide +kernel

end AdGuardHome.Dnsforward
