import AdGuardHome.Client.Identifiers

namespace AdGuardHome.Client

open Netip

namespace Storage

variable (s : Storage) (dhcp : DHCP)

/-- The lookup in `Storage.ApplyClientFiltering`. -/
def filteringClient (id : ClientID) (addr : Addr) : Option Persistent :=
  match s.index.findByClientID id with
  | some c => some c
  | none =>
    match s.index.findByIP addr with
    | some c => some c
    | none =>
      match dhcp.macByIP addr with
      | some foundMAC => s.index.findByMAC foundMAC
      | none => none

/-- The lookup in `Storage.CustomUpstreamConfig`. -/
def upstreamClient (id : ClientID) (addr : Addr) : Option Persistent :=
  match s.index.findByClientID id with
  | some c => some c
  | none => s.findByIP dhcp addr

/-- The parameters with a ClientID and an address, of which the zero values are no parameters. -/
def paramsOf (id : ClientID) (addr : Addr) : FindParams where
  clientID := if id = "" then none else some id
  remoteIP := if addr = .zero then none else some addr
  subnet := none
  mac := none

/-- The client meets the first of the conditions that a stored client meets. -/
def FirstOf : List (Persistent → Prop) → Option Persistent → Prop
  | [], found => found = none
  | condition :: rest, found =>
    (∃ uid c, s.index.uidToClient.get uid = some c ∧ condition c ∧ found = some c) ∨
      (∀ uid c, s.index.uidToClient.get uid = some c → ¬ condition c) ∧ FirstOf rest found

/-- The client lists a prefix with the address, and no client lists a longer one. -/
def ListsLongest (addr : Addr) (c : Persistent) : Prop :=
  ∃ pref ∈ c.subnets, pref.contains (addr.withZone "") = true ∧
    ∀ uid d, s.index.uidToClient.get uid = some d → ∀ other ∈ d.subnets,
      other.contains (addr.withZone "") = true → other.bits ≤ pref.bits

/-- The client that a query with this ClientID and address comes from. -/
def IsClientOf (id : ClientID) (addr : Addr) : Option Persistent → Prop :=
  s.FirstOf [fun c => id ∈ c.clientIDs, fun c => addr ∈ c.ips, s.ListsLongest addr,
    fun c => ∃ mac, dhcp.macByIP addr = some mac ∧ mac ∈ c.macs]

variable {s dhcp}

theorem bits_le_of_subnetCompare {x y : Prefix} (before : subnetCompare x y = .lt) :
    y.bits ≤ x.bits := by
  unfold subnetCompare at before
  split at before
  · cases before
  split at before
  · rename_i equal
    exact le_of_eq equal.symm
  split at before
  · rename_i longer
    exact le_of_lt longer
  · cases before

theorem Consistent.findByClientID_none (consistent : s.Consistent) {id : ClientID}
    (missing : s.index.findByClientID id = none) {uid : UID} {c : Persistent}
    (stored : s.index.uidToClient.get uid = some c) : id ∉ c.clientIDs := by
  intro lists
  rw [consistent.findByClientID stored lists] at missing
  cases missing

/-- What the index finds by an address: whoever lists it, or else the longest prefix. -/
theorem Consistent.findByIP_cases (consistent : s.Consistent) (addr : Addr) :
    (∃ uid c, s.index.uidToClient.get uid = some c ∧ addr ∈ c.ips ∧
        s.index.findByIP addr = some c) ∨
      (∀ uid c, s.index.uidToClient.get uid = some c → addr ∉ c.ips) ∧
        ((∃ uid c, s.index.uidToClient.get uid = some c ∧ s.ListsLongest addr c ∧
            s.index.findByIP addr = some c) ∨
          (∀ uid c, s.index.uidToClient.get uid = some c → ¬ s.ListsLongest addr c) ∧
            s.index.findByIP addr = none) := by
  unfold Index.findByIP
  cases exactly : s.index.ipToUID.get addr with
  | some uid =>
    obtain ⟨c, stored, lists⟩ := (consistent.index.ips addr uid).mp exactly
    exact .inl ⟨uid, c, stored, lists, by simp [Index.clientOf, stored]⟩
  | none =>
    right
    constructor
    · intro uid c stored lists
      rw [(consistent.index.ips addr uid).mpr ⟨c, stored, lists⟩] at exactly
      cases exactly
    · have listed : ∀ pref uid, (pref, uid) ∈ s.index.subnetToUID.entries ↔
          ∃ c, s.index.uidToClient.get uid = some c ∧ pref ∈ c.subnets := fun pref uid =>
        (s.index.subnetToUID.mem_entries pref uid).trans (consistent.index.subnets pref uid)
      cases found : s.index.subnetToUID.entries.find? fun entry =>
          entry.1.contains (addr.withZone "") with
      | none =>
        right
        refine ⟨?_, rfl⟩
        rintro uid c stored ⟨pref, lists, within, _⟩
        have outside := List.find?_eq_none.mp found _ ((listed pref uid).mpr ⟨c, stored, lists⟩)
        exact outside within
      | some entry =>
        obtain ⟨pref, uid⟩ := entry
        left
        obtain ⟨c, stored, lists⟩ := (listed pref uid).mp (List.mem_of_find?_eq_some found)
        have within : pref.contains (addr.withZone "") = true := by
          simpa using List.find?_some found
        refine ⟨uid, c, stored, ⟨pref, lists, within, ?_⟩, by simp [Index.clientOf, stored]⟩
        -- the walk meets longer prefixes first
        intro owner d present other listsOther contains
        rcases s.index.subnetToUID.find_entries_least found
          ((listed other owner).mpr ⟨d, present, listsOther⟩) contains with same | later
        · exact le_of_eq (congrArg (fun entry => Prefix.bits entry.1) same)
        · exact bits_le_of_subnetCompare later

/-- What the index finds by a link-layer address. -/
theorem Consistent.findByMAC_cases (consistent : s.Consistent) (mac : HardwareAddr) :
    (∃ uid c, s.index.uidToClient.get uid = some c ∧ mac ∈ c.macs ∧
        s.index.findByMAC mac = some c) ∨
      (∀ uid c, s.index.uidToClient.get uid = some c → mac ∉ c.macs) ∧
        s.index.findByMAC mac = none := by
  cases found : s.index.findByMAC mac with
  | some c =>
    left
    unfold Index.findByMAC Index.clientOf at found
    obtain ⟨key, valid, found⟩ := Option.bind_eq_some_iff.mp found
    obtain ⟨uid, known, stored⟩ := Option.bind_eq_some_iff.mp found
    obtain rfl := macToKey_eq_some.mp valid
    obtain ⟨row, present, lists⟩ := (consistent.index.macs key uid).mp known
    obtain rfl := Option.some.inj (present.symm.trans stored)
    exact ⟨uid, row, stored, Persistent.mem_macKeys.mp lists, rfl⟩
  | none =>
    right
    refine ⟨fun uid c stored lists => ?_, rfl⟩
    rw [consistent.findByMAC stored lists] at found
    cases found

theorem Consistent.filteringClient (consistent : s.Consistent) (dhcp : DHCP) (id : ClientID)
    (addr : Addr) : s.IsClientOf dhcp id addr (s.filteringClient dhcp id addr) := by
  unfold Storage.filteringClient
  cases byID : s.index.findByClientID id with
  | some c =>
    obtain ⟨uid, stored, lists⟩ := consistent.of_findByClientID byID
    exact .inl ⟨uid, c, stored, lists, rfl⟩
  | none =>
    refine .inr ⟨fun uid c stored => consistent.findByClientID_none byID stored, ?_⟩
    rcases consistent.findByIP_cases addr with
      ⟨uid, c, stored, lists, found⟩ | ⟨unlisted, ⟨uid, c, stored, longest, found⟩ | ⟨outside, none⟩⟩
    · rw [found]
      exact .inl ⟨uid, c, stored, lists, rfl⟩
    · rw [found]
      exact .inr ⟨unlisted, .inl ⟨uid, c, stored, longest, rfl⟩⟩
    · rw [none]
      refine .inr ⟨unlisted, .inr ⟨outside, ?_⟩⟩
      cases leased : dhcp.macByIP addr with
      | none =>
        refine .inr ⟨?_, rfl⟩
        rintro uid c _ ⟨mac, none, _⟩
        cases none
      | some mac =>
        rcases consistent.findByMAC_cases mac with ⟨uid, c, stored, lists, found⟩ | ⟨unknown, none⟩
        · exact .inl ⟨uid, c, stored, ⟨mac, rfl, lists⟩, found⟩
        · refine .inr ⟨?_, none⟩
          rintro uid c stored ⟨other, same, lists⟩
          obtain rfl := Option.some.inj same
          exact unknown uid c stored lists

theorem filteringClient_eq (id : ClientID) (addr : Addr) :
    s.filteringClient dhcp id addr =
      (s.index.findByClientID id).or (s.findByIP dhcp addr) := by
  unfold Storage.filteringClient findByIP
  cases s.index.findByClientID id with
  | some c => rfl
  | none =>
    cases s.index.findByIP addr with
    | some c => rfl
    | none => cases dhcp.macByIP addr <;> rfl

theorem upstreamClient_eq (id : ClientID) (addr : Addr) :
    s.upstreamClient dhcp id addr =
      (s.index.findByClientID id).or (s.findByIP dhcp addr) := by
  unfold Storage.upstreamClient
  cases s.index.findByClientID id <;> rfl

theorem Parsed.findByClientID_empty {texts : IDTexts} (documented : texts.Documented)
    (parsed : s.Parsed texts) : s.index.findByClientID "" = none := by
  cases found : s.index.findByClientID "" with
  | none => rfl
  | some c =>
    obtain ⟨uid, stored, lists⟩ := parsed.consistent.of_findByClientID found
    obtain ⟨id, read⟩ := (parsed.made uid c stored).clientIDs "" lists
    obtain ⟨_, _, _, _, valid, lower⟩ := IDTexts.read_ok read
    have nothing := (documented.lower valid).1
    rw [lower, documented.empty.2.2.2] at nothing
    cases nothing

theorem Parsed.findByIP_zero {texts : IDTexts} (documented : texts.Documented)
    (parsed : s.Parsed texts) (unleased : dhcp.macByIP .zero = none) :
    s.findByIP dhcp .zero = none := by
  have none : s.index.findByIP .zero = none := by
    rcases parsed.consistent.findByIP_cases .zero with
      ⟨uid, c, stored, lists, _⟩ | ⟨_, ⟨uid, c, _, ⟨pref, _, within, _⟩, _⟩ | ⟨_, missing⟩⟩
    · obtain ⟨id, read⟩ := (parsed.made uid c stored).ips .zero lists
      exact absurd rfl (documented.addr (IDTexts.read_ok read).2).2
    · simp [Prefix.contains, Addr.withZone, Addr.bitLen] at within
    · exact missing
  simp [findByIP, none, unleased]

/-- For every ClientID and address the three lookups find the same client, and it is the one that
lists the ClientID, or else the address, or else the longest prefix with it, or else the
link-layer address that the lease has. -/
theorem lookups_agree {texts : IDTexts} (documented : texts.Documented) (calls : List Call)
    (parsed : machine.Allowed (ParsedCall texts) new calls) (dhcp : DHCP)
    (unleased : dhcp.macByIP .zero = none) (id : ClientID) (addr : Addr) :
    let s := machine.run new calls
    s.filteringClient dhcp id addr = s.find dhcp (paramsOf id addr) ∧
      s.upstreamClient dhcp id addr = s.find dhcp (paramsOf id addr) ∧
      s.IsClientOf dhcp id addr (s.find dhcp (paramsOf id addr)) := by
  intro s
  have parsed : s.Parsed texts := parsed_run parsed
  have find : s.find dhcp (paramsOf id addr) =
      (s.index.findByClientID id).or (s.findByIP dhcp addr) := by
    unfold Storage.find paramsOf
    by_cases noID : id = ""
    · by_cases noAddr : addr = .zero
      · simp [noID, noAddr, parsed.findByClientID_empty documented,
          parsed.findByIP_zero documented unleased]
      · simp [noID, noAddr, parsed.findByClientID_empty documented]
    · by_cases noAddr : addr = .zero
      · simp [noID, noAddr, parsed.findByIP_zero documented unleased]
      · simp [noID, noAddr]
  rw [find, upstreamClient_eq, ← filteringClient_eq]
  exact ⟨rfl, rfl, parsed.consistent.filteringClient dhcp id addr⟩

private def client (name : String) (uid : UID) (id : Identifier) : Persistent :=
  { Persistent.blank.append id with name := name, uid := uid }

private def tablet : Persistent := client "Tablet" 1 (.clientID "tablet")

private def host : Persistent := client "Host" 2 (.ip (.v4 0xC0000201))

private def network : Persistent := client "Network" 3 (.subnet sampleSubnet)

private def laptop : Persistent := client "Laptop" 4 (.mac [0x00, 0x00, 0x5e, 0x00, 0x53, 0x01])

/-- The laptop has leased 198.51.100.7. -/
private def oneLease : DHCP :=
  ⟨fun _ => "", fun addr => if addr = .v4 0xC6336407 then some [0x00, 0x00, 0x5e, 0x00, 0x53, 0x01]
    else none⟩

private def addFour : List Call :=
  [.add network none, .add tablet none, .add laptop none, .add host none]

private theorem parsed_add {s : Storage} {name id : String} {uid : UID} {kind : Identifier}
    (read : sampleTexts.read id = .ok kind) :
    ParsedCall sampleTexts s (.add (client name uid kind) none) := by
  intro p brought
  obtain rfl := Option.some.inj brought
  exact ⟨[id], _, Persistent.setIDs_single read, Persistent.equalIDs_iff.mpr ⟨rfl, rfl, rfl, rfl⟩⟩

private theorem parsed_addFour : machine.Allowed (ParsedCall sampleTexts) new addFour :=
  ⟨@parsed_add _ _ "192.0.2.0/24" _ _ rfl, @parsed_add _ _ "tablet" _ _ rfl,
    @parsed_add _ _ "00:00:5e:00:53:01" _ _ rfl, @parsed_add _ _ "192.0.2.1" _ _ rfl, trivial⟩

private def Found (id : ClientID) (addr : Addr) (client : Persistent) : Prop :=
  (machine.run new addFour).find oneLease (paramsOf id addr) = some client ∧
    (machine.run new addFour).upstreamClient oneLease id addr = some client

/-- Each kind of identifier finds its client, the most specific one first. -/
theorem lookups_agree_four :
    Found "tablet" (.v4 0xC0000201) tablet ∧ Found "" (.v4 0xC0000201) host ∧
      Found "" (.v4 0xC0000209) network ∧ Found "" (.v4 0xC6336407) laptop := by
  have upstreams : ∀ id addr, (machine.run new addFour).upstreamClient oneLease id addr =
      (machine.run new addFour).find oneLease (paramsOf id addr) := fun id addr =>
    (lookups_agree documented_sampleTexts addFour parsed_addFour oneLease rfl id addr).2.1
  have found : ∀ {id addr client}, (machine.run new addFour).find oneLease (paramsOf id addr) =
      some client → Found id addr client := fun here => ⟨here, (upstreams _ _).trans here⟩
  exact ⟨found (by decide +kernel), found (by decide +kernel), found (by decide +kernel),
    found (by decide +kernel)⟩

end Storage

end AdGuardHome.Client
