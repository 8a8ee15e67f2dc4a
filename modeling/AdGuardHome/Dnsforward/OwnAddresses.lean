import AdGuardHome.Aghnet
import AdGuardHome.Lib.Fallible

namespace AdGuardHome.Dnsforward

open Aghnet Netip Strings

/-- `net.TCPAddr` and `net.UDPAddr`; the zero address stands for a missing IP, and the zero
value for a nil pointer. -/
structure ListenAddr where
  ip : Addr
  port : BitVec 16
deriving DecidableEq

namespace ListenAddr

/-- `TCPAddr.AddrPort` and `UDPAddr.AddrPort`. -/
def addrPort (laddr : ListenAddr) : AddrPort := ⟨laddr.ip, laddr.port⟩

end ListenAddr

/-- The zero value of `netip.AddrPort`. -/
def noAddrPort : AddrPort := ⟨.zero, 0⟩

/-- `collectListenAddr`, on the addresses and the ports so far. -/
def collectListenAddr (sets : List AddrPort × List (BitVec 16)) (addrPort : AddrPort) :
    List AddrPort × List (BitVec 16) :=
  if addrPort = noAddrPort then sets
  else
    (sets.1.insert addrPort,
      if addrPort.addr.isUnspecified then sets.2.insert addrPort.port else sets.2)

/-- The listen addresses of `ServerConfig`. -/
structure ListenConfig where
  tcpListenAddrs : List ListenAddr
  udpListenAddrs : List ListenAddr
deriving DecidableEq

/-- `addrPortSet`: `emptyAddrPortSet`, a set of listed values, or `combinedAddrPortSet`. -/
inductive AddrPortSet where
  | empty
  | listed (addrs : List AddrPort)
  | combined (ports : List (BitVec 16)) (addrs : List Addr)
deriving DecidableEq

namespace AddrPortSet

/-- `Has`. -/
def has : AddrPortSet → AddrPort → Bool
  | empty, _ => false
  | listed addrs, addrPort => addrs.contains addrPort
  | combined ports addrs, addrPort =>
    ports.contains addrPort.port && addrs.contains addrPort.addr

end AddrPortSet

namespace ListenConfig

/-- `collectDNSAddrs`. -/
def collectDNSAddrs (conf : ListenConfig) : List AddrPort × List (BitVec 16) :=
  let sets := (conf.tcpListenAddrs.map (·.addrPort)).foldl collectListenAddr ([], [])
  (conf.udpListenAddrs.map (·.addrPort)).foldl collectListenAddr sets

end ListenConfig

/-- `upstream.Upstream`: its address, and the error that closing it gives. -/
structure Upstream where
  address : Bytes
  closeErr : Option Bytes
deriving DecidableEq

/-- `proxy.UpstreamConfig`, with its maps as lists of their entries. -/
structure UpstreamConfig where
  upstreams : List Upstream
  domainReservedUpstreams : List (Bytes × List Upstream)
  specifiedDomainUpstreams : List (Bytes × List Upstream)
deriving DecidableEq

namespace UpstreamConfig

/-- The configuration without the upstreams that `delFunc` selects. -/
def deleteFunc (uc : UpstreamConfig) (delFunc : Upstream → Bool) : UpstreamConfig where
  upstreams := uc.upstreams.filter (!delFunc ·)
  domainReservedUpstreams :=
    uc.domainReservedUpstreams.map fun (d, ups) => (d, ups.filter (!delFunc ·))
  specifiedDomainUpstreams :=
    uc.specifiedDomainUpstreams.map fun (d, ups) => (d, ups.filter (!delFunc ·))

def all (uc : UpstreamConfig) : List Upstream :=
  uc.upstreams ++ uc.domainReservedUpstreams.flatMap (·.2) ++
    uc.specifiedDomainUpstreams.flatMap (·.2)

end UpstreamConfig

/-- `defaultPlainDNSPort`. -/
def defaultPlainDNSPort : BitVec 16 := 53

/-- What the server is given: the addresses of the system's interfaces and its resolvers, the
parsers, and the constructor and the checks of package `proxy`. -/
structure Surroundings where
  netInterfaceAddrs : Except Bytes (List Bytes)
  parsePrefix : Bytes → Except Bytes Prefix
  urlHost : Bytes → Option Bytes
  parseAddrPort : Bytes → Option AddrPort
  parseAddr : Bytes → Option Addr
  addrPortString : AddrPort → Bytes
  sysResolvers : List AddrPort
  parseUpstreamsConfig : List Bytes → Except Bytes UpstreamConfig
  validatePrivateConfig : UpstreamConfig → Except Bytes Unit

structure Surroundings.Valid (env : Surroundings) : Prop where
  parsePrefix : ∀ s p, env.parsePrefix s = .ok p → p.addr.isValid = true
  parseAddrPort : ∀ s ipp, env.parseAddrPort s = some ipp → ipp.addr.isValid = true
  parseAddr : ∀ s ip, env.parseAddr s = some ip → ip.isValid = true
  sysResolvers : ∀ r ∈ env.sysResolvers, r.addr.isValid = true

inductive PrivateConfigError where
  | preparing (err : Bytes)
  | filtering (errs : List Bytes)
  /-- `PrivateRDNSError`. -/
  | privateRDNS (err : Bytes)
deriving DecidableEq

namespace Surroundings

variable (env : Surroundings)

def ifaceAddrs : Except Bytes (List Addr) :=
  collectAllIfacesAddrs env.netInterfaceAddrs env.parsePrefix

def upstreamAddr (u : Upstream) : Option AddrPort :=
  Aghnet.parseAddrPort env.urlHost env.parseAddrPort env.parseAddr u.address defaultPlainDNSPort

/-- `ourAddrsSet`. -/
def ourAddrsSet (conf : ListenConfig) : Except Bytes AddrPortSet :=
  let (addrs, unspecPorts) := conf.collectDNSAddrs
  if addrs.length = 0 then .ok .empty
  else if unspecPorts.length = 0 then .ok (.listed addrs)
  else
    match env.ifaceAddrs with
    | .error err => .error err
    | .ok ifaceAddrs => .ok (.combined unspecPorts ifaceAddrs)

/-- `filterOutAddrs`, with the errors of closing that it joins. -/
def filterOutAddrs (upsConf : UpstreamConfig) (set : AddrPortSet) :
    UpstreamConfig × List Bytes :=
  let delFunc := fun u => match env.upstreamAddr u with
    | some addr => set.has addr
    | none => false
  (upsConf.deleteFunc delFunc, (upsConf.all.filter delFunc).filterMap (·.closeErr))

/-- `newPrivateConfig`. -/
def newPrivateConfig (addrs : List Bytes) (unwanted : AddrPortSet) :
    Except PrivateConfigError UpstreamConfig :=
  let confNeedsFiltering := addrs.length > 0
  let addrs :=
    if confNeedsFiltering then addrs.filter (!isCommentOrEmpty ·)
    else (env.sysResolvers.filter (!unwanted.has ·)).map env.addrPortString
  match env.parseUpstreamsConfig addrs with
  | .error err => .error (.preparing err)
  | .ok uc =>
    let (uc, errs) := if confNeedsFiltering then env.filterOutAddrs uc unwanted else (uc, [])
    if errs.length > 0 then .error (.filtering errs)
    else
      match env.validatePrivateConfig uc with
      | .error err => .error (.privateRDNS err)
      | .ok () => .ok uc

end Surroundings

namespace ListenConfig

variable (conf : ListenConfig)

def listens : List AddrPort :=
  ((conf.tcpListenAddrs ++ conf.udpListenAddrs).map (·.addrPort)).filter (· ≠ noAddrPort)

/-- The server accepts plain DNS on the address and the port: it listens on them, or on the
port of all interfaces, which is what an unspecified or a missing IP means. -/
def accepts (ifaceAddrs : List Addr) (ap : AddrPort) : Bool :=
  conf.listens.any fun l =>
    if l.addr.isUnspecified || !l.addr.isValid then
      ifaceAddrs.contains ap.addr && ap.port == l.port
    else ap == l

def unspecPorts : List (BitVec 16) :=
  (conf.listens.filter (·.addr.isUnspecified)).map (·.port)

/-- Without an unspecified address, the interfaces have the port of a missing IP listed each;
with one, the other listen addresses are among its combinations. -/
def Coherent (ifaceAddrs : List Addr) : Prop :=
  if conf.unspecPorts = [] then
    ∀ l ∈ conf.listens, l.addr.isValid = false → ∀ a ∈ ifaceAddrs, ⟨a, l.port⟩ ∈ conf.listens
  else
    ∀ l ∈ conf.listens,
      (l.addr.isValid = true → l.addr.isUnspecified = false →
        l.addr ∈ ifaceAddrs ∧ l.port ∈ conf.unspecPorts) ∧
      (l.addr.isValid = false → ifaceAddrs = [] ∨ l.port ∈ conf.unspecPorts)

instance (ifaceAddrs : List Addr) : Decidable (conf.Coherent ifaceAddrs) :=
  inferInstanceAs (Decidable (ite _ _ _))

variable {conf}

/-- Which addresses and which unspecified ports the walk collects. -/
theorem mem_collect {addrPorts : List AddrPort} {sets : List AddrPort × List (BitVec 16)} :
    (∀ ap, ap ∈ (addrPorts.foldl collectListenAddr sets).1 ↔
      ap ∈ sets.1 ∨ ap ∈ addrPorts ∧ ap ≠ noAddrPort) ∧
    ∀ port, port ∈ (addrPorts.foldl collectListenAddr sets).2 ↔ port ∈ sets.2 ∨
      ∃ ap ∈ addrPorts, ap ≠ noAddrPort ∧ ap.addr.isUnspecified = true ∧ ap.port = port := by
  induction addrPorts generalizing sets with
  | nil => simp
  | cons first rest ih =>
    obtain ⟨addrs, ports⟩ := @ih (collectListenAddr sets first)
    by_cases missing : first = noAddrPort
    · have same : collectListenAddr sets first = sets := if_pos missing
      rw [List.foldl_cons]
      rw [same] at addrs ports ⊢
      constructor
      · intro ap
        rw [addrs, List.mem_cons]
        constructor
        · rintro (known | ⟨member, present⟩)
          · exact Or.inl known
          · exact Or.inr ⟨Or.inr member, present⟩
        · rintro (known | ⟨rfl | member, present⟩)
          · exact Or.inl known
          · exact absurd missing present
          · exact Or.inr ⟨member, present⟩
      · intro port
        simp [ports, missing]
    · have step : collectListenAddr sets first = (sets.1.insert first,
          if first.addr.isUnspecified then sets.2.insert first.port else sets.2) := if_neg missing
      rw [List.foldl_cons]
      rw [step] at addrs ports ⊢
      constructor
      · intro ap
        rw [addrs, List.mem_insert_iff, List.mem_cons]
        constructor
        · rintro ((rfl | known) | ⟨member, present⟩)
          · exact Or.inr ⟨Or.inl rfl, missing⟩
          · exact Or.inl known
          · exact Or.inr ⟨Or.inr member, present⟩
        · rintro (known | ⟨rfl | member, present⟩)
          · exact Or.inl (Or.inr known)
          · exact Or.inl (Or.inl rfl)
          · exact Or.inr ⟨member, present⟩
      · intro port
        rw [ports]
        cases unspecified : first.addr.isUnspecified
        · simp [missing, unspecified]
        · simp only [if_true, List.mem_insert_iff, List.mem_cons, exists_eq_or_imp, unspecified,
            ne_eq, missing, not_false_eq_true, true_and]
          rw [or_assoc, or_left_comm, eq_comm]

theorem mem_listens {ap : AddrPort} : ap ∈ conf.listens ↔
    ap ∈ (conf.tcpListenAddrs ++ conf.udpListenAddrs).map (·.addrPort) ∧ ap ≠ noAddrPort := by
  simp [listens, or_and_right]

theorem mem_unspecPorts {port : BitVec 16} : port ∈ conf.unspecPorts ↔
    ∃ ap ∈ conf.listens, ap.addr.isUnspecified = true ∧ ap.port = port := by
  simp [unspecPorts, and_assoc]

theorem mem_collectDNSAddrs : (∀ ap, ap ∈ conf.collectDNSAddrs.1 ↔ ap ∈ conf.listens) ∧
    ∀ port, port ∈ conf.collectDNSAddrs.2 ↔ port ∈ conf.unspecPorts := by
  have whole : conf.collectDNSAddrs = ((conf.tcpListenAddrs ++ conf.udpListenAddrs).map
      (·.addrPort)).foldl collectListenAddr ([], []) := by
    rw [List.map_append, List.foldl_append, collectDNSAddrs]
  obtain ⟨addrs, ports⟩ := @mem_collect
    ((conf.tcpListenAddrs ++ conf.udpListenAddrs).map (·.addrPort)) ([], [])
  rw [whole]
  constructor
  · intro ap
    rw [addrs, mem_listens]
    simp
  · intro port
    rw [ports, mem_unspecPorts]
    simp only [mem_listens, List.not_mem_nil, false_or, and_assoc]

theorem accepts_iff {ifaceAddrs : List Addr} {ap : AddrPort} :
    conf.accepts ifaceAddrs ap = true ↔ ∃ l ∈ conf.listens,
      ((l.addr.isUnspecified = true ∨ l.addr.isValid = false) ∧ ap.addr ∈ ifaceAddrs ∧
        ap.port = l.port) ∨
      (l.addr.isUnspecified = false ∧ l.addr.isValid = true ∧ ap = l) := by
  simp only [accepts, List.any_eq_true]
  refine exists_congr fun l => and_congr_right fun _ => ?_
  cases unspecified : l.addr.isUnspecified <;> cases valid : l.addr.isValid <;>
    simp

end ListenConfig

namespace Surroundings

variable {env : Surroundings} {conf : ListenConfig} {ifaceAddrs : List Addr}

private theorem eq_nil_of_same {α : Type} {first second : List α}
    (same : ∀ a, a ∈ first ↔ a ∈ second) (empty : first.length = 0) : second = [] := by
  apply List.eq_nil_iff_forall_not_mem.mpr
  intro a member
  rw [← same, List.length_eq_zero_iff.mp empty] at member
  exact List.not_mem_nil member

/-- The three representations of the set. -/
theorem ourAddrsSet_cases (conf : ListenConfig) (collected : env.ifaceAddrs = .ok ifaceAddrs) :
    (conf.listens = [] ∧ env.ourAddrsSet conf = .ok .empty) ∨
    (conf.unspecPorts = [] ∧ ∃ addrs, (∀ ap, ap ∈ addrs ↔ ap ∈ conf.listens) ∧
      env.ourAddrsSet conf = .ok (.listed addrs)) ∨
    (conf.unspecPorts ≠ [] ∧ ∃ ports, (∀ port, port ∈ ports ↔ port ∈ conf.unspecPorts) ∧
      env.ourAddrsSet conf = .ok (.combined ports ifaceAddrs)) := by
  obtain ⟨addrs, ports⟩ := conf.mem_collectDNSAddrs
  unfold ourAddrsSet
  generalize conf.collectDNSAddrs = sets at addrs ports ⊢
  dsimp only
  by_cases none : sets.1.length = 0
  · left
    exact ⟨eq_nil_of_same addrs none, if_pos none⟩
  · rw [if_neg none]
    right
    by_cases specific : sets.2.length = 0
    · left
      exact ⟨eq_nil_of_same ports specific, sets.1, addrs, if_pos specific⟩
    · right
      refine ⟨?_, sets.2, ports, ?_⟩
      · intro empty
        have back := eq_nil_of_same (fun port => (ports port).symm) (by rw [empty]; rfl)
        exact specific (List.length_eq_zero_iff.mpr back)
      · rw [if_neg specific, collected]

/-- Listed addresses are the accepted ones where the port of a missing IP is listed with each
interface. -/
theorem has_listed_iff {addrs : List AddrPort} (specific : conf.unspecPorts = [])
    (listed : ∀ ap, ap ∈ addrs ↔ ap ∈ conf.listens)
    (valid : ∀ a ∈ ifaceAddrs, a.isValid = true) :
    (∀ ap : AddrPort, ap.addr.isValid = true →
      (AddrPortSet.listed addrs).has ap = conf.accepts ifaceAddrs ap) ↔
      conf.Coherent ifaceAddrs := by
  have specified : ∀ l ∈ conf.listens, l.addr.isUnspecified = false := by
    intro l member
    by_contra unspecified
    have port : l.port ∈ conf.unspecPorts :=
      ListenConfig.mem_unspecPorts.mpr ⟨l, member, by simpa using unspecified, rfl⟩
    rw [specific] at port
    exact List.not_mem_nil port
  unfold ListenConfig.Coherent
  rw [if_pos specific]
  constructor
  · intro same l member missing a iface
    have exact := same ⟨a, l.port⟩ (valid a iface)
    have accepted : conf.accepts ifaceAddrs ⟨a, l.port⟩ = true :=
      ListenConfig.accepts_iff.mpr ⟨l, member, Or.inl ⟨Or.inr missing, iface, rfl⟩⟩
    rw [accepted] at exact
    exact (listed _).mp (by simpa [AddrPortSet.has] using exact)
  · intro coherent ap address
    rw [Bool.eq_iff_iff, ListenConfig.accepts_iff]
    simp only [AddrPortSet.has, List.contains_eq_mem, decide_eq_true_eq, listed]
    constructor
    · intro member
      exact ⟨ap, member, Or.inr ⟨specified ap member, address, rfl⟩⟩
    · rintro ⟨l, member, ⟨unspecified | missing, iface, port⟩ | ⟨_, _, rfl⟩⟩
      · rw [specified l member] at unspecified
        cases unspecified
      · have listedToo := coherent l member missing ap.addr iface
        rw [← port] at listedToo
        exact listedToo
      · exact member

/-- The combinations are the accepted addresses where all other listen addresses are among them. -/
theorem has_combined_iff {ports : List (BitVec 16)} (unspecific : conf.unspecPorts ≠ [])
    (among : ∀ port, port ∈ ports ↔ port ∈ conf.unspecPorts)
    (valid : ∀ a ∈ ifaceAddrs, a.isValid = true) :
    (∀ ap : AddrPort, ap.addr.isValid = true →
      (AddrPortSet.combined ports ifaceAddrs).has ap = conf.accepts ifaceAddrs ap) ↔
      conf.Coherent ifaceAddrs := by
  have has_iff : ∀ ap, (AddrPortSet.combined ports ifaceAddrs).has ap = true ↔
      ap.port ∈ conf.unspecPorts ∧ ap.addr ∈ ifaceAddrs := by
    intro ap
    simp only [AddrPortSet.has, Bool.and_eq_true, List.contains_eq_mem, decide_eq_true_eq, among]
  unfold ListenConfig.Coherent
  rw [if_neg unspecific]
  constructor
  · intro same l member
    constructor
    · intro address specified
      have accepted : conf.accepts ifaceAddrs l = true :=
        ListenConfig.accepts_iff.mpr ⟨l, member, Or.inr ⟨specified, address, rfl⟩⟩
      exact ((has_iff l).mp ((same l address).trans accepted)).symm
    · intro missing
      cases ifaceAddrs with
      | nil => exact Or.inl rfl
      | cons a rest =>
        right
        have accepted : conf.accepts (a :: rest) ⟨a, l.port⟩ = true :=
          ListenConfig.accepts_iff.mpr
            ⟨l, member, Or.inl ⟨Or.inr missing, List.mem_cons_self, rfl⟩⟩
        have here := same ⟨a, l.port⟩ (valid a List.mem_cons_self)
        exact ((has_iff _).mp (here.trans accepted)).1
  · intro coherent ap address
    rw [Bool.eq_iff_iff, ListenConfig.accepts_iff, has_iff]
    constructor
    · rintro ⟨port, iface⟩
      obtain ⟨l, member, unspecified, same⟩ := ListenConfig.mem_unspecPorts.mp port
      exact ⟨l, member, Or.inl ⟨Or.inl unspecified, iface, same.symm⟩⟩
    · rintro ⟨l, member, ⟨unspecified | missing, iface, port⟩ | ⟨specified, known, rfl⟩⟩
      · exact ⟨ListenConfig.mem_unspecPorts.mpr ⟨l, member, unspecified, port.symm⟩, iface⟩
      · rcases (coherent l member).2 missing with none | covered
        · rw [none] at iface
          exact absurd iface List.not_mem_nil
        · exact ⟨port ▸ covered, iface⟩
      · exact ((coherent ap member).1 known specified).symm

/-- The set is the one of the accepted addresses exactly for coherent configurations. -/
theorem has_eq_accepts_iff (conf : ListenConfig) (collected : env.ifaceAddrs = .ok ifaceAddrs)
    (valid : ∀ a ∈ ifaceAddrs, a.isValid = true) :
    (∀ set, env.ourAddrsSet conf = .ok set → ∀ ap : AddrPort, ap.addr.isValid = true →
      set.has ap = conf.accepts ifaceAddrs ap) ↔ conf.Coherent ifaceAddrs := by
  rcases ourAddrsSet_cases conf collected with ⟨nothing, result⟩ |
    ⟨specific, addrs, listed, result⟩ | ⟨unspecific, ports, among, result⟩
  · have coherent : conf.Coherent ifaceAddrs := by
      unfold ListenConfig.Coherent
      split <;> simp [nothing]
    refine ⟨fun _ => coherent, ?_⟩
    intro _ set made ap _
    cases result.symm.trans made
    simp [AddrPortSet.has, ListenConfig.accepts, nothing]
  · simpa only [result, Except.ok.injEq, forall_eq'] using has_listed_iff specific listed valid
  · simpa only [result, Except.ok.injEq, forall_eq'] using has_combined_iff unspecific among valid

variable (env) in
def isOwn (conf : ListenConfig) (ifaceAddrs : List Addr) (u : Upstream) : Bool :=
  match env.upstreamAddr u with
  | some addr => conf.accepts ifaceAddrs addr
  | none => false

variable (env conf ifaceAddrs) in
/-- The set holds what the server accepts, and the private upstreams are those configured, or
those of the system, without the server's own addresses and with all others. -/
structure ExcludesOwn : Prop where
  exact : ∀ set, env.ourAddrsSet conf = .ok set → ∀ ap : AddrPort, ap.addr.isValid = true →
    set.has ap = conf.accepts ifaceAddrs ap
  configured : ∀ set, env.ourAddrsSet conf = .ok set → ∀ addrs uc, addrs.length > 0 →
    env.newPrivateConfig addrs set = .ok uc →
    ∃ parsed, env.parseUpstreamsConfig (addrs.filter (!isCommentOrEmpty ·)) = .ok parsed ∧
      uc = parsed.deleteFunc (env.isOwn conf ifaceAddrs)
  system : ∀ set, env.ourAddrsSet conf = .ok set → ∀ uc, env.newPrivateConfig [] set = .ok uc →
    env.parseUpstreamsConfig ((env.sysResolvers.filter (!conf.accepts ifaceAddrs ·)).map
      env.addrPortString) = .ok uc

theorem ifaceAddrs_valid (good : env.Valid) (collected : env.ifaceAddrs = .ok ifaceAddrs) :
    ∀ a ∈ ifaceAddrs, a.isValid = true := by
  simp only [Surroundings.ifaceAddrs, collectAllIfacesAddrs, Fallible.bind_ok_iff] at collected
  obtain ⟨texts, _, prefixes, parsed, made⟩ := collected
  cases made
  intro a member
  obtain ⟨p, among, rfl⟩ := List.mem_map.mp member
  obtain ⟨text, _, found⟩ := Fallible.mapM_ok_mem parsed p among
  exact good.parsePrefix text p found

/-- What filtering leaves, where the set decides like the server's listen addresses. -/
theorem filterOutAddrs_eq (good : env.Valid) {set : AddrPortSet}
    (exact : ∀ ap : AddrPort, ap.addr.isValid = true → set.has ap = conf.accepts ifaceAddrs ap)
    (upsConf : UpstreamConfig) : (env.filterOutAddrs upsConf set).1 =
      upsConf.deleteFunc (env.isOwn conf ifaceAddrs) := by
  have same : (fun u => match env.upstreamAddr u with
      | some addr => set.has addr
      | none => false) = env.isOwn conf ifaceAddrs := by
    funext u
    unfold isOwn
    cases found : env.upstreamAddr u with
    | none => rfl
    | some addr =>
      exact exact addr (parseAddrPort_valid good.parseAddrPort good.parseAddr found)
  simp only [filterOutAddrs, same]

/-- An upstream configuration that is returned has been parsed, filtered and checked. -/
theorem newPrivateConfig_ok {addrs : List Bytes} {set : AddrPortSet} {uc : UpstreamConfig}
    (made : env.newPrivateConfig addrs set = .ok uc) :
    (addrs.length > 0 → ∃ parsed,
      env.parseUpstreamsConfig (addrs.filter (!isCommentOrEmpty ·)) = .ok parsed ∧
        uc = (env.filterOutAddrs parsed set).1) ∧
    (addrs = [] → env.parseUpstreamsConfig ((env.sysResolvers.filter (!set.has ·)).map
      env.addrPortString) = .ok uc) := by
  unfold newPrivateConfig at made
  dsimp only at made
  constructor
  · intro configured
    simp only [if_pos configured] at made
    split at made
    · cases made
    next parsed found =>
      split at made
      · cases made
      · split at made
        · cases made
        · cases made
          exact ⟨parsed, found, rfl⟩
  · rintro rfl
    simp only [List.length_nil, gt_iff_lt, Nat.lt_irrefl, if_false] at made
    split at made
    · cases made
    next parsed found =>
      split at made
      · cases made
      · cases made
        exact found

/-- The server's own addresses are excluded, and nothing else, exactly for the coherent
configurations. -/
theorem excludesOwn_iff (good : env.Valid) (collected : env.ifaceAddrs = .ok ifaceAddrs) :
    env.ExcludesOwn conf ifaceAddrs ↔ conf.Coherent ifaceAddrs := by
  have valid := ifaceAddrs_valid good collected
  constructor
  · intro excludes
    exact (has_eq_accepts_iff conf collected valid).mp excludes.exact
  · intro coherent
    have exact := (has_eq_accepts_iff conf collected valid).mpr coherent
    refine ⟨exact, ?_, ?_⟩
    · intro set made addrs uc configured done
      obtain ⟨parsed, found, rfl⟩ := (newPrivateConfig_ok done).1 configured
      exact ⟨parsed, found, filterOutAddrs_eq good (exact set made) parsed⟩
    · intro set made uc done
      have found := (newPrivateConfig_ok done).2 rfl
      have same : env.sysResolvers.filter (!set.has ·) =
          env.sysResolvers.filter (!conf.accepts ifaceAddrs ·) := by
        apply List.filter_congr
        intro r member
        rw [exact set made r (good.sysResolvers r member)]
      rwa [same] at found

private def lanPrefix : Prefix := .ofAddr (.v4 0xc0a80102) 24

private def lanHost : Surroundings where
  netInterfaceAddrs := .ok [lit "192.168.1.2/24"]
  parsePrefix s := if s = lit "192.168.1.2/24" then .ok lanPrefix else .error (lit "no prefix")
  urlHost _ := none
  parseAddrPort s := if s = lit "127.0.0.53:5353" then some ⟨.v4 0x7f000035, 5353⟩ else none
  parseAddr _ := none
  addrPortString _ := []
  sysResolvers := []
  parseUpstreamsConfig lines := .ok ⟨lines.map (⟨·, none⟩), [], []⟩
  validatePrivateConfig _ := .ok ()

private theorem lanHost_valid : lanHost.Valid where
  parsePrefix s p parsed := by
    simp only [lanHost] at parsed
    split at parsed
    · cases parsed
      rfl
    · cases parsed
  parseAddrPort s ipp parsed := by
    simp only [lanHost] at parsed
    split at parsed
    · cases parsed
      rfl
    · cases parsed
  parseAddr _ _ parsed := nomatch parsed
  sysResolvers _ member := nomatch member

private theorem lanHost_ifaceAddrs : lanHost.ifaceAddrs = .ok [.v4 0xc0a80102] := by decide

theorem excludesOwn_unspecified :
    lanHost.ExcludesOwn ⟨[⟨.v4 0, 53⟩], [⟨.v4 0, 53⟩]⟩ [.v4 0xc0a80102] :=
  (excludesOwn_iff lanHost_valid lanHost_ifaceAddrs).mpr (by decide)

/-- The second listen address: a loopback address with a port of its own. -/
private def twoPorts : ListenConfig := ⟨[⟨.v4 0, 53⟩, ⟨.v4 0x7f000035, 5353⟩], []⟩

/-- Beside an unspecified address the specified one is left out of the set. -/
theorem specified_address_forgotten :
    ¬ ∀ (env : Surroundings) (conf : ListenConfig) (ifaceAddrs : List Addr), env.Valid →
      env.ifaceAddrs = .ok ifaceAddrs → env.ExcludesOwn conf ifaceAddrs := by
  intro always
  have excludes := always lanHost twoPorts _ lanHost_valid lanHost_ifaceAddrs
  have same := excludes.exact (.combined [53] [.v4 0xc0a80102]) (by decide)
    ⟨.v4 0x7f000035, 5353⟩ rfl
  revert same
  decide

end Surroundings

end AdGuardHome.Dnsforward
