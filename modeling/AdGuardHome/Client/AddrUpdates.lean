import AdGuardHome.Client.AddrProc
import AdGuardHome.Lib.ChangesOnly

namespace AdGuardHome.Client

open Netip Strings ChangesOnly

/-- The information in a name that was looked up; an empty one is none. -/
def hostInfo (host : String) : Option Information :=
  if host = "" then none else some (RuntimeStorage.nameInfo host)

@[simp] theorem hostInfo_empty : hostInfo "" = none := rfl

def Worker.told (w : Worker) (src : Source) (ip : Addr) : Option Information :=
  match w, src with
  | .resolved other host, .rdns => if ip = other then hostInfo host else none
  | .looked other host _, .rdns => if ip = other then hostInfo host else none
  | .looked other _ info, .whois => if ip = other then info.map .whois else none
  | _, _ => none

def knownName (cache : Rdns.Cache Addr) (ip : Addr) : Option Information :=
  (cache.get ip).bind fun item => hostInfo item.host

def knownWHOIS (cache : Whois.Cache Addr) (ip : Addr) : Option Information :=
  (cache.get ip).bind fun item => item.info.nonempty.map .whois

namespace AddrProc

def known (p : AddrProc) (src : Source) (ip : Addr) : Option Information :=
  match src with
  | .rdns => knownName p.rdns ip
  | .whois => knownWHOIS p.whois ip
  | _ => none

def held (p : AddrProc) (src : Source) (ip : Addr) : Option Information :=
  p.storage.runtimeIndex.held src ip

end AddrProc

/-- Two goroutines are at the same step, whatever they have looked up. -/
inductive Worker.Beside : Worker → Worker → Prop where
  | idle : Beside .idle .idle
  | received (ip : Addr) : Beside (.received ip) (.received ip)
  | resolved (ip : Addr) (host host' : String) : Beside (.resolved ip host) (.resolved ip host')
  | looked (ip : Addr) (host host' : String) (info info' : Option Whois.Info) :
    Beside (.looked ip host info) (.looked ip host' info')
  | finished : Beside .finished .finished

namespace AddrProcConfig

variable (c : AddrProcConfig)

theorem processRDNS_filtered (cache : Rdns.Cache Addr) (ip : Addr) (now later : Int)
    (exchanged : Rdns.Exchanged) :
    let told := c.processRDNS cache ip now later exchanged
    let plain := c.plainLookups.processRDNS cache ip now later exchanged
    plain.1 = told.1 ∧ (∀ other, other ≠ ip → knownName told.1 other = knownName cache other) ∧
      Filtered (knownName cache ip) (knownName told.1 ip) (hostInfo told.2)
        (hostInfo plain.2) := by
  unfold processRDNS plainLookups
  dsimp only
  by_cases resolves : c.shouldResolve ip = true
  · simp only [resolves, Bool.not_true, Bool.false_eq_true, if_false]
    unfold rdns
    cases c.useRDNS with
    | false => exact ⟨trivial, fun _ _ => rfl, .nothing⟩
    | true =>
      rw [if_pos rfl]
      obtain ⟨item, found, _, done⟩ | ⟨_, done⟩ :=
        @Rdns.process_cases Addr _ defaultIPTTL cache ip now later exchanged
      · rw [done]
        refine ⟨trivial, fun _ _ => rfl, ?_⟩
        have known : knownName cache ip = hostInfo item.host := by
          rw [knownName, found, Option.bind_some]
        rw [known]
        exact .silent
      · rw [done]
        have here : knownName (cache.set ip
            ⟨later + max exchanged.ttl defaultIPTTL, exchanged.host⟩) ip =
            hostInfo exchanged.host := by
          rw [knownName, FiniteMap.get_set_self, Option.bind_some]
        refine ⟨trivial, ?_, ?_⟩
        · intro other different
          rw [knownName, FiniteMap.get_set, if_neg different, knownName]
        · rw [here]
          by_cases changed : exchanged.host = "" ∨
              (cache.get ip).map (·.host) ≠ some exchanged.host
          · simp only [changed, decide_true, Bool.not_true, Bool.false_eq_true, if_false]
            exact .all
          · -- the name is the cached one
            have same : (cache.get ip).map (·.host) = some exchanged.host := by
              by_contra other
              exact changed (.inr other)
            obtain ⟨item, found, name⟩ := Option.map_eq_some_iff.mp same
            have known : knownName cache ip = hostInfo exchanged.host := by
              rw [knownName, found, Option.bind_some, name]
            simp only [changed, decide_false, Bool.not_false, if_true]
            rw [known]
            exact .silent
  · simp only [resolves, Bool.not_false, if_true]
    exact ⟨trivial, fun _ _ => trivial, .nothing⟩

theorem processWHOIS_filtered (cache : Whois.Cache Addr) (ip : Addr) (now later : Int)
    (network : Whois.Network) :
    let told := c.processWHOIS cache ip now later network
    let plain := c.plainLookups.processWHOIS cache ip now later network
    plain.1 = told.1 ∧ (∀ other, other ≠ ip → knownWHOIS told.1 other = knownWHOIS cache other) ∧
      Filtered (knownWHOIS cache ip) (knownWHOIS told.1 ip) (told.2.map .whois)
        (plain.2.map .whois) := by
  unfold processWHOIS plainLookups whois
  dsimp only
  cases c.useWHOIS with
  | false => exact ⟨rfl, fun _ _ => rfl, .nothing⟩
  | true =>
    rw [if_pos rfl]
    have stored : ∀ (info : Whois.Info) (other : Addr), other ≠ ip →
        knownWHOIS (cache.set ip ⟨later + newWHOIS.cacheTTL, info⟩) other =
          knownWHOIS cache other := by
      intro info other different
      rw [knownWHOIS, FiniteMap.get_set, if_neg different, knownWHOIS]
    have here : ∀ info : Whois.Info,
        knownWHOIS (cache.set ip ⟨later + newWHOIS.cacheTTL, info⟩) ip =
          info.nonempty.map .whois := by
      intro info
      rw [knownWHOIS, FiniteMap.get_set_self, Option.bind_some]
    obtain ⟨_, done⟩ | ⟨item, found, _, _, done⟩ | ⟨_, _, done⟩ :=
      @Whois.process_cases Addr _ c.whoisFuncs newWHOIS cache ip now later network
    · rw [done]
      exact ⟨rfl, fun _ _ => rfl, .nothing⟩
    · rw [done]
      refine ⟨rfl, fun _ _ => rfl, ?_⟩
      have known : knownWHOIS cache ip = item.info.nonempty.map .whois := by
        rw [knownWHOIS, found, Option.bind_some]
      rw [known]
      exact .silent
    · rw [done]
      obtain ⟨_, request⟩ | ⟨kv, _, request⟩ := @Whois.requestInfo_cases Addr _ c.whoisFuncs
        newWHOIS cache ip ((cache.get ip).map (·.info)) later network
      · rw [request]
        refine ⟨rfl, stored _, ?_⟩
        rw [here]
        exact .all
      · rw [request]
        refine ⟨rfl, stored _, ?_⟩
        rw [here]
        by_cases changed : (cache.get ip).map (·.info) = none ∨
            (cache.get ip).map (·.info) ≠ some (.ofParsed kv)
        · simp only [changed, decide_true, Bool.not_true, Bool.false_eq_true, if_false]
          exact .all
        · -- the information is the cached one
          have same : (cache.get ip).map (·.info) = some (.ofParsed kv) := by
            by_contra other
            exact changed (.inr other)
          obtain ⟨item, found, info⟩ := Option.map_eq_some_iff.mp same
          have known : knownWHOIS cache ip = (Whois.Info.ofParsed kv).nonempty.map .whois := by
            rw [knownWHOIS, found, Option.bind_some, info]
          simp only [changed, decide_false, Bool.not_false, if_true]
          rw [known]
          exact .silent

end AddrProcConfig

theorem Worker.told_other {src : Source} (w : Worker) (ip : Addr) (noName : src ≠ .rdns)
    (noWHOIS : src ≠ .whois) : w.told src ip = none := by
  cases src with
  | rdns => exact absurd rfl noName
  | whois => exact absurd rfl noWHOIS
  | arp | dhcp | hostsFile => cases w <;> rfl

theorem Worker.told_resolved (ip : Addr) (host : String) (other : Addr) :
    (Worker.resolved ip host).told .rdns other = if other = ip then hostInfo host else none := rfl

theorem Worker.told_looked (ip : Addr) (host : String) (info : Option Whois.Info) (other : Addr) :
    (Worker.looked ip host info).told .whois other =
      if other = ip then info.map .whois else none := rfl

theorem RuntimeStorage.persistent_updateAddress (s : RuntimeStorage) (ip : Addr) (host : String)
    (info : Option Whois.Info) : (s.updateAddress ip host info).persistent = s.persistent :=
  (persistent_apply s (.address ip host info)).1

theorem RuntimeStorage.config_updateAddress (s : RuntimeStorage) (ip : Addr) (host : String)
    (info : Option Whois.Info) :
    (s.updateAddress ip host info).runtimeSourceDHCP = s.runtimeSourceDHCP :=
  (persistent_apply s (.address ip host info)).2

/-- The storage takes over what it is told, except WHOIS information on the address of a persistent
client. -/
theorem held_updateAddress_told (s : RuntimeStorage) (ip : Addr) (host : String)
    (info : Option Whois.Info) (src : Source) (other : Addr) :
    (s.updateAddress ip host info).runtimeIndex.held src other =
      if src = .whois ∧ other = ip ∧ s.persistent.findByIP ip ≠ none then
        s.runtimeIndex.held src other
      else ((Worker.looked ip host info).told src other).or (s.runtimeIndex.held src other) := by
  rw [RuntimeStorage.held_updateAddress, RuntimeStorage.tells]
  cases src with
  | rdns =>
    by_cases here : other = ip
    · subst here
      by_cases unnamed : host = ""
      · simp [unnamed, Worker.told]
      · simp [unnamed, Worker.told, hostInfo]
    · simp [here, Worker.told]
  | whois =>
    rw [Worker.told_looked]
    by_cases here : other = ip
    · subst here
      cases taken : s.persistent.findByIP other with
      | none => cases info <;> simp
      | some client => simp
    · simp [here]
  | arp | dhcp | hostsFile => simp [Worker.told]

/-- No WHOIS information is told of an address that a persistent client has. -/
def AddrProc.Unclaimed (p : AddrProc) : AddrEvent → Prop
  | .update => ∀ ip host wi, p.worker = .looked ip host (some wi) →
    p.storage.persistent.findByIP ip = none
  | _ => True

/-- The sources that are compared: all of them, or all but WHOIS. -/
def Compared (withWHOIS : Prop) (src : Source) : Prop := src = .whois → withWHOIS

/-- The processor `p` that tells of changes, and the processor `q` that tells all it knows. -/
structure Simulates (withWHOIS : Prop) (p q : AddrProc) : Prop where
  queue : q.clientIPs = p.clientIPs
  closed : q.isClosed = p.isClosed
  beside : Worker.Beside p.worker q.worker
  rdns : q.rdns = p.rdns
  whois : q.whois = p.whois
  persistent : q.storage.persistent = p.storage.persistent
  config : q.storage.runtimeSourceDHCP = p.storage.runtimeSourceDHCP
  proper : p.storage.runtimeIndex.Proper ∧ q.storage.runtimeIndex.Proper
  told : ∀ src ip, Compared withWHOIS src →
    Stands (p.worker.told src ip) (q.worker.told src ip) (p.held src ip)
  held : ∀ src ip, Compared withWHOIS src → q.held src ip = p.held src ip
  known : ∀ src ip, Compared withWHOIS src →
    Settled (p.known src ip) (p.worker.told src ip) (p.held src ip)

namespace Simulates

variable {withWHOIS : Prop} {p q : AddrProc} {c : AddrProcConfig}

theorem new (withWHOIS : Prop) (runtimeSourceDHCP : Bool) :
    Simulates withWHOIS (.new runtimeSourceDHCP) (.new runtimeSourceDHCP) where
  queue := rfl
  closed := rfl
  beside := .idle
  rdns := rfl
  whois := rfl
  persistent := rfl
  config := rfl
  proper := ⟨RuntimeStorage.proper_new _, RuntimeStorage.proper_new _⟩
  told _ _ _ := .refl _ _
  held _ _ _ := rfl
  known src ip _ := .inl (by cases src <;> rfl)

theorem rework (sim : Simulates withWHOIS p q) {w : Worker} (beside : w.Beside w)
    (silent : ∀ src ip, p.worker.told src ip = none) (still : ∀ src ip, w.told src ip = none) :
    Simulates withWHOIS { p with worker := w } { q with worker := w } :=
  { sim with
    beside
    told := fun src ip _ => .refl _ _
    known := by
      intro src ip compared
      show Settled (p.known src ip) (w.told src ip) (p.held src ip)
      rw [still, ← silent src ip]
      exact sim.known src ip compared }

theorem process (sim : Simulates withWHOIS p q) (ip : Addr) :
    Simulates withWHOIS (p.process ip).1 (q.process ip).1 := by
  unfold AddrProc.process
  rw [sim.closed, sim.queue]
  split
  · exact sim
  · split
    · exact { sim with queue := rfl, closed := rfl }
    · exact sim

theorem close (sim : Simulates withWHOIS p q) :
    Simulates withWHOIS p.close.1 q.close.1 := by
  unfold AddrProc.close
  rw [sim.closed]
  split
  · exact sim
  · exact { sim with queue := sim.queue, closed := rfl }

theorem receive (sim : Simulates withWHOIS p q) : Simulates withWHOIS p.receive q.receive := by
  have beside := sim.beside
  unfold AddrProc.receive
  generalize worker : p.worker = w, worker' : q.worker = w' at beside ⊢
  cases beside with
  | idle =>
    have silent : ∀ src ip, p.worker.told src ip = none := fun src ip => by rw [worker]; rfl
    rw [sim.queue, sim.closed]
    cases p.clientIPs with
    | nil =>
      dsimp only
      split
      · exact { sim.rework .finished silent fun _ _ => rfl with queue := rfl, closed := rfl }
      · exact sim
    | cons ip rest =>
      exact { sim.rework (.received ip) silent fun _ _ => rfl with queue := rfl, closed := rfl }
  | received | resolved | looked | finished => exact sim

theorem lookedUp (sim : Simulates withWHOIS p q) {w w' : Worker} {rdns : Rdns.Cache Addr}
    {whois : Whois.Cache Addr} (beside : w.Beside w')
    (step : ∀ src ip, let known := AddrProc.known { p with worker := w, rdns, whois } src ip
      (w.told src ip = p.worker.told src ip ∧ w'.told src ip = q.worker.told src ip ∧
        known = p.known src ip) ∨
      (p.worker.told src ip = none ∧
        Filtered (p.known src ip) known (w.told src ip) (w'.told src ip))) :
    Simulates withWHOIS { p with worker := w, rdns, whois }
      { q with worker := w', rdns, whois } := by
  refine { sim with beside, rdns := rfl, whois := rfl, told := ?_, known := ?_ }
  · intro src ip compared
    show Stands (w.told src ip) (w'.told src ip) (p.held src ip)
    obtain ⟨told, told', _⟩ | ⟨silent, filtered⟩ := step src ip
    · rw [told, told']
      exact sim.told src ip compared
    · exact filtered.stands (silent ▸ sim.known src ip compared)
  · intro src ip compared
    show Settled (AddrProc.known { p with worker := w, rdns, whois } src ip) (w.told src ip)
      (p.held src ip)
    obtain ⟨told, _, known⟩ | ⟨silent, filtered⟩ := step src ip
    · rw [told, known]
      exact sim.known src ip compared
    · exact filtered.settled (silent ▸ sim.known src ip compared)

theorem resolve (sim : Simulates withWHOIS p q) (now later : Int) (exchanged : Rdns.Exchanged) :
    Simulates withWHOIS (p.resolve c.lookups now later exchanged)
      (q.resolve c.plainLookups now later exchanged) := by
  have beside := sim.beside
  unfold AddrProc.resolve
  generalize worker : p.worker = w, worker' : q.worker = w' at beside ⊢
  cases beside with
  | received ip =>
    obtain ⟨caches, apart, filtered⟩ := c.processRDNS_filtered p.rdns ip now later exchanged
    dsimp only
    rw [sim.rdns, sim.whois, caches]
    refine sim.lookedUp (.resolved ip _ _) fun src other => ?_
    rw [worker, worker']
    cases src with
    | rdns =>
      simp only [Worker.told_resolved]
      by_cases same : other = ip
      · subst same
        rw [if_pos rfl, if_pos rfl]
        exact .inr ⟨rfl, filtered⟩
      · rw [if_neg same, if_neg same]
        exact .inl ⟨rfl, rfl, apart other same⟩
    | _ => exact .inl ⟨rfl, rfl, rfl⟩
  | idle | resolved | looked | finished => exact sim

theorem look (sim : Simulates withWHOIS p q) (now later : Int) (network : Whois.Network) :
    Simulates withWHOIS (p.look c.lookups now later network)
      (q.look c.plainLookups now later network) := by
  have beside := sim.beside
  unfold AddrProc.look
  generalize worker : p.worker = w, worker' : q.worker = w' at beside ⊢
  cases beside with
  | resolved ip host host' =>
    obtain ⟨caches, apart, filtered⟩ := c.processWHOIS_filtered p.whois ip now later network
    dsimp only
    rw [sim.rdns, sim.whois, caches]
    refine sim.lookedUp (.looked ip host host' _ _) fun src other => ?_
    rw [worker, worker']
    cases src with
    | whois =>
      simp only [Worker.told_looked]
      by_cases same : other = ip
      · subst same
        rw [if_pos rfl, if_pos rfl]
        exact .inr ⟨rfl, filtered⟩
      · rw [if_neg same, if_neg same]
        exact .inl ⟨rfl, rfl, apart other same⟩
    | _ => exact .inl ⟨rfl, rfl, rfl⟩
  | idle | received | looked | finished => exact sim

theorem update (sim : Simulates withWHOIS p q)
    (unclaimed : withWHOIS → p.Unclaimed .update) :
    Simulates withWHOIS p.update.1 q.update.1 := by
  have beside := sim.beside
  unfold AddrProc.update
  generalize worker : p.worker = w, worker' : q.worker = w' at beside ⊢
  cases beside with
  | looked ip host host' info info' =>
    have tells : ∀ src other, Compared withWHOIS src →
        (q.storage.updateAddress ip host' info').runtimeIndex.held src other =
          (p.storage.updateAddress ip host info).runtimeIndex.held src other ∧
        Settled (p.known src other) none
          ((p.storage.updateAddress ip host info).runtimeIndex.held src other) := by
      intro src other compared
      have told := sim.told src other compared
      have known := sim.known src other compared
      have held := sim.held src other compared
      rw [worker, worker'] at told
      rw [worker] at known
      rw [held_updateAddress_told, held_updateAddress_told, sim.persistent]
      split
      next claimed =>
        -- the storage ignores both processors, and this one has nothing to tell
        obtain ⟨rfl, rfl, taken⟩ := claimed
        have silent : info = none := by
          cases info with
          | none => rfl
          | some wi => exact absurd (unclaimed (compared rfl) _ host wi worker) taken
        rw [silent, Worker.told_looked, if_pos rfl, Option.map_none] at known
        exact ⟨held, known⟩
      next =>
        refine ⟨?_, known.or_eq⟩
        show ((Worker.looked ip host' info').told src other).or (q.held src other) = _
        rw [held]
        exact told.or_eq
    exact { sim with
      beside := .idle
      persistent := by
        rw [RuntimeStorage.persistent_updateAddress, RuntimeStorage.persistent_updateAddress]
        exact sim.persistent
      config := by
        rw [RuntimeStorage.config_updateAddress, RuntimeStorage.config_updateAddress]
        exact sim.config
      proper := ⟨RuntimeStorage.proper_apply sim.proper.1 (.address ip host info),
        RuntimeStorage.proper_apply sim.proper.2 (.address ip host' info')⟩
      told := fun src other _ => .refl _ _
      held := fun src other compared => (tells src other compared).1
      known := fun src other compared => (tells src other compared).2 }
  | idle | received | resolved | finished => exact sim

theorem dropRDNS (sim : Simulates withWHOIS p q) (ip : Addr) :
    Simulates withWHOIS { p with rdns := p.rdns.delete ip } { q with rdns := q.rdns.delete ip } := by
  refine { sim with rdns := by rw [sim.rdns], known := ?_ }
  intro src other compared
  cases src with
  | rdns =>
    show Settled (knownName (p.rdns.delete ip) other) (p.worker.told .rdns other)
      (p.held .rdns other)
    rw [knownName, FiniteMap.get_delete]
    split
    · exact .inl rfl
    · exact sim.known .rdns other compared
  | _ => exact sim.known _ other compared

theorem dropWHOIS (sim : Simulates withWHOIS p q) (ip : Addr) :
    Simulates withWHOIS { p with whois := p.whois.delete ip }
      { q with whois := q.whois.delete ip } := by
  refine { sim with whois := by rw [sim.whois], known := ?_ }
  intro src other compared
  cases src with
  | whois =>
    show Settled (knownWHOIS (p.whois.delete ip) other) (p.worker.told .whois other)
      (p.held .whois other)
    rw [knownWHOIS, FiniteMap.get_delete]
    split
    · exact .inl rfl
    · exact sim.known .whois other compared
  | _ => exact sim.known _ other compared

/-- The storages change alike, and not in what is looked up. -/
theorem stored (sim : Simulates withWHOIS p q) {s t : RuntimeStorage}
    (persistent : t.persistent = s.persistent)
    (config : t.runtimeSourceDHCP = s.runtimeSourceDHCP)
    (proper : s.runtimeIndex.Proper ∧ t.runtimeIndex.Proper)
    (held : ∀ src ip, Compared withWHOIS src →
      t.runtimeIndex.held src ip = s.runtimeIndex.held src ip)
    (kept : ∀ src ip, src = .rdns ∨ src = .whois → s.runtimeIndex.held src ip = p.held src ip) :
    Simulates withWHOIS { p with storage := s } { q with storage := t } := by
  refine { sim with persistent, config, proper, held, told := ?_, known := ?_ }
  · intro src ip compared
    show Stands (p.worker.told src ip) (q.worker.told src ip) (s.runtimeIndex.held src ip)
    cases src with
    | rdns | whois =>
      rw [kept _ ip (by simp)]
      exact sim.told _ ip compared
    | arp | dhcp | hostsFile =>
      rw [Worker.told_other _ _ (by decide) (by decide), Worker.told_other _ _ (by decide) (by decide)]
      exact .refl _ _
  · intro src ip compared
    show Settled (p.known src ip) (p.worker.told src ip) (s.runtimeIndex.held src ip)
    cases src with
    | rdns | whois =>
      rw [kept _ ip (by simp)]
      exact sim.known _ ip compared
    | arp | dhcp | hostsFile => exact .inl rfl

theorem other (sim : Simulates withWHOIS p q) (u : OtherUpdate) :
    Simulates withWHOIS
      { p with storage := RuntimeStorage.machine.next p.storage u.event }
      { q with storage := RuntimeStorage.machine.next q.storage u.event } := by
  have hosts : ∀ ip, q.storage.runtimeIndex.held .hostsFile ip =
      p.storage.runtimeIndex.held .hostsFile ip := fun ip => sim.held .hostsFile ip nofun
  have updated : ∀ update : Update, (∀ src ip, src = .rdns ∨ src = .whois →
      p.storage.tells src ip update = none) →
      Simulates withWHOIS { p with storage := p.storage.apply update }
        { q with storage := q.storage.apply update } := by
    intro update quiet
    have tells : ∀ src ip, q.storage.tells src ip update = p.storage.tells src ip update := by
      intro src ip
      cases update <;> simp only [RuntimeStorage.tells, sim.persistent, sim.config, hosts]
    apply sim.stored
    · rw [(RuntimeStorage.persistent_apply _ _).1, (RuntimeStorage.persistent_apply _ _).1]
      exact sim.persistent
    · rw [(RuntimeStorage.persistent_apply _ _).2, (RuntimeStorage.persistent_apply _ _).2]
      exact sim.config
    · exact ⟨RuntimeStorage.proper_apply sim.proper.1 update,
        RuntimeStorage.proper_apply sim.proper.2 update⟩
    · intro src ip compared
      rw [RuntimeStorage.held_apply, RuntimeStorage.held_apply, tells]
      exact congrArg _ (sim.held src ip compared)
    · intro src ip looked
      rw [RuntimeStorage.held_apply, quiet src ip looked]
      rfl
  cases u with
  | persistent index => exact sim.stored rfl sim.config sim.proper sim.held fun _ _ _ => rfl
  | arp ns =>
    apply updated (.arp ns)
    rintro src ip (rfl | rfl) <;> simp [RuntimeStorage.tells]
  | hostsFile records =>
    apply updated (.hostsFile records)
    rintro src ip (rfl | rfl) <;> simp [RuntimeStorage.tells]
  | dhcp leases =>
    apply updated (.dhcp leases)
    rintro src ip (rfl | rfl) <;> simp [RuntimeStorage.tells]
  | clientRuntime addr host =>
    apply updated (.clientRuntime addr host)
    rintro src ip (rfl | rfl) <;> simp [RuntimeStorage.tells]

theorem next (sim : Simulates withWHOIS p q) (event : AddrEvent)
    (unclaimed : withWHOIS → p.Unclaimed event) :
    Simulates withWHOIS ((AddrProc.machine c.lookups).next p event)
      ((AddrProc.machine c.plainLookups).next q event) := by
  cases event with
  | process ip => exact sim.process ip
  | close => exact sim.close
  | receive => exact sim.receive
  | resolve now later exchanged => exact sim.resolve now later exchanged
  | look now later network => exact sim.look now later network
  | update => exact sim.update unclaimed
  | dropRDNS ip => exact sim.dropRDNS ip
  | dropWHOIS ip => exact sim.dropWHOIS ip
  | other u => exact sim.other u

end Simulates

/-- A processor that passes on only the changes does not keep anything from the storage: it ends up
with the same information on every client, from every source but WHOIS, as if everything known had
been passed on at each time; and from WHOIS too where no information was told of an address while a
persistent client had it. -/
theorem changes_suffice (c : AddrProcConfig) (runtimeSourceDHCP : Bool) (events : List AddrEvent) :
    let p := (AddrProc.machine c.lookups).run (.new runtimeSourceDHCP) events
    let q := (AddrProc.machine c.plainLookups).run (.new runtimeSourceDHCP) events
    (∀ src ip, src ≠ .whois → p.held src ip = q.held src ip) ∧
    ((AddrProc.machine c.lookups).Allowed AddrProc.Unclaimed (.new runtimeSourceDHCP) events →
      ∀ ip, p.storage.runtimeIndex.client ip = q.storage.runtimeIndex.client ip) := by
  intro p q
  constructor
  · have anyway : (AddrProc.machine c.lookups).Allowed (fun p event => False → p.Unclaimed event)
        (.new runtimeSourceDHCP) events :=
      (AddrProc.machine c.lookups).allowed_of_forall (fun _ _ => False.elim) _ events
    have sim := (AddrProc.machine c.lookups).run_related (AddrProc.machine c.plainLookups)
      (Simulates False) (fun p q event sim => sim.next event) (.new False runtimeSourceDHCP) anyway
    exact fun src ip other => (sim.held src ip fun same => other same).symm
  · intro unclaimed ip
    have sim := (AddrProc.machine c.lookups).run_related (AddrProc.machine c.plainLookups)
      (Simulates True) (fun p q event sim unclaimed => sim.next event fun _ => unclaimed)
      (.new True runtimeSourceDHCP) unclaimed
    exact RuntimeIndex.client_ext sim.proper.1 sim.proper.2
      (fun src ip => (sim.held src ip fun _ => trivial).symm) ip

/-- One address that is looked up twice, the second time with the same name and information. -/
@[irreducible] private def lookedUpTwice : List AddrEvent :=
  let network : Whois.Network := fun _ _ => some (lit "orgname: Example")
  let turn := [.receive, .resolve 0 0 ⟨"host", 0⟩, .look 0 0 network, .update]
  [.process (.v4 0x08080808)] ++ turn ++
    [.process (.v4 0x08080808), .receive, .resolve (2 * defaultIPTTL) 0 ⟨"host", 0⟩,
      .look (2 * defaultIPTTL) 0 network, .update]

private def plainConfig : AddrProcConfig where
  whoisFuncs := ⟨id, fun _ => none, fun host _ => host, fun _ => false, fun _ => lit "8.8.8.8"⟩
  privateSubnets _ := false
  useRDNS := true
  usePrivateRDNS := false
  useWHOIS := true

private theorem unclaimed_lookedUpTwice : (AddrProc.machine plainConfig.lookups).Allowed
    AddrProc.Unclaimed (.new true) lookedUpTwice := by
  unfold lookedUpTwice
  refine ⟨trivial, trivial, trivial, trivial, ?_, trivial, trivial, trivial, trivial, ?_, trivial⟩
  · intro ip host wi _
    rfl
  · intro ip host wi _
    rfl

theorem changes_suffice_lookedUpTwice :
    ((AddrProc.machine plainConfig.lookups).run (.new true) lookedUpTwice).storage.runtimeIndex.client
        (.v4 0x08080808) =
      ((AddrProc.machine plainConfig.plainLookups).run (.new true)
        lookedUpTwice).storage.runtimeIndex.client (.v4 0x08080808) :=
  (changes_suffice plainConfig true lookedUpTwice).2 unclaimed_lookedUpTwice _

end AdGuardHome.Client
