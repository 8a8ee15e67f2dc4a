import AdGuardHome.Client.Runtime
import AdGuardHome.Rdns.Process

namespace AdGuardHome.Netip.Addr

def isLoopback (addr : Addr) : Bool :=
  match addr.unmap with
  | .v4 value => value >>> 24 == 127
  | .v6 value _ => value == 1
  | .zero => false

end AdGuardHome.Netip.Addr

namespace AdGuardHome.Client

open Netip Strings Transition

def defaultQueueSize : Nat := 255

def defaultIPTTL : Int := 3600 * 10 ^ 9

/-- `newWHOIS`, as far as the answers depend on it. -/
def newWHOIS : Whois.Config where
  serverAddr := Whois.defaultServer
  portStr := lit "43"
  cacheTTL := defaultIPTTL
  maxRedirects := 5
  maxInfoLen := 250

/-- `DefaultAddrProcConfig`, with the functions of other packages that the lookups use. -/
structure AddrProcConfig where
  whoisFuncs : Whois.Funcs Addr
  privateSubnets : Addr → Bool
  useRDNS : Bool
  usePrivateRDNS : Bool
  useWHOIS : Bool

/-- Where the goroutine is, with what it has looked up so far. -/
inductive Worker where
  | idle
  | received (ip : Addr)
  | resolved (ip : Addr) (host : String)
  | looked (ip : Addr) (host : String) (info : Option Whois.Info)
  | finished
deriving DecidableEq

/-- `DefaultAddrProc`, with the caches of its lookups and the storage. -/
structure AddrProc where
  clientIPs : List Addr
  isClosed : Bool
  worker : Worker
  rdns : Rdns.Cache Addr
  whois : Whois.Cache Addr
  storage : RuntimeStorage

/-- An update of the storage by anything but the processor. -/
inductive OtherUpdate where
  | arp (ns : List (Addr × String))
  | hostsFile (hosts : List (Addr × String × List String))
  | dhcp (leases : List (Addr × String))
  | clientRuntime (ip : Addr) (host : String)
  | persistent (index : Index)

def OtherUpdate.event : OtherUpdate → RuntimeEvent
  | arp ns => .update (.arp ns)
  | hostsFile hosts => .update (.hostsFile hosts)
  | dhcp leases => .update (.dhcp leases)
  | clientRuntime ip host => .update (.clientRuntime ip host)
  | persistent index => .persistent index

/-- The calls of `Process` and `Close`, the steps of the goroutine, and what happens beside them. -/
inductive AddrEvent where
  | process (ip : Addr)
  | close
  | receive
  | resolve (now later : Int) (exchanged : Rdns.Exchanged)
  | look (now later : Int) (network : Whois.Network)
  | update
  | dropRDNS (ip : Addr)
  | dropWHOIS (ip : Addr)
  | other (u : OtherUpdate)

/-- What an event shows; `errClosed` is `ErrClosed`. -/
inductive AddrAnswer where
  | none
  | queued (ip : Addr)
  | full
  | ignored
  | closed
  | errClosed
  | updated (ip : Addr) (host : String) (info : Option Whois.Info)
deriving DecidableEq

/-- The two lookups of the loop of `process`. -/
structure Lookups where
  processRDNS : Rdns.Cache Addr → Addr → Int → Int → Rdns.Exchanged → Rdns.Cache Addr × String
  processWHOIS : Whois.Cache Addr → Addr → Int → Int → Whois.Network →
    Whois.Cache Addr × Option Whois.Info

namespace AddrProcConfig

variable (c : AddrProcConfig)

/-- `shouldResolve`. -/
def shouldResolve (ip : Addr) : Bool :=
  !ip.isLoopback && (c.usePrivateRDNS || !c.privateSubnets ip)

/-- The `rdns` of `NewDefaultAddrProc`. -/
def rdns (cache : Rdns.Cache Addr) (ip : Addr) (now later : Int) (exchanged : Rdns.Exchanged) :
    Rdns.Cache Addr × Rdns.Reply :=
  if c.useRDNS then Rdns.process defaultIPTTL cache ip now later exchanged else (cache, .empty)

/-- The `whois` of `NewDefaultAddrProc`; `whois.Empty` returns nothing. -/
def whois (cache : Whois.Cache Addr) (ip : Addr) (now later : Int) (network : Whois.Network) :
    Whois.Cache Addr × Whois.Reply :=
  if c.useWHOIS then Whois.process c.whoisFuncs newWHOIS cache ip now later network
  else (cache, ⟨none, false⟩)

/-- `processRDNS`. -/
def processRDNS (cache : Rdns.Cache Addr) (ip : Addr) (now later : Int)
    (exchanged : Rdns.Exchanged) : Rdns.Cache Addr × String :=
  if !c.shouldResolve ip then (cache, "")
  else
    let (cache, reply) := c.rdns cache ip now later exchanged
    (cache, if !reply.changed then "" else reply.host)

/-- `processWHOIS`. -/
def processWHOIS (cache : Whois.Cache Addr) (ip : Addr) (now later : Int)
    (network : Whois.Network) : Whois.Cache Addr × Option Whois.Info :=
  let (cache, reply) := c.whois cache ip now later network
  (cache, if !reply.changed then none else reply.wi)

def lookups : Lookups := ⟨c.processRDNS, c.processWHOIS⟩

/-- The same lookups by a processor that would pass on everything that it knows. -/
def plainLookups : Lookups where
  processRDNS cache ip now later exchanged :=
    if !c.shouldResolve ip then (cache, "")
    else
      let (cache, reply) := c.rdns cache ip now later exchanged
      (cache, reply.host)
  processWHOIS cache ip now later network :=
    let (cache, reply) := c.whois cache ip now later network
    (cache, reply.wi)

end AddrProcConfig

namespace AddrProc

/-- `NewDefaultAddrProc`, before the initial addresses are processed. -/
def new (runtimeSourceDHCP : Bool) : AddrProc :=
  ⟨[], false, .idle, ∅, ∅, .new runtimeSourceDHCP⟩

variable (lookups : Lookups) (p : AddrProc)

/-- `Process`. -/
def process (ip : Addr) : AddrProc × AddrAnswer :=
  if p.isClosed then (p, .ignored)
  else if p.clientIPs.length < defaultQueueSize then
    ({ p with clientIPs := p.clientIPs ++ [ip] }, .queued ip)
  else (p, .full)

/-- `Close`. -/
def close : AddrProc × AddrAnswer :=
  if p.isClosed then (p, .errClosed) else ({ p with isClosed := true }, .closed)

/-- The goroutine takes the next address, or ends once the closed channel is empty. -/
def receive : AddrProc :=
  match p.worker, p.clientIPs with
  | .idle, ip :: rest => { p with worker := .received ip, clientIPs := rest }
  | .idle, [] => if p.isClosed then { p with worker := .finished } else p
  | _, _ => p

def resolve (now later : Int) (exchanged : Rdns.Exchanged) : AddrProc :=
  match p.worker with
  | .received ip =>
    let (rdns, host) := lookups.processRDNS p.rdns ip now later exchanged
    { p with worker := .resolved ip host, rdns }
  | _ => p

def look (now later : Int) (network : Whois.Network) : AddrProc :=
  match p.worker with
  | .resolved ip host =>
    let (whois, info) := lookups.processWHOIS p.whois ip now later network
    { p with worker := .looked ip host info, whois }
  | _ => p

/-- The call of `UpdateAddress`. -/
def update : AddrProc × AddrAnswer :=
  match p.worker with
  | .looked ip host info =>
    ({ p with worker := .idle, storage := p.storage.updateAddress ip host info },
      .updated ip host info)
  | _ => (p, .none)

def step : AddrEvent → AddrProc × AddrAnswer
  | .process ip => p.process ip
  | .close => p.close
  | .receive => (p.receive, .none)
  | .resolve now later exchanged => (p.resolve lookups now later exchanged, .none)
  | .look now later network => (p.look lookups now later network, .none)
  | .update => p.update
  | .dropRDNS ip => ({ p with rdns := p.rdns.delete ip }, .none)
  | .dropWHOIS ip => ({ p with whois := p.whois.delete ip }, .none)
  | .other u => ({ p with storage := RuntimeStorage.machine.next p.storage u.event }, .none)

def machine (lookups : Lookups) : Machine AddrProc AddrEvent AddrAnswer := ⟨step lookups⟩

end AddrProc

abbrev AddrHistory := List (AddrEvent × AddrAnswer)

def AddrAnswer.queuedIP : AddrAnswer → Option Addr
  | queued ip => some ip
  | _ => Option.none

def AddrAnswer.updatedIP : AddrAnswer → Option Addr
  | updated ip _ _ => some ip
  | _ => Option.none

def queued (history : AddrHistory) : List Addr :=
  (history.filterMap fun entry => entry.2.queuedIP).reverse

/-- The addresses that the storage was told of, in their order. -/
def updated (history : AddrHistory) : List Addr :=
  (history.filterMap fun entry => entry.2.updatedIP).reverse

theorem queued_cons (entry : AddrEvent × AddrAnswer) (history : AddrHistory) :
    queued (entry :: history) = queued history ++ entry.2.queuedIP.toList := by
  unfold queued
  cases queuedIP : entry.2.queuedIP <;> simp [queuedIP]

theorem updated_cons (entry : AddrEvent × AddrAnswer) (history : AddrHistory) :
    updated (entry :: history) = updated history ++ entry.2.updatedIP.toList := by
  unfold updated
  cases updatedIP : entry.2.updatedIP <;> simp [updatedIP]

def Worker.holds : Worker → List Addr
  | idle => []
  | received ip => [ip]
  | resolved ip _ => [ip]
  | looked ip _ _ => [ip]
  | finished => []

/-- The calls of `Close` that succeeded. -/
def closings (history : AddrHistory) : Nat := history.countP fun entry => entry.2 == .closed

theorem closings_cons (entry : AddrEvent × AddrAnswer) (history : AddrHistory) :
    closings (entry :: history) = closings history + if entry.2 = .closed then 1 else 0 := by
  simp [closings, List.countP_cons]

structure InOrder (p : AddrProc) (history : AddrHistory) : Prop where
  order : queued history = updated history ++ p.worker.holds ++ p.clientIPs
  bound : p.clientIPs.length ≤ defaultQueueSize
  closings : closings history = if p.isClosed then 1 else 0
  drained : p.worker = .finished → p.isClosed = true ∧ p.clientIPs = []

namespace InOrder

variable {lookups : Lookups} {p : AddrProc} {history : AddrHistory}

theorem new (runtimeSourceDHCP : Bool) : InOrder (.new runtimeSourceDHCP) [] :=
  ⟨rfl, Nat.zero_le _, rfl, nofun⟩

/-- An event that queues nothing, closes nothing and tells the storage nothing. -/
theorem quiet (ordered : InOrder p history) {p' : AddrProc} (event : AddrEvent)
    {answer : AddrAnswer} (shows : answer = .none ∨ answer = .full ∨ answer = .ignored ∨
      answer = .errClosed)
    (held : p'.worker.holds ++ p'.clientIPs = p.worker.holds ++ p.clientIPs)
    (shorter : p'.clientIPs.length ≤ p.clientIPs.length) (closed : p'.isClosed = p.isClosed)
    (drained : p'.worker = .finished → p'.isClosed = true ∧ p'.clientIPs = []) :
    InOrder p' ((event, answer) :: history) := by
  have nothing : answer.queuedIP = Option.none ∧ answer.updatedIP = Option.none ∧
      answer ≠ .closed := by
    obtain rfl | rfl | rfl | rfl := shows <;> exact ⟨rfl, rfl, nofun⟩
  obtain ⟨noQueued, noUpdated, open_⟩ := nothing
  refine ⟨?_, shorter.trans ordered.bound, ?_, drained⟩
  · rw [queued_cons, updated_cons, noQueued, noUpdated, Option.toList_none, List.append_nil,
      List.append_nil, List.append_assoc, held, ← List.append_assoc]
    exact ordered.order
  · rw [closings_cons, if_neg open_, closed]
    exact ordered.closings

theorem same (ordered : InOrder p history) (event : AddrEvent) {answer : AddrAnswer}
    (shows : answer = .none ∨ answer = .full ∨ answer = .ignored ∨ answer = .errClosed) :
    InOrder p ((event, answer) :: history) :=
  ordered.quiet event shows rfl (Nat.le_refl _) rfl ordered.drained

theorem process (ordered : InOrder p history) (ip : Addr) :
    InOrder (p.process ip).1 ((.process ip, (p.process ip).2) :: history) := by
  unfold AddrProc.process
  by_cases closed : p.isClosed = true
  · rw [if_pos closed]
    exact ordered.same _ (by simp)
  · rw [if_neg closed]
    by_cases room : p.clientIPs.length < defaultQueueSize
    · rw [if_pos room]
      refine ⟨?_, ?_, ?_, fun ended => absurd (ordered.drained ended).1 closed⟩
      · rw [queued_cons, updated_cons, ordered.order]
        simp [AddrAnswer.queuedIP, AddrAnswer.updatedIP]
      · rw [List.length_append, List.length_singleton]
        exact room
      · rw [closings_cons, if_neg nofun]
        exact ordered.closings
    · rw [if_neg room]
      exact ordered.same _ (by simp)

theorem close (ordered : InOrder p history) :
    InOrder p.close.1 ((.close, p.close.2) :: history) := by
  unfold AddrProc.close
  by_cases closed : p.isClosed = true
  · rw [if_pos closed]
    exact ordered.same _ (by simp)
  · rw [if_neg closed]
    refine ⟨?_, ordered.bound, ?_, fun ended => ⟨rfl, (ordered.drained ended).2⟩⟩
    · rw [queued_cons, updated_cons, ordered.order]
      simp [AddrAnswer.queuedIP, AddrAnswer.updatedIP]
    · rw [closings_cons, ordered.closings, if_neg closed, if_pos rfl, if_pos rfl]

theorem receive (ordered : InOrder p history) :
    InOrder p.receive ((.receive, .none) :: history) := by
  unfold AddrProc.receive
  split
  next ip rest waiting filled =>
    refine ordered.quiet _ (.inl rfl) ?_ ?_ rfl nofun
    · rw [waiting, filled]
      rfl
    · rw [filled]
      exact Nat.le_succ _
  next waiting empty =>
    split
    next closed =>
      refine ordered.quiet _ (.inl rfl) ?_ (Nat.le_refl _) rfl fun _ => ⟨closed, empty⟩
      rw [waiting]
      rfl
    next => exact ordered.same _ (.inl rfl)
  next => exact ordered.same _ (.inl rfl)

theorem resolve (ordered : InOrder p history) (now later : Int) (exchanged : Rdns.Exchanged) :
    InOrder (p.resolve lookups now later exchanged)
      ((.resolve now later exchanged, .none) :: history) := by
  unfold AddrProc.resolve
  split
  next ip taken =>
    refine ordered.quiet _ (.inl rfl) ?_ (Nat.le_refl _) rfl nofun
    rw [taken]
    rfl
  next => exact ordered.same _ (.inl rfl)

theorem look (ordered : InOrder p history) (now later : Int) (network : Whois.Network) :
    InOrder (p.look lookups now later network) ((.look now later network, .none) :: history) := by
  unfold AddrProc.look
  split
  next ip host named =>
    refine ordered.quiet _ (.inl rfl) ?_ (Nat.le_refl _) rfl nofun
    rw [named]
    rfl
  next => exact ordered.same _ (.inl rfl)

theorem update (ordered : InOrder p history) :
    InOrder p.update.1 ((.update, p.update.2) :: history) := by
  unfold AddrProc.update
  split
  next ip host info known =>
    refine ⟨?_, ordered.bound, ?_, nofun⟩
    · rw [queued_cons, updated_cons, ordered.order, known]
      simp [AddrAnswer.queuedIP, AddrAnswer.updatedIP, Worker.holds]
    · rw [closings_cons, if_neg nofun]
      exact ordered.closings
  next => exact ordered.same _ (.inl rfl)

theorem next (ordered : InOrder p history) (event : AddrEvent) :
    InOrder ((AddrProc.machine lookups).next p event)
      ((event, (AddrProc.machine lookups).answer p event) :: history) := by
  cases event with
  | process ip => exact ordered.process ip
  | close => exact ordered.close
  | receive => exact ordered.receive
  | resolve now later exchanged => exact ordered.resolve now later exchanged
  | look now later network => exact ordered.look now later network
  | update => exact ordered.update
  | dropRDNS ip | dropWHOIS ip | other u =>
    exact ordered.quiet _ (.inl rfl) rfl (Nat.le_refl _) rfl ordered.drained

end InOrder

/-- The queue after a run. -/
theorem inOrder_run (lookups : Lookups) (events : List AddrEvent) {p : AddrProc}
    {history : AddrHistory} (ordered : InOrder p history) :
    InOrder ((AddrProc.machine lookups).recording.run (p, history) events).1
      ((AddrProc.machine lookups).recording.run (p, history) events).2 := by
  induction events generalizing p history with
  | nil => exact ordered
  | cons event rest ih => exact ih (ordered.next event)

structure Round where
  resolved : Int × Int × Rdns.Exchanged
  looked : Int × Int × Whois.Network

/-- The steps of the goroutine on the address that it has received. -/
def Round.finish (r : Round) : List AddrEvent :=
  [.resolve r.resolved.1 r.resolved.2.1 r.resolved.2.2,
    .look r.looked.1 r.looked.2.1 r.looked.2.2, .update]

def goRound (rounds : List Round) : List AddrEvent :=
  rounds.flatMap fun r => .receive :: r.finish

section Alone

variable (lookups : Lookups) {p : AddrProc}

theorem finish_run (p : AddrProc) (r : Round) :
    let p' := (AddrProc.machine lookups).run p r.finish
    p'.worker.holds = [] ∧ p'.clientIPs = p.clientIPs ∧
      (p'.worker = .finished → p.worker = .finished) := by
  obtain ⟨clientIPs, isClosed, worker, rdns, whois, storage⟩ := p
  cases worker with
  | idle => exact ⟨rfl, rfl, nofun⟩
  | received ip => exact ⟨rfl, rfl, nofun⟩
  | resolved ip host => exact ⟨rfl, rfl, nofun⟩
  | looked ip host info => exact ⟨rfl, rfl, nofun⟩
  | finished => exact ⟨rfl, rfl, fun _ => rfl⟩

theorem round_run (free : p.worker.holds = [])
    (drained : p.worker = .finished → p.isClosed = true ∧ p.clientIPs = []) (r : Round) :
    let p' := (AddrProc.machine lookups).run p (.receive :: r.finish)
    p'.worker.holds = [] ∧ p'.clientIPs = p.clientIPs.tail := by
  intro p'
  have done : p'.worker.holds = [] ∧ p'.clientIPs = p.receive.clientIPs ∧
      (p'.worker = .finished → p.receive.worker = .finished) :=
    finish_run lookups p.receive r
  refine ⟨done.1, done.2.1.trans ?_⟩
  unfold AddrProc.receive
  split
  next ip rest _ filled => rw [filled, List.tail_cons]
  next _ empty => split <;> simp [empty]
  next busy _ =>
    cases worker : p.worker with
    | idle =>
      cases filled : p.clientIPs with
      | nil => rfl
      | cons ip rest => exact absurd filled (busy ip rest worker)
    | finished => rw [(drained worker).2, List.tail_nil]
    | received ip => simp [worker, Worker.holds] at free
    | resolved ip host => simp [worker, Worker.holds] at free
    | looked ip host info => simp [worker, Worker.holds] at free

theorem goRound_run (rounds : List Round) {history : AddrHistory} (ordered : InOrder p history)
    (free : p.worker.holds = []) (enough : p.clientIPs.length ≤ rounds.length) :
    let p' := (AddrProc.machine lookups).run p (goRound rounds)
    p'.worker.holds = [] ∧ p'.clientIPs = [] := by
  induction rounds generalizing p history with
  | nil => exact ⟨free, List.length_eq_zero_iff.mp (Nat.le_zero.mp enough)⟩
  | cons r rest ih =>
    obtain ⟨free', taken⟩ := round_run lookups free ordered.drained r
    have ordered' := inOrder_run lookups (.receive :: r.finish) ordered
    rw [← (AddrProc.machine lookups).recording_run (p, history)] at free' taken
    have fewer : (p.clientIPs.tail).length ≤ rest.length := by
      rw [List.length_tail]
      exact Nat.sub_le_of_le_add enough
    have done := ih ordered' free' (by rw [taken]; exact fewer)
    rw [(AddrProc.machine lookups).recording_run (p, history)] at done
    rw [goRound, List.flatMap_cons, Machine.run_append]
    exact done

theorem queuedIP_closed (closed : p.isClosed = true) (event : AddrEvent) :
    ((AddrProc.machine lookups).next p event).isClosed = true ∧
      ((AddrProc.machine lookups).answer p event).queuedIP = Option.none := by
  cases event with
  | process ip => simp [Machine.next, Machine.answer, AddrProc.machine, AddrProc.step,
      AddrProc.process, closed, AddrAnswer.queuedIP]
  | close => simp [Machine.next, Machine.answer, AddrProc.machine, AddrProc.step,
      AddrProc.close, closed, AddrAnswer.queuedIP]
  | receive =>
    refine ⟨?_, rfl⟩
    show p.receive.isClosed = true
    unfold AddrProc.receive
    split
    · exact closed
    · split <;> exact closed
    · exact closed
  | resolve now later exchanged =>
    refine ⟨?_, rfl⟩
    show (p.resolve lookups now later exchanged).isClosed = true
    unfold AddrProc.resolve
    split <;> exact closed
  | look now later network =>
    refine ⟨?_, rfl⟩
    show (p.look lookups now later network).isClosed = true
    unfold AddrProc.look
    split <;> exact closed
  | update =>
    show p.update.1.isClosed = true ∧ p.update.2.queuedIP = Option.none
    unfold AddrProc.update
    split <;> exact ⟨closed, rfl⟩
  | dropRDNS ip | dropWHOIS ip | other u => exact ⟨closed, rfl⟩

theorem queued_closed (history : AddrHistory) (closed : p.isClosed = true)
    (later : List AddrEvent) :
    queued ((AddrProc.machine lookups).recording.run (p, history) later).2 = queued history := by
  induction later generalizing p history with
  | nil => rfl
  | cons event rest ih =>
    obtain ⟨still, nothing⟩ := queuedIP_closed lookups closed event
    have step := ih ((event, (AddrProc.machine lookups).answer p event) :: history) still
    rw [queued_cons, nothing, Option.toList_none, List.append_nil] at step
    exact step

end Alone

/-- However the calls, the goroutine and the other updates follow each other: every address that is
queued reaches the storage once and in its turn, no more than 255 wait, `Close` succeeds once and
ends the queueing, and the goroutine on its own finishes what is queued. -/
theorem addrProc_queue (lookups : Lookups) (runtimeSourceDHCP : Bool) (events : List AddrEvent) :
    let recorded := (AddrProc.machine lookups).recording.run (.new runtimeSourceDHCP, []) events
    InOrder recorded.1 recorded.2 ∧
    (recorded.1.isClosed = true → ∀ later,
      queued ((AddrProc.machine lookups).recording.run recorded later).2 = queued recorded.2) ∧
    ∀ (first : Round) (rounds : List Round), recorded.1.clientIPs.length ≤ rounds.length →
      let done := (AddrProc.machine lookups).recording.run recorded
        (first.finish ++ goRound rounds)
      updated done.2 = queued done.2 := by
  intro recorded
  have ordered : InOrder recorded.1 recorded.2 := inOrder_run lookups events (.new _)
  refine ⟨ordered, fun closed later => queued_closed lookups recorded.2 closed later, ?_⟩
  intro first rounds enough done
  obtain ⟨free, kept, _⟩ := finish_run lookups recorded.1 first
  have ordered' := inOrder_run lookups first.finish ordered
  rw [← (AddrProc.machine lookups).recording_run recorded] at free kept
  obtain ⟨free', empty⟩ := goRound_run lookups rounds ordered' free
    (by rw [kept]; exact enough)
  have complete := inOrder_run lookups (first.finish ++ goRound rounds) ordered
  have order := complete.order
  rw [← (AddrProc.machine lookups).recording_run, ← Machine.run_append] at free' empty
  rw [free', empty, List.append_nil, List.append_nil] at order
  exact order.symm

end AdGuardHome.Client
