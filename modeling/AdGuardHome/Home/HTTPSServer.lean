import AdGuardHome.Lib.Machine
import AdGuardHome.Strings

/-! `web.go`: the loop of the HTTPS server among the calls that change its configuration, in
atomic steps. -/
namespace AdGuardHome.Home

open Strings

/-- `tlsConfigSettings`, as far as `tlsConfigChanged` and the loop read it. -/
structure TLSConf where
  enabled : Bool
  portHTTPS : BitVec 16
  certificateChainData : Bytes
  privateKeyData : Bytes
deriving DecidableEq

/-- A `tls.Certificate`, known by its identity. -/
abbrev Certificate := Nat

/-- `tls.X509KeyPair`. -/
abbrev KeyPairs := Bytes → Bytes → Option Certificate

namespace TLSConf

/-- Whether `tlsConfigChanged` enables the server. -/
def serves (conf : TLSConf) : Bool :=
  conf.enabled && conf.portHTTPS != 0 && conf.privateKeyData.length != 0 &&
    conf.certificateChainData.length != 0

/-- The certificate that `tlsConfigChanged` stores; `none` is the zero one. -/
def cert (keyPairs : KeyPairs) (conf : TLSConf) : Option Certificate :=
  if conf.serves then keyPairs conf.certificateChainData conf.privateKeyData else none

/-- `tlsConfigChanged` panics, so that the program exits. -/
def panics (keyPairs : KeyPairs) (conf : TLSConf) : Bool :=
  conf.serves && (keyPairs conf.certificateChainData conf.privateKeyData).isNone

end TLSConf

/-- An `http.Server`; `closed` is set by `Shutdown`. -/
structure HTTPServer where
  port : BitVec 16
  cert : Option Certificate
  closed : Bool
deriving DecidableEq

namespace HTTPSServer

/-- The next step of a call of `tlsConfigChanged`. -/
inductive CallStep where
  | shutdown
  | store
  | notify
  | returned
deriving DecidableEq

/-- A call of `tlsConfigChanged`. -/
structure Call where
  conf : TLSConf
  step : CallStep
deriving DecidableEq

/-- The next step of `close`, or what it has done last. -/
inductive Closing where
  | opened
  | flagged
  | notified
  | closed
deriving DecidableEq

/-- Where `tlsServerLoop` is: at the channel, before the flags are read, before the port is read,
before the certificate is read, before the server object is stored, before it serves, serving. -/
inductive Loop where
  | waiting
  | checking
  | reading
  | creating (port : BitVec 16)
  | assigning (port : BitVec 16) (cert : Option Certificate)
  | starting (id : Nat)
  | serving (id : Nat)
  | stopped
deriving DecidableEq

structure State where
  enabled : Bool
  cert : Option Certificate
  shutdown : Bool
  /-- Whether the channel `reconfigured` is full. -/
  reconfigured : Bool
  servers : List HTTPServer
  /-- `httpsServer.server`. -/
  server : Option Nat
  loop : Loop
  calls : List Call
  closing : Closing
  /-- The configuration of the TLS manager. -/
  extTLSConf : TLSConf
  /-- `config.TLS.PortHTTPS`. -/
  savedPort : BitVec 16
  /-- The handlers that will still save the configuration. -/
  saves : Nat
  exited : Bool
  /-- The call that has stored last, with its configuration; the program does not keep it. -/
  stored : Option (Nat × TLSConf)
deriving DecidableEq

/-- What happens next: a handler or a reload sets a configuration and starts a call, a handler
saves the current one, a call, the loop or `close` makes its next step. -/
inductive Event where
  | configure (conf : TLSConf)
  | reload (conf : TLSConf)
  | save
  | call (k : Nat)
  | loop
  | close
deriving DecidableEq

namespace State

def init (conf : TLSConf) : State where
  enabled := false
  cert := none
  shutdown := false
  reconfigured := false
  servers := []
  server := none
  loop := .waiting
  calls := [⟨conf, .shutdown⟩]
  closing := .opened
  extTLSConf := conf
  savedPort := conf.portHTTPS
  saves := 0
  exited := false
  stored := none

variable (s : State)

/-- `notifyReconfigured`. -/
def notifyReconfigured : State := { s with reconfigured := true }

/-- The server objects after `shutdownSrv` of the current one, if any. -/
def shutdownSrv : List HTTPServer :=
  match s.server with
  | none => s.servers
  | some id => s.servers.modify id fun server => { server with closed := true }

def advance (k : Nat) (call : Call) (step : CallStep) : State :=
  { s with calls := s.calls.set k { call with step } }

/-- `tlsConfigChanged`. -/
def tlsConfigChanged (keyPairs : KeyPairs) (k : Nat) (call : Call) : State :=
  match call.step with
  | .shutdown =>
    if call.conf.panics keyPairs then { s with exited := true }
    else { s.advance k call .store with servers := s.shutdownSrv }
  | .store =>
    { s.advance k call .notify with
      enabled := call.conf.serves
      cert := call.conf.cert keyPairs
      stored := some (k, call.conf) }
  | .notify => (s.advance k call .returned).notifyReconfigured
  | .returned => s

def isClosed (id : Nat) : Bool := (s.servers[id]?.map fun server => server.closed).getD false

/-- `tlsServerLoop`, `serveTLS` and `waitForTLSReady`, without HTTP/3 and without a server that
cannot listen, with which the program exits. -/
def tlsServerLoop : State :=
  match s.loop with
  | .waiting =>
    if s.reconfigured then { s with reconfigured := false, loop := .checking } else s
  | .checking =>
    if s.shutdown then { s with loop := .stopped }
    else if s.enabled then { s with loop := .reading }
    else { s with loop := .waiting }
  | .reading => { s with loop := .creating s.savedPort }
  | .creating port => { s with loop := .assigning port s.cert }
  | .assigning port cert =>
    { s with
      servers := s.servers ++ [⟨port, cert, false⟩]
      server := some s.servers.length
      loop := .starting s.servers.length }
  | .starting id =>
    if s.isClosed id then { s with loop := .waiting } else { s with loop := .serving id }
  | .serving id => if s.isClosed id then { s with loop := .waiting } else s
  | .stopped => s

/-- `webAPI.close`. -/
def close : State :=
  match s.closing with
  | .opened => { s with shutdown := true, closing := .flagged }
  | .flagged => { s.notifyReconfigured with closing := .notified }
  | .notified => { s with servers := s.shutdownSrv, closing := .closed }
  | .closed => s

def begin (conf : TLSConf) : State :=
  { s with extTLSConf := conf, calls := s.calls ++ [⟨conf, .shutdown⟩] }

end State

def step (keyPairs : KeyPairs) (s : State) (event : Event) : State × Unit :=
  if s.exited then (s, ())
  else
    match event with
    | .configure conf => ({ s.begin conf with saves := s.saves + 1 }, ())
    | .reload conf => (s.begin conf, ())
    | .save => ({ s with savedPort := s.extTLSConf.portHTTPS, saves := s.saves - 1 }, ())
    | .call k =>
      match s.calls[k]? with
      | none => (s, ())
      | some call => (s.tlsConfigChanged keyPairs k call, ())
    | .loop => (s.tlsServerLoop, ())
    | .close => (s.close, ())

def machine (keyPairs : KeyPairs) : Transition.Machine State Event Unit := ⟨step keyPairs⟩

/-- All calls and handlers have returned, and the loop serves or waits, or has stopped. -/
structure Settled (s : State) : Prop where
  running : s.exited = false
  calls : ∀ call ∈ s.calls, call.step = .returned
  saves : s.saves = 0
  closing : s.closing = .opened ∨ s.closing = .closed
  loop : s.loop = .waiting ∧ s.reconfigured = false ∨
    (∃ id, s.loop = .serving id ∧ s.isClosed id = false) ∨ s.loop = .stopped

/-- The server is there just where the last configuration enables it, with its certificate and
port; after `close` the loop has stopped. -/
structure Current (keyPairs : KeyPairs) (s : State) : Prop where
  serves : s.closing = .opened →
    ((∃ id, s.loop = .serving id) ↔ s.extTLSConf.serves = true)
  server : s.closing = .opened → ∀ id, s.loop = .serving id →
    s.servers[id]? = some ⟨s.extTLSConf.portHTTPS, s.extTLSConf.cert keyPairs, false⟩
  stopped : s.closing = .closed → s.loop = .stopped


def Call.hasStored (call : Call) : Prop := call.step = .notify ∨ call.step = .returned

namespace State

variable (keyPairs : KeyPairs) (s : State)

/-- What the loop has read since it passed the flags, and the server it has made, if that one was
not shut down, are those of the configuration. -/
def Agrees (conf : TLSConf) : Prop :=
  match s.loop with
  | .waiting => True
  | .checking => True
  | .reading => conf.serves = true
  | .creating port => conf.serves = true ∧ port = conf.portHTTPS
  | .assigning port cert =>
    conf.serves = true ∧ port = conf.portHTTPS ∧ cert = conf.cert keyPairs
  | .starting id =>
    s.isClosed id = false →
      conf.serves = true ∧ s.servers[id]? = some ⟨conf.portHTTPS, conf.cert keyPairs, false⟩
  | .serving id =>
    s.isClosed id = false →
      conf.serves = true ∧ s.servers[id]? = some ⟨conf.portHTTPS, conf.cert keyPairs, false⟩
  | .stopped => True

/-- The loop is between the flags and the store of the server object. -/
def Creates : Prop :=
  match s.loop with
  | .reading => True
  | .creating _ => True
  | .assigning _ _ => True
  | .waiting => False
  | .checking => False
  | .starting _ => False
  | .serving _ => False
  | .stopped => False

/-- A step that loses no configuration. A call that stores finds no later one that has stored, and
the loop has read nothing else, unless the server is to be closed; the port that the loop reads is
that of the configuration stored last; `close` looks for the server object when none is being
made. -/
def Safe (event : Event) : Prop :=
  match event with
  | .configure _ => True
  | .reload _ => True
  | .save => True
  | .call k => ∀ call : Call, s.calls[k]? = some call → call.step = .store →
      (∀ (j : Nat) (later : Call), k < j → s.calls[j]? = some later → ¬ later.hasStored) ∧
        (s.closing = .opened → s.Agrees keyPairs call.conf)
  | .loop => s.loop = .reading → s.closing = .opened →
      ∀ k conf, s.stored = some (k, conf) → s.savedPort = conf.portHTTPS
  | .close => s.closing = .notified → ¬ s.Creates

def Wakes : Prop :=
  s.reconfigured = true ∨ ∃ (k : Nat) (call : Call), s.calls[k]? = some call ∧
    (call.step = .store ∨ call.step = .notify)

def Owns : Prop := ∀ id, s.loop = .starting id ∨ s.loop = .serving id →
  s.server = some id ∧ id < s.servers.length

end State

/-- The last call has the configuration of the TLS manager, and of the calls that have stored one
the latest has stored last. -/
structure Ordered (calls : List Call) (extTLSConf : TLSConf) (stored : Option (Nat × TLSConf)) :
    Prop where
  last : ∃ call, calls.getLast? = some call ∧ call.conf = extTLSConf
  latest : ∀ k conf, stored = some (k, conf) → ∃ call : Call, calls[k]? = some call ∧
    call.conf = conf ∧ call.hasStored ∧
      ∀ (j : Nat) (later : Call), k < j → calls[j]? = some later → ¬ later.hasStored
  nothing : stored = none → ∀ (j : Nat) (call : Call), calls[j]? = some call → ¬ call.hasStored

structure Follows (keyPairs : KeyPairs) (s : State) : Prop where
  ordered : Ordered s.calls s.extTLSConf s.stored
  flags : (s.stored = none → s.enabled = false) ∧
    ∀ k conf, s.stored = some (k, conf) → s.enabled = conf.serves ∧ s.cert = conf.cert keyPairs
  idle : s.stored = none → s.closing = .opened → s.loop = .waiting ∨ s.loop = .checking
  owns : s.Owns
  shutdown : s.shutdown = true ↔ s.closing ≠ .opened
  agrees : s.closing = .opened → ∀ k conf, s.stored = some (k, conf) → s.Agrees keyPairs conf
  wakes : s.closing = .opened →
    (s.loop = .waiting ∧ s.enabled = true ∨
      ∃ id, (s.loop = .starting id ∨ s.loop = .serving id) ∧ s.isClosed id = true) → s.Wakes
  running : s.closing = .opened → s.loop ≠ .stopped
  notified : s.closing = .notified ∨ s.closing = .closed →
    s.loop = .checking ∨ s.loop = .stopped ∨ s.reconfigured = true
  closed : s.closing = .closed → ¬ s.Creates ∧
    ∀ id, s.loop = .starting id ∨ s.loop = .serving id → s.isClosed id = true

variable {keyPairs : KeyPairs} {s : State}

theorem follows_init (keyPairs : KeyPairs) (conf : TLSConf) : Follows keyPairs (.init conf) where
  ordered := by
    refine ⟨⟨⟨conf, .shutdown⟩, rfl, rfl⟩, fun _ _ missing => (by cases missing), ?_⟩
    intro _ j call found
    have first := List.mem_singleton.mp (List.mem_of_getElem? found)
    subst first
    rintro (different | different) <;> cases different
  flags := ⟨fun _ => rfl, fun _ _ missing => by cases missing⟩
  idle := fun _ _ => .inl rfl
  owns := by
    intro id here
    rcases here with here | here <;> cases here
  shutdown := by simp [State.init]
  agrees := fun _ _ _ missing => by cases missing
  wakes := by
    intro _ needed
    simp [State.init] at needed
  running := fun _ => by simp [State.init]
  notified := by simp [State.init]
  closed := by simp [State.init]

theorem Follows.current (follows : Follows keyPairs s) (settled : Settled s) :
    Current keyPairs s := by
  have quiet : ¬ ∃ (k : Nat) (call : Call), s.calls[k]? = some call ∧
      (call.step = .store ∨ call.step = .notify) := by
    rintro ⟨k, call, found, step⟩
    rw [settled.calls call (List.mem_of_getElem? found)] at step
    rcases step with step | step <;> cases step
  obtain ⟨lastCall, isLast, lastConf⟩ := follows.ordered.last
  have lastReturned : lastCall.hasStored :=
    .inr (settled.calls lastCall (List.mem_of_getLast? isLast))
  have place := List.getLast?_eq_getElem? ▸ isLast
  -- the configuration stored last is the last one that was set
  have known : ∃ k, s.stored = some (k, s.extTLSConf) := by
    cases stored : s.stored with
    | none => exact absurd lastReturned (follows.ordered.nothing stored _ _ place)
    | some entry =>
      obtain ⟨k, conf⟩ := entry
      obtain ⟨call, found, isConf, _, later⟩ := follows.ordered.latest k conf stored
      have bound := (List.getElem?_eq_some_iff.mp found).1
      have same : k = s.calls.length - 1 := by
        by_contra different
        exact later _ _ (by omega) place lastReturned
      rw [← same, found] at place
      rw [← lastConf, ← Option.some.inj place, isConf]
      exact ⟨k, rfl⟩
  obtain ⟨k, stored⟩ := known
  obtain ⟨enabled, _⟩ := follows.flags.2 k _ stored
  constructor
  case serves =>
    intro opened
    constructor
    · rintro ⟨id, serving⟩
      have agrees := follows.agrees opened k _ stored
      rw [State.Agrees, serving] at agrees
      rcases settled.loop with ⟨waiting, _⟩ | ⟨other, same, unclosed⟩ | stopped
      · rw [serving] at waiting
        cases waiting
      · rw [serving] at same
        cases same
        exact (agrees unclosed).1
      · rw [serving] at stopped
        cases stopped
    · intro serves
      rcases settled.loop with ⟨waiting, empty⟩ | ⟨id, serving, _⟩ | stopped
      · rcases follows.wakes opened (.inl ⟨waiting, enabled.trans serves⟩) with token | pending
        · rw [empty] at token
          cases token
        · exact absurd pending quiet
      · exact ⟨id, serving⟩
      · exact absurd stopped (follows.running opened)
  case server =>
    intro opened id serving
    have agrees := follows.agrees opened k _ stored
    rw [State.Agrees, serving] at agrees
    rcases settled.loop with ⟨waiting, _⟩ | ⟨other, same, unclosed⟩ | stopped
    · rw [serving] at waiting
      cases waiting
    · rw [serving] at same
      cases same
      exact (agrees unclosed).2
    · rw [serving] at stopped
      cases stopped
  case stopped =>
    intro closed
    rcases settled.loop with ⟨waiting, empty⟩ | ⟨id, serving, unclosed⟩ | stopped
    · rcases follows.notified (.inr closed) with checking | stopped | token
      · rw [waiting] at checking
        cases checking
      · exact stopped
      · rw [empty] at token
        cases token
    · rw [(follows.closed closed).2 id (.inr serving)] at unclosed
      cases unclosed
    · exact stopped

namespace Ordered

variable {calls : List Call} {extTLSConf : TLSConf} {stored : Option (Nat × TLSConf)}

theorem last_set (ordered : Ordered calls extTLSConf stored) {k : Nat} {call : Call}
    (found : calls[k]? = some call) (step : CallStep) :
    ∃ last, (calls.set k { call with step }).getLast? = some last ∧ last.conf = extTLSConf := by
  obtain ⟨last, isLast, conf⟩ := ordered.last
  rw [List.getLast?_eq_getElem?] at isLast
  rw [List.getLast?_eq_getElem?, List.length_set, List.getElem?_set]
  split
  · rename_i same
    rw [← same, found] at isLast
    have bound := (List.getElem?_eq_some_iff.mp found).1
    rw [if_pos (same ▸ bound)]
    exact ⟨_, rfl, by rw [← conf, ← Option.some.inj isLast]⟩
  · exact ⟨last, isLast, conf⟩

/-- A step by which a call neither stores nor has stored before. -/
theorem advance (ordered : Ordered calls extTLSConf stored) {k : Nat} {call : Call}
    (found : calls[k]? = some call) {step : CallStep}
    (same : ({ call with step } : Call).hasStored ↔ call.hasStored) :
    Ordered (calls.set k { call with step }) extTLSConf stored := by
  have bound := (List.getElem?_eq_some_iff.mp found).1
  have kept : ∀ (j : Nat) (after : Call), (calls.set k { call with step })[j]? = some after →
      ∃ before, calls[j]? = some before ∧ after.conf = before.conf ∧
        (after.hasStored ↔ before.hasStored) := by
    intro j after here
    rw [List.getElem?_set] at here
    split at here
    · rename_i place
      obtain rfl := Option.some.inj here
      exact ⟨call, place ▸ found, rfl, same⟩
    · exact ⟨after, here, rfl, Iff.rfl⟩
  refine ⟨ordered.last_set found step, ?_, ?_⟩
  · intro i conf isStored
    obtain ⟨storer, place, isConf, has, later⟩ := ordered.latest i conf isStored
    have inside := (List.getElem?_eq_some_iff.mp place).1
    obtain ⟨after, here⟩ : ∃ after, (calls.set k { call with step })[i]? = some after :=
      ⟨_, List.getElem?_eq_getElem (by simpa using inside)⟩
    obtain ⟨before, was, sameConf, sameStored⟩ := kept i after here
    obtain rfl := Option.some.inj (place.symm.trans was)
    refine ⟨_, here, sameConf.trans isConf, sameStored.mpr has, ?_⟩
    intro j after less there
    obtain ⟨before, was, _, sameStored⟩ := kept j after there
    exact fun has => later j before less was (sameStored.mp has)
  · intro missing j after here
    obtain ⟨before, was, _, sameStored⟩ := kept j after here
    exact fun has => ordered.nothing missing j before was (sameStored.mp has)

/-- A call stores its configuration when no later one has. -/
theorem store (ordered : Ordered calls extTLSConf stored) {k : Nat} {call : Call}
    (found : calls[k]? = some call)
    (latest : ∀ (j : Nat) (later : Call), k < j → calls[j]? = some later → ¬ later.hasStored) :
    Ordered (calls.set k { call with step := .notify }) extTLSConf (some (k, call.conf)) := by
  have bound := (List.getElem?_eq_some_iff.mp found).1
  refine ⟨ordered.last_set found .notify, ?_, fun missing => by cases missing⟩
  intro i conf isStored
  cases isStored
  refine ⟨_, List.getElem?_set_self bound, rfl, .inl rfl, ?_⟩
  intro j later less there
  rw [List.getElem?_set_ne (by omega)] at there
  exact latest j later less there

theorem begin (ordered : Ordered calls extTLSConf stored) (conf : TLSConf) :
    Ordered (calls ++ [⟨conf, .shutdown⟩]) conf stored := by
  have new : ∀ (j : Nat) (call : Call), (calls ++ [⟨conf, .shutdown⟩])[j]? = some call →
      calls[j]? = some call ∨ ¬ call.hasStored := by
    intro j call here
    by_cases inside : j < calls.length
    · rw [List.getElem?_append_left inside] at here
      exact .inl here
    · right
      rw [List.getElem?_append_right (by omega)] at here
      obtain rfl := List.mem_singleton.mp (List.mem_of_getElem? here)
      rintro (different | different) <;> cases different
  refine ⟨⟨_, List.getLast?_concat, rfl⟩, ?_, ?_⟩
  · intro k old isStored
    obtain ⟨call, found, isConf, has, later⟩ := ordered.latest k old isStored
    have inside := (List.getElem?_eq_some_iff.mp found).1
    refine ⟨call, by rw [List.getElem?_append_left inside, found], isConf, has, ?_⟩
    intro j other less there
    rcases new j other there with before | fresh
    · exact later j other less before
    · exact fresh
  · intro missing j call here
    rcases new j call here with before | fresh
    · exact ordered.nothing missing j call before
    · exact fresh

end Ordered

end HTTPSServer

namespace HTTPSServer

variable {keyPairs : KeyPairs} {s : State}

namespace State

theorem length_shutdownSrv (s : State) : s.shutdownSrv.length = s.servers.length := by
  unfold shutdownSrv
  split
  · rfl
  · exact List.length_modify _ _ _

theorem isClosed_shutdownSrv {id : Nat} (before : s.isClosed id = true) :
    (s.shutdownSrv[id]?.map fun server => server.closed).getD false = true := by
  unfold shutdownSrv
  split
  · exact before
  · rename_i current _
    rw [List.getElem?_modify]
    split
    · rename_i same
      subst same
      unfold isClosed at before
      cases found : s.servers[current]? with
      | none => simp [found] at before
      | some server => simp
    · simpa [isClosed] using before

theorem Owns.isClosed (owns : s.Owns) {id : Nat}
    (here : s.loop = .starting id ∨ s.loop = .serving id) :
    (s.shutdownSrv[id]?.map fun server => server.closed).getD false = true := by
  obtain ⟨isServer, inside⟩ := owns id here
  unfold shutdownSrv
  rw [isServer]
  simp [List.getElem?_eq_getElem inside]

theorem Owns.agrees (owns : s.Owns) {conf : TLSConf} (agrees : s.Agrees keyPairs conf) :
    ({ s with servers := s.shutdownSrv } : State).Agrees keyPairs conf := by
  unfold Agrees at *
  cases place : s.loop with
  | waiting => trivial
  | checking => trivial
  | stopped => trivial
  | reading => simpa [place] using agrees
  | creating port => simpa [place] using agrees
  | assigning port cert => simpa [place] using agrees
  | starting id =>
    intro unclosed
    have closed := owns.isClosed (.inl place)
    cases closed.symm.trans unclosed
  | serving id =>
    intro unclosed
    have closed := owns.isClosed (.inr place)
    cases closed.symm.trans unclosed

theorem wakes_set {k : Nat} {call : Call} (found : s.calls[k]? = some call) {step : CallStep}
    (pending : step = .store ∨ step = .notify) (t : State)
    (calls : t.calls = s.calls.set k { call with step }) : t.Wakes := by
  have bound := (List.getElem?_eq_some_iff.mp found).1
  exact .inr ⟨k, { call with step }, by rw [calls, List.getElem?_set_self bound], pending⟩

end State

theorem Follows.call (follows : Follows keyPairs s) {k : Nat} {call : Call}
    (found : s.calls[k]? = some call) (safe : s.Safe keyPairs (.call k)) :
    Follows keyPairs (s.tlsConfigChanged keyPairs k call) := by
  obtain ⟨conf, step⟩ := call
  cases step with
  | shutdown =>
    unfold State.tlsConfigChanged
    simp only
    split
    · exact { follows with }
    · exact {
        follows with
        ordered := follows.ordered.advance found (by simp [Call.hasStored])
        owns := fun id here => by
          obtain ⟨isServer, inside⟩ := follows.owns id here
          exact ⟨isServer, by simpa [State.length_shutdownSrv] using inside⟩
        agrees := fun opened i stored isStored =>
          follows.owns.agrees (follows.agrees opened i stored isStored)
        wakes := fun _ _ => State.wakes_set found (.inl rfl) _ rfl
        closed := fun closed => by
          obtain ⟨creates, ends⟩ := follows.closed closed
          exact ⟨creates, fun id here => State.isClosed_shutdownSrv (ends id here)⟩ }
  | store =>
    obtain ⟨latest, agrees⟩ := safe _ found rfl
    exact {
      follows with
      ordered := follows.ordered.store found latest
      flags := by
        refine ⟨fun missing => (by cases missing), fun i stored isStored => ?_⟩
        cases isStored
        exact ⟨rfl, rfl⟩
      idle := fun missing => by cases missing
      agrees := fun opened i stored isStored => by
        cases isStored
        exact agrees opened
      wakes := fun _ _ => State.wakes_set found (.inr rfl) _ rfl }
  | notify =>
    exact {
      follows with
      ordered := follows.ordered.advance found (by simp [Call.hasStored])
      wakes := fun _ _ => .inl rfl
      notified := fun _ => .inr (.inr rfl) }
  | returned => exact follows

theorem Follows.begin (follows : Follows keyPairs s) (conf : TLSConf) (saves : Nat) :
    Follows keyPairs { s.begin conf with saves } := {
  follows with
  ordered := follows.ordered.begin conf
  wakes := fun opened needed => by
    rcases follows.wakes opened needed with token | ⟨k, call, found, pending⟩
    · exact .inl token
    · have inside := (List.getElem?_eq_some_iff.mp found).1
      refine .inr ⟨k, call, ?_, pending⟩
      simp only [State.begin]
      rw [List.getElem?_append_left inside, found] }

theorem Follows.close (follows : Follows keyPairs s) (safe : s.Safe keyPairs .close) :
    Follows keyPairs s.close := by
  unfold State.close
  split
  case h_1 opened =>
    exact {
      follows with
      shutdown := by simp
      idle := fun _ different => by cases different
      agrees := fun different => by cases different
      wakes := fun different => by cases different
      running := fun different => by cases different
      notified := fun different => by rcases different with different | different <;> cases different
      closed := fun different => by cases different }
  case h_2 flagged =>
    exact {
      follows with
      shutdown := by simp [State.notifyReconfigured, follows.shutdown, flagged]
      idle := fun _ different => by cases different
      agrees := fun different => by cases different
      wakes := fun different => by cases different
      running := fun different => by cases different
      notified := fun _ => .inr (.inr rfl)
      closed := fun different => by cases different }
  case h_3 notified =>
    exact {
      follows with
      shutdown := by simp [follows.shutdown, notified]
      idle := fun _ different => by cases different
      owns := fun id here => by
        obtain ⟨isServer, inside⟩ := follows.owns id here
        exact ⟨isServer, by simpa [State.length_shutdownSrv] using inside⟩
      agrees := fun different => by cases different
      wakes := fun different => by cases different
      running := fun different => by cases different
      notified := fun _ => follows.notified (.inl notified)
      closed := fun _ => ⟨safe notified, fun id here => follows.owns.isClosed here⟩ }
  case h_4 => exact follows

theorem Follows.token (follows : Follows keyPairs s)
    (before : s.closing = .notified ∨ s.closing = .closed)
    (busy : s.loop ≠ .checking ∧ s.loop ≠ .stopped) : s.reconfigured = true := by
  rcases follows.notified before with checking | stopped | token
  · exact absurd checking busy.1
  · exact absurd stopped busy.2
  · exact token

theorem Follows.assign (follows : Follows keyPairs s) {port : BitVec 16}
    {cert : Option Certificate} (place : s.loop = .assigning port cert) :
    Follows keyPairs { s with
      servers := s.servers ++ [⟨port, cert, false⟩]
      server := some s.servers.length
      loop := .starting s.servers.length } := by
  have creates : s.Creates := by simp [State.Creates, place]
  have busy : ¬ (s.loop = .waiting ∨ s.loop = .checking) := by simp [place]
  have unclosed : ((s.servers ++ [(⟨port, cert, false⟩ : HTTPServer)])[s.servers.length]?.map
      fun server => server.closed).getD false = false := by simp
  exact {
    follows with
    idle := fun missing opened => absurd (follows.idle missing opened) busy
    owns := fun id here => by
      rcases here with here | here
      · cases here
        exact ⟨rfl, by simp⟩
      · cases here
    agrees := fun opened i stored isStored => by
      have agrees := follows.agrees opened i stored isStored
      rw [State.Agrees, place] at agrees
      obtain ⟨serves, rfl, rfl⟩ := agrees
      exact fun _ => ⟨serves, by simp⟩
    wakes := fun opened needed => by
      rcases needed with ⟨different, _⟩ | ⟨id, here, closed⟩
      · cases different
      · rcases here with here | here
        · cases here
          cases unclosed.symm.trans closed
        · cases here
    running := fun _ different => by cases different
    notified := fun before => .inr (.inr (follows.token before (by simp [place])))
    closed := fun closed => absurd creates (follows.closed closed).1 }

theorem Follows.ended (follows : Follows keyPairs s) {id : Nat}
    (place : s.loop = .starting id ∨ s.loop = .serving id) (closed : s.isClosed id = true) :
    Follows keyPairs { s with loop := .waiting } :=
  { follows with
    idle := fun _ _ => .inl rfl
    owns := fun other here => by rcases here with here | here <;> cases here
    agrees := fun _ _ _ _ => trivial
    wakes := fun opened _ => follows.wakes opened (.inr ⟨id, place, closed⟩)
    running := fun _ different => by cases different
    notified := fun before =>
      .inr (.inr (follows.token before (by rcases place with place | place <;> simp [place])))
    closed := fun _ =>
      ⟨fun creates => creates, fun other here => by rcases here with here | here <;> cases here⟩ }

theorem Follows.check (follows : Follows keyPairs s) :
    Follows keyPairs
      (if s.shutdown then { s with loop := .stopped }
      else if s.enabled then { s with loop := .reading }
      else { s with loop := .waiting }) := by
  split
  · rename_i shutdown
    have closing := follows.shutdown.mp shutdown
    exact {
      follows with
      idle := fun _ opened => absurd opened closing
      owns := fun id here => by rcases here with here | here <;> cases here
      agrees := fun opened => absurd opened closing
      wakes := fun opened => absurd opened closing
      running := fun opened => absurd opened closing
      notified := fun _ => .inr (.inl rfl)
      closed := fun _ =>
        ⟨fun creates => creates, fun id here => by rcases here with here | here <;> cases here⟩ }
  · rename_i running
    have opened : s.closing = .opened := by
      by_contra closing
      exact running (follows.shutdown.mpr closing)
    split
    · rename_i enabled
      exact {
        follows with
        idle := fun missing => by
          have disabled := follows.flags.1 missing
          rw [disabled] at enabled
          cases enabled
        owns := fun id here => by rcases here with here | here <;> cases here
        agrees := fun _ i stored isStored => (follows.flags.2 i stored isStored).1 ▸ enabled
        wakes := fun _ needed => by
          rcases needed with ⟨different, _⟩ | ⟨id, different | different, _⟩
          all_goals cases different
        running := fun _ different => by cases different
        notified := fun before => by rw [opened] at before; rcases before with h | h <;> cases h
        closed := fun closed => by rw [opened] at closed; cases closed }
    · rename_i disabled
      exact {
        follows with
        idle := fun _ _ => .inl rfl
        owns := fun id here => by rcases here with here | here <;> cases here
        agrees := fun _ _ _ _ => trivial
        wakes := fun _ needed => by
          rcases needed with ⟨_, enabled⟩ | ⟨id, different | different, _⟩
          · exact absurd enabled disabled
          · cases different
          · cases different
        running := fun _ different => by cases different
        notified := fun before => by rw [opened] at before; rcases before with h | h <;> cases h
        closed := fun closed => by rw [opened] at closed; cases closed }

theorem Follows.create (follows : Follows keyPairs s) (creates : s.Creates) {next : Loop}
    (still : ({ s with loop := next } : State).Creates)
    (agrees : s.closing = .opened → ∀ k conf, s.stored = some (k, conf) →
      ({ s with loop := next } : State).Agrees keyPairs conf) :
    Follows keyPairs { s with loop := next } := by
  have busy : ∀ t : State, t.Creates → t.loop ≠ .waiting ∧ t.loop ≠ .checking ∧
      t.loop ≠ .stopped ∧ ∀ id, t.loop ≠ .starting id ∧ t.loop ≠ .serving id := by
    intro t making
    refine ⟨?_, ?_, ?_, fun id => ⟨?_, ?_⟩⟩
    all_goals
      intro place
      simp [State.Creates, place] at making
  obtain ⟨waiting, checking, stopped, _⟩ := busy s creates
  obtain ⟨waits, _, stops, serves⟩ := busy _ still
  exact {
    follows with
    idle := fun missing opened => by
      rcases follows.idle missing opened with here | here
      · exact absurd here waiting
      · exact absurd here checking
    owns := fun id here => by
      rcases here with here | here
      · exact absurd here (serves id).1
      · exact absurd here (serves id).2
    agrees
    wakes := fun _ needed => by
      rcases needed with ⟨here, _⟩ | ⟨id, here | here, _⟩
      · exact absurd here waits
      · exact absurd here (serves id).1
      · exact absurd here (serves id).2
    running := fun _ => stops
    notified := fun before => .inr (.inr (follows.token before ⟨checking, stopped⟩))
    closed := fun closed => absurd creates (follows.closed closed).1 }

theorem Follows.loop (follows : Follows keyPairs s) (safe : s.Safe keyPairs .loop) :
    Follows keyPairs s.tlsServerLoop := by
  unfold State.tlsServerLoop
  split
  case h_1 place =>
    split
    · exact {
        follows with
        idle := fun _ _ => .inr rfl
        owns := fun id here => by rcases here with here | here <;> cases here
        agrees := fun _ _ _ _ => trivial
        wakes := fun _ needed => by
          rcases needed with ⟨different, _⟩ | ⟨id, different | different, _⟩
          all_goals cases different
        running := fun _ different => by cases different
        notified := fun _ => .inl rfl
        closed := fun _ =>
          ⟨fun creates => creates, fun id here => by rcases here with here | here <;> cases here⟩ }
    · exact follows
  case h_2 => exact follows.check
  case h_3 place =>
    refine follows.create (by simp [State.Creates, place]) trivial fun opened k conf stored => ?_
    have agrees := follows.agrees opened k conf stored
    rw [State.Agrees, place] at agrees
    exact ⟨agrees, safe place opened k conf stored⟩
  case h_4 port place =>
    refine follows.create (by simp [State.Creates, place]) trivial fun opened k conf stored => ?_
    have agrees := follows.agrees opened k conf stored
    rw [State.Agrees, place] at agrees
    exact ⟨agrees.1, agrees.2, (follows.flags.2 k conf stored).2⟩
  case h_5 port cert place => exact follows.assign place
  case h_6 id place =>
    split
    · rename_i closed
      exact follows.ended (.inl place) closed
    · rename_i unclosed
      exact {
        follows with
        idle := fun missing opened => by
          rcases follows.idle missing opened with here | here <;> simp [place] at here
        owns := fun other here => by
          rcases here with here | here
          · cases here
          · cases here
            exact follows.owns id (.inl place)
        agrees := fun opened k conf stored => by
          have agrees := follows.agrees opened k conf stored
          rw [State.Agrees, place] at agrees
          exact agrees
        wakes := fun _ needed => by
          rcases needed with ⟨different, _⟩ | ⟨other, different | same, closed⟩
          · cases different
          · cases different
          · cases same
            exact absurd closed unclosed
        running := fun _ different => by cases different
        notified := fun before => .inr (.inr (follows.token before (by simp [place])))
        closed := fun closed => absurd ((follows.closed closed).2 id (.inl place)) unclosed }
  case h_7 id place =>
    split
    · rename_i closed
      exact follows.ended (.inr place) closed
    · exact follows
  case h_8 => exact follows

theorem Follows.step (follows : Follows keyPairs s) {event : Event}
    (safe : s.Safe keyPairs event) : Follows keyPairs ((machine keyPairs).next s event) := by
  simp only [Transition.Machine.next, machine, HTTPSServer.step]
  split
  · exact follows
  · cases event with
    | configure conf => exact follows.begin conf (s.saves + 1)
    | reload conf => exact follows.begin conf s.saves
    | save => exact { follows with }
    | call k =>
      simp only
      split
      · exact follows
      · rename_i call found
        exact follows.call found safe
    | loop => exact follows.loop safe
    | close => exact follows.close safe

/-- In every run of safe steps, whenever all calls have returned and the loop only serves or waits,
it serves just what the last configuration says, and after `close` it has stopped. -/
theorem safe_runs_are_current (keyPairs : KeyPairs) (conf : TLSConf) (events : List Event)
    (safe : (machine keyPairs).Allowed (State.Safe keyPairs) (.init conf) events) :
    let s := (machine keyPairs).run (.init conf) events
    Settled s → Current keyPairs s := by
  intro s settled
  have follows : Follows keyPairs s :=
    (machine keyPairs).run_invariant (Follows keyPairs) (fun _ _ before now => before.step now)
      (follows_init keyPairs conf) safe
  exact follows.current settled

private def onePair : KeyPairs := fun chain _ => chain.head?.map BitVec.toNat

private def certified (cert : Nat) : TLSConf := ⟨true, 443, [BitVec.ofNat 8 cert], [1]⟩

private def wholeCall (k : Nat) : List Event := [.call k, .call k, .call k]

/-- A renewed certificate arrives while the server serves, and then the program stops. -/
private def renewedAt : List Event :=
  wholeCall 0 ++ List.replicate 6 .loop ++ [.reload (certified 2)] ++ wholeCall 1 ++
    List.replicate 7 .loop

private def stopAt : List Event := List.replicate 3 .close ++ List.replicate 3 .loop

/-- The last call stores only while the loop waits or serves with a server that is shut down. -/
private def Calm (s : State) : Event → Prop
  | .call k => (s.calls[k]?.map Call.step) = some .store → s.calls.length = k + 1 ∧
      (s.loop = .waiting ∨ ∃ id ∈ s.server, s.loop = .serving id ∧ s.isClosed id = true)
  | .loop => ∀ last ∈ s.stored, s.savedPort = last.2.portHTTPS
  | .close => s.loop = .waiting ∨ s.loop = .checking ∨ ∃ id ∈ s.server, s.loop = .serving id
  | _ => True

private instance : ∀ s event, Decidable (Calm s event)
  | _, .call _ => inferInstanceAs (Decidable (_ → _ ∧ (_ ∨ _)))
  | s, .loop => inferInstanceAs (Decidable (∀ last ∈ s.stored, _))
  | _, .close => inferInstanceAs (Decidable (_ ∨ _ ∨ _))
  | _, .configure _ | _, .reload _ | _, .save => .isTrue trivial

private theorem safe_of_calm (s : State) (event : Event) (calm : Calm s event) :
    s.Safe onePair event := by
  cases event with
  | call k =>
    intro call found stores
    obtain ⟨last, idle⟩ := calm (by rw [found, Option.map_some, stores])
    refine ⟨?_, fun _ => ?_⟩
    · intro j later less there
      rw [List.getElem?_eq_none (by omega)] at there
      cases there
    · rcases idle with waits | ⟨id, _, serves, closed⟩
      · simp [State.Agrees, waits]
      · simp [State.Agrees, serves, closed]
  | loop => exact fun _ _ k conf stored => calm _ stored
  | close =>
    intro _ creates
    rcases calm with here | here | ⟨id, _, here⟩ <;> simp [State.Creates, here] at creates
  | configure conf => trivial
  | reload conf => trivial
  | save => trivial

theorem safe_runs_are_current_renewed :
    (Current onePair ((machine onePair).run (.init (certified 1)) renewedAt) ∧
      ((machine onePair).run (.init (certified 1)) renewedAt).loop = .serving 1) ∧
    Current onePair ((machine onePair).run (.init (certified 1)) (renewedAt ++ stopAt)) ∧
      ((machine onePair).run (.init (certified 1)) (renewedAt ++ stopAt)).closing = .closed := by
  have safe : ∀ events, (machine onePair).Allowed Calm (.init (certified 1)) events →
      (machine onePair).Allowed (State.Safe onePair) (.init (certified 1)) events :=
    fun _ calm => (machine onePair).allowed_imp safe_of_calm calm
  refine ⟨⟨?renewed, by decide +kernel⟩, ?stopped, by decide +kernel⟩
  case renewed =>
    apply safe_runs_are_current onePair (certified 1) renewedAt (safe _ (by decide +kernel))
    exact ⟨by decide +kernel, by decide +kernel, by decide +kernel, by decide +kernel,
      .inr (.inl ⟨1, by decide +kernel, by decide +kernel⟩)⟩
  case stopped =>
    apply safe_runs_are_current onePair (certified 1) _ (safe _ (by decide +kernel))
    exact ⟨by decide +kernel, by decide +kernel, by decide +kernel, by decide +kernel,
      .inr (.inr (by decide +kernel))⟩

/-- A renewed certificate that arrives while the server object is made is never used. -/
private def renewal : List Event :=
  wholeCall 0 ++ List.replicate 4 .loop ++ [.reload (certified 2)] ++ wholeCall 1 ++
    List.replicate 2 .loop

theorem renewed_certificate_is_missed :
    ¬ ∀ (keyPairs : KeyPairs) (conf : TLSConf) (events : List Event),
      Settled ((machine keyPairs).run (.init conf) events) →
        Current keyPairs ((machine keyPairs).run (.init conf) events) := by
  intro claim
  have settled : Settled ((machine onePair).run (.init (certified 1)) renewal) :=
    ⟨by decide +kernel, by decide +kernel, by decide +kernel, by decide +kernel,
      .inr (.inl ⟨0, by decide +kernel, by decide +kernel⟩)⟩
  have current := claim onePair (certified 1) renewal settled
  have server := current.server (by decide +kernel) 0 (by decide +kernel)
  revert server
  decide +kernel

end HTTPSServer

end AdGuardHome.Home
