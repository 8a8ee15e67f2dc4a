import AdGuardHome.Lib.Machine
import AdGuardHome.Strings

/-! Package `telebot`: starting and stopping the bot, and its goroutines. The loops of several
starts share the running flag and the field with the context. -/
namespace AdGuardHome.Telebot

open Strings

/-- `Config`, with the fields that starting the bot and its report read. -/
structure Config where
  enabled : Bool
  botToken : Bytes
  adminChatID : Bytes
  notifyDailyReport : Bool
deriving DecidableEq

/-- The check that `Start` and `UpdateConfig` make. -/
def Config.usable (conf : Config) : Bool := conf.enabled && trimSpace conf.botToken != []

/-- An update of Telegram, by whether it has a text and whether it has the data of a button. -/
structure Update where
  updateID : Int
  message : Bool
  callbackQuery : Bool
deriving DecidableEq

/-- A goroutine that a loop starts for an update. -/
inductive Handler where
  | incomingMessage (updateID : Int)
  | callbackQuery (updateID : Int)
deriving DecidableEq

def Handler.updateID : Handler → Int
  | .incomingMessage updateID | .callbackQuery updateID => updateID

def Update.handlers (update : Update) : List Handler :=
  (if update.message then [.incomingMessage update.updateID] else []) ++
    if update.callbackQuery then [.callbackQuery update.updateID] else []

def maxInt64 : Int := 2 ^ 63 - 1

/-- The offset after an update, an `int64`. -/
def Update.next (update : Update) : Int :=
  if update.updateID = maxInt64 then -(2 ^ 63) else update.updateID + 1

/-- Where `pollLoop` is: before it looks at the running flag, with the sleeps after an error;
before it makes the request; waiting for the response to a request with some context; starting
the handlers of the updates; or gone. -/
inductive Place where
  | top
  | checked
  | request (ctx : Nat)
  | dispatch (updates : List Update)
  | ended
deriving DecidableEq

structure PollLoop where
  offset : Int
  place : Place
deriving DecidableEq

/-- A loop that cannot take part in what a restart begins: it has ended, or it is in a request. -/
def PollLoop.Left (loop : PollLoop) : Prop :=
  match loop.place with
  | .ended | .request _ => True
  | _ => False

instance (loop : PollLoop) : Decidable (PollLoop.Left loop) := by
  unfold PollLoop.Left
  split <;> infer_instance

/-- Where `dailyReportScheduler` is: before its `select` or in it, with the context of then. -/
inductive Scheduler where
  | top
  | select (ctx : Nat)
  | ended
deriving DecidableEq

/-- How a request for updates ends. -/
inductive Response where
  | canceled
  | failed
  | updates (updates : List Update)
deriving DecidableEq

/-- `Bot`, with its goroutines and the calls in progress. The contexts are counted from one, and
`ctx` is the last. A call of `Start` in `getMe` is known by the context it made, a call of
`UpdateConfig` before it stores its configuration by that, and `restarts` counts those that have
yet to call `Start`. The handlers started so far are in `dispatched` with the number of their
loop, `failed` is set where the running flag is left of a call of `Start` that failed, and
`silent` once a call has returned no error though nothing polls or is about to. -/
structure Bot where
  conf : Config
  ctx : Nat
  cancelled : List Nat
  running : Bool
  connected : Bool
  starts : List Nat
  stores : List Config
  restarts : Nat
  loops : List PollLoop
  schedulers : List Scheduler
  reports : Nat
  dispatched : List (Nat × Handler)
  failed : Bool
  silent : Bool

namespace Bot

/-- A call or a step of a goroutine. -/
inductive Event where
  | start
  | getMe (call : Nat) (succeeds : Bool)
  | stop
  | updateConfig (newConf : Config)
  | store (call : Nat)
  | restart
  | check (loop : Nat)
  | request (loop : Nat) (made : Bool)
  | respond (loop : Nat) (response : Response)
  | dispatch (loop : Nat)
  | select (scheduler : Nat)
  | tick (scheduler : Nat) (due : Bool)
  | done (scheduler : Nat)
deriving DecidableEq

/-- `NewBot`. -/
def new (conf : Config) : Bot where
  conf := conf
  ctx := 0
  cancelled := []
  running := false
  connected := false
  starts := []
  stores := []
  restarts := 0
  loops := []
  schedulers := []
  reports := 0
  dispatched := []
  failed := false
  silent := false

/-- A loop that goes on polling as things are: it is in a request that has not been cancelled, or
it will find the running flag. -/
def Going (s : Bot) (loop : PollLoop) : Prop :=
  match loop.place with
  | .ended => False
  | .request ctx => ctx ∉ s.cancelled
  | _ => s.running = true

instance (s : Bot) (loop : PollLoop) : Decidable (s.Going loop) :=
  match place : loop.place with
  | .ended => .isFalse (by simp [Going, place])
  | .request ctx => decidable_of_iff (ctx ∉ s.cancelled) (by simp [Going, place])
  | .top => decidable_of_iff (s.running = true) (by simp [Going, place])
  | .checked => decidable_of_iff (s.running = true) (by simp [Going, place])
  | .dispatch _ => decidable_of_iff (s.running = true) (by simp [Going, place])

def Quiet (s : Bot) : Prop := ∀ loop ∈ s.loops, ¬s.Going loop

instance (s : Bot) : Decidable s.Quiet := inferInstanceAs (Decidable (∀ loop ∈ s.loops, _))

/-- `Bot.Start`, up to `getMe`. -/
def start (s : Bot) : Bot :=
  if s.running then { s with silent := s.silent || decide (s.ctx ∉ s.starts ∧ s.Quiet) }
  else if !s.conf.usable then s
  else
    { s with
      ctx := s.ctx + 1
      running := true
      starts := (s.ctx + 1) :: s.starts
      failed := false }

/-- The rest of `Bot.Start`. -/
def getMe (s : Bot) (call : Nat) (succeeds : Bool) : Bot :=
  if call ∉ s.starts then s
  else if succeeds then
    { s with
      starts := s.starts.erase call
      connected := true
      loops := s.loops ++ [⟨0, .top⟩]
      schedulers := s.schedulers ++ [.top] }
  else
    { s with
      starts := s.starts.erase call
      connected := false
      failed := s.failed || (s.running && decide (call = s.ctx)) }

/-- `Bot.Stop`. -/
def stop (s : Bot) : Bot :=
  if !s.running then s
  else
    { s with
      running := false
      connected := false
      cancelled := s.ctx :: s.cancelled
      failed := false }

/-- `Bot.UpdateConfig`, up to where it has stopped the bot. -/
def updateConfig (s : Bot) (newConf : Config) : Bot :=
  { s.stop with stores := s.stop.stores ++ [newConf] }

/-- `UpdateConfig` stores the configuration, and returns if it does not start the bot. -/
def store (s : Bot) (call : Nat) : Bot :=
  match s.stores[call]? with
  | none => s
  | some newConf =>
    { s with
      conf := newConf
      stores := s.stores.eraseIdx call
      restarts := if newConf.usable then s.restarts + 1 else s.restarts }

/-- `UpdateConfig` calls `Start`. -/
def restart (s : Bot) : Bot :=
  if s.restarts = 0 then s else { s with restarts := s.restarts - 1 }.start

/-- `pollLoop` looks at the running flag. -/
def check (s : Bot) (loop : PollLoop) : PollLoop :=
  match loop.place with
  | .top => { loop with place := if s.running then .checked else .ended }
  | _ => loop

/-- `pollLoop` makes its request, or sleeps if that cannot be made. -/
def request (s : Bot) (made : Bool) (loop : PollLoop) : PollLoop :=
  match loop.place with
  | .checked => { loop with place := if made then .request s.ctx else .top }
  | _ => loop

/-- The request ends. That of a context that is not cancelled does not end so, and Telegram sends
no updates below the offset. -/
def respond (s : Bot) (response : Response) (loop : PollLoop) : PollLoop :=
  match loop.place, response with
  | .request ctx, .canceled => if ctx ∈ s.cancelled then { loop with place := .ended } else loop
  | .request _, .failed => { loop with place := .top }
  | .request _, .updates updates =>
    if ∀ update ∈ updates, loop.offset ≤ update.updateID then
      { loop with place := .dispatch updates }
    else loop
  | _, _ => loop

/-- `pollLoop` goes on to the next update of the response. -/
def proceed (loop : PollLoop) : PollLoop :=
  match loop.place with
  | .dispatch [] => { loop with place := .top }
  | .dispatch (update :: rest) => { offset := update.next, place := .dispatch rest }
  | _ => loop

/-- The handlers that `proceed` starts. -/
def handlers (loop : PollLoop) : List Handler :=
  match loop.place with
  | .dispatch (update :: _) => update.handlers
  | _ => []

/-- `dailyReportScheduler` comes to its `select`. -/
def select (s : Bot) : Scheduler → Scheduler
  | .top => .select s.ctx
  | place => place

def reporting (s : Bot) : Bool :=
  s.running && s.conf.enabled && s.conf.notifyDailyReport && s.conf.adminChatID != []

def tick (s : Bot) (scheduler : Nat) (due : Bool) : Bot :=
  match s.schedulers[scheduler]? with
  | some (.select _) =>
    { s with
      schedulers := s.schedulers.set scheduler .top
      reports := if s.reporting && due then s.reports + 1 else s.reports }
  | _ => s

def done (s : Bot) : Scheduler → Scheduler
  | .select ctx => if ctx ∈ s.cancelled then .ended else .select ctx
  | place => place

def onLoop (s : Bot) (loop : Nat) (change : PollLoop → PollLoop) : Bot :=
  { s with loops := s.loops.modify loop change }

def step (s : Bot) : Event → Bot
  | .start => s.start
  | .getMe call succeeds => s.getMe call succeeds
  | .stop => s.stop
  | .updateConfig newConf => s.updateConfig newConf
  | .store call => s.store call
  | .restart => s.restart
  | .check loop => s.onLoop loop s.check
  | .request loop made => s.onLoop loop (s.request made)
  | .respond loop response => s.onLoop loop (s.respond response)
  | .dispatch loop =>
    { s.onLoop loop proceed with
      dispatched := s.dispatched ++
        ((s.loops[loop]?.map handlers).getD []).map (loop, ·) }
  | .select scheduler => { s with schedulers := s.schedulers.modify scheduler s.select }
  | .tick scheduler due => s.tick scheduler due
  | .done scheduler => { s with schedulers := s.schedulers.modify scheduler s.done }

def machine : Transition.Machine Bot Event PUnit.{1} := ⟨fun s event => (s.step event, ⟨⟩)⟩

/-- At most one loop goes on polling, and none of a bot that is stopped or disabled; no handler is
started twice; where the bot runs, and the call that started it has got the answer of `getMe` and
no error, a loop goes on; and no call of `Start` has returned as if it polled. -/
structure OnePoller (s : Bot) : Prop where
  one : ∀ (i j : Nat) (first second : PollLoop), s.loops[i]? = some first → s.loops[j]? = some second →
    s.Going first → s.Going second → i = j
  none : ∀ loop ∈ s.loops, s.Going loop → s.running = true ∧ s.conf.usable = true
  once : (s.dispatched.map Prod.snd).Nodup
  polls : s.running = true → s.ctx ∉ s.starts → s.failed = false → ∃ loop ∈ s.loops, s.Going loop
  heard : s.silent = false

/-- The bot runs, and a loop goes on or the call that started it waits for the answer of `getMe`. -/
def Begun (s : Bot) : Prop :=
  s.running = true ∧ (s.ctx ∈ s.starts ∨ ∃ loop ∈ s.loops, s.Going loop)

/-- What an event has done once it is over. A stop leaves nothing that goes on; a configuration
that is updated stops the bot, is stored, and has the bot started if it allows that; a start of a
bot that is allowed to run has it run; and a loop goes on once `getMe` has succeeded, until it
finds the bot stopped or its request cancelled. -/
def Does (s : Bot) (event : Event) : Prop :=
  match event, s.step event with
  | .start, next => s.conf.usable = true → next.Begun
  | .restart, next => s.restarts ≠ 0 → s.conf.usable = true → next.Begun
  | .getMe call true, next => call ∈ s.starts → s.running = true →
      next.running = true ∧ ∃ loop ∈ next.loops, next.Going loop
  | .stop, next => next.running = false ∧ next.Quiet
  | .updateConfig newConf, next =>
    next.running = false ∧ next.Quiet ∧ next.stores = s.stores ++ [newConf]
  | .store call, next => ∀ newConf, s.stores[call]? = some newConf → next.conf = newConf ∧
      next.restarts = s.restarts + if newConf.usable then 1 else 0
  | .check k, next => ∀ loop, s.loops[k]? = some loop → loop.place = .top → s.running = false →
      next.loops[k]? = some { loop with place := .ended }
  | .respond k .canceled, next => ∀ loop ctx, s.loops[k]? = some loop → loop.place = .request ctx →
      ctx ∈ s.cancelled → next.loops[k]? = some { loop with place := .ended }
  | _, _ => True

/-- A call of `UpdateConfig` with nothing between its steps, and with an answer of `getMe`. -/
def reconfigure (s : Bot) (newConf : Config) : List Event :=
  [.updateConfig newConf, .store s.stores.length, .restart, .getMe (s.ctx + 1) true]

/-- A call of `Start` that finds the flag unset also finds each loop gone or in its request, which
has been cancelled, and the flag it finds set is not left of a failed call. -/
def StartsClean (s : Bot) : Prop :=
  if s.running then s.failed = false
  else s.conf.usable = true → ∀ loop ∈ s.loops, PollLoop.Left loop

instance (s : Bot) : Decidable s.StartsClean := by
  unfold StartsClean
  infer_instance

/-- The ids of a response increase, and there is one above each. -/
def InOrder (updates : List Update) : Prop :=
  (updates.Pairwise fun a b => a.updateID < b.updateID) ∧
    ∀ update ∈ updates, update.updateID < maxInt64

instance (updates : List Update) : Decidable (InOrder updates) :=
  inferInstanceAs (Decidable (_ ∧ _))

/-- A cancelled request ends as such, unless the bot is stopped. -/
def RespondsClean (s : Bot) (response : Response) (loop : PollLoop) : Prop :=
  match loop.place, response with
  | .request _, .canceled => True
  | .request ctx, .failed => ctx ∈ s.cancelled → s.running = false
  | .request ctx, .updates updates => (ctx ∈ s.cancelled → s.running = false) ∧ InOrder updates
  | _, _ => True

instance (s : Bot) (response : Response) (loop : PollLoop) :
    Decidable (s.RespondsClean response loop) := by
  unfold RespondsClean
  split <;> infer_instance

/-- What no step may run into: a start while an earlier loop is between two requests, or after a
failed start; an answer to `getMe` after the bot was stopped and started again; a configuration
that is stored after another start and does not allow one; a cancelled request that ends
otherwise when the bot runs again; and an update that another loop has handled. -/
def Clean (s : Bot) : Event → Prop
  | .start => s.StartsClean
  | .restart => s.restarts ≠ 0 → s.StartsClean
  | .getMe call succeeds => call ∈ s.starts → succeeds = true → s.running = true → call = s.ctx
  | .store call => ∀ newConf, s.stores[call]? = some newConf → s.running = true →
      newConf.usable = true
  | .respond loop response => ∀ found, s.loops[loop]? = some found → s.RespondsClean response found
  | .dispatch loop => ∀ found, s.loops[loop]? = some found → ∀ handler ∈ handlers found,
      ∀ earlier ∈ s.dispatched, earlier.2.updateID = handler.updateID → earlier.1 = loop
  | _ => True

instance (s : Bot) (event : Event) : Decidable (s.Clean event) := by
  unfold Clean
  split <;> infer_instance

end Bot

end AdGuardHome.Telebot

namespace AdGuardHome.Telebot.Bot

variable {s : Bot}

/-- Every context but the last is cancelled, and that one as soon as the bot is stopped. -/
structure Contexts (s : Bot) : Prop where
  running : s.running = true → 1 ≤ s.ctx ∧ s.conf.usable = true
  old : ∀ n, 1 ≤ n → n < s.ctx → n ∈ s.cancelled
  current : 1 ≤ s.ctx → (s.ctx ∈ s.cancelled ↔ s.running = false)
  known : ∀ n ∈ s.cancelled, n ≤ s.ctx
  requests : ∀ loop ∈ s.loops, 1 ≤ s.ctx ∧ ∀ n, loop.place = .request n → 1 ≤ n ∧ n ≤ s.ctx
  starts : ∀ n ∈ s.starts, 1 ≤ n ∧ n ≤ s.ctx
  distinct : s.starts.Nodup

/-- What has come of the last start. -/
inductive Phase (s : Bot) : Prop where
  | stopped (running : s.running = false)
  | starting (running : s.running = true) (waits : s.ctx ∈ s.starts) (failed : s.failed = false)
      (quiet : s.Quiet)
  | failed (running : s.running = true) (answered : s.ctx ∉ s.starts) (failed : s.failed = true)
      (quiet : s.Quiet)
  | polling (running : s.running = true) (answered : s.ctx ∉ s.starts) (failed : s.failed = false)
      (index : Nat) (loop : PollLoop) (found : s.loops[index]? = some loop)
      (going : s.Going loop)
      (only : ∀ (other : Nat) (loop : PollLoop), s.loops[other]? = some loop → s.Going loop →
        other = index)

/-- A loop has started only the handlers of updates below its offset, and those that it has still
to start come in the order of their ids, from the offset on. -/
structure Handled (s : Bot) : Prop where
  below : ∀ entry ∈ s.dispatched, ∃ loop, s.loops[entry.1]? = some loop ∧
    entry.2.updateID < loop.offset
  pending : ∀ loop ∈ s.loops, ∀ updates, loop.place = .dispatch updates →
    InOrder updates ∧ ∀ update ∈ updates, loop.offset ≤ update.updateID
  once : (s.dispatched.map Prod.snd).Nodup

structure Consistent (s : Bot) : Prop where
  contexts : s.Contexts
  phase : s.Phase
  handled : s.Handled
  heard : s.silent = false

theorem getElem?_onLoop (k : Nat) (change : PollLoop → PollLoop) (j : Nat) :
    (s.onLoop k change).loops[j]? =
      (s.loops[j]?).map fun loop => if k = j then change loop else loop :=
  List.getElem?_modify change k s.loops j

theorem mem_onLoop {k : Nat} {change : PollLoop → PollLoop} {loop : PollLoop}
    (member : loop ∈ (s.onLoop k change).loops) :
    loop ∈ s.loops ∨ ∃ found, s.loops[k]? = some found ∧ loop = change found := by
  obtain ⟨j, here⟩ := List.mem_iff_getElem?.mp member
  rw [getElem?_onLoop] at here
  obtain ⟨found, there, same⟩ := Option.map_eq_some_iff.mp here
  split at same
  next index =>
    subst index
    exact .inr ⟨found, there, same.symm⟩
  next => exact .inl (same ▸ List.mem_of_getElem? there)

theorem Contexts.quiet (contexts : s.Contexts) (stopped : s.running = false) : s.Quiet := by
  intro loop member going
  obtain ⟨made, requests⟩ := contexts.requests loop member
  unfold Going at going
  split at going
  next => exact going
  next n waits =>
    obtain ⟨positive, bound⟩ := requests n waits
    apply going
    rcases Nat.lt_or_eq_of_le bound with earlier | last
    · exact contexts.old n positive earlier
    · rw [last]
      exact (contexts.current made).mpr stopped
  next => exact nomatch stopped.symm.trans going

theorem Contexts.running_of_going (contexts : s.Contexts) {loop : PollLoop}
    (member : loop ∈ s.loops) (going : s.Going loop) : s.running = true := by
  cases running : s.running with
  | true => rfl
  | false => exact absurd going (contexts.quiet running loop member)

theorem Consistent.onePoller (consistent : s.Consistent) : s.OnePoller where
  one := by
    intro i j first second here there goes alsoGoes
    have never : ∀ {P : Prop}, s.Quiet → P := fun quiet =>
      absurd goes (quiet first (List.mem_of_getElem? here))
    cases consistent.phase with
    | stopped running => exact never (consistent.contexts.quiet running)
    | starting running waits failed quiet => exact never quiet
    | failed running answered failed quiet => exact never quiet
    | polling running answered failed index loop found going only =>
      exact (only i first here goes).trans (only j second there alsoGoes).symm
  none := by
    intro loop member going
    have running := consistent.contexts.running_of_going member going
    exact ⟨running, (consistent.contexts.running running).2⟩
  once := consistent.handled.once
  polls := by
    intro running answered failed
    cases consistent.phase with
    | stopped stopped => exact nomatch running.symm.trans stopped
    | starting _ waits _ _ => exact absurd waits answered
    | failed _ _ left _ => exact nomatch failed.symm.trans left
    | polling _ _ _ index loop found going only =>
      exact ⟨loop, List.mem_of_getElem? found, going⟩
  heard := consistent.heard

theorem Phase.onLoop (phase : s.Phase) (k : Nat) (change : PollLoop → PollLoop)
    (same : ∀ found, s.loops[k]? = some found → (s.Going (change found) ↔ s.Going found)) :
    (s.onLoop k change).Phase := by
  have going : ∀ (j : Nat) (loop : PollLoop), (s.onLoop k change).loops[j]? = some loop →
      (s.onLoop k change).Going loop → ∃ before, s.loops[j]? = some before ∧ s.Going before := by
    intro j loop here goes
    rw [getElem?_onLoop] at here
    obtain ⟨before, there, made⟩ := Option.map_eq_some_iff.mp here
    refine ⟨before, there, ?_⟩
    split at made
    next index =>
      subst index
      subst made
      exact (same before there).mp goes
    next =>
      subst made
      exact goes
  have quiet : s.Quiet → (s.onLoop k change).Quiet := by
    intro quiet loop member goes
    obtain ⟨j, here⟩ := List.mem_iff_getElem?.mp member
    obtain ⟨before, there, went⟩ := going j loop here goes
    exact quiet before (List.mem_of_getElem? there) went
  cases phase with
  | stopped running => exact .stopped running
  | starting running waits failed silent => exact .starting running waits failed (quiet silent)
  | failed running answered failed silent => exact .failed running answered failed (quiet silent)
  | polling running answered failed index loop found goes only =>
    have still : s.Going (if k = index then change loop else loop) := by
      split
      next at_index =>
        subst at_index
        exact (same loop found).mpr goes
      next => exact goes
    refine .polling running answered failed index _ ?_ still ?_
    · rw [getElem?_onLoop, found]
      rfl
    · intro other later here alsoGoes
      obtain ⟨before, there, went⟩ := going other later here alsoGoes
      exact only other before there went

theorem Contexts.onLoop (contexts : s.Contexts) (k : Nat) (change : PollLoop → PollLoop)
    (requests : ∀ found, s.loops[k]? = some found → ∀ n, (change found).place = .request n →
      found.place = .request n ∨ n = s.ctx) : (s.onLoop k change).Contexts where
  running := contexts.running
  old := contexts.old
  current := contexts.current
  known := contexts.known
  starts := contexts.starts
  distinct := contexts.distinct
  requests := by
    intro loop member
    rcases mem_onLoop member with before | ⟨found, here, rfl⟩
    · exact contexts.requests loop before
    · obtain ⟨made, bounds⟩ := contexts.requests found (List.mem_of_getElem? here)
      refine ⟨made, ?_⟩
      intro n waits
      rcases requests found here n waits with before | current
      · exact bounds n before
      · rw [current]
        exact ⟨made, Nat.le_refl _⟩

/-- Where one loop changes that starts no handlers. -/
theorem Handled.onLoop (handled : s.Handled) (k : Nat) (change : PollLoop → PollLoop)
    (offset : ∀ found, s.loops[k]? = some found → found.offset ≤ (change found).offset)
    (pending : ∀ found, s.loops[k]? = some found → ∀ updates,
      (change found).place = .dispatch updates →
      InOrder updates ∧ ∀ update ∈ updates, (change found).offset ≤ update.updateID) :
    (s.onLoop k change).Handled where
  once := handled.once
  below := by
    intro entry member
    obtain ⟨loop, found, low⟩ := handled.below entry member
    rw [getElem?_onLoop, found]
    refine ⟨_, rfl, ?_⟩
    split
    next index =>
      subst index
      exact Int.lt_of_lt_of_le low (offset loop found)
    next => exact low
  pending := by
    intro loop member
    rcases mem_onLoop member with before | ⟨found, here, rfl⟩
    · exact handled.pending loop before
    · exact pending found here

/-- What neither the loops nor the starts look at may change, and the configuration to another that
allows the bot to run. -/
theorem Consistent.aside (consistent : s.Consistent) (conf : Config) (stores : List Config)
    (restarts : Nat) (schedulers : List Scheduler) (reports : Nat)
    (usable : s.running = true → conf.usable = true) :
    Consistent { s with conf, stores, restarts, schedulers, reports } := by
  obtain ⟨⟨running, old, current, known, requests, starts, distinct⟩, phase, ⟨below, pending, once⟩,
    heard⟩ := consistent
  refine ⟨⟨?_, old, current, known, requests, starts, distinct⟩, ?_, ⟨below, pending, once⟩, heard⟩
  · exact fun runs => ⟨(running runs).1, usable runs⟩
  · cases phase with
    | stopped running => exact .stopped running
    | starting running waits failed quiet => exact .starting running waits failed quiet
    | failed running answered failed quiet => exact .failed running answered failed quiet
    | polling running answered failed index loop found going only =>
      exact .polling running answered failed index loop found going only

/-- One loop may come to another place, if it dispatches nothing there and goes on as before; a
request it makes is one of the last start. -/
theorem Consistent.moved (consistent : s.Consistent) (k : Nat) (change : PollLoop → PollLoop)
    (moves : ∀ found, s.loops[k]? = some found → change found = found ∨
      ∃ place, change found = { found with place } ∧ (∀ updates, place ≠ .dispatch updates) ∧
        (∀ n, place = .request n → n = s.ctx) ∧
        (s.Going { found with place } ↔ s.Going found)) : (s.onLoop k change).Consistent where
  contexts := by
    apply consistent.contexts.onLoop
    intro found here n waits
    rcases moves found here with same | ⟨place, made, _, requests, _⟩
    · exact .inl (same ▸ waits)
    · rw [made] at waits
      exact .inr (requests n waits)
  phase := by
    apply consistent.phase.onLoop
    intro found here
    rcases moves found here with same | ⟨place, made, _, _, going⟩
    · rw [same]
    · rw [made]
      exact going
  handled := by
    apply consistent.handled.onLoop
    · intro found here
      rcases moves found here with same | ⟨place, made, _⟩
      · rw [same]
      · rw [made]
    · intro found here updates dispatches
      rcases moves found here with same | ⟨place, made, silent, _⟩
      · rw [same] at dispatches ⊢
        exact consistent.handled.pending found (List.mem_of_getElem? here) updates dispatches
      · rw [made] at dispatches
        exact absurd dispatches (silent updates)
  heard := consistent.heard

theorem Consistent.check (consistent : s.Consistent) (k : Nat) :
    (s.onLoop k s.check).Consistent := by
  apply consistent.moved
  intro found _
  unfold Bot.check
  split
  next top =>
    right
    cases running : s.running with
    | true => exact ⟨.checked, rfl, nofun, nofun, by simp [Going, top, running]⟩
    | false => exact ⟨.ended, rfl, nofun, nofun, by simp [Going, top, running]⟩
  next => exact .inl rfl

theorem Consistent.request (consistent : s.Consistent) (k : Nat) (made : Bool) :
    (s.onLoop k (s.request made)).Consistent := by
  apply consistent.moved
  intro found here
  have last := consistent.contexts.current
    (consistent.contexts.requests found (List.mem_of_getElem? here)).1
  unfold Bot.request
  split
  next checked =>
    right
    cases made with
    | true =>
      refine ⟨.request s.ctx, rfl, nofun, ?_, by simp [Going, checked, last]⟩
      exact fun n same => (Place.request.inj same).symm
    | false => exact ⟨.top, rfl, nofun, nofun, by simp [Going, checked]⟩
  next => exact .inl rfl

/-- A request that has not been cancelled is one of a bot that runs. -/
theorem Contexts.running_of_request (contexts : s.Contexts) {loop : PollLoop}
    (member : loop ∈ s.loops) {n : Nat} (waits : loop.place = .request n)
    (clean : n ∈ s.cancelled → s.running = false) : n ∉ s.cancelled ↔ s.running = true := by
  constructor
  · intro active
    apply contexts.running_of_going member
    unfold Going
    rw [waits]
    exact active
  · intro running cancelled
    exact nomatch running.symm.trans (clean cancelled)

theorem Consistent.respond (consistent : s.Consistent) (k : Nat) (response : Response)
    (clean : s.Clean (.respond k response)) : (s.onLoop k (s.respond response)).Consistent where
  contexts := by
    apply consistent.contexts.onLoop
    intro found here n waits
    left
    unfold Bot.respond at waits
    split at waits
    · split at waits
      · exact nomatch waits
      · exact waits
    · exact nomatch waits
    · split at waits
      · exact nomatch waits
      · exact waits
    · exact waits
  phase := by
    apply consistent.phase.onLoop
    intro found here
    have here_clean := clean found here
    have member := List.mem_of_getElem? here
    unfold Bot.respond
    split
    next ctx waits =>
      split
      next cancelled => simp [Going, waits, cancelled]
      next => exact Iff.rfl
    next ctx waits =>
      unfold RespondsClean at here_clean
      simp only [waits] at here_clean
      have same := consistent.contexts.running_of_request member waits here_clean
      simp only [Going, waits]
      exact same.symm
    next ctx updates waits =>
      split
      next =>
        unfold RespondsClean at here_clean
        simp only [waits] at here_clean
        have same := consistent.contexts.running_of_request member waits here_clean.1
        simp only [Going, waits]
        exact same.symm
      next => exact Iff.rfl
    next => exact Iff.rfl
  handled := by
    apply consistent.handled.onLoop
    · intro found here
      unfold Bot.respond
      split
      · split <;> exact Int.le_refl _
      · exact Int.le_refl _
      · split <;> exact Int.le_refl _
      · exact Int.le_refl _
    · intro found here updates dispatches
      have here_clean := clean found here
      have before := consistent.handled.pending found (List.mem_of_getElem? here)
      revert dispatches
      unfold Bot.respond
      split
      next ctx waits =>
        split
        · exact fun dispatches => nomatch dispatches
        · exact before updates
      next ctx waits => exact fun dispatches => nomatch dispatches
      next ctx sent waits =>
        split
        next above =>
          intro dispatches
          have same : sent = updates := Place.dispatch.inj dispatches
          subst same
          unfold RespondsClean at here_clean
          simp only [waits] at here_clean
          exact ⟨here_clean.2, above⟩
        next => exact before updates
      next => exact before updates
  heard := consistent.heard

theorem updateID_of_mem_handlers {update : Update} {handler : Handler}
    (member : handler ∈ update.handlers) : handler.updateID = update.updateID := by
  unfold Update.handlers at member
  rcases List.mem_append.mp member with first | second
  · split at first
    · rw [List.mem_singleton.mp first]
      rfl
    · exact nomatch first
  · split at second
    · rw [List.mem_singleton.mp second]
      rfl
    · exact nomatch second

theorem nodup_handlers (update : Update) : update.handlers.Nodup := by
  cases text : update.message with
  | true =>
    cases data : update.callbackQuery with
    | true => simp [Update.handlers, text, data]
    | false => simp [Update.handlers, text, data]
  | false =>
    cases data : update.callbackQuery with
    | true => simp [Update.handlers, text, data]
    | false => simp [Update.handlers, text, data]

theorem next_eq {update : Update} (below : update.updateID < maxInt64) :
    update.next = update.updateID + 1 := if_neg (Int.ne_of_lt below)

/-- The first of the updates that a loop has still to handle, and the rest. -/
theorem Handled.first (handled : s.Handled) {loop : PollLoop} (member : loop ∈ s.loops)
    {update : Update} {rest : List Update} (place : loop.place = .dispatch (update :: rest)) :
    loop.offset ≤ update.updateID ∧ update.next = update.updateID + 1 ∧ InOrder rest ∧
      ∀ later ∈ rest, update.updateID + 1 ≤ later.updateID := by
  obtain ⟨⟨increasing, bounded⟩, above⟩ := handled.pending loop member _ place
  obtain ⟨first, others⟩ := List.pairwise_cons.mp increasing
  refine ⟨above update List.mem_cons_self, next_eq (bounded update List.mem_cons_self), ?_, first⟩
  exact ⟨others, fun later member => bounded later (List.mem_cons_of_mem _ member)⟩

theorem Handled.proceed (handled : s.Handled) (k : Nat) : (s.onLoop k Bot.proceed).Handled := by
  apply handled.onLoop
  · intro found here
    unfold Bot.proceed
    split
    · exact Int.le_refl _
    next update rest place =>
      obtain ⟨above, next, _, _⟩ := handled.first (List.mem_of_getElem? here) place
      dsimp only
      omega
    · exact Int.le_refl _
  · intro found here updates dispatches
    revert dispatches
    unfold Bot.proceed
    split
    · exact fun dispatches => nomatch dispatches
    next update rest place =>
      obtain ⟨_, next, order, above⟩ := handled.first (List.mem_of_getElem? here) place
      intro dispatches
      have same : rest = updates := Place.dispatch.inj dispatches
      subst same
      refine ⟨order, ?_⟩
      rw [next]
      exact above
    next => exact handled.pending found (List.mem_of_getElem? here) updates

/-- The handlers that a loop starts are of an update from its offset on, which it leaves below. -/
theorem Handled.started (handled : s.Handled) {k : Nat} {found : PollLoop}
    (here : s.loops[k]? = some found) {handler : Handler} (member : handler ∈ handlers found) :
    found.offset ≤ handler.updateID ∧ handler.updateID < (Bot.proceed found).offset := by
  unfold handlers at member
  split at member
  next update rest place =>
    obtain ⟨above, next, _, _⟩ := handled.first (List.mem_of_getElem? here) place
    rw [updateID_of_mem_handlers member]
    refine ⟨above, ?_⟩
    simp only [Bot.proceed, place, next]
    exact Int.lt_succ _
  next => exact nomatch member

theorem nodup_handlers_of_loop (loop : PollLoop) : (handlers loop).Nodup := by
  unfold handlers
  split
  · exact nodup_handlers _
  · exact List.nodup_nil

theorem Handled.dispatch (handled : s.Handled) (k : Nat) (clean : s.Clean (.dispatch k)) :
    (s.step (.dispatch k)).Handled := by
  have moved := handled.proceed k
  cases here : s.loops[k]? with
  | none =>
    have same : (s.step (.dispatch k)).dispatched = s.dispatched := by
      simp only [step, here, Option.map_none, Option.getD_none, List.map_nil, List.append_nil]
    refine ⟨?_, moved.pending, ?_⟩
    · rw [same]
      exact moved.below
    · rw [same]
      exact moved.once
  | some found =>
    have started : (s.step (.dispatch k)).dispatched =
        s.dispatched ++ (handlers found).map (k, ·) := by
      simp only [step, here, Option.map_some, Option.getD_some]
    refine ⟨?_, moved.pending, ?_⟩
    · rw [started]
      intro entry member
      rcases List.mem_append.mp member with before | now
      · exact moved.below entry before
      · obtain ⟨handler, starts, rfl⟩ := List.mem_map.mp now
        refine ⟨Bot.proceed found, ?_, (handled.started here starts).2⟩
        exact (getElem?_onLoop k Bot.proceed k).trans (by rw [here]; simp)
    · rw [started, List.map_append, List.map_map]
      have again : (handlers found).map (Prod.snd ∘ (k, ·)) = handlers found := by simp
      rw [again]
      apply List.nodup_append.mpr
      refine ⟨handled.once, nodup_handlers_of_loop found, ?_⟩
      intro earlier before handler starts same
      obtain ⟨entry, member, rfl⟩ := List.mem_map.mp before
      -- Another loop has not handled the update, and this one only those below its offset.
      have own := clean found here handler starts entry member (by rw [same])
      obtain ⟨loop, there, low⟩ := handled.below entry member
      rw [own, here] at there
      obtain rfl := Option.some.inj there
      have above := (handled.started here starts).1
      rw [← same] at above
      exact absurd low (Int.not_lt.mpr above)

theorem Consistent.dispatch (consistent : s.Consistent) (k : Nat)
    (clean : s.Clean (.dispatch k)) : (s.step (.dispatch k)).Consistent := by
  have contexts : (s.onLoop k Bot.proceed).Contexts := by
    apply consistent.contexts.onLoop
    intro found here n waits
    unfold Bot.proceed at waits
    split at waits
    · exact nomatch waits
    · exact nomatch waits
    · exact .inl waits
  have phase : (s.onLoop k Bot.proceed).Phase := by
    apply consistent.phase.onLoop
    intro found here
    unfold Bot.proceed
    split
    next place => simp [Going, place]
    next place => simp [Going, place]
    next => exact Iff.rfl
  refine ⟨⟨contexts.running, contexts.old, contexts.current, contexts.known, contexts.requests,
    contexts.starts, contexts.distinct⟩, ?_, consistent.handled.dispatch k clean, consistent.heard⟩
  cases phase with
  | stopped running => exact .stopped running
  | starting running waits failed quiet => exact .starting running waits failed quiet
  | failed running answered failed quiet => exact .failed running answered failed quiet
  | polling running answered failed index loop found going only =>
    exact .polling running answered failed index loop found going only

theorem Consistent.start_running (consistent : s.Consistent) (running : s.running = true)
    (fresh : s.failed = false) : s.start = s := by
  have busy : ¬(s.ctx ∉ s.starts ∧ s.Quiet) := by
    rintro ⟨answered, quiet⟩
    obtain ⟨loop, member, going⟩ := consistent.onePoller.polls running answered fresh
    exact quiet loop member going
  unfold Bot.start
  rw [if_pos running, decide_eq_false busy, Bool.or_false]

/-- What a stopped bot has left does not go on when it is started with a context of its own. -/
theorem Contexts.quiet_start (contexts : s.Contexts) (stopped : s.running = false)
    (clean : ∀ loop ∈ s.loops, PollLoop.Left loop) (next : Bot) (loops : next.loops = s.loops)
    (cancelled : next.cancelled = s.cancelled) : next.Quiet := by
  intro loop member going
  rw [loops] at member
  have before := contexts.quiet stopped loop member
  have left := clean loop member
  unfold Going at before going
  unfold PollLoop.Left at left
  split at left
  next ended => simp only [ended] at going
  next n waits =>
    simp only [waits, cancelled] at before going
    exact before going
  next => exact left

theorem Consistent.start (consistent : s.Consistent) (clean : s.StartsClean) :
    s.start.Consistent := by
  unfold StartsClean at clean
  cases running : s.running with
  | true =>
    rw [if_pos running] at clean
    rw [consistent.start_running running clean]
    exact consistent
  | false =>
    rw [if_neg (by simp [running])] at clean
    cases usable : s.conf.usable with
    | false =>
      have same : s.start = s := by simp [Bot.start, running, usable]
      rw [same]
      exact consistent
    | true =>
      have made : s.start = { s with
          ctx := s.ctx + 1
          running := true
          starts := (s.ctx + 1) :: s.starts
          failed := false } := by simp [Bot.start, running, usable]
      obtain ⟨_, old, current, known, requests, starts, distinct⟩ := consistent.contexts
      have quiet := consistent.contexts.quiet_start running (clean usable) s.start
        (by rw [made]) (by rw [made])
      rw [made] at quiet ⊢
      refine ⟨⟨?_, ?_, ?_, ?_, ?_, ?_, ?_⟩, ?_, ?_, consistent.heard⟩
      · exact fun _ => ⟨Nat.le_add_left 1 _, usable⟩
      · intro n positive earlier
        rcases Nat.lt_or_eq_of_le (Nat.le_of_lt_succ earlier) with before | last
        · exact old n positive before
        · rw [last]
          exact (current (last ▸ positive)).mpr running
      · intro _
        refine iff_of_false ?_ (by simp)
        intro cancelled
        exact absurd (known _ cancelled) (Nat.not_succ_le_self _)
      · exact fun n cancelled => Nat.le_succ_of_le (known n cancelled)
      · intro loop member
        refine ⟨Nat.le_add_left 1 _, ?_⟩
        intro n waits
        obtain ⟨positive, bound⟩ := (requests loop member).2 n waits
        exact ⟨positive, Nat.le_succ_of_le bound⟩
      · intro n waits
        rcases List.mem_cons.mp waits with new | before
        · rw [new]
          exact ⟨Nat.le_add_left 1 _, Nat.le_refl _⟩
        · exact ⟨(starts n before).1, Nat.le_succ_of_le (starts n before).2⟩
      · apply List.nodup_cons.mpr
        refine ⟨?_, distinct⟩
        intro waits
        exact absurd (starts _ waits).2 (Nat.not_succ_le_self _)
      · exact .starting rfl List.mem_cons_self rfl quiet
      · exact ⟨consistent.handled.below, consistent.handled.pending, consistent.handled.once⟩

theorem Consistent.stop (consistent : s.Consistent) : s.stop.Consistent := by
  unfold Bot.stop
  split
  · exact consistent
  next running =>
    have running : s.running = true := by simpa using running
    obtain ⟨starting, old, current, known, requests, starts, distinct⟩ := consistent.contexts
    refine ⟨⟨?_, ?_, ?_, ?_, requests, starts, distinct⟩, .stopped rfl, ?_, consistent.heard⟩
    · exact fun runs => nomatch runs
    · exact fun n positive earlier => List.mem_cons_of_mem _ (old n positive earlier)
    · exact fun _ => iff_of_true List.mem_cons_self rfl
    · intro n cancelled
      rcases List.mem_cons.mp cancelled with last | before
      · exact Nat.le_of_eq last
      · exact known n before
    · exact ⟨consistent.handled.below, consistent.handled.pending, consistent.handled.once⟩

theorem Contexts.erase (contexts : s.Contexts) (call : Nat) (connected failed : Bool) :
    Contexts { s with starts := s.starts.erase call, connected, failed } where
  running := contexts.running
  old := contexts.old
  current := contexts.current
  known := contexts.known
  requests := contexts.requests
  starts n waits := contexts.starts n (List.mem_of_mem_erase waits)
  distinct := contexts.distinct.erase call

theorem Phase.getMe_fails (phase : s.Phase) (distinct : s.starts.Nodup) {call : Nat}
    (waits : call ∈ s.starts) : (s.getMe call false).Phase := by
  have made : s.getMe call false = { s with
      starts := s.starts.erase call
      connected := false
      failed := s.failed || (s.running && decide (call = s.ctx)) } := by
    simp [getMe, waits]
  rw [made]
  cases phase with
  | stopped running => exact .stopped running
  | starting running starts failed quiet =>
    by_cases last : call = s.ctx
    · refine .failed running ?_ ?_ quiet
      · rw [last]
        exact distinct.not_mem_erase
      · simp [running, last]
    · refine .starting running ?_ ?_ quiet
      · exact (List.mem_erase_of_ne (Ne.symm last)).mpr starts
      · simp [failed, last]
  | failed running answered failed quiet =>
    refine .failed running ?_ ?_ quiet
    · exact fun starts => answered (List.mem_of_mem_erase starts)
    · simp [failed]
  | polling running answered failed index loop found going only =>
    have other : call ≠ s.ctx := fun same => answered (same ▸ waits)
    refine .polling running ?_ ?_ index loop found going only
    · exact fun starts => answered (List.mem_of_mem_erase starts)
    · simp [failed, other]

theorem Phase.getMe_succeeds (phase : s.Phase) (distinct : s.starts.Nodup) {call : Nat}
    (waits : call ∈ s.starts) (clean : s.running = true → call = s.ctx) :
    (s.getMe call true).Phase := by
  have made : s.getMe call true = { s with
      starts := s.starts.erase call
      connected := true
      loops := s.loops ++ [⟨0, .top⟩]
      schedulers := s.schedulers ++ [.top] } := by
    simp [getMe, waits]
  rw [made]
  cases phase with
  | stopped running => exact .stopped running
  | starting running starts failed quiet =>
    have last := clean running
    refine .polling running ?_ failed s.loops.length ⟨0, .top⟩ ?_ running ?_
    · rw [last]
      exact distinct.not_mem_erase
    · simp
    · intro other loop here going
      by_cases before : other < s.loops.length
      · rw [List.getElem?_append_left before] at here
        exact absurd going (quiet loop (List.mem_of_getElem? here))
      · have bound := (List.getElem?_eq_some_iff.mp here).1
        rw [List.length_append, List.length_singleton] at bound
        omega
  | failed running answered failed quiet => exact absurd (clean running ▸ waits) answered
  | polling running answered failed index loop found going only =>
    exact absurd (clean running ▸ waits) answered

theorem Handled.spawn (handled : s.Handled) (call : Nat) : (s.getMe call true).Handled := by
  unfold getMe
  split
  · exact handled
  · rw [if_pos rfl]
    refine ⟨?_, ?_, handled.once⟩
    · intro entry member
      obtain ⟨loop, found, low⟩ := handled.below entry member
      refine ⟨loop, ?_, low⟩
      have bound := (List.getElem?_eq_some_iff.mp found).1
      exact (List.getElem?_append_left bound).trans found
    · intro loop member
      rcases List.mem_append.mp member with before | new
      · exact handled.pending loop before
      · rw [List.mem_singleton.mp new]
        exact fun updates dispatches => nomatch dispatches

theorem Consistent.getMe (consistent : s.Consistent) (call : Nat) (succeeds : Bool)
    (clean : s.Clean (.getMe call succeeds)) : (s.getMe call succeeds).Consistent := by
  have distinct := consistent.contexts.distinct
  by_cases waits : call ∈ s.starts
  · cases succeeds with
    | false =>
      refine ⟨?_, consistent.phase.getMe_fails distinct waits, ?_, ?_⟩
      · simpa [Bot.getMe, waits] using consistent.contexts.erase call false _
      · simp only [Bot.getMe, waits, not_true_eq_false, if_false, Bool.false_eq_true]
        exact ⟨consistent.handled.below, consistent.handled.pending, consistent.handled.once⟩
      · simpa [Bot.getMe, waits] using consistent.heard
    | true =>
      have erased := consistent.contexts.erase call true s.failed
      have made := consistent.contexts.starts call waits
      refine ⟨?_, consistent.phase.getMe_succeeds distinct waits (clean waits rfl),
        consistent.handled.spawn call, ?_⟩
      · simp only [Bot.getMe, waits, not_true_eq_false, if_false, if_true]
        refine ⟨erased.running, erased.old, erased.current, erased.known, ?_, erased.starts,
          erased.distinct⟩
        intro loop member
        rcases List.mem_append.mp member with before | new
        · exact consistent.contexts.requests loop before
        · rw [List.mem_singleton.mp new]
          exact ⟨Nat.le_trans made.1 made.2, fun n waits => nomatch waits⟩
      · simpa [Bot.getMe, waits] using consistent.heard
  · have same : s.getMe call succeeds = s := if_pos waits
    rw [same]
    exact consistent

theorem Consistent.store (consistent : s.Consistent) (call : Nat) (clean : s.Clean (.store call)) :
    (s.store call).Consistent := by
  unfold Bot.store
  split
  · exact consistent
  next newConf found =>
    exact consistent.aside newConf (s.stores.eraseIdx call)
      (if newConf.usable then s.restarts + 1 else s.restarts) s.schedulers s.reports
      (clean newConf found)

theorem Consistent.restart (consistent : s.Consistent) (clean : s.Clean .restart) :
    s.restart.Consistent := by
  unfold Bot.restart
  split
  · exact consistent
  next waits =>
    have aside := consistent.aside s.conf s.stores (s.restarts - 1) s.schedulers s.reports
      fun runs => (consistent.contexts.running runs).2
    exact aside.start (clean waits)

theorem Consistent.step (consistent : s.Consistent) (event : Event) (clean : s.Clean event) :
    (s.step event).Consistent := by
  have usable : s.running = true → s.conf.usable = true :=
    fun runs => (consistent.contexts.running runs).2
  cases event with
  | start => exact consistent.start clean
  | getMe call succeeds => exact consistent.getMe call succeeds clean
  | stop => exact consistent.stop
  | updateConfig newConf =>
    have stopped := consistent.stop
    exact stopped.aside s.stop.conf (s.stop.stores ++ [newConf]) s.stop.restarts s.stop.schedulers
      s.stop.reports fun runs => (stopped.contexts.running runs).2
  | store call => exact consistent.store call clean
  | restart => exact consistent.restart clean
  | check loop => exact consistent.check loop
  | request loop made => exact consistent.request loop made
  | respond loop response => exact consistent.respond loop response clean
  | dispatch loop => exact consistent.dispatch loop clean
  | select scheduler => exact consistent.aside _ _ _ _ _ usable
  | tick scheduler due =>
    unfold Bot.step tick
    dsimp only
    split
    · exact consistent.aside s.conf s.stores s.restarts _ _ usable
    · exact consistent
  | done scheduler => exact consistent.aside _ _ _ _ _ usable

theorem consistent_new (conf : Config) : (new conf).Consistent where
  contexts := by
    refine ⟨?_, ?_, ?_, ?_, ?_, ?_, List.nodup_nil⟩
    · exact fun runs => nomatch runs
    · exact fun n positive earlier => absurd earlier (Nat.not_lt_zero _)
    · exact fun made => absurd made (Nat.not_succ_le_zero _)
    · exact fun n cancelled => nomatch cancelled
    · exact fun loop member => nomatch member
    · exact fun n waits => nomatch waits
  phase := .stopped rfl
  handled := ⟨fun _ member => (nomatch member), fun _ member => (nomatch member), List.nodup_nil⟩
  heard := rfl

theorem Consistent.begun (consistent : s.Consistent) (running : s.running = true)
    (failed : s.failed = false) : s.Begun := by
  refine ⟨running, ?_⟩
  cases consistent.phase with
  | stopped stopped => exact nomatch running.symm.trans stopped
  | starting _ waits _ _ => exact .inl waits
  | failed _ _ left _ => exact nomatch failed.symm.trans left
  | polling _ _ _ _ loop found going _ => exact .inr ⟨loop, List.mem_of_getElem? found, going⟩

theorem Consistent.start_begun (consistent : s.Consistent) (clean : s.StartsClean)
    (usable : s.conf.usable = true) : s.start.Begun := by
  cases running : s.running with
  | true =>
    have failed : s.failed = false := by simpa [StartsClean, running] using clean
    have heard := consistent.start clean
    refine heard.begun ?_ ?_ <;> simp [Bot.start, running, failed]
  | false => simp [Bot.start, Begun, running, usable]

theorem Consistent.stop_quiet (consistent : s.Consistent) :
    s.stop.running = false ∧ s.stop.Quiet := by
  have stopped : s.stop.running = false := by
    cases running : s.running <;> simp [Bot.stop, running]
  exact ⟨stopped, consistent.stop.contexts.quiet stopped⟩

theorem getMe_polls {call : Nat} (waits : call ∈ s.starts) (running : s.running = true) :
    (s.getMe call true).running = true ∧ ∃ loop ∈ (s.getMe call true).loops,
      (s.getMe call true).Going loop := by
  rw [getMe, if_neg (not_not.mpr waits), if_pos rfl]
  exact ⟨running, ⟨0, .top⟩, List.mem_append_right _ List.mem_cons_self, running⟩

theorem Consistent.does (consistent : s.Consistent) (event : Event) (clean : s.Clean event) :
    s.Does event := by
  cases event with
  | start => exact consistent.start_begun clean
  | restart =>
    intro waits usable
    have aside := consistent.aside s.conf s.stores (s.restarts - 1) s.schedulers s.reports
      fun runs => (consistent.contexts.running runs).2
    have begun := aside.start_begun (clean waits) usable
    change s.restart.Begun
    rwa [Bot.restart, if_neg waits]
  | getMe call succeeds =>
    cases succeeds with
    | false => trivial
    | true => exact fun waits running => getMe_polls waits running
  | stop => exact consistent.stop_quiet
  | updateConfig newConf =>
    have stores : s.stop.stores = s.stores := by
      cases running : s.running <;> simp [Bot.stop, running]
    exact ⟨consistent.stop_quiet.1, consistent.stop_quiet.2, congrArg (· ++ [newConf]) stores⟩
  | store call =>
    intro newConf found
    change (s.store call).conf = newConf ∧ (s.store call).restarts = _
    simp only [Bot.store, found, true_and]
    split <;> rfl
  | check k =>
    intro loop found place stopped
    change (s.onLoop k s.check).loops[k]? = _
    rw [getElem?_onLoop, found]
    simp [Bot.check, place, stopped]
  | respond k response =>
    cases response with
    | canceled =>
      intro loop ctx found place cancelled
      change (s.onLoop k (s.respond .canceled)).loops[k]? = _
      rw [getElem?_onLoop, found]
      simp [Bot.respond, place, cancelled]
    | failed => trivial
    | updates updates => trivial
  | request loop made => trivial
  | dispatch loop => trivial
  | select scheduler => trivial
  | tick scheduler due => trivial
  | done scheduler => trivial

theorem reconfigure_polls (s : Bot) {newConf : Config} (usable : newConf.usable = true) :
    let next := machine.run s (reconfigure s newConf)
    next.conf = newConf ∧ next.running = true ∧ ∃ loop ∈ next.loops, next.Going loop := by
  have stopped : s.stop.running = false ∧ s.stop.ctx = s.ctx ∧ s.stop.stores = s.stores := by
    cases running : s.running <;> simp [Bot.stop, running]
  obtain ⟨running, ctx, stores⟩ := stopped
  have started : machine.run s [.updateConfig newConf, .store s.stores.length, .restart] =
      { s.updateConfig newConf with
        conf := newConf
        stores := (s.updateConfig newConf).stores.eraseIdx s.stores.length
        ctx := s.ctx + 1
        running := true
        starts := (s.ctx + 1) :: s.stop.starts
        failed := false } := by
    simp [machine, Transition.Machine.next, Bot.step, updateConfig, Bot.store, stores,
      Bot.restart, Bot.start, usable, running, ctx]
  have split : reconfigure s newConf =
      [.updateConfig newConf, .store s.stores.length, .restart] ++ [.getMe (s.ctx + 1) true] := rfl
  intro next
  have whole : next = (machine.run s
      [.updateConfig newConf, .store s.stores.length, .restart]).getMe (s.ctx + 1) true := by
    change machine.run s (reconfigure s newConf) = _
    rw [split, machine.run_append]
    rfl
  rw [whole, started]
  refine ⟨?_, getMe_polls List.mem_cons_self rfl⟩
  simp [Bot.getMe]

/-- However the calls and the goroutines take turns, there is one poller, no update is handled
twice, and each call does what it is for, as long as no step runs into one of the races. -/
theorem one_poller (conf : Config) (events : List Event)
    (clean : machine.Allowed Clean (new conf) events) (steps : Nat) :
    let s := machine.run (new conf) (events.take steps)
    s.OnePoller ∧ (∀ event, s.Clean event → s.Does event) ∧
      ∀ newConf : Config, newConf.usable = true →
        let next := machine.run s (reconfigure s newConf)
        next.conf = newConf ∧ next.running = true ∧ ∃ loop ∈ next.loops, next.Going loop := by
  intro s
  have first : machine.Allowed Clean (new conf) (events.take steps) := by
    rw [← List.take_append_drop steps events] at clean
    exact ((machine.allowed_append (new conf) _ _).mp clean).1
  have consistent : s.Consistent :=
    machine.run_invariant Consistent (fun s event holds clean => holds.step event clean)
      (consistent_new conf) first
  exact ⟨consistent.onePoller, consistent.does, fun _ usable => reconfigure_polls s usable⟩

def botOn : Config :=
  { enabled := true, botToken := [0x31], adminChatID := [0x32], notifyDailyReport := true }

def botOff : Config := { botOn with enabled := false }

def firstPoll (response : Response) : List Event :=
  [.start, .getMe 1 true, .check 0, .request 0 true, .respond 0 response]

def reconfigured : List Event := [.updateConfig botOn, .store 0, .restart, .getMe 2 true]

def restarted : List Event :=
  firstPoll (.updates [⟨5, true, false⟩, ⟨6, false, true⟩]) ++
    [.dispatch 0, .dispatch 0, .dispatch 0, .check 0, .request 0 true] ++ reconfigured ++
    [.respond 0 .canceled, .check 1, .request 1 true, .respond 1 (.updates [⟨7, true, true⟩]),
      .dispatch 1]

/-- Here the start after the one that failed is that of a new configuration. -/
def revived : List Event := [.start, .getMe 1 false, .updateConfig botOn, .store 0]

theorem one_poller_restarted :
    (machine.Allowed Clean (new botOn) restarted ∧
      (machine.run (new botOn) (restarted.take restarted.length)).OnePoller) ∧
    machine.Allowed Clean (new botOn) revived ∧
      (machine.run (new botOn) (revived.take revived.length)).Does .restart := by
  refine ⟨⟨by decide, ?_⟩, by decide, ?_⟩
  · exact (one_poller botOn restarted (by decide) restarted.length).1
  · exact (one_poller botOn revived (by decide) revived.length).2.1 .restart (by decide)

/-- A loop that sleeps after an error is there again after a restart, besides the new one. A loop
that a restart has ended leaves the update that it has handled last to the next. A start after a
failed one does nothing. And of two configurations at the same time, the one that is stored last
disables a bot that polls. -/
theorem many_pollers :
    ¬(machine.run (new botOn) (firstPoll .failed ++ reconfigured)).OnePoller ∧
    ¬(machine.run (new botOn)
      (firstPoll (.updates [⟨5, true, false⟩]) ++ ([.dispatch 0, .dispatch 0, .updateConfig botOn,
        .check 0, .store 0, .restart, .getMe 2 true, .check 1, .request 1 true,
        .respond 1 (.updates [⟨5, true, false⟩]), .dispatch 1] : List Event))).OnePoller ∧
    ¬(machine.run (new botOn) [.start, .getMe 1 false, .start]).OnePoller ∧
    ¬(machine.run (new botOn) [.updateConfig botOff, .updateConfig botOn, .store 1, .restart,
      .getMe 1 true, .store 0]).OnePoller := by
  refine ⟨?_, ?_, ?_, ?_⟩
  · intro single
    exact absurd (single.one 0 1 ⟨0, .top⟩ ⟨0, .top⟩ rfl rfl (by decide) (by decide)) (by decide)
  · intro single
    exact absurd single.once (by decide)
  · intro single
    exact absurd single.heard (by decide)
  · intro single
    exact absurd (single.none ⟨0, .top⟩ (by decide) (by decide)) (by decide)

end AdGuardHome.Telebot.Bot
