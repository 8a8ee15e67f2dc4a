import AdGuardHome.Lib.Machine

/-! Package `aghnet`: the hosts container with its event loop, and the reader of its updates.
Both work on the channel of updates in any order. -/
namespace AdGuardHome.Aghnet

/-- A `hostsfile.DefaultStorage`: every refresh makes a new one, here with a new number. -/
structure HostsStorage (Content : Type) where
  number : Nat
  content : Content
deriving DecidableEq

/-- Where the event loop is: in `refresh` after the walk, after the comparison or after the
store, that is in `sendUpd`, or there after the last update was taken back. -/
inductive EventLoop (Content : Type) where
  | waiting
  | walked (strg : HostsStorage Content)
  | differing (strg : HostsStorage Content)
  | sending (recs : HostsStorage Content)
  | replacing (recs : HostsStorage Content)
  | finished
deriving DecidableEq

/-- The cases of the `select` in `sendUpd`. -/
inductive SendCase where
  | deliver
  | takeBack
  | deliverNext
  | broken

/-- The container, with all the storages that have been current and those that the reader
has got, from the oldest on. -/
structure HostsContainer (Content : Type) where
  loop : EventLoop Content
  current : Option (HostsStorage Content)
  updates : List (HostsStorage Content)
  created : Nat
  errorLogged : Bool
  stored : List (HostsStorage Content)
  received : List (HostsStorage Content)

namespace HostsContainer

variable {Content : Type}

/-- A step of the loop or of the reader. The walk over the files may fail. -/
inductive Event (Content : Type) where
  | walk (outcome : Option Content)
  | compare
  | store
  | select (case : SendCase)
  | replace
  | close
  | receive

def start : HostsContainer Content := ⟨.waiting, none, [], 0, false, [], []⟩

def updatesCap : Nat := 1

def hasRoom (hc : HostsContainer Content) : Prop := hc.updates.length < updatesCap

instance (hc : HostsContainer Content) : Decidable hc.hasRoom :=
  inferInstanceAs (Decidable (_ < _))

/-- Whether the `select` can take the case; the default is there for when no other can. -/
def Ready (hc : HostsContainer Content) : SendCase → Prop
  | .deliver => hc.hasRoom
  | .takeBack => hc.updates ≠ []
  | .deliverNext => hc.hasRoom
  | .broken => ¬ hc.hasRoom ∧ hc.updates = []

instance (hc : HostsContainer Content) : DecidablePred hc.Ready
  | .deliver => inferInstanceAs (Decidable hc.hasRoom)
  | .takeBack => decidable_of_iff (¬ hc.updates.isEmpty = true)
      (not_congr List.isEmpty_iff)
  | .deliverNext => inferInstanceAs (Decidable hc.hasRoom)
  | .broken => decidable_of_iff (¬ hc.hasRoom ∧ hc.updates.isEmpty = true)
      (and_congr_right fun _ => List.isEmpty_iff)

/-- `ch <- recs`. -/
def send (hc : HostsContainer Content) (recs : HostsStorage Content) : HostsContainer Content :=
  { hc with updates := hc.updates ++ [recs], loop := .waiting }

/-- `HostsContainer.sendUpd` up to where it ends or is to send again. -/
def select (hc : HostsContainer Content) (recs : HostsStorage Content) :
    SendCase → HostsContainer Content
  | .deliver => hc.send recs
  | .takeBack => { hc with updates := hc.updates.tail, loop := .replacing recs }
  | .deliverNext => hc.send recs
  | .broken => { hc with errorLogged := true, loop := .waiting }

section Step

variable (equal : Option (HostsStorage Content) → HostsStorage Content → Bool)

/-- The loop and the reader, where a step that cannot be made yet changes nothing. -/
def step (hc : HostsContainer Content) : Event Content → HostsContainer Content
  | .walk outcome =>
    match hc.loop, outcome with
    | .waiting, some content =>
      { hc with loop := .walked ⟨hc.created, content⟩, created := hc.created + 1 }
    | _, _ => hc
  | .compare =>
    match hc.loop with
    | .walked strg =>
      if equal hc.current strg then { hc with loop := .waiting }
      else { hc with loop := .differing strg }
    | _ => hc
  | .store =>
    match hc.loop with
    | .differing strg =>
      { hc with loop := .sending strg, current := some strg, stored := hc.stored ++ [strg] }
    | _ => hc
  | .select case =>
    match hc.loop with
    | .sending recs => if hc.Ready case then hc.select recs case else hc
    | _ => hc
  | .replace =>
    match hc.loop with
    | .replacing recs => if hc.hasRoom then hc.send recs else hc
    | _ => hc
  | .close =>
    match hc.loop with
    | .waiting => { hc with loop := .finished }
    | _ => hc
  | .receive =>
    match hc.updates with
    | [] => hc
    | upd :: rest => { hc with updates := rest, received := hc.received ++ [upd] }

def machine : Transition.Machine (HostsContainer Content) (Event Content) PUnit.{1} :=
  ⟨fun hc event => (hc.step equal event, ⟨⟩)⟩

end Step

def sent (hc : HostsContainer Content) : List (HostsStorage Content) := hc.received ++ hc.updates

/-- What the loop has still to send of the storages that have been current. -/
def toSend (hc : HostsContainer Content) : List (HostsStorage Content) :=
  match hc.loop with
  | .sending recs => [recs]
  | .replacing recs => [recs]
  | _ => []

def unstored (hc : HostsContainer Content) : List (HostsStorage Content) :=
  match hc.loop with
  | .walked strg => [strg]
  | .differing strg => [strg]
  | _ => []

/-- What holds between the steps: the storages are numbered in their order, those that are
sent are some of them in this order, and the newest one is the last of them, sent or to be
sent. -/
structure Orderly (hc : HostsContainer Content) : Prop where
  numbered : (hc.stored ++ hc.unstored).Pairwise fun a b => a.number < b.number
  known : ∀ strg ∈ hc.stored ++ hc.unstored, strg.number < hc.created
  room : hc.updates.length ≤ updatesCap
  replacing : ∀ recs, hc.loop = .replacing recs → hc.updates = []
  working : hc.errorLogged = false
  sublist : (hc.sent ++ hc.toSend).Sublist hc.stored
  current : hc.stored.getLast? = hc.current
  newest : (hc.sent ++ hc.toSend).getLast? = hc.stored.getLast?

theorem orderly_start : (start : HostsContainer Content).Orderly where
  numbered := .nil
  known _ member := (by cases member)
  room := Nat.zero_le _
  replacing _ same := (by cases same)
  working := rfl
  sublist := .slnil
  current := rfl
  newest := rfl

theorem ready (hc : HostsContainer Content) : hc.hasRoom ∨ hc.updates ≠ [] := by
  by_cases empty : hc.updates = []
  · left
    rw [hasRoom, empty]
    exact Nat.one_pos
  · exact .inr empty

namespace Orderly

variable {hc : HostsContainer Content}

theorem walk (orderly : hc.Orderly) (waits : hc.loop = .waiting) (content : Content) :
    Orderly { hc with loop := .walked ⟨hc.created, content⟩, created := hc.created + 1 } where
  numbered := by
    have before := orderly.numbered
    have known := orderly.known
    simp only [unstored, waits, List.append_nil] at before known
    exact List.pairwise_append.mpr ⟨before, List.pairwise_singleton _ _, fun a member b other => by
      rw [List.mem_singleton.mp other]
      exact known a member⟩
  known strg member := by
    have known := orderly.known
    simp only [unstored, waits, List.append_nil] at known
    rcases List.mem_append.mp member with old | new
    · exact Nat.lt_succ_of_lt (known strg old)
    · rw [List.mem_singleton.mp new]
      exact Nat.lt_succ_self _
  room := orderly.room
  replacing _ same := (by cases same)
  working := orderly.working
  sublist := by
    have sublist := orderly.sublist
    rw [toSend, waits] at sublist
    exact sublist
  current := orderly.current
  newest := by
    have newest := orderly.newest
    rw [toSend, waits] at newest
    exact newest

/-- Where nothing is sent, only the storage that is worked on may change, or be dropped. -/
theorem turn (orderly : hc.Orderly) {loop : EventLoop Content}
    (sends : ({ hc with loop } : HostsContainer Content).toSend = hc.toSend)
    (works : ({ hc with loop } : HostsContainer Content).unstored.Sublist hc.unstored)
    (other : ∀ recs, loop ≠ .replacing recs) :
    Orderly { hc with loop } where
  numbered := orderly.numbered.sublist (works.append_left _)
  known strg member := orderly.known strg ((works.append_left _).subset member)
  room := orderly.room
  replacing recs same := absurd same (other recs)
  working := orderly.working
  sublist := by
    rw [sends]
    exact orderly.sublist
  current := orderly.current
  newest := by
    rw [sends]
    exact orderly.newest

theorem store (orderly : hc.Orderly) {strg : HostsStorage Content}
    (differs : hc.loop = .differing strg) :
    Orderly { hc with
      loop := .sending strg
      current := some strg
      stored := hc.stored ++ [strg] } where
  numbered := by
    have numbered := orderly.numbered
    simp only [unstored, differs] at numbered
    simpa only [unstored, List.append_nil] using numbered
  known := by
    have known := orderly.known
    simp only [unstored, differs] at known
    simpa only [unstored, List.append_nil] using known
  room := orderly.room
  replacing _ same := (by cases same)
  working := orderly.working
  sublist := by
    have sublist := orderly.sublist
    simp only [toSend, differs, List.append_nil] at sublist
    exact sublist.append_right [strg]
  current := List.getLast?_concat
  newest := by
    change (hc.sent ++ [strg]).getLast? = _
    rw [List.getLast?_concat, List.getLast?_concat]

theorem send (orderly : hc.Orderly) {recs : HostsStorage Content} (room : hc.hasRoom)
    (sends : hc.toSend = [recs]) (works : hc.unstored = []) : (hc.send recs).Orderly where
  numbered := by
    have numbered := orderly.numbered
    rw [works] at numbered
    exact numbered
  known := by
    have known := orderly.known
    rw [works] at known
    exact known
  room := by
    change (hc.updates ++ [recs]).length ≤ updatesCap
    rw [List.length_append]
    exact room
  replacing _ same := (by cases same)
  working := orderly.working
  sublist := by
    have sublist := orderly.sublist
    rw [sends, sent, List.append_assoc] at sublist
    change (hc.received ++ (hc.updates ++ [recs]) ++ []).Sublist hc.stored
    rw [List.append_nil]
    exact sublist
  current := orderly.current
  newest := by
    have newest := orderly.newest
    rw [sends, sent, List.append_assoc] at newest
    change (hc.received ++ (hc.updates ++ [recs]) ++ []).getLast? = hc.stored.getLast?
    rw [List.append_nil]
    exact newest

theorem takeBack (orderly : hc.Orderly) {recs : HostsStorage Content}
    (sending : hc.loop = .sending recs) :
    Orderly { hc with updates := hc.updates.tail, loop := .replacing recs } where
  numbered := by
    have numbered := orderly.numbered
    rw [unstored, sending] at numbered
    exact numbered
  known := by
    have known := orderly.known
    rw [unstored, sending] at known
    exact known
  room := Nat.le_trans (List.tail_sublist _).length_le orderly.room
  replacing _ _ := by
    apply List.eq_nil_of_length_eq_zero
    change hc.updates.tail.length = 0
    rw [List.length_tail]
    exact Nat.sub_eq_zero_of_le orderly.room
  working := orderly.working
  sublist := by
    have sublist := orderly.sublist
    rw [toSend, sending] at sublist
    exact (((List.tail_sublist _).append_left _).append_right _).trans sublist
  current := orderly.current
  newest := by
    have newest := orderly.newest
    rw [toSend, sending] at newest
    change (hc.received ++ hc.updates.tail ++ [recs]).getLast? = hc.stored.getLast?
    rw [← newest, List.getLast?_concat, List.getLast?_concat]

theorem receive (orderly : hc.Orderly) {upd : HostsStorage Content}
    {rest : List (HostsStorage Content)} (there : hc.updates = upd :: rest) :
    Orderly { hc with updates := rest, received := hc.received ++ [upd] } where
  numbered := orderly.numbered
  known := orderly.known
  room := by
    have room := orderly.room
    rw [there] at room
    exact Nat.le_of_succ_le room
  replacing recs same := by
    have empty := orderly.replacing recs same
    rw [there] at empty
    cases empty
  working := orderly.working
  sublist := by
    have sublist := orderly.sublist
    rw [sent, there] at sublist
    change (hc.received ++ [upd] ++ rest ++ hc.toSend).Sublist hc.stored
    rw [List.append_assoc hc.received]
    exact sublist
  current := orderly.current
  newest := by
    have newest := orderly.newest
    rw [sent, there] at newest
    change (hc.received ++ [upd] ++ rest ++ hc.toSend).getLast? = hc.stored.getLast?
    rw [List.append_assoc hc.received]
    exact newest

theorem step (equal : Option (HostsStorage Content) → HostsStorage Content → Bool)
    (orderly : hc.Orderly) (event : Event Content) : (hc.step equal event).Orderly := by
  cases event with
  | walk outcome =>
    unfold HostsContainer.step
    dsimp only
    split
    · rename_i place
      exact orderly.walk place _
    · exact orderly
  | compare =>
    unfold HostsContainer.step
    dsimp only
    split
    · rename_i strg place
      split
      · refine orderly.turn ?_ (List.nil_sublist _) fun _ same => (by cases same)
        rw [toSend, toSend, place]
      · refine orderly.turn ?_ ?_ fun _ same => (by cases same)
        · rw [toSend, toSend, place]
        · rw [unstored, unstored, place]
    · exact orderly
  | store =>
    unfold HostsContainer.step
    dsimp only
    split
    · rename_i strg place
      exact orderly.store place
    · exact orderly
  | select case =>
    unfold HostsContainer.step
    dsimp only
    split
    · rename_i recs place
      have sends : hc.toSend = [recs] := by rw [toSend, place]
      have works : hc.unstored = [] := by rw [unstored, place]
      split
      · rename_i ready
        cases case with
        | deliver => exact orderly.send ready sends works
        | takeBack => exact orderly.takeBack place
        | deliverNext => exact orderly.send ready sends works
        | broken => exact absurd ready.2 (hc.ready.resolve_left ready.1)
      · exact orderly
    · exact orderly
  | replace =>
    unfold HostsContainer.step
    dsimp only
    split
    · rename_i recs place
      have sends : hc.toSend = [recs] := by rw [toSend, place]
      have works : hc.unstored = [] := by rw [unstored, place]
      split
      · rename_i room
        exact orderly.send room sends works
      · exact orderly
    · exact orderly
  | close =>
    unfold HostsContainer.step
    dsimp only
    split
    · rename_i place
      refine orderly.turn ?_ (List.nil_sublist _) fun _ same => (by cases same)
      rw [toSend, toSend, place]
    · exact orderly
  | receive =>
    unfold HostsContainer.step
    dsimp only
    split
    · exact orderly
    · rename_i upd rest there
      exact orderly.receive there

end Orderly

/-- The reader takes updates while the loop does not get on. -/
def receipts (reads : Nat) : List (Event Content) := List.replicate reads .receive

/-- A send is over, in the channel or with the reader, and without an error. -/
structure SendEnded (hc : HostsContainer Content) (recs : HostsStorage Content) : Prop where
  loop : hc.loop = .waiting
  working : hc.errorLogged = false
  sent : recs ∈ hc.sent

/-- What the next steps lead to. The `select` of `sendUpd` can be taken, and never its default;
whichever case is taken, the send is over after at most one step more, however much is read in
between; what a refresh finds changed is stored and about to be sent; and a reader that goes
on gets all that was sent. -/
structure Progresses (equal : Option (HostsStorage Content) → HostsStorage Content → Bool)
    (hc : HostsContainer Content) : Prop where
  selects : ∀ recs, hc.loop = .sending recs → (∃ case, hc.Ready case) ∧ ¬ hc.Ready .broken
  sends : ∀ recs case reads, hc.loop = .sending recs → hc.Ready case →
    SendEnded ((machine equal).run hc (.select case :: (receipts reads ++ [.replace]))) recs
  replaces : ∀ recs reads, hc.loop = .replacing recs →
    SendEnded ((machine equal).run hc (receipts reads ++ [.replace])) recs
  refreshes : ∀ content, hc.loop = .waiting → equal hc.current ⟨hc.created, content⟩ = false →
    let next := (machine equal).run hc [.walk (some content), .compare, .store]
    next.loop = .sending ⟨hc.created, content⟩ ∧ next.current = some ⟨hc.created, content⟩ ∧
      next.stored = hc.stored ++ [⟨hc.created, content⟩]
  reads : ((machine equal).run hc (receipts hc.updates.length)).received = hc.sent

/-- Only the reader has taken steps. -/
structure ReadOn (hc next : HostsContainer Content) : Prop where
  loop : next.loop = hc.loop
  errorLogged : next.errorLogged = hc.errorLogged
  sent : next.sent = hc.sent
  updates : next.updates.length ≤ hc.updates.length

section Progress

variable (equal : Option (HostsStorage Content) → HostsStorage Content → Bool)
variable {hc : HostsContainer Content}

theorem readOn_receive (hc : HostsContainer Content) : hc.ReadOn (hc.step equal .receive) := by
  unfold step
  dsimp only
  split
  · exact ⟨rfl, rfl, rfl, Nat.le_refl _⟩
  · rename_i upd rest there
    refine ⟨rfl, rfl, ?_, ?_⟩
    · simp [sent, there]
    · simp [there]

theorem readOn_receipts (hc : HostsContainer Content) (reads : Nat) :
    hc.ReadOn ((machine equal).run hc (receipts reads)) := by
  induction reads generalizing hc with
  | zero => exact ⟨rfl, rfl, rfl, Nat.le_refl _⟩
  | succ reads ih =>
    have first := readOn_receive equal hc
    have later := ih (hc.step equal .receive)
    exact ⟨later.loop.trans first.loop, later.errorLogged.trans first.errorLogged,
      later.sent.trans first.sent, Nat.le_trans later.updates first.updates⟩

theorem received_receipts (hc : HostsContainer Content) (reads : Nat)
    (all : reads = hc.updates.length) :
    ((machine equal).run hc (receipts reads)).received = hc.sent := by
  induction reads generalizing hc with
  | zero => rw [sent, List.eq_nil_of_length_eq_zero all.symm, List.append_nil]; rfl
  | succ reads ih =>
    obtain ⟨upd, rest, there⟩ := List.exists_cons_of_length_eq_add_one all.symm
    rw [there] at all
    have next : hc.step equal .receive =
        { hc with updates := rest, received := hc.received ++ [upd] } := by
      unfold step
      rw [there]
    have later := ih (hc.step equal .receive) (by rw [next]; exact Nat.succ.inj all)
    exact later.trans (readOn_receive equal hc).sent

variable {recs : HostsStorage Content}

theorem SendEnded.replace (ended : hc.SendEnded recs) :
    (hc.step equal .replace).SendEnded recs := by
  unfold step
  rw [ended.loop]
  exact ended

theorem SendEnded.readOn {next : HostsContainer Content} (ended : hc.SendEnded recs)
    (read : hc.ReadOn next) : next.SendEnded recs :=
  ⟨read.loop.trans ended.loop, read.errorLogged.trans ended.working, read.sent ▸ ended.sent⟩

theorem sendEnded_send (working : hc.errorLogged = false) (recs : HostsStorage Content) :
    (hc.send recs).SendEnded recs :=
  ⟨rfl, working, List.mem_append_right _ (List.mem_append_right _ List.mem_cons_self)⟩

/-- The second send of `sendUpd`, after the update in the channel was taken back. -/
theorem sendEnded_replace (working : hc.errorLogged = false) (replacing : hc.loop = .replacing recs)
    (empty : hc.updates = []) (reads : Nat) :
    ((machine equal).run hc (receipts reads ++ [.replace])).SendEnded recs := by
  rw [(machine equal).run_append]
  have read := readOn_receipts equal hc reads
  generalize (machine equal).run hc (receipts reads) = next at read ⊢
  have room : next.hasRoom := by
    have updates := read.updates
    rw [empty] at updates
    exact Nat.lt_of_le_of_lt updates Nat.one_pos
  change (next.step equal .replace).SendEnded recs
  unfold step
  rw [read.loop.trans replacing]
  dsimp only
  rw [if_pos room]
  exact sendEnded_send (read.errorLogged.trans working) recs

theorem Orderly.select (orderly : hc.Orderly) (sending : hc.loop = .sending recs) {case : SendCase}
    (ready : hc.Ready case) (reads : Nat) :
    ((machine equal).run hc (.select case :: (receipts reads ++ [.replace]))).SendEnded recs := by
  have taken : hc.step equal (.select case) = hc.select recs case := by
    unfold HostsContainer.step
    rw [sending]
    exact if_pos ready
  change ((machine equal).run (hc.step equal (.select case)) _).SendEnded recs
  rw [taken]
  have delivered : ((machine equal).run (hc.send recs) (receipts reads ++ [.replace])).SendEnded recs := by
    rw [(machine equal).run_append]
    exact ((sendEnded_send orderly.working recs).readOn (readOn_receipts equal _ reads)).replace equal
  cases case with
  | deliver => exact delivered
  | takeBack =>
    have next := orderly.takeBack sending
    exact @sendEnded_replace _ equal (hc.select recs .takeBack) recs next.working rfl
      (next.replacing recs rfl) reads
  | deliverNext => exact delivered
  | broken => exact absurd ready.2 (hc.ready.resolve_left ready.1)

theorem Orderly.progresses (orderly : hc.Orderly) : hc.Progresses equal where
  selects recs _ := by
    refine ⟨?_, fun broken => broken.1 (hc.ready.resolve_right (not_not.mpr broken.2))⟩
    rcases hc.ready with room | full
    · exact ⟨.deliver, room⟩
    · exact ⟨.takeBack, full⟩
  sends _ _ reads sending ready := orderly.select equal sending ready reads
  replaces recs reads replacing :=
    sendEnded_replace equal orderly.working replacing (orderly.replacing recs replacing) reads
  refreshes content waiting differs := by
    have walked : hc.step equal (.walk (some content)) =
        { hc with loop := .walked ⟨hc.created, content⟩, created := hc.created + 1 } := by
      unfold HostsContainer.step
      rw [waiting]
    have compared : (hc.step equal (.walk (some content))).step equal .compare =
        { hc with loop := .differing ⟨hc.created, content⟩, created := hc.created + 1 } := by
      rw [walked]
      unfold HostsContainer.step
      dsimp only
      rw [differs]
      rfl
    have all : (machine equal).run hc [.walk (some content), .compare, .store] =
        ((hc.step equal (.walk (some content))).step equal .compare).step equal .store := rfl
    rw [all, compared]
    exact ⟨rfl, rfl, rfl⟩
  reads := received_receipts equal hc _ rfl

end Progress

/-- No step of `refresh` is in progress. -/
def Settled (hc : HostsContainer Content) : Prop := hc.loop = .waiting ∨ hc.loop = .finished

/-- In every order of steps the sends of the loop come to their end and no error is logged, the
reader gets some of the storages in the order in which they became current, none of them twice,
and between the refreshes the newest one is received or in the channel. -/
theorem hosts_updates (equal : Option (HostsStorage Content) → HostsStorage Content → Bool)
    (events : List (Event Content)) :
    let hc := (machine equal).run start events
    hc.Progresses equal ∧ hc.errorLogged = false ∧ hc.received.Sublist hc.stored ∧
      hc.received.Nodup ∧ hc.stored.getLast? = hc.current ∧
      (hc.Settled → ∀ newest, hc.current = some newest → newest ∈ hc.received ∨
        newest ∈ hc.updates) := by
  intro hc
  have orderly : hc.Orderly :=
    (machine equal).reachable_invariant Orderly (fun _ event orderly => orderly.step equal event)
      orderly_start ⟨events, rfl⟩
  have sublist : hc.received.Sublist hc.stored :=
    ((List.sublist_append_left _ _).trans (List.sublist_append_left _ _)).trans orderly.sublist
  have distinct : hc.stored.Nodup :=
    (orderly.numbered.sublist (List.sublist_append_left _ _)).imp fun less same =>
      absurd (same ▸ less) (Nat.lt_irrefl _)
  refine ⟨orderly.progresses equal, orderly.working, sublist, distinct.sublist sublist,
    orderly.current, ?_⟩
  intro settled newest now
  have last := orderly.newest.trans (orderly.current.trans now)
  have nothing : hc.toSend = [] := by
    rcases settled with place | place <;> rw [toSend, place]
  rw [nothing, List.append_nil] at last
  exact List.mem_append.mp (List.mem_of_getLast? last)

end HostsContainer

end AdGuardHome.Aghnet
