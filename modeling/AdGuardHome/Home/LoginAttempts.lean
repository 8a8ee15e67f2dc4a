import AdGuardHome.Home.AuthRateLimiter

namespace AdGuardHome.Home

open Strings Transition

/-- What happened to the requests of an address, and when. -/
inductive Entry where
  | rejected (time : Int)
  | failed (time : Int)
  | succeeded (time : Int)
  | blocked (time : Int)
deriving DecidableEq

/-- The failures after the last block; the last entry comes first. -/
def failures : List Entry → List Int
  | [] => []
  | .blocked _ :: _ => []
  | .failed time :: past => time :: failures past
  | _ :: past => failures past

/-- How many of the times are within `failedAuthTTL` of the start of a window. -/
def countFrom (start : Int) (times : List Int) : Nat :=
  times.countP fun time => decide (start ≤ time ∧ time ≤ start + failedAuthTTL)

section

variable (maxAttempts : BitVec 64) (blockDur : Int)

/-- What the limits say about an entry after those in `past`. -/
def Justified (past : List Entry) : Entry → Prop
  | .failed time =>
    (∀ block, .blocked block ∈ past → block + blockDur ≤ time) ∧
      ∀ start, countFrom start (time :: failures past) ≤ maxAttempts.toNat
  | .succeeded time => ∀ block, .blocked block ∈ past → block + blockDur ≤ time
  | .blocked _ => ∃ start, maxAttempts.toNat ≤ countFrom start (failures past)
  | .rejected time => ∃ block, .blocked block ∈ past ∧ time < block + blockDur

def RateLimited : List Entry → Prop
  | [] => True
  | entry :: past => Justified maxAttempts blockDur past entry ∧ RateLimited past

end

theorem RateLimited.bounded {maxAttempts : BitVec 64} {blockDur : Int} {log : List Entry}
    (limited : RateLimited maxAttempts blockDur log) (start : Int) :
    countFrom start (failures log) ≤ maxAttempts.toNat := by
  induction log with
  | nil => exact Nat.zero_le _
  | cons entry past ih =>
    cases entry with
    | failed time => exact limited.1.2 start
    | blocked time => exact Nat.zero_le _
    | rejected time => exact ih limited.2
    | succeeded time => exact ih limited.2

/-- The times of the blocks; the last comes first. -/
def blocks : List Entry → List Int
  | [] => []
  | .blocked time :: past => time :: blocks past
  | _ :: past => blocks past

theorem mem_blocks {log : List Entry} {block : Int} : block ∈ blocks log ↔ .blocked block ∈ log := by
  induction log with
  | nil => simp [blocks]
  | cons entry past ih =>
    cases entry with
    | blocked time => simp [blocks, ih]
    | rejected time | failed time | succeeded time => simp [blocks, ih]

/-- What the check of a request saw: its time, the blocks before it and the failures that were
counted; and the blocks since. -/
structure View where
  time : Int
  before : List Int
  counted : List Int
  since : List Int

/-- The handlers with what happened to one address: besides the log, the failures that have been
counted since `openedAt` and the views of the requests.  All of it is made of the answers, and the
handlers read none of it. -/
structure Watched where
  web : Web
  log : List Entry
  counted : List Int
  openedAt : Int
  views : List View

namespace Watched

/-- A check forgets what is counted once the deadline of the first failure is over. -/
def check (now : Int) (w : Watched) : Watched :=
  let counted := if w.openedAt + failedAuthTTL < now then [] else w.counted
  { w with counted, views := w.views ++ [⟨now, blocks w.log, counted, []⟩] }

def count (now time : Int) (w : Watched) : Watched :=
  { w with
    counted := time :: w.counted
    openedAt := if w.counted = [] then now else w.openedAt }

def block (now : Int) (w : Watched) : Watched :=
  { w with
    log := .blocked now :: w.log
    counted := []
    views := w.views.map fun view => { view with since := now :: view.since } }

def observe (addr : Bytes) (now : Int) (w : Watched) : Answer → Watched
  | .idle => w
  | .passed => w.check now
  | .rejected remoteIP =>
    let w := w.check now
    if remoteIP = addr then { w with log := .rejected now :: w.log } else w
  | .authenticated remoteIP outcome =>
    if remoteIP = addr then
      { w with log := (if outcome = .correct then .succeeded now else .failed now) :: w.log }
    else w
  | .counted remoteIP time blocks =>
    if remoteIP = addr then if blocks then w.block now else w.count now time else w
  | .removed remoteIP => if remoteIP = addr then { w with counted := [] } else w

end Watched

def machine (isAddr : Bytes → Bool) (addr : Bytes) : Machine Watched Event Answer where
  step w event :=
    let (web, answer) := w.web.step isAddr event
    (Watched.observe addr (w.web.now + event.elapsed) { w with web } answer, answer)

def fresh (blockDur : Int) (maxAttempts : BitVec 64) (now : Int) : Watched :=
  ⟨⟨⟨∅, blockDur, maxAttempts⟩, [], now⟩, [], [], now, []⟩

/-- Those of the times that are at most `failedAuthTTL` ago. -/
def recent (now : Int) (times : List Int) : List Int :=
  times.filter fun time => now ≤ time + failedAuthTTL

namespace Watched

variable (addr : Bytes) (w : Watched)

def wait (elapsed : Nat) : Watched := { w with web := { w.web with now := w.web.now + elapsed } }

/-- No block since the check of the request goes on; and where the password is wrong, its check
knew of all recent failures, or they are few. -/
def Verifies (view : View) (outcome : Outcome) : Prop :=
  (∀ block ∈ view.since, block + w.web.rateLimiter.blockDur ≤ w.web.now) ∧
    (outcome ≠ .correct →
      let failed := recent w.web.now (failures w.log)
      (∀ time ∈ failed, failed.count time ≤ view.counted.count time) ∨
        failed.length < w.web.rateLimiter.maxAttempts.toNat)

/-- What a success records lifts no block that goes on.  A failure is recorded by a request whose
check was after the end of every block, and where it makes `maxAttempts`, they are of one
window. -/
def Settles (view : View) (outcome : Outcome) (time : Int) : Prop :=
  if outcome = .correct then
    ∀ block ∈ view.since, block + w.web.rateLimiter.blockDur ≤ w.web.now
  else
    view.since = [] ∧
      (∀ block ∈ view.before, block + w.web.rateLimiter.blockDur < view.time) ∧
      (w.web.rateLimiter.maxAttempts.toNat ≤ w.counted.length + 1 →
        ∀ first ∈ time :: w.counted, ∀ last ∈ time :: w.counted, last ≤ first + failedAuthTTL)

instance (view : View) (outcome : Outcome) : Decidable (w.Verifies view outcome) :=
  inferInstanceAs (Decidable (_ ∧ (_ → _ ∨ _)))

instance (view : View) (outcome : Outcome) (time : Int) :
    Decidable (w.Settles view outcome time) :=
  inferInstanceAs (Decidable (if outcome = .correct then
    ∀ block ∈ view.since, block + w.web.rateLimiter.blockDur ≤ w.web.now
  else view.since = [] ∧ (∀ block ∈ view.before, _) ∧
    (_ → ∀ first ∈ time :: w.counted, ∀ last ∈ time :: w.counted, _)))

/-- The step of a request of the address is not disturbed by others since its check. -/
def Moves (view : View) : Attempt → Action → Prop
  | ⟨_, .checked⟩, .authenticate _ outcome => w.Verifies view outcome
  | ⟨_, .verified outcome time⟩, .settle _ => w.Settles view outcome time
  | _, _ => True

instance (view : View) (attempt : Attempt) (action : Action) :
    Decidable (w.Moves view attempt action) :=
  match attempt, action with
  | ⟨_, .checked⟩, .authenticate _ outcome => inferInstanceAs (Decidable (w.Verifies view outcome))
  | ⟨_, .verified outcome time⟩, .settle _ =>
    inferInstanceAs (Decidable (w.Settles view outcome time))
  | ⟨_, .checked⟩, .check .. | ⟨_, .checked⟩, .settle _ | ⟨_, .verified ..⟩, .check ..
  | ⟨_, .verified ..⟩, .authenticate .. | ⟨_, .done⟩, _ => .isTrue trivial

end Watched

def Action.request : Action → Option Nat
  | .check .. => none
  | .authenticate i _ => some i
  | .settle i => some i

/-- No other request since its check gets in the way of a step of a request of the address. -/
def Undisturbed (addr : Bytes) (w : Watched) (event : Event) : Prop :=
  ∀ i ∈ event.action.request, ∀ attempt ∈ w.web.attempts[i]?, ∀ view ∈ w.views[i]?,
    attempt.remoteIP = addr → (w.wait event.elapsed).Moves view attempt event.action

instance (addr : Bytes) (w : Watched) (event : Event) : Decidable (Undisturbed addr w event) :=
  inferInstanceAs (Decidable (∀ i ∈ event.action.request, ∀ attempt ∈ w.web.attempts[i]?,
    ∀ view ∈ w.views[i]?, _ → _))

end AdGuardHome.Home
