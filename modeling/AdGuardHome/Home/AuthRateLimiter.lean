import AdGuardHome.Lib.FiniteMap
import AdGuardHome.Lib.Machine
import AdGuardHome.Strings

/-! `authratelimiter.go` and the handlers of `authhttp.go` that use it. -/
namespace AdGuardHome.Home

open Strings

def failedAuthTTL : Int := 60 * 10 ^ 9

structure FailedAuth where
  until_ : Int
  num : BitVec 64
deriving DecidableEq

/-- `authRateLimiter`. -/
structure AuthRateLimiter where
  failedAuths : FiniteMap Bytes FailedAuth
  blockDur : Int
  maxAttempts : BitVec 64

namespace AuthRateLimiter

variable (ab : AuthRateLimiter) (usrID : Bytes) (now : Int)

/-- Whether `cleanupLocked` deletes the entry of a key. -/
def expired (key : Bytes) : Bool :=
  match ab.failedAuths.get key with
  | none => false
  | some v => decide (v.until_ < now)

def cleanupLocked : AuthRateLimiter :=
  { ab with
    failedAuths := ab.failedAuths.deleteAll ((AList.keys ab.failedAuths).filter (ab.expired now)) }

def checkLocked : Int :=
  match ab.failedAuths.get usrID with
  | none => 0
  | some a => if a.num < ab.maxAttempts then 0 else a.until_ - now

def check : AuthRateLimiter × Int :=
  let ab := ab.cleanupLocked now
  (ab, ab.checkLocked usrID now)

/-- The entry that `incLocked` writes. -/
def incremented : FailedAuth :=
  let (until_, attNum) :=
    match ab.failedAuths.get usrID with
    | none => (now + failedAuthTTL, 1)
    | some a => (a.until_, a.num + 1)
  ⟨if ab.maxAttempts ≤ attNum then now + ab.blockDur else until_, attNum⟩

/-- `inc`, which is `incLocked` under the lock. -/
def inc : AuthRateLimiter :=
  { ab with failedAuths := ab.failedAuths.set usrID (ab.incremented usrID now) }

def remove : AuthRateLimiter := { ab with failedAuths := ab.failedAuths.delete usrID }

variable {ab usrID now}

theorem get_check (key : Bytes) :
    (ab.check usrID now).1.failedAuths.get key =
      if ab.expired now key then none else ab.failedAuths.get key := by
  unfold check cleanupLocked
  rw [FiniteMap.get_deleteAll]
  by_cases dropped : ab.expired now key
  · have present : key ∈ AList.keys ab.failedAuths := by
      rw [FiniteMap.mem_keys]
      unfold expired at dropped
      split at dropped
      · nomatch dropped
      next value found => exact ⟨value, found⟩
    simp [dropped, present]
  · simp [dropped]

theorem get_inc (key : Bytes) :
    (ab.inc usrID now).failedAuths.get key =
      if key = usrID then some (ab.incremented usrID now) else ab.failedAuths.get key :=
  FiniteMap.get_set _ _ _ _

theorem get_remove (key : Bytes) :
    (ab.remove usrID).failedAuths.get key =
      if key = usrID then none else ab.failedAuths.get key :=
  FiniteMap.get_delete _ _ _

theorem check_left_pos (blocked : 0 < (ab.check usrID now).2) :
    ∃ a, (ab.check usrID now).1.failedAuths.get usrID = some a ∧ ab.maxAttempts ≤ a.num ∧
      now < a.until_ := by
  unfold check checkLocked at blocked
  dsimp only at blocked
  split at blocked
  · exact absurd blocked (Int.lt_irrefl 0)
  next a found =>
    split at blocked
    · exact absurd blocked (Int.lt_irrefl 0)
    next reached => exact ⟨a, found, BitVec.not_lt.mp reached, Int.sub_pos.mp blocked⟩

theorem check_left_nonpos (passed : ¬ 0 < (ab.check usrID now).2) {a : FailedAuth}
    (found : (ab.check usrID now).1.failedAuths.get usrID = some a) (reached : ab.maxAttempts ≤ a.num) :
    a.until_ ≤ now := by
  have left : (ab.check usrID now).2 = a.until_ - now := by
    have present : (ab.cleanupLocked now).failedAuths.get usrID = some a := found
    show (ab.cleanupLocked now).checkLocked usrID now = _
    unfold checkLocked
    rw [present]
    exact if_neg (BitVec.not_lt.mpr reached)
  omega

end AuthRateLimiter

/-- How the users and the password of a request turn out. -/
inductive Outcome where
  | unknownUser
  | wrongPassword
  | correct
deriving DecidableEq

/-- Where a request is between its critical sections; `time` is when it was verified. -/
inductive Phase where
  | checked
  | verified (outcome : Outcome) (time : Int)
  | done
deriving DecidableEq

/-- A request by `handleLogin` or `userFromRequestBasicAuth`. -/
structure Attempt where
  remoteIP : Bytes
  phase : Phase
deriving DecidableEq

inductive Handler where
  | login
  | basicAuth
deriving DecidableEq

/-- What a request does next. -/
inductive Action where
  | check (handler : Handler) (remoteIP : Bytes)
  | authenticate (i : Nat) (outcome : Outcome)
  | settle (i : Nat)
deriving DecidableEq

structure Event where
  elapsed : Nat
  action : Action
deriving DecidableEq

/-- What an action shows. -/
inductive Answer where
  | idle
  | passed
  | rejected (remoteIP : Bytes)
  | authenticated (remoteIP : Bytes) (outcome : Outcome)
  | counted (remoteIP : Bytes) (time : Int) (blocks : Bool)
  | removed (remoteIP : Bytes)
deriving DecidableEq

structure Web where
  rateLimiter : AuthRateLimiter
  attempts : List Attempt
  now : Int

namespace Web

/-- The check of both handlers.  `handleLogin` also parses the address after it, and gives up when
it cannot. -/
def check (isAddr : Bytes → Bool) (web : Web) (handler : Handler) (remoteIP : Bytes) :
    Web × Answer :=
  let (rateLimiter, left) := web.rateLimiter.check remoteIP web.now
  let phase := if 0 < left ∨ (handler = .login ∧ !isAddr remoteIP) then .done else .checked
  ({ web with rateLimiter, attempts := web.attempts ++ [⟨remoteIP, phase⟩] },
    if 0 < left then .rejected remoteIP else .passed)

/-- The call of `Authenticate`, or none where there is no such user. -/
def authenticate (web : Web) (i : Nat) (outcome : Outcome) : Web × Answer :=
  match web.attempts[i]? with
  | some ⟨remoteIP, .checked⟩ =>
    ({ web with attempts := web.attempts.set i ⟨remoteIP, .verified outcome web.now⟩ },
      .authenticated remoteIP outcome)
  | _ => (web, .idle)

/-- `inc` or `remove`: both `newCookie` and `userFromRequestBasicAuth` remove an address only
after a correct password. -/
def settle (web : Web) (i : Nat) : Web × Answer :=
  match web.attempts[i]? with
  | some ⟨remoteIP, .verified outcome time⟩ =>
    let attempts := web.attempts.set i ⟨remoteIP, .done⟩
    if outcome = .correct then
      ({ web with rateLimiter := web.rateLimiter.remove remoteIP, attempts }, .removed remoteIP)
    else
      ({ web with rateLimiter := web.rateLimiter.inc remoteIP web.now, attempts },
        .counted remoteIP time
          (decide (web.rateLimiter.maxAttempts ≤ (web.rateLimiter.incremented remoteIP web.now).num)))
  | _ => (web, .idle)

def step (isAddr : Bytes → Bool) (web : Web) (event : Event) : Web × Answer :=
  let web := { web with now := web.now + event.elapsed }
  match event.action with
  | .check handler remoteIP => web.check isAddr handler remoteIP
  | .authenticate i outcome => web.authenticate i outcome
  | .settle i => web.settle i

end Web

end AdGuardHome.Home
