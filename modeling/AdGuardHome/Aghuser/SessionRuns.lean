import AdGuardHome.Lib.FiniteMap
import AdGuardHome.Strings
import AdGuardHome.Lib.BigEndian
import AdGuardHome.Lib.Machine

namespace AdGuardHome.Aghuser

open Strings

abbrev UserID := BitVec 128

/-- `User`, without the password. -/
structure User where
  login : Bytes
  id : UserID
deriving DecidableEq

/-- `DefaultDB`: the user of a login has this login. -/
structure DefaultDB where
  loginToUserID : FiniteMap Bytes UserID
  userIDToUser : FiniteMap UserID User
  linked : ∀ login id, loginToUserID.get login = some id →
    ∃ u, userIDToUser.get id = some u ∧ u.login = login

inductive CreateError where
  | emptyUserID
  | duplicatedUserID
  | duplicatedLogin
deriving DecidableEq

namespace DefaultDB

/-- `NewDefaultDB`. -/
def newDefaultDB : DefaultDB := ⟨∅, ∅, by simp⟩

/-- `ByLogin`. -/
def byLogin (db : DefaultDB) (login : Bytes) : Option User :=
  match db.loginToUserID.get login with
  | none => none
  | some id => db.userIDToUser.get id

/-- `Create`. -/
def create (db : DefaultDB) (u : User) : Except CreateError DefaultDB :=
  if u.id = 0 then .error .emptyUserID
  else if taken : db.userIDToUser.get u.id ≠ none then .error .duplicatedUserID
  else if db.loginToUserID.get u.login ≠ none then .error .duplicatedLogin
  else .ok {
    loginToUserID := db.loginToUserID.set u.login u.id
    userIDToUser := db.userIDToUser.set u.id u
    linked := by
      intro login id named
      rw [FiniteMap.get_set] at named
      split at named
      next same =>
        obtain rfl := Option.some.inj named
        exact ⟨u, FiniteMap.get_set_self _ _ _, same.symm⟩
      next =>
        obtain ⟨other, found, same⟩ := db.linked login id named
        have apart : id ≠ u.id := by
          intro equal
          rw [equal] at found
          exact taken (by rw [found]; exact Option.some_ne_none other)
        exact ⟨other, by rw [FiniteMap.get_set, if_neg apart, found], same⟩ }

theorem login_byLogin {db : DefaultDB} {login : Bytes} {u : User} (found : db.byLogin login = some u) :
    u.login = login := by
  unfold byLogin at found
  split at found
  next => nomatch found
  next id named =>
    obtain ⟨other, present, same⟩ := db.linked login id named
    obtain rfl := Option.some.inj (found.symm.trans present)
    exact same

end DefaultDB

open Strings Transition

abbrev SessionToken := BitVec 128

/-- `Session`; the expiry is in nanoseconds since the Unix epoch. -/
structure Session where
  expire : Int
  userLogin : Bytes
  token : SessionToken
  userID : UserID
deriving DecidableEq

def second : Int := 10 ^ 9

/-- `time.Time.Unix`. -/
def unix (time : Int) : Int := time / second

def bboltSessionExpireLen : Nat := 4
def bboltSessionNameLen : Nat := 2

/-- `bboltEncode`; the conversions to `uint32` and `uint16` drop the higher bits. -/
def bboltEncode (s : Session) : Bytes :=
  BigEndian.put bboltSessionExpireLen (unix s.expire % 2 ^ 32).toNat ++
    BigEndian.put bboltSessionNameLen s.userLogin.length ++ s.userLogin

/-- `bboltDecode`: the expiry and the login. -/
def bboltDecode (data : Bytes) : Option (Int × Bytes) :=
  if data.length < bboltSessionExpireLen + bboltSessionNameLen then none
  else
    let expireData := data.take bboltSessionExpireLen
    let nameLenData := (data.drop bboltSessionExpireLen).take bboltSessionNameLen
    let nameData := data.drop (bboltSessionExpireLen + bboltSessionNameLen)
    if nameData.length ≠ BigEndian.get nameLenData then none
    else some (BigEndian.get expireData * second, nameData)

theorem bboltDecode_bboltEncode (s : Session) :
    bboltDecode (bboltEncode s) =
      if s.userLogin.length < 2 ^ 16 then some (unix s.expire % 2 ^ 32 * second, s.userLogin)
      else none := by
  unfold bboltDecode bboltEncode
  rw [List.append_assoc]
  have expireLength : (BigEndian.put bboltSessionExpireLen (unix s.expire % 2 ^ 32).toNat).length =
      bboltSessionExpireLen := BigEndian.length_put _ _
  have nameLength : (BigEndian.put bboltSessionNameLen s.userLogin.length).length =
      bboltSessionNameLen := BigEndian.length_put _ _
  rw [if_neg (by simp only [List.length_append, expireLength, nameLength]; omega)]
  dsimp only
  rw [List.take_left' expireLength, ← List.drop_drop, List.drop_left' expireLength,
    List.take_left' nameLength, List.drop_left' nameLength, BigEndian.get_put, BigEndian.get_put]
  have expire : (((unix s.expire % 2 ^ 32).toNat % 256 ^ bboltSessionExpireLen : Nat) : Int) =
      unix s.expire % 2 ^ 32 := by
    have low := Int.emod_nonneg (unix s.expire) (show (2 ^ 32 : Int) ≠ 0 by decide)
    have high := Int.emod_lt_of_pos (unix s.expire) (show (0 : Int) < 2 ^ 32 by decide)
    have bound : 256 ^ bboltSessionExpireLen = 2 ^ 32 := by decide
    rw [bound, Nat.mod_eq_of_lt (by omega), Int.toNat_of_nonneg low]
  have width : 256 ^ bboltSessionNameLen = 2 ^ 16 := by decide
  rw [expire, width]
  by_cases short : s.userLogin.length < 2 ^ 16
  · rw [Nat.mod_eq_of_lt short, if_neg (not_not_intro rfl), if_pos short]
  · have cut := Nat.mod_lt s.userLogin.length (show 0 < 2 ^ 16 by decide)
    rw [if_pos (by omega), if_neg short]

abbrev Bucket := FiniteMap SessionToken Bytes

/-- `DefaultSessionStorage` and its database, where the bucket may be missing.  There are no sessions
in memory while the storage is not open. -/
structure DefaultSessionStorage where
  bucket : Option Bucket
  sessions : Option (FiniteMap SessionToken Session)

section Functions

variable (userDB : DefaultDB)

/-- The handler of `bboltSessionHandler`, where `none` makes the session an invalid one. -/
def bboltSessionHandler (now : Int) (k : SessionToken) (v : Bytes) : Option Session :=
  match bboltDecode v with
  | none => none
  | some (expire, userLogin) =>
    if expire < now then none
    else
      match userDB.byLogin userLogin with
      | none => none
      | some u => some ⟨expire, userLogin, k, u.id⟩

/-- `processSessions`: the bucket without the invalid sessions, and the valid ones. -/
def processSessions (now : Int) (bkt : Bucket) : Bucket × FiniteMap SessionToken Session :=
  let invalidSessions := (AList.keys bkt).filter fun k =>
    ((bkt.get k).bind (bboltSessionHandler userDB now k)).isNone
  (bkt.deleteAll invalidSessions, bkt.filterMap (bboltSessionHandler userDB now))

/-- `loadSessions`. -/
def loadSessions (now : Int) (txOK : Bool) (bucket : Option Bucket) :
    Option (Option Bucket × FiniteMap SessionToken Session) :=
  if !txOK then none
  else
    match bucket with
    | none => some (none, ∅)
    | some bkt =>
      let (bkt, sessions) := processSessions userDB now bkt
      some (some bkt, sessions)

/-- `store`. -/
def store (s : Session) (txOK : Bool) (bucket : Option Bucket) : Option Bucket :=
  if !txOK then none else some ((bucket.getD ∅).set s.token (bboltEncode s))

/-- `remove`. -/
def remove (t : SessionToken) (txOK : Bool) (bucket : Option Bucket) : Option Bucket :=
  if !txOK then none else bucket.map fun bkt => bkt.delete t

end Functions

/-- What is asked of the storage; `reopen` is `Close` and `NewDefaultSessionStorage`. -/
inductive Request where
  | new (login : Bytes) (token : SessionToken)
  | find (token : SessionToken)
  | delete (token : SessionToken)
  | reopen
deriving DecidableEq

structure Event where
  time : Int
  request : Request
  txOK : Bool
deriving DecidableEq

inductive Answer where
  | notOpen
  | noUser
  | failed
  | created (s : Session)
  | found (s : Session)
  | notFound
  | deleted (token : SessionToken)
  | opened
deriving DecidableEq

namespace DefaultSessionStorage

variable (userDB : DefaultDB) (sessionTTL : Int) (ds : DefaultSessionStorage)

/-- `New`, for a user that was found by its login as in `newCookie`; the token is the random one. -/
def new (sessions : FiniteMap SessionToken Session) (now : Int) (u : User) (token : SessionToken)
    (txOK : Bool) : DefaultSessionStorage × Answer :=
  let s : Session := ⟨now + sessionTTL, u.login, token, u.id⟩
  match store s txOK ds.bucket with
  | none => (ds, .failed)
  | some bkt => (⟨some bkt, some (sessions.set token s)⟩, .created s)

/-- `deleteByToken`. -/
def deleteByToken (sessions : FiniteMap SessionToken Session) (t : SessionToken) (txOK : Bool) :
    Option DefaultSessionStorage :=
  match remove t txOK ds.bucket with
  | none => none
  | some bkt => some ⟨some bkt, some (sessions.delete t)⟩

/-- `FindByToken`. -/
def findByToken (sessions : FiniteMap SessionToken Session) (now : Int) (t : SessionToken)
    (txOK : Bool) : DefaultSessionStorage × Answer :=
  match sessions.get t with
  | none => (ds, .notFound)
  | some s =>
    if s.expire < now then
      match ds.deleteByToken sessions t txOK with
      | none => (ds, .failed)
      | some ds => (ds, .notFound)
    else (ds, .found s)

/-- `NewDefaultSessionStorage`, which leaves nothing open when it fails. -/
def reopen (now : Int) (txOK : Bool) : DefaultSessionStorage × Answer :=
  match loadSessions userDB now txOK ds.bucket with
  | none => (⟨ds.bucket, none⟩, .failed)
  | some (bucket, sessions) => (⟨bucket, some sessions⟩, .opened)

def step (event : Event) : DefaultSessionStorage × Answer :=
  match event.request, ds.sessions with
  | .reopen, _ => ds.reopen userDB event.time event.txOK
  | _, none => (ds, .notOpen)
  | .new login token, some sessions =>
    match userDB.byLogin login with
    | none => (ds, .noUser)
    | some u => ds.new sessionTTL sessions event.time u token event.txOK
  | .find token, some sessions => ds.findByToken sessions event.time token event.txOK
  | .delete token, some sessions =>
    match ds.deleteByToken sessions token event.txOK with
    | none => (ds, .failed)
    | some ds => (ds, .deleted token)

end DefaultSessionStorage

def machine (userDB : DefaultDB) (sessionTTL : Int) : Machine DefaultSessionStorage Event Answer :=
  ⟨DefaultSessionStorage.step userDB sessionTTL⟩

abbrev History := List (Event × Answer)

/-- The session that was last created with a token and not deleted by it since. -/
def standing : History → SessionToken → Option Session
  | [], _ => none
  | (_, .created s) :: past, t => if s.token = t then some s else standing past t
  | (_, .deleted token) :: past, t => if token = t then none else standing past t
  | _ :: past, t => standing past t

def Session.truncated (s : Session) : Int := unix s.expire * second

structure Storable (s : Session) : Prop where
  login : s.userLogin.length < 2 ^ 16
  expire : unix s.expire < 2 ^ 32

/-- What a search answers, after the requests in `past`. -/
structure Justified (userDB : DefaultDB) (past : History) (token : SessionToken) (now : Int)
    (answer : Answer) : Prop where
  /-- Only a standing session of an existing user is found, and not after its expiry. -/
  sound : ∀ s, answer = .found s → ∃ created u, standing past token = some created ∧
    userDB.byLogin created.userLogin = some u ∧ s.userLogin = created.userLogin ∧
    s.token = token ∧ now ≤ created.expire
  /-- A standing session is found until its truncated expiry. -/
  kept : answer ≠ .notOpen → ∀ created, standing past token = some created → Storable created →
    (∀ earlier ∈ past, earlier.1.time ≤ created.truncated) → now ≤ created.truncated →
    ∃ s, answer = .found s ∧ s.userLogin = created.userLogin ∧ s.token = token

def AllJustified (userDB : DefaultDB) : History → Prop
  | [] => True
  | (event, answer) :: past =>
    (∀ token, event.request = .find token → Justified userDB past token event.time answer) ∧
      AllJustified userDB past

def ExpiresSinceEpoch (sessionTTL : Int) (event : Event) : Prop :=
  match event.request with
  | .new _ _ => 0 ≤ event.time + sessionTTL
  | _ => True

instance (sessionTTL : Int) (event : Event) : Decidable (ExpiresSinceEpoch sessionTTL event) :=
  match event with
  | ⟨time, .new _ _, _⟩ => inferInstanceAs (Decidable (0 ≤ time + sessionTTL))
  | ⟨_, .find _, _⟩ => .isTrue trivial
  | ⟨_, .delete _, _⟩ => .isTrue trivial
  | ⟨_, .reopen, _⟩ => .isTrue trivial

structure Consistent (userDB : DefaultDB) (ds : DefaultSessionStorage) (history : History) :
    Prop where
  created : ∀ t s, standing history t = some s → 0 ≤ s.expire ∧ s.token = t ∧
    ∃ u, userDB.byLogin s.userLogin = some u
  loaded : ∀ sessions, ds.sessions = some sessions → ∀ t s, sessions.get t = some s →
    ∃ created, standing history t = some created ∧ s.userLogin = created.userLogin ∧ s.token = t ∧
      s.expire ≤ created.expire
  stored : ∀ t v, (ds.bucket.getD ∅).get t = some v →
    ∃ created, standing history t = some created ∧ v = bboltEncode created
  kept : ∀ t created, standing history t = some created → Storable created →
    (∀ earlier ∈ history, earlier.1.time ≤ created.truncated) →
    (ds.bucket.getD ∅).get t = some (bboltEncode created) ∧
    ∀ sessions, ds.sessions = some sessions → ∃ s, sessions.get t = some s ∧
      s.userLogin = created.userLogin ∧ s.token = t ∧ created.truncated ≤ s.expire
  justified : AllJustified userDB history

theorem truncated_le (s : Session) : s.truncated ≤ s.expire :=
  Int.ediv_mul_le _ (by decide)

theorem wrapped_le {s : Session} (since : 0 ≤ s.expire) :
    unix s.expire % 2 ^ 32 * second ≤ s.expire := by
  have nonneg : 0 ≤ unix s.expire := Int.ediv_nonneg since (by decide)
  have wrapped : unix s.expire % 2 ^ 32 ≤ unix s.expire := by omega
  exact Int.le_trans (Int.mul_le_mul_of_nonneg_right wrapped (by decide)) (truncated_le s)

theorem wrapped_eq {s : Session} (since : 0 ≤ s.expire) (fits : unix s.expire < 2 ^ 32) :
    unix s.expire % 2 ^ 32 * second = s.truncated := by
  have nonneg : 0 ≤ unix s.expire := Int.ediv_nonneg since (by decide)
  rw [Session.truncated, Int.emod_eq_of_lt nonneg fits]

variable {userDB : DefaultDB} {sessionTTL : Int} {ds : DefaultSessionStorage} {history : History}
  {event : Event}

namespace Consistent

variable {answer : Answer} {sessions : FiniteMap SessionToken Session}
  {after : DefaultSessionStorage} {t : SessionToken}

/-- An answer that says nothing of the standing sessions, for an unchanged storage. -/
theorem same (consistent : Consistent userDB ds history)
    (quiet : ∀ t, standing ((event, answer) :: history) t = standing history t)
    (search : ∀ token, event.request = .find token →
      Justified userDB history token event.time answer) :
    Consistent userDB ds ((event, answer) :: history) where
  created t s stands := consistent.created t s (quiet t ▸ stands)
  loaded sessions opened t s found := by
    rw [quiet t]
    exact consistent.loaded sessions opened t s found
  stored t v found := by
    rw [quiet t]
    exact consistent.stored t v found
  kept t created stands fits timely := consistent.kept t created (quiet t ▸ stands) fits
    fun earlier member => timely earlier (List.mem_cons_of_mem _ member)
  justified := ⟨search, consistent.justified⟩

/-- A request that searches nothing asks for no justification. -/
theorem noSearch {request : Request} (asked : event.request = request)
    (other : ∀ token, request ≠ .find token) :
    ∀ token, event.request = .find token → Justified userDB history token event.time answer := by
  intro token search
  exact absurd (asked.symm.trans search) (other token)

theorem new (consistent : Consistent userDB ds history)
    (opened : ds.sessions = some sessions)
    {login : Bytes} {u : User} {token : SessionToken} (named : userDB.byLogin login = some u)
    (asked : event.request = .new login token) (late : 0 ≤ event.time + sessionTTL) :
    Consistent userDB (ds.new sessionTTL sessions event.time u token event.txOK).1
      ((event, (ds.new sessionTTL sessions event.time u token event.txOK).2) :: history) := by
  unfold DefaultSessionStorage.new
  dsimp only
  split
  next failed => exact consistent.same (fun _ => rfl) (noSearch asked nofun)
  next bkt put =>
    obtain rfl : (ds.bucket.getD ∅).set token
        (bboltEncode ⟨event.time + sessionTTL, u.login, token, u.id⟩) = bkt := by
      unfold store at put
      split at put
      next => nomatch put
      next => exact Option.some.inj put
    exact {
      created := by
        intro t s stands
        simp only [standing] at stands
        split at stands
        next same =>
          obtain rfl := Option.some.inj stands
          exact ⟨late, same, u, by rw [DefaultDB.login_byLogin named, named]⟩
        next => exact consistent.created t s stands
      loaded := by
        intro others same t s found
        obtain rfl := Option.some.inj same
        rw [FiniteMap.get_set] at found
        simp only [standing]
        split at found
        next same =>
          obtain rfl := Option.some.inj found
          exact ⟨_, if_pos same.symm, rfl, same.symm, Int.le_refl _⟩
        next other =>
          rw [if_neg (Ne.symm other)]
          exact consistent.loaded sessions opened t s found
      stored := by
        intro t v found
        rw [Option.getD_some, FiniteMap.get_set] at found
        simp only [standing]
        split at found
        next same => exact ⟨_, if_pos same.symm, (Option.some.inj found).symm⟩
        next other =>
          rw [if_neg (Ne.symm other)]
          exact consistent.stored t v found
      kept := by
        intro t created stands fits timely
        simp only [standing] at stands
        rw [Option.getD_some, FiniteMap.get_set]
        split at stands
        next same =>
          subst same
          obtain rfl := Option.some.inj stands
          refine ⟨if_pos rfl, ?_⟩
          intro others same
          obtain rfl := Option.some.inj same
          exact ⟨_, FiniteMap.get_set_self _ _ _, rfl, rfl, truncated_le _⟩
        next other =>
          obtain ⟨there, here⟩ := consistent.kept t created stands fits
            fun earlier member => timely earlier (List.mem_cons_of_mem _ member)
          refine ⟨(if_neg (Ne.symm other)).trans there, ?_⟩
          intro others same
          obtain rfl := Option.some.inj same
          rw [FiniteMap.get_set, if_neg (Ne.symm other)]
          exact here sessions opened
      justified := ⟨noSearch asked nofun, consistent.justified⟩ }

/-- What a deletion in both the memory and the database leaves. -/
theorem deleteByToken {txOK : Bool} (deleted : ds.deleteByToken sessions t txOK = some after) :
    after.sessions = some (sessions.delete t) ∧
      ∀ other, (after.bucket.getD ∅).get other =
        if other = t then none else (ds.bucket.getD ∅).get other := by
  unfold DefaultSessionStorage.deleteByToken at deleted
  split at deleted
  next => nomatch deleted
  next bkt removed =>
    obtain rfl := Option.some.inj deleted
    refine ⟨rfl, ?_⟩
    intro other
    unfold remove at removed
    split at removed
    next => nomatch removed
    next =>
      obtain ⟨before, present, rfl⟩ := Option.map_eq_some_iff.mp removed
      rw [present]
      exact FiniteMap.get_delete _ _ _

theorem delete (consistent : Consistent userDB ds history)
    (opened : ds.sessions = some sessions)
    (asked : event.request = .delete t)
    (deleted : ds.deleteByToken sessions t event.txOK = some after) :
    Consistent userDB after ((event, .deleted t) :: history) := by
  obtain ⟨memory, bucket⟩ := deleteByToken deleted
  exact {
    created := by
      intro other s stands
      simp only [standing] at stands
      split at stands
      next => nomatch stands
      next => exact consistent.created other s stands
    loaded := by
      intro others same other s found
      obtain rfl := Option.some.inj (memory.symm.trans same)
      rw [FiniteMap.get_delete] at found
      simp only [standing]
      split at found
      next => nomatch found
      next apart =>
        rw [if_neg (Ne.symm apart)]
        exact consistent.loaded sessions opened other s found
    stored := by
      intro other v found
      rw [bucket] at found
      simp only [standing]
      split at found
      next => nomatch found
      next apart =>
        rw [if_neg (Ne.symm apart)]
        exact consistent.stored other v found
    kept := by
      intro other created stands fits timely
      simp only [standing] at stands
      split at stands
      next => nomatch stands
      next apart =>
        obtain ⟨there, here⟩ := consistent.kept other created stands fits
          fun earlier member => timely earlier (List.mem_cons_of_mem _ member)
        rw [bucket, if_neg (Ne.symm apart)]
        refine ⟨there, ?_⟩
        intro others same
        obtain rfl := Option.some.inj (memory.symm.trans same)
        rw [FiniteMap.get_delete, if_neg (Ne.symm apart)]
        exact here sessions opened
    justified := ⟨noSearch asked nofun, consistent.justified⟩ }

/-- An expired session leaves the memory and the database, and the one created is past. -/
theorem expired (consistent : Consistent userDB ds history)
    (opened : ds.sessions = some sessions)
    {s : Session} (present : sessions.get t = some s)
    (expired : s.expire < event.time)
    (deleted : ds.deleteByToken sessions t event.txOK = some after)
    (quiet : ∀ other, standing ((event, answer) :: history) other = standing history other)
    (search : ∀ other, event.request = .find other →
      Justified userDB history other event.time answer) :
    Consistent userDB after ((event, answer) :: history) := by
  obtain ⟨memory, bucket⟩ := deleteByToken deleted
  exact {
    created := fun other created stands => consistent.created other created (quiet other ▸ stands)
    loaded := by
      intro others same other s found
      obtain rfl := Option.some.inj (memory.symm.trans same)
      rw [FiniteMap.get_delete] at found
      rw [quiet]
      split at found
      next => nomatch found
      next => exact consistent.loaded sessions opened other s found
    stored := by
      intro other v found
      rw [bucket] at found
      rw [quiet]
      split at found
      next => nomatch found
      next => exact consistent.stored other v found
    kept := by
      intro other created stands fits timely
      rw [quiet] at stands
      obtain ⟨there, here⟩ := consistent.kept other created stands fits
        fun earlier member => timely earlier (List.mem_cons_of_mem _ member)
      have apart : other ≠ t := by
        rintro rfl
        obtain ⟨s', present', _, _, late⟩ := here sessions opened
        obtain rfl := Option.some.inj (present.symm.trans present')
        have early := timely _ List.mem_cons_self
        exact absurd (Int.le_trans early late) (Int.not_le.mpr expired)
      rw [bucket, if_neg apart]
      refine ⟨there, ?_⟩
      intro others same
      obtain rfl := Option.some.inj (memory.symm.trans same)
      rw [FiniteMap.get_delete, if_neg apart]
      exact here sessions opened
    justified := ⟨search, consistent.justified⟩ }

theorem find (consistent : Consistent userDB ds history)
    (opened : ds.sessions = some sessions)
    (asked : event.request = .find t) :
    Consistent userDB (ds.findByToken sessions event.time t event.txOK).1
      ((event, (ds.findByToken sessions event.time t event.txOK).2) :: history) := by
  have search : ∀ answer, Justified userDB history t event.time answer → ∀ other,
      event.request = .find other → Justified userDB history other event.time answer := by
    intro answer justified other same
    obtain rfl := Request.find.inj (asked.symm.trans same)
    exact justified
  unfold DefaultSessionStorage.findByToken
  split
  next absent =>
    refine consistent.same (fun _ => rfl) (search _ ⟨nofun, ?_⟩)
    intro _ created stands fits timely _
    obtain ⟨s, present, _⟩ := (consistent.kept t created stands fits timely).2 sessions opened
    nomatch absent.symm.trans present
  next s present =>
    have missed : s.expire < event.time → ∀ answer, (∀ s, answer ≠ .found s) →
        Justified userDB history t event.time answer := by
      intro expired answer other
      refine ⟨fun s found => absurd found (other s), ?_⟩
      intro _ created stands fits timely early
      obtain ⟨s', present', _, _, late⟩ :=
        (consistent.kept t created stands fits timely).2 sessions opened
      obtain rfl := Option.some.inj (present.symm.trans present')
      exact absurd (Int.le_trans early late) (Int.not_le.mpr expired)
    split
    next expired =>
      split
      next => exact consistent.same (fun _ => rfl) (search _ (missed expired _ nofun))
      next after deleted =>
        exact consistent.expired opened present expired deleted (fun _ => rfl)
          (search _ (missed expired _ nofun))
    next current =>
      have early : event.time ≤ s.expire := Int.not_lt.mp current
      obtain ⟨created, stands, login, token, late⟩ := consistent.loaded sessions opened t s present
      obtain ⟨_, _, u, named⟩ := consistent.created t created stands
      refine consistent.same (fun _ => rfl) (search _ ⟨?_, ?_⟩)
      · intro other found
        obtain rfl := Answer.found.inj found
        exact ⟨created, u, stands, named, login, token, Int.le_trans early late⟩
      · intro _ other stands' _ _ _
        obtain rfl := Option.some.inj (stands.symm.trans stands')
        exact ⟨s, rfl, login, token⟩

/-- What the handler makes of the record of a session of an existing user. -/
theorem bboltSessionHandler_bboltEncode {created : Session} {u : User}
    (named : userDB.byLogin created.userLogin = some u) (now : Int) (t : SessionToken) :
    bboltSessionHandler userDB now t (bboltEncode created) =
      if created.userLogin.length < 2 ^ 16 ∧ now ≤ unix created.expire % 2 ^ 32 * second then
        some ⟨unix created.expire % 2 ^ 32 * second, created.userLogin, t, u.id⟩
      else none := by
  unfold bboltSessionHandler
  rw [bboltDecode_bboltEncode]
  by_cases short : created.userLogin.length < 2 ^ 16
  · rw [if_pos short]
    by_cases early : now ≤ unix created.expire % 2 ^ 32 * second
    · rw [if_pos ⟨short, early⟩]
      dsimp only
      rw [if_neg (Int.not_lt.mpr early), named]
    · rw [if_neg fun both => early both.2]
      dsimp only
      rw [if_pos (Int.not_le.mp early)]
  · rw [if_neg short, if_neg fun both => short both.1]

/-- The bucket that is left has the valid records. -/
theorem get_processSessions (userDB : DefaultDB) (now : Int) (bkt : Bucket) (t : SessionToken) :
    (processSessions userDB now bkt).1.get t =
      if (bkt.get t).bind (bboltSessionHandler userDB now t) = none then none else bkt.get t := by
  unfold processSessions
  dsimp only
  rw [FiniteMap.get_deleteAll]
  have listed : t ∈ (AList.keys bkt).filter (fun k =>
      ((bkt.get k).bind (bboltSessionHandler userDB now k)).isNone) ↔
      (∃ v, bkt.get t = some v) ∧ (bkt.get t).bind (bboltSessionHandler userDB now t) = none := by
    rw [List.mem_filter, FiniteMap.mem_keys, Option.isNone_iff_eq_none]
  cases found : bkt.get t with
  | none => simp
  | some v =>
    rw [found] at listed
    simp [listed]

/-- What a record of the bucket tells of the session it was written for. -/
theorem record (consistent : Consistent userDB ds history) {bkt : Bucket}
    (present : ds.bucket = some bkt) {v : Bytes} (found : bkt.get t = some v) :
    ∃ created u, standing history t = some created ∧ 0 ≤ created.expire ∧
      v = bboltEncode created ∧ userDB.byLogin created.userLogin = some u := by
  have recorded : (ds.bucket.getD ∅).get t = some v := by
    rw [present]
    exact found
  obtain ⟨created, stands, same⟩ := consistent.stored t v recorded
  obtain ⟨since, _, u, named⟩ := consistent.created t created stands
  exact ⟨created, u, stands, since, same, named⟩

/-- The record of a session that is to be kept passes the handler of a timely loading. -/
theorem record_valid (consistent : Consistent userDB ds history) {bkt : Bucket}
    (present : ds.bucket = some bkt) {created : Session}
    (stands : standing history t = some created) (fits : Storable created)
    (earlier : ∀ earlier ∈ history, earlier.1.time ≤ created.truncated) {now : Int}
    (timely : now ≤ created.truncated) :
    bkt.get t = some (bboltEncode created) ∧ ∃ u,
      (bkt.get t).bind (bboltSessionHandler userDB now t) =
        some ⟨created.truncated, created.userLogin, t, u⟩ := by
  have there := (consistent.kept t created stands fits earlier).1
  rw [present, Option.getD_some] at there
  obtain ⟨since, _, u, named⟩ := consistent.created t created stands
  refine ⟨there, u.id, ?_⟩
  rw [there, Option.bind_some, bboltSessionHandler_bboltEncode named,
    wrapped_eq since fits.expire, if_pos ⟨fits.login, timely⟩]

/-- Loading the records of a bucket. -/
theorem reload (consistent : Consistent userDB ds history) {bkt : Bucket}
    (present : ds.bucket = some bkt)
    (quiet : ∀ t, standing ((event, answer) :: history) t = standing history t)
    (search : ∀ token, event.request = .find token →
      Justified userDB history token event.time answer) :
    Consistent userDB ⟨some (processSessions userDB event.time bkt).1,
      some (processSessions userDB event.time bkt).2⟩ ((event, answer) :: history) where
  created t s stands := consistent.created t s (quiet t ▸ stands)
  loaded := by
    intro sessions same t s found
    obtain rfl := Option.some.inj same
    have valid := (FiniteMap.get_filterMap _ _ _).symm.trans found
    obtain ⟨v, there, handled⟩ := Option.bind_eq_some_iff.mp valid
    obtain ⟨created, u, stands, since, rfl, named⟩ := consistent.record present there
    rw [bboltSessionHandler_bboltEncode named] at handled
    split at handled
    next =>
      obtain rfl := Option.some.inj handled
      exact ⟨created, (quiet t).trans stands, rfl, rfl, wrapped_le since⟩
    next => nomatch handled
  stored := by
    intro t v found
    have left : (processSessions userDB event.time bkt).1.get t = some v := found
    rw [get_processSessions] at left
    split at left
    next => nomatch left
    next =>
      obtain ⟨created, _, stands, _, same, _⟩ := consistent.record present left
      exact ⟨created, (quiet t).trans stands, same⟩
  kept := by
    intro t created stands fits timely
    obtain ⟨there, u, valid⟩ := consistent.record_valid present (quiet t ▸ stands) fits
      (fun earlier member => timely earlier (List.mem_cons_of_mem _ member))
      (timely _ List.mem_cons_self)
    constructor
    · have left := get_processSessions userDB event.time bkt t
      rw [valid, if_neg (Option.some_ne_none _), there] at left
      exact left
    · intro sessions same
      obtain rfl := Option.some.inj same
      exact ⟨_, (FiniteMap.get_filterMap _ _ _).trans valid, rfl, rfl, Int.le_refl _⟩
  justified := ⟨search, consistent.justified⟩

theorem reopen (consistent : Consistent userDB ds history) (asked : event.request = .reopen) :
    Consistent userDB (ds.reopen userDB event.time event.txOK).1
      ((event, (ds.reopen userDB event.time event.txOK).2) :: history) := by
  have earlier : ∀ {created : Session} {answer : Answer},
      (∀ earlier ∈ (event, answer) :: history, earlier.1.time ≤ created.truncated) →
        ∀ earlier ∈ history, earlier.1.time ≤ created.truncated :=
    fun timely before member => timely before (List.mem_cons_of_mem _ member)
  unfold DefaultSessionStorage.reopen loadSessions
  cases event.txOK with
  | false => exact {
      created := consistent.created
      loaded := nofun
      stored := consistent.stored
      kept := fun t created stands fits timely =>
        ⟨(consistent.kept t created stands fits (earlier timely)).1, nofun⟩
      justified := ⟨noSearch asked nofun, consistent.justified⟩ }
  | true =>
    cases present : ds.bucket with
    | none =>
      have empty : ∀ t created, standing history t = some created → Storable created →
          ¬ ∀ earlier ∈ history, earlier.1.time ≤ created.truncated := by
        intro t created stands fits timely
        have there := (consistent.kept t created stands fits timely).1
        rw [present] at there
        nomatch there
      exact {
        created := consistent.created
        loaded := by
          intro sessions same t s found
          obtain rfl := Option.some.inj same
          nomatch found
        stored := by
          intro t v found
          nomatch found
        kept := fun t created stands fits timely =>
          absurd (earlier timely) (empty t created stands fits)
        justified := ⟨noSearch asked nofun, consistent.justified⟩ }
    | some bkt => exact consistent.reload present (fun _ => rfl) (noSearch asked nofun)

/-- Every request leaves the memory and the database consistent with the history. -/
theorem next (consistent : Consistent userDB ds history)
    (late : ExpiresSinceEpoch sessionTTL event) :
    Consistent userDB ((machine userDB sessionTTL).step ds event).1
      ((event, ((machine userDB sessionTTL).step ds event).2) :: history) := by
  have idle : ∀ answer, (∀ t, standing ((event, answer) :: history) t = standing history t) →
      answer = .notOpen ∨ (∀ t, event.request ≠ .find t) →
        Consistent userDB ds ((event, answer) :: history) := by
    intro answer quiet silent
    refine consistent.same quiet fun token search => ?_
    rcases silent with rfl | other
    · exact ⟨nofun, fun opened => absurd rfl opened⟩
    · exact absurd search (other token)
  unfold machine DefaultSessionStorage.step
  dsimp only
  cases asked : event.request with
  | reopen => exact consistent.reopen asked
  | new login token =>
    cases opened : ds.sessions with
    | none => exact idle _ (fun _ => rfl) (Or.inl rfl)
    | some sessions =>
      cases named : userDB.byLogin login with
      | none =>
        simp only [named]
        exact idle _ (fun _ => rfl) (Or.inr fun t search => nomatch asked.symm.trans search)
      | some u =>
        simp only [named]
        unfold ExpiresSinceEpoch at late
        rw [asked] at late
        exact consistent.new opened named asked late
  | find token =>
    cases opened : ds.sessions with
    | none => exact idle _ (fun _ => rfl) (Or.inl rfl)
    | some sessions => exact consistent.find opened asked
  | delete token =>
    cases opened : ds.sessions with
    | none => exact idle _ (fun _ => rfl) (Or.inl rfl)
    | some sessions =>
      cases deleted : ds.deleteByToken sessions token event.txOK with
      | none =>
        simp only [deleted]
        exact idle _ (fun _ => rfl) (Or.inr fun t search => nomatch asked.symm.trans search)
      | some after =>
        simp only [deleted]
        exact consistent.delete opened asked deleted

end Consistent

def fresh : DefaultSessionStorage := ⟨none, some ∅⟩

theorem consistent_fresh : Consistent userDB fresh [] where
  created _ _ stands := nomatch stands
  loaded sessions opened t s found := by
    obtain rfl := Option.some.inj opened
    nomatch found
  stored _ _ found := nomatch found
  kept _ _ stands := nomatch stands
  justified := trivial

/-- In every run in which no session expires before the epoch, all searches are justified. -/
theorem allJustified_run (userDB : DefaultDB) (sessionTTL : Int) (events : List Event)
    (late : ∀ event ∈ events, ExpiresSinceEpoch sessionTTL event) :
    AllJustified userDB
      ((machine userDB sessionTTL).recording.run (fresh, []) events).2 := by
  have kept : ∀ state : DefaultSessionStorage × History, Consistent userDB state.1 state.2 →
      Consistent userDB ((machine userDB sessionTTL).recording.run state events).1
        ((machine userDB sessionTTL).recording.run state events).2 := by
    induction events with
    | nil => exact fun _ consistent => consistent
    | cons event rest ih =>
      intro state consistent
      exact ih (fun later member => late later (List.mem_cons_of_mem _ member)) _
        (consistent.next (late event List.mem_cons_self))
  exact (kept (fresh, []) consistent_fresh).justified

/-- A user, and runs of a session that is found again after the storage is opened again. -/
private def admins : DefaultDB :=
  match DefaultDB.newDefaultDB.create ⟨lit "admin", 7⟩ with
  | .ok db => db
  | .error _ => DefaultDB.newDefaultDB

private def newYear2026 : Int := 1767225600 * second

@[irreducible] private def foundAgain : List Event :=
  [⟨newYear2026, .new (lit "admin") 1, true⟩, ⟨newYear2026 + 5, .new (lit "nobody") 2, true⟩,
    ⟨newYear2026 + second, .delete 1, false⟩, ⟨newYear2026 + second, .reopen, true⟩,
    ⟨newYear2026 + 2 * second, .find 1, true⟩]

theorem allJustified_foundAgain :
    AllJustified admins ((machine admins (3600 * second)).recording.run (fresh, []) foundAgain).2 :=
  allJustified_run admins (3600 * second) foundAgain (by decide +kernel)

private def longAgo : Int := -600000 * 3600 * second

private theorem record_longAgo :
    ((machine admins longAgo).recording.run (fresh, [])
      [⟨newYear2026, .new (lit "admin") 1, true⟩, ⟨newYear2026, .reopen, true⟩,
        ⟨newYear2026 + second, .find 1, true⟩]).2 =
      [(⟨newYear2026 + second, .find 1, true⟩, .found ⟨3902192896 * second, lit "admin", 1, 7⟩),
        (⟨newYear2026, .reopen, true⟩, .opened),
        (⟨newYear2026, .new (lit "admin") 1, true⟩,
          .created ⟨newYear2026 + longAgo, lit "admin", 1, 7⟩)] := by
  decide +kernel

/-- The session has expired when it is created, and is found after the storage is opened again. -/
theorem allJustified_longAgo :
    ¬ AllJustified admins ((machine admins longAgo).recording.run (fresh, [])
      [⟨newYear2026, .new (lit "admin") 1, true⟩, ⟨newYear2026, .reopen, true⟩,
        ⟨newYear2026 + second, .find 1, true⟩]).2 := by
  rw [record_longAgo]
  intro justified
  obtain ⟨created, _, stands, _, _, _, early⟩ := (justified.1 1 rfl).sound _ rfl
  obtain rfl := Option.some.inj stands
  exact absurd early (by decide +kernel)

end AdGuardHome.Aghuser
