import AdGuardHome.Aghuser.SessionRuns
import AdGuardHome.Home.AuthRateLimiter

/-! `authhttp.go` and `auth.go`: who gets past the authentication. -/
namespace AdGuardHome.Home

open Aghuser Strings Transition

/-- A request as the middleware reads it, with the pattern that the multiplexer finds for it and the
host of its remote address. -/
structure Request where
  path : Bytes
  pattern : Bytes
  cookie : Option Bytes
  basicAuth : Option (Bytes × Bytes)
  remoteIP : Option Bytes

/-- `authConfig`, where a missing rate limiter is the empty one, with the comparison of a hash with
a password, and whether `netip.ParseAddr` succeeds. -/
structure AuthConfig where
  users : DefaultDB
  passwords : FiniteMap UserID Bytes
  rateLimiter : Option AuthRateLimiter
  sessionTTL : Int
  doHRoutes : List Bytes
  authenticate : Bytes → Bytes → Bool
  isAddr : Bytes → Bool

/-- `auth`, with the hashes of the passwords and all that was asked of the session storage. -/
structure Auth where
  passwords : FiniteMap UserID Bytes
  rateLimiter : Option AuthRateLimiter
  sessions : DefaultSessionStorage × History

inductive Response where
  | next (u : Option User)
  | redirect (location : Bytes)
  | loggedIn (cookie : Bytes)
  | ok
  | error (status : Nat)
deriving DecidableEq

/-- `path.Match` for a pattern that is a path and `*`. -/
def matchStar (start p : Bytes) : Bool :=
  hasPrefix p start && !(p.drop start.length).contains (47 : BitVec 8)

def isPublicResource (p : Bytes) : Bool :=
  matchStar (lit "/assets/") p || matchStar (lit "/login.") p ||
    matchStar (lit "/forgot_password.") p ||
    [lit "/control/login", lit "/apple/doh.mobileconfig", lit "/apple/dot.mobileconfig",
      lit "/control/install/get_addresses", lit "/control/install/check_config",
      lit "/control/install/configure", lit "/install.html"].contains p

def sessionTokenLength : Nat := 16

def sessionTokenFromHex (val : Bytes) : Option SessionToken :=
  match Hex.decode val with
  | none => none
  | some sess =>
    if sess.length = sessionTokenLength then some (BitVec.ofNat 128 (BigEndian.get sess)) else none

def cookieValue (token : SessionToken) : Bytes :=
  Hex.encode (BigEndian.put sessionTokenLength token.toNat)

theorem sessionTokenFromHex_cookieValue (token : SessionToken) :
    sessionTokenFromHex (cookieValue token) = some token := by
  have fits : token.toNat < 256 ^ sessionTokenLength := token.isLt
  rw [sessionTokenFromHex, cookieValue, Hex.decode_encode]
  simp only [BigEndian.length_put, if_true, BigEndian.get_put, Nat.mod_eq_of_lt fits,
    BitVec.ofNat_toNat, BitVec.setWidth_eq]

namespace AuthConfig

variable (c : AuthConfig) (a : Auth)

/-- `newAuth` on a new database. -/
def newAuth : Auth := ⟨c.passwords, c.rateLimiter, fresh, []⟩

def check (remoteIP : Bytes) (now : Int) : Auth × Int :=
  match a.rateLimiter with
  | none => (a, 0)
  | some ab => ({ a with rateLimiter := some (ab.check remoteIP now).1 }, (ab.check remoteIP now).2)

def credentials (login pass : Bytes) : Option User :=
  (c.users.byLogin login).filter fun u => c.authenticate ((a.passwords.get u.id).getD []) pass

/-- The credentials are checked, which the rate limiter keeps count of. -/
def tryCredentials (remoteIP login pass : Bytes) (now : Int) : Auth × Option User :=
  match c.credentials a login pass with
  | none => ({ a with rateLimiter := a.rateLimiter.map (·.inc remoteIP now) }, none)
  | some u => ({ a with rateLimiter := a.rateLimiter.map (·.remove remoteIP) }, some u)

def ask (event : Aghuser.Event) : Auth × Aghuser.Answer :=
  let machine := Aghuser.machine c.users c.sessionTTL
  ({ a with sessions := machine.recording.next a.sessions event },
    machine.answer a.sessions.1 event)

def userFromCookie (val : Bytes) (now : Int) (txOK : Bool) : Auth × Option User :=
  match sessionTokenFromHex val with
  | none => (a, none)
  | some t =>
    let (a, answer) := c.ask a ⟨now, .find t, txOK⟩
    (a, match answer with
      | .found s => c.users.byLogin s.userLogin
      | _ => none)

def userFromRequestBasicAuth (r : Request) (now : Int) : Auth × Option User :=
  match r.basicAuth, r.remoteIP with
  | some (login, pass), some remoteIP =>
    let (a, left) := check a remoteIP now
    if 0 < left then (a, none) else c.tryCredentials a remoteIP login pass now
  | _, _ => (a, none)

def userFromRequest (r : Request) (now : Int) (txOK : Bool) : Auth × Option User :=
  match r.cookie with
  | some val => c.userFromCookie a val now txOK
  | none => c.userFromRequestBasicAuth a r now

def needsAuthentication : Bool := !(AList.keys c.users.userIDToUser).isEmpty

def isDoHRoute (r : Request) : Bool := r.pattern ≠ [] && c.doHRoutes.contains r.pattern

/-- What `handleAuthenticatedUser` answers to a user. -/
def authenticatedUser (r : Request) (u : User) : Response :=
  if r.path = lit "/login.html" ∨ r.path = lit "/forgot_password.html" then .redirect (lit "/")
  else .next (some u)

/-- `handlePublicAccess`, and what is left after it. -/
def publicAccess (r : Request) : Response :=
  if isPublicResource r.path || c.isDoHRoute r then .next none
  else if r.path = lit "/" ∨ r.path = lit "/index.html" then .redirect (lit "login.html")
  else .error 401

/-- `authMiddlewareDefault.Wrap`. -/
def wrap (r : Request) (now : Int) (txOK : Bool) : Auth × Response :=
  if !c.needsAuthentication then (a, .next none)
  else
    let (a, u) := c.userFromRequest a r now txOK
    (a, match u with
      | some u => authenticatedUser r u
      | none => c.publicAccess r)

/-- `handleLogin`, for the name and the password of its body. -/
def handleLogin (remoteIP : Option Bytes) (body : Option (Bytes × Bytes)) (token : SessionToken)
    (now : Int) (txOK : Bool) : Auth × Response :=
  match body, remoteIP with
  | some (name, password), some remoteIP =>
    let (a, left) := check a remoteIP now
    if 0 < left then (a, .error 429)
    else if !c.isAddr remoteIP then (a, .error 500)
    else
      match c.tryCredentials a remoteIP name password now with
      | (a, none) => (a, .error 403)
      | (a, some u) =>
        let (a, answer) := c.ask a ⟨now, .new u.login token, txOK⟩
        (a, match answer with
          | .created s => .loggedIn (cookieValue s.token)
          | _ => .error 403)
  | _, _ => (a, .error 400)

def handleLogout (cookie : Option Bytes) (now : Int) (txOK : Bool) : Auth × Response :=
  match cookie with
  | none => (a, .redirect (lit "/login.html"))
  | some val =>
    match sessionTokenFromHex val with
    | none => (a, .error 401)
    | some t => ((c.ask a ⟨now, .delete t, txOK⟩).1, .redirect (lit "/login.html"))

/-- `changePassword` and the checks of its handler, with the outcome of the hashing. -/
def changePassword (login current new : Bytes) (hash : Option Bytes) : Auth × Response :=
  if current = [] ∨ new.length < 4 then (a, .error 400)
  else
    match c.credentials a login current, hash with
    | some u, some hash => ({ a with passwords := a.passwords.set u.id hash }, .ok)
    | _, _ => (a, .error 400)

end AuthConfig

/-- The middleware on a request, the handlers that it passes on to, and a restart. -/
inductive AuthAct where
  | request (r : Request)
  | login (remoteIP : Option Bytes) (body : Option (Bytes × Bytes)) (token : SessionToken)
  | logout (cookie : Option Bytes)
  | changePassword (login current new : Bytes) (hash : Option Bytes)
  | restart

structure AuthEvent where
  time : Int
  act : AuthAct
  txOK : Bool

namespace AuthConfig

variable (c : AuthConfig)

def machine : Machine Auth AuthEvent Response where
  step a event :=
    match event.act with
    | .request r => c.wrap a r event.time event.txOK
    | .login remoteIP body token => c.handleLogin a remoteIP body token event.time event.txOK
    | .logout cookie => c.handleLogout a cookie event.time event.txOK
    | .changePassword login current new hash => c.changePassword a login current new hash
    | .restart =>
      ((c.ask { a with rateLimiter := c.rateLimiter } ⟨event.time, .reopen, event.txOK⟩).1, .ok)

/-- A login in this state that is answered with the cookie for the session. -/
def CreatedBy (a : Auth) (event : AuthEvent) (s : Session) : Prop :=
  ∃ remoteIP password, event.act = .login remoteIP (some (s.userLogin, password)) s.token ∧
    (c.credentials a s.userLogin password).isSome ∧ s.expire = event.time + c.sessionTTL ∧
    c.machine.answer a event = .loggedIn (cookieValue s.token)

section Runs

variable (events : List AuthEvent)

def after : Auth := c.machine.run c.newAuth events

def LoggedIn (s : Session) : Prop :=
  ∃ earlier event later, events = earlier ++ event :: later ∧ c.CreatedBy (c.after earlier) event s

/-- What lets a request of a user through after a run. -/
inductive Authenticated (r : Request) (now : Int) (u : User) : Prop
  /-- The cookie of a session that a login has created, that no logout has deleted since, and that
  has not expired. -/
  | cookie (val : Bytes) (s : Session) (sent : r.cookie = some val)
    (read : sessionTokenFromHex val = some s.token)
    (stands : standing (c.after events).sessions.2 s.token = some s) (timely : now ≤ s.expire)
    (user : c.users.byLogin s.userLogin = some u) (created : c.LoggedIn events s)
  /-- The right password, from an address that is not blocked. -/
  | basicAuth (login pass remoteIP : Bytes) (noCookie : r.cookie = none)
    (sent : r.basicAuth = some (login, pass)) (host : r.remoteIP = some remoteIP)
    (unblocked : (check (c.after events) remoteIP now).2 ≤ 0)
    (user : c.credentials (c.after events) login pass = some u)

structure Sound : Prop where
  consistent : Consistent c.users (c.after events).sessions.1 (c.after events).sessions.2
  created : ∀ t s, standing (c.after events).sessions.2 t = some s → c.LoggedIn events s

end Runs

variable {c} {a : Auth}

theorem standing_cons {event : Aghuser.Event} {answer : Aghuser.Answer} {h : History}
    {t : SessionToken} {s : Session} (stands : standing ((event, answer) :: h) t = some s) :
    standing h t = some s ∨ answer = .created s := by
  cases answer with
  | created other =>
    rw [standing] at stands
    split at stands
    · exact .inr (congrArg _ (Option.some.inj stands))
    · exact .inl stands
  | deleted token =>
    rw [standing] at stands
    split at stands
    · cases stands
    · exact .inl stands
  | _ => exact .inl stands

/-- What the storage creates. -/
theorem answer_created {users : DefaultDB} {ttl : Int} {ds : DefaultSessionStorage}
    {event : Aghuser.Event} {s : Session}
    (created : (Aghuser.machine users ttl).answer ds event = .created s) :
    event.request = .new s.userLogin s.token ∧ s.expire = event.time + ttl := by
  obtain ⟨time, request, txOK⟩ := event
  change (ds.step users ttl ⟨time, request, txOK⟩).2 = _ at created
  grind [DefaultSessionStorage.step, DefaultSessionStorage.reopen, DefaultSessionStorage.new,
    DefaultSessionStorage.findByToken, DefaultDB.login_byLogin]

@[simp] theorem sessions_check (remoteIP : Bytes) (now : Int) :
    (check a remoteIP now).1.sessions = a.sessions := by
  unfold check
  split <;> rfl

@[simp] theorem credentials_check (remoteIP : Bytes) (now : Int) :
    c.credentials (check a remoteIP now).1 = c.credentials a := by
  unfold check
  split <;> rfl

@[simp] theorem sessions_tryCredentials (remoteIP login pass : Bytes) (now : Int) :
    (c.tryCredentials a remoteIP login pass now).1.sessions = a.sessions := by
  unfold tryCredentials
  split <;> rfl

@[simp] theorem user_tryCredentials (remoteIP login pass : Bytes) (now : Int) :
    (c.tryCredentials a remoteIP login pass now).2 = c.credentials a login pass := by
  unfold tryCredentials
  split <;> simp [*]

/-- An event asks nothing of the sessions, or makes one request; only a login creates one. -/
def Asks (c : AuthConfig) (a : Auth) (event : AuthEvent) (next : Auth) : Prop :=
  next.sessions = a.sessions ∨ ∃ asked : Aghuser.Event, asked.time = event.time ∧
    next.sessions = (Aghuser.machine c.users c.sessionTTL).recording.next a.sessions asked ∧
    ∀ s, (Aghuser.machine c.users c.sessionTTL).answer a.sessions.1 asked = .created s →
      c.CreatedBy a event s

theorem asks_ask (a : Auth) (event : AuthEvent) {request : Aghuser.Request} (txOK : Bool)
    (other : ∀ login token, request ≠ .new login token) :
    c.Asks a event (c.ask a ⟨event.time, request, txOK⟩).1 :=
  .inr ⟨_, rfl, rfl, fun _ made => absurd (answer_created made).1 (other _ _)⟩

theorem asks_login (a : Auth) (remoteIP : Option Bytes) (body : Option (Bytes × Bytes))
    (token : SessionToken) (time : Int) (txOK : Bool) :
    c.Asks a ⟨time, .login remoteIP body token, txOK⟩
      (c.handleLogin a remoteIP body token time txOK).1 := by
  obtain _ | ⟨name, password⟩ := body
  · exact .inl rfl
  obtain _ | ip := remoteIP
  · exact .inl rfl
  by_cases blocked : 0 < (check a ip time).2
  · exact .inl (by simp [handleLogin, blocked])
  by_cases parsed : c.isAddr ip = true
  · cases found : c.credentials a name password with
    | none => exact .inl (by simp [handleLogin, blocked, parsed, tryCredentials, found])
    | some u =>
      right
      refine ⟨⟨time, .new u.login token, txOK⟩, rfl, ?_, fun s made => ?_⟩
      · simp [handleLogin, blocked, parsed, tryCredentials, found, ask]
      · obtain ⟨asked, expire⟩ := answer_created made
        obtain ⟨user, rfl⟩ := Request.new.inj asked
        obtain rfl : s.userLogin = name :=
          user.symm.trans (DefaultDB.login_byLogin (Option.filter_eq_some_iff.mp found).1)
        refine ⟨some ip, password, rfl, by rw [found]; rfl, expire, ?_⟩
        show (c.handleLogin a (some ip) (some (s.userLogin, password)) s.token time txOK).2 = _
        simp [handleLogin, blocked, parsed, tryCredentials, found, ask, made]
  · exact .inl (by simp [handleLogin, blocked, parsed])

theorem asks_next (a : Auth) (event : AuthEvent) : c.Asks a event (c.machine.next a event) := by
  obtain ⟨time, act, txOK⟩ := event
  cases act with
  | request r =>
    show c.Asks a _ (c.wrap a r time txOK).1
    unfold wrap userFromRequest
    split
    · exact .inl rfl
    cases r.cookie with
    | some val =>
      dsimp only [userFromCookie]
      split
      · exact .inl rfl
      · exact asks_ask a ⟨time, .request r, txOK⟩ txOK nofun
    | none =>
      left
      dsimp only [userFromRequestBasicAuth]
      split
      · split <;> simp
      · rfl
  | login remoteIP body token => exact asks_login a remoteIP body token time txOK
  | logout cookie =>
    show c.Asks a _ (c.handleLogout a cookie time txOK).1
    unfold handleLogout
    split
    · exact .inl rfl
    · split
      · exact .inl rfl
      · exact asks_ask a ⟨time, .logout _, txOK⟩ txOK nofun
  | changePassword login current new hash =>
    left
    show (c.changePassword a login current new hash).1.sessions = _
    unfold changePassword
    split
    · rfl
    · split <;> rfl
  | restart => exact asks_ask a ⟨time, .restart, txOK⟩ txOK nofun

section Runs

variable {events : List AuthEvent}

theorem LoggedIn.later {s : Session} (created : c.LoggedIn events s)
    (event : AuthEvent) : c.LoggedIn (events ++ [event]) s := by
  obtain ⟨earlier, login, later, rfl, created⟩ := created
  exact ⟨earlier, login, later ++ [event], by simp, created⟩

theorem Sound.next (sound : c.Sound events) {event : AuthEvent}
    (late : 0 ≤ event.time + c.sessionTTL) :
    c.Sound (events ++ [event]) := by
  have last : c.after (events ++ [event]) =
      c.machine.next (c.after events) event := by
    rw [after, Machine.run_append]
    rfl
  rcases asks_next (c.after events) event with
    same | ⟨asked, time, step, creates⟩
  · rw [← last] at same
    exact ⟨same ▸ sound.consistent, fun t s stands => (sound.created t s (same ▸ stands)).later _⟩
  · rw [← last] at step
    have timely : ExpiresSinceEpoch c.sessionTTL asked := by
      rw [ExpiresSinceEpoch, time]
      split
      · exact late
      · trivial
    refine ⟨?_, fun t s stands => ?_⟩
    · rw [step]
      exact sound.consistent.next timely
    · rw [step] at stands
      rcases standing_cons stands with earlier | made
      · exact (sound.created t s earlier).later _
      · exact ⟨events, event, [], rfl, creates s made⟩

theorem sound_run (events : List AuthEvent)
    (late : ∀ event ∈ events, 0 ≤ event.time + c.sessionTTL) :
    c.Sound events := by
  induction events using List.reverseRecOn with
  | nil => exact ⟨consistent_fresh, fun _ _ stands => nomatch stands⟩
  | append_singleton events event ih =>
    rw [List.forall_mem_append] at late
    exact (ih late.1).next (late.2 event (List.mem_singleton.mpr rfl))

/-- What a search answers to the token of a cookie. -/
theorem Sound.find (sound : c.Sound events) (t : SessionToken) (now : Int)
    (txOK : Bool) :
    Justified c.users (c.after events).sessions.2 t now
      ((Aghuser.machine c.users c.sessionTTL).answer
        (c.after events).sessions.1 ⟨now, .find t, txOK⟩) :=
  (sound.consistent.next (show ExpiresSinceEpoch c.sessionTTL ⟨now, .find t, txOK⟩ from
    trivial)).justified.1 t rfl

theorem Sound.authenticated (sound : c.Sound events) {r : Request} {now : Int}
    {txOK : Bool} {u : User}
    (user : (c.userFromRequest (c.after events) r now txOK).2 = some u) :
    c.Authenticated events r now u := by
  unfold userFromRequest at user
  split at user
  next val sent =>
    unfold userFromCookie at user
    split at user
    next => nomatch user
    next t read =>
      simp only [ask] at user
      split at user
      next s found =>
        obtain ⟨created, u', stands, named, same, -, timely⟩ := (sound.find t now txOK).sound s found
        obtain rfl : u' = u := Option.some.inj (named.symm.trans (same ▸ user))
        obtain ⟨-, rfl, -⟩ := sound.consistent.created t created stands
        exact .cookie val created sent read stands timely named (sound.created _ _ stands)
      next => nomatch user
  next noCookie =>
    unfold userFromRequestBasicAuth at user
    split at user
    next login pass remoteIP sent host =>
      dsimp only at user
      split at user
      next => nomatch user
      next unblocked =>
        rw [user_tryCredentials, credentials_check] at user
        exact .basicAuth login pass remoteIP noCookie sent host (Int.not_lt.mp unblocked) user
    next => nomatch user

theorem next_authenticatedUser {r : Request} {u : User} {v : Option User}
    (passed : authenticatedUser r u = .next v) : v = some u := by
  unfold authenticatedUser at passed
  split at passed
  · nomatch passed
  · exact (Response.next.inj passed).symm

theorem next_publicAccess {r : Request} {v : Option User} (passed : c.publicAccess r = .next v) :
    v = none ∧ (isPublicResource r.path = true ∨ c.isDoHRoute r = true) := by
  unfold publicAccess at passed
  split at passed
  next open_ => exact ⟨(Response.next.inj passed).symm, Bool.or_eq_true _ _ ▸ open_⟩
  next => split at passed <;> nomatch passed

end Runs

/-- After every run, in which requests, handlers and restarts follow each other in any order, the
middleware passes a request on with a user only where it is authenticated, and without a user only
where there are no users or the path is public; and it accepts the cookie of a session that stands
until it expires. -/
theorem authenticated_run (c : AuthConfig) (events : List AuthEvent)
    (late : ∀ event ∈ events, 0 ≤ event.time + c.sessionTTL) (r : Request) (now : Int)
    (txOK : Bool) :
    let a := c.after events
    let response := c.machine.answer a ⟨now, .request r, txOK⟩
    (response = .next none → c.needsAuthentication = true →
      isPublicResource r.path = true ∨ c.isDoHRoute r = true) ∧
    (∀ u, response = .next (some u) → c.Authenticated events r now u) ∧
    (c.needsAuthentication = true → ∀ s, standing a.sessions.2 s.token = some s →
      r.cookie = some (cookieValue s.token) →
      Storable s → (∀ earlier ∈ a.sessions.2, earlier.1.time ≤ s.truncated) → now ≤ s.truncated →
      a.sessions.1.sessions ≠ none →
      ∃ u, c.users.byLogin s.userLogin = some u ∧ response = authenticatedUser r u) := by
  have sound := c.sound_run events late
  intro a response
  have answered : response = if !c.needsAuthentication then .next none
      else match (c.userFromRequest a r now txOK).2 with
        | some u => authenticatedUser r u
        | none => c.publicAccess r := by
    show (c.wrap a r now txOK).2 = _
    unfold wrap
    split <;> rfl
  refine ⟨fun passed needs => ?_, fun u passed => ?_, fun needs s stands sent fits earlier timely
    opened => ?_⟩
  · rw [answered, needs, Bool.not_true, if_neg Bool.false_ne_true] at passed
    split at passed
    next => nomatch next_authenticatedUser passed
    next => exact (next_publicAccess passed).2
  · rw [answered] at passed
    split at passed
    next => nomatch passed
    split at passed
    next found =>
      obtain rfl := Option.some.inj (next_authenticatedUser passed)
      exact sound.authenticated found
    next => nomatch (next_publicAccess passed).1
  · obtain ⟨-, -, u, named⟩ := sound.consistent.created _ s stands
    have open_ : (a.sessions.1.step c.users c.sessionTTL ⟨now, .find s.token, txOK⟩).2 ≠
        .notOpen := by
      grind [DefaultSessionStorage.step, DefaultSessionStorage.findByToken]
    obtain ⟨found, answer, name, -⟩ :=
      (sound.find s.token now txOK).kept open_ s stands fits earlier timely
    refine ⟨u, named, ?_⟩
    rw [answered, needs, userFromRequest, sent]
    simp only [userFromCookie, sessionTokenFromHex_cookieValue, ask]
    rw [answer]
    simp only [name, named]
    rfl

/-- One user, whose password is `secret`. -/
private def oneUser : AuthConfig where
  users :=
    match DefaultDB.newDefaultDB.create ⟨lit "admin", 7⟩ with
    | .ok db => db
    | .error _ => .newDefaultDB
  passwords := (∅ : FiniteMap UserID Bytes).set 7 (lit "hash")
  rateLimiter := none
  sessionTTL := 60 * second
  doHRoutes := []
  authenticate hash pass := hash = lit "hash" ∧ pass = lit "secret"
  isAddr _ := true

theorem authenticated_oneUser :
    oneUser.Authenticated [⟨0, .login (some (lit "1.2.3.4")) (some (lit "admin", lit "secret")) 1, true⟩,
        ⟨1, .restart, true⟩]
      ⟨lit "/control/status", [], some (cookieValue 1), none, some (lit "1.2.3.4")⟩ (2 * second)
      ⟨lit "admin", 7⟩ :=
  (authenticated_run oneUser _ (by decide) _ _ true).2.1 _ (by decide +kernel)

end AuthConfig

end AdGuardHome.Home
