import GradidoConnector.Base.ExpireCache
import GradidoConnector.Base.Machine
import GradidoConnector.Session

/-!
# The session manager as a machine

Model of `SessionManager.cpp` (`login`, lines 27-52, and the two `getSession`, lines 54-98) and of
the token `JsonOpenConnection::handleRequest` mints (lines 55-66). The state is the clock, the
cache `mActiveSessions` and the database. `mActiveSessions` is a `Poco::AccessExpireCache` keyed by
the user name alone.

* `Signer` stands for `Poco::JWT::Signer` with the configured secret: `verify` returns the payload
  of what `sign` signed and leaves the `exp` claim to the caller.
* `Config` holds what `ServerConfig` fixes at the start. Poco refuses an expiry below 25 ms, which
  is `validDuration_ge`.
* The inputs of the machine are the calls of the manager, the expiry of one session (`expire`)
  and the passing of time (`wait`).

Results:
* `login_of_live`, `login_of_error`, `login_of_new`: what a login does, by what the cache holds.
* `of_getSession`, `of_getSessionFor`: when a session is handed out.
* **`step_cached`**: a session in the cache after a step was there before, or a login has just
  established it.
* **`minted_kind`**: every token is a `login` or an `openConnection` token of the step that hands it
  out.
* **`step_db`**: only a login without a cached session changes the database, by its
  `loginOrCreate`.
-/

namespace GradidoConnector

open GradidoConnector.Base GradidoConnector.Base.Act

/-- The claims of a token. -/
structure Payload where
  subject : String
  name : Option String
  pubkey : Option String
  issuedAt : Nat
  expiration : Nat
  deriving DecidableEq

/-- `Poco::JWT::Signer` -/
structure Signer where
  sign : Payload → String
  verify : String → Except Exn Payload
  verify_sign : ∀ p, verify (sign p) = .ok p

structure Config where
  crypto : Crypto
  signer : Signer
  /-- The first 64 digits of `DataTypeConverter::binToHex`. -/
  publicKeyHex : Bytes → String
  /-- `ServerConfig::g_SessionValidDuration` in milliseconds. -/
  validDuration : Nat
  validDuration_ge : 25 ≤ validDuration

structure SessionManager (b : Backend) where
  now : Nat
  mActiveSessions : ExpireCache String Session
  db : Db b

variable {b : Backend}

namespace SessionManager

variable (cfg : Config)

/-- The state in which the server starts on a database. -/
def start (now : Nat) (db : Db b) : SessionManager b := ⟨now, fun _ => none, db⟩

/-- The session an access under `name` finds. -/
def live (s : SessionManager b) (name : String) : Option Session :=
  s.mActiveSessions.live cfg.validDuration s.now name

/-- The state after an access under `name`. -/
def touched (s : SessionManager b) (name : String) : SessionManager b :=
  { s with mActiveSessions := s.mActiveSessions.touch cfg.validDuration s.now name }

/-- `mActiveSessions.get(name)` -/
def getActive (name : String) : Act (SessionManager b) Exn (Option Session) := do
  let s ← get
  set (s.touched cfg name)
  return s.live cfg name

/-- `mActiveSessions.add(name, session)` -/
def addActive (name : String) (session : Session) : Act (SessionManager b) Exn Unit :=
  modify fun s => { s with mActiveSessions := s.mActiveSessions.add s.now name session }

/-- A computation on the database of the server. -/
def onDb {α : Type} (x : Act (Db b) Exn α) : Act (SessionManager b) Exn α :=
  within (fun s => s.db) (fun db s => { s with db }) x

/-- The token a login mints for the public key of its session. -/
def loginToken (userName : String) (publicKey : Bytes) (now : Nat) : Payload :=
  { subject := "login", name := some userName, pubkey := some (cfg.publicKeyHex publicKey)
    issuedAt := now, expiration := now + cfg.validDuration }

/-- The token `JsonOpenConnection` mints. -/
def connectionToken (now : Nat) : Payload :=
  { subject := "openConnection", name := none, pubkey := none
    issuedAt := now, expiration := now + cfg.validDuration }

def login (call : Login) : Act (SessionManager b) Exn String := do
  let session ← match ← getActive cfg call.userName with
    | some session => pure session
    | none => do
      let (_, session) ← onDb (Session.loginOrCreate cfg.crypto call.env .new call.userName
        call.userPassword call.groupAlias call.clientIp)
      addActive call.userName session
      pure session
  if session.mClientIp ≠ call.clientIp then
    throw (.loginException "invalid ip" call.userName call.clientIp)
  else
    match session.getPublicKey with
    | none => throw (.loginException "no public key" call.userName call.clientIp)
    | some publicKey => do
      let s ← get
      return cfg.signer.sign (loginToken cfg call.userName publicKey s.now)

/-- The common end of the two `getSession`: the session of `name`, for the ip it was opened from. -/
def sessionOf (name clientIp : String) : Act (SessionManager b) Exn Session := do
  match ← getActive cfg name with
  | none => throw (.sessionException "no session found" name)
  | some session =>
    if session.mClientIp ≠ clientIp then throw (.loginException "invalid ip" name clientIp)
    else return session

/-- The `catch` clause of the two `getSession`. -/
def rethrowJwt (serializedJwtToken : String) : Exn → Act (SessionManager b) Exn Session
  | .signatureVerificationException _ => throw (.jwtTokenException "invalid jwtToken" serializedJwtToken)
  | e => throw e

/-- `getSession(serializedJwtToken, clientIp)` -/
def getSession (serializedJwtToken clientIp : String) : Act (SessionManager b) Exn Session :=
  tryCatch (do
    let token ← answer (cfg.signer.verify serializedJwtToken)
    match token.name with
    | none => throw (.pocoException "name")
    | some name => sessionOf cfg name clientIp)
  (rethrowJwt serializedJwtToken)

/-- `getSession(serializedJwtToken, username, clientIp)` -/
def getSessionFor (serializedJwtToken username clientIp : String) :
    Act (SessionManager b) Exn Session :=
  tryCatch (do
    let token ← answer (cfg.signer.verify serializedJwtToken)
    if token.subject ≠ "openConnection" then throw (.sessionException "wrong token" token.subject)
    else sessionOf cfg username clientIp)
  (rethrowJwt serializedJwtToken)

/-! ## The machine -/

inductive Input
  | login (call : Login)
  | getSession (token clientIp : String)
  | getSessionFor (token username clientIp : String)
  | openConnection
  | expire (name : String)
  | wait (time : Nat)

inductive Output
  | token (t : String)
  | session (s : Session)
  | failed (e : Exn)
  | done
  deriving DecidableEq

/-- The answer to a call that yields a token. -/
def ofToken : Except Exn String → Output
  | .ok t => .token t
  | .error e => .failed e

/-- The answer to a call that yields a session. -/
def ofSession : Except Exn Session → Output
  | .ok s => .session s
  | .error e => .failed e

def step (s : SessionManager b) : Input → Output × SessionManager b
  | .login call => let r := exec (login cfg call) s; (ofToken r.1, r.2)
  | .getSession token clientIp =>
    let r := exec (getSession cfg token clientIp) s; (ofSession r.1, r.2)
  | .getSessionFor token username clientIp =>
    let r := exec (getSessionFor cfg token username clientIp) s; (ofSession r.1, r.2)
  | .openConnection => (.token (cfg.signer.sign (connectionToken cfg s.now)), s)
  | .expire name => (.done, { s with mActiveSessions := s.mActiveSessions.remove name })
  | .wait time => (.done, { s with now := s.now + time })

/-- A step of a run with the states around it. -/
abbrev Event (b : Backend) := Entry (SessionManager b) Input Output

/-- The run of the server on `inputs`. -/
abbrev runs (s : SessionManager b) (inputs : List Input) : List (Event b) :=
  history (step cfg) s inputs

/-! ## What a call does -/

variable {cfg : Config} {s : SessionManager b} {name clientIp : String}

@[simp] theorem touched_db : (s.touched cfg name).db = s.db := rfl

theorem exec_getActive :
    exec (getActive cfg name) s = (.ok (s.live cfg name), s.touched cfg name) := rfl

/-- The answer of a login once it has its session. -/
def loginAnswer (cfg : Config) (call : Login) (session : Session) (now : Nat) : Except Exn String :=
  if session.mClientIp ≠ call.clientIp then
    .error (.loginException "invalid ip" call.userName call.clientIp)
  else
    match session.getPublicKey with
    | none => .error (.loginException "no public key" call.userName call.clientIp)
    | some publicKey => .ok (cfg.signer.sign (loginToken cfg call.userName publicKey now))

theorem loginAnswer_eq_ok {call : Login} {session : Session} {now : Nat} {t : String} :
    loginAnswer cfg call session now = .ok t ↔
      session.mClientIp = call.clientIp ∧ ∃ pk, session.getPublicKey = some pk ∧
        t = cfg.signer.sign (loginToken cfg call.userName pk now) := by
  unfold loginAnswer
  by_cases hip : session.mClientIp = call.clientIp
  · rw [if_neg (not_not.mpr hip)]
    cases session.getPublicKey with
    | none => simp
    | some pk => simp [hip, eq_comm]
  · simp [hip]

/-- **A login on a cached session does not look at the password**: it answers from the session. -/
theorem login_of_live {call : Login} {session : Session}
    (h : s.live cfg call.userName = some session) :
    exec (login cfg call) s = (loginAnswer cfg call session s.now, s.touched cfg call.userName) := by
  rw [login, exec_bind, exec_getActive, h]
  simp only [exec_bind, exec_pure, loginAnswer]
  by_cases hip : session.mClientIp = call.clientIp
  · rw [if_neg (not_not.mpr hip), if_neg (not_not.mpr hip)]
    cases session.getPublicKey <;> rfl
  · rw [if_pos hip, if_pos hip]
    rfl

/-- A login whose `loginOrCreate` throws leaves only that call's traces in the database. -/
theorem login_of_error {call : Login} {e : Exn} {db' : Db b}
    (h : s.live cfg call.userName = none) (he : call.exec cfg.crypto s.db = (.error e, db')) :
    exec (login cfg call) s = (.error e, { s.touched cfg call.userName with db := db' }) := by
  rw [login, exec_bind, exec_getActive, h]
  rw [Login.exec] at he
  simp only [exec_bind, onDb, exec_within, touched_db, he]

/-- A login whose `loginOrCreate` returns caches the session and answers from it. -/
theorem login_of_new {call : Login} {n : Nat} {session : Session} {db' : Db b}
    (h : s.live cfg call.userName = none)
    (hnew : call.exec cfg.crypto s.db = (.ok (n, session), db')) :
    ∃ t, exec (login cfg call) s = (.ok t, { s.touched cfg call.userName with
      db := db'
      mActiveSessions := (s.touched cfg call.userName).mActiveSessions.add s.now call.userName
        session }) ∧
      loginAnswer cfg call session s.now = .ok t := by
  have hout := Login.outcome cfg.crypto call s.db
  rw [hnew] at hout
  obtain ⟨⟨gid, k, hs, -, -⟩⟩ := hout.established
  have hip : session.mClientIp = call.clientIp := by rw [hs]; rfl
  have hkey : session.getPublicKey = some k.publicKey := by rw [hs]; rfl
  refine ⟨_, ?_, loginAnswer_eq_ok.mpr ⟨hip, _, hkey, rfl⟩⟩
  rw [Login.exec] at hnew
  rw [login, exec_bind, exec_getActive, h]
  simp only [exec_bind, onDb, exec_within, touched_db, hnew, addActive, exec_modify, exec_pure]
  rw [if_neg (not_not.mpr hip), hkey]
  rfl

theorem exec_sessionOf :
    exec (sessionOf cfg name clientIp) s =
      (match s.live cfg name with
        | none => .error (.sessionException "no session found" name)
        | some session =>
          if session.mClientIp ≠ clientIp then .error (.loginException "invalid ip" name clientIp)
          else .ok session,
        s.touched cfg name) := by
  rw [sessionOf, exec_bind, exec_getActive]
  cases s.live cfg name with
  | none => rfl
  | some session =>
    simp only
    split <;> rfl

theorem exec_rethrowJwt (token : String) (e : Exn) :
    ∃ e', exec (rethrowJwt (b := b) token e) s = (.error e', s) := by
  cases e <;> exact ⟨_, rfl⟩

/-- The `catch` clause of the two `getSession` lets what `sessionOf` throws pass. -/
theorem exec_tryCatch_sessionOf (token : String) :
    exec (tryCatch (sessionOf cfg name clientIp) (rethrowJwt token)) s =
      exec (sessionOf cfg name clientIp) s := by
  rw [exec_tryCatch, exec_sessionOf]
  cases s.live cfg name with
  | none => rfl
  | some session =>
    simp only
    by_cases hip : session.mClientIp = clientIp
    · rw [if_neg (not_not.mpr hip)]
    · rw [if_pos hip]
      rfl

theorem getSession_cases (cfg : Config) (s : SessionManager b) (token clientIp : String) :
    (∃ p name, cfg.signer.verify token = .ok p ∧ p.name = some name ∧
      exec (getSession cfg token clientIp) s = exec (sessionOf cfg name clientIp) s) ∨
    ∃ e, exec (getSession cfg token clientIp) s = (.error e, s) := by
  rw [getSession, exec_tryCatch, exec_bind, exec_answer]
  cases hv : cfg.signer.verify token with
  | error e =>
    obtain ⟨e', he'⟩ := exec_rethrowJwt (s := s) token e
    exact Or.inr ⟨e', he'⟩
  | ok p =>
    cases hn : p.name with
    | none =>
      simp only [hn, exec_throw]
      exact Or.inr ⟨_, rfl⟩
    | some name =>
      simp only [hn]
      exact Or.inl ⟨p, name, rfl, hn, exec_tryCatch.symm.trans (exec_tryCatch_sessionOf token)⟩

theorem getSessionFor_cases (cfg : Config) (s : SessionManager b) (token username clientIp : String) :
    (∃ p, cfg.signer.verify token = .ok p ∧ p.subject = "openConnection" ∧
      exec (getSessionFor cfg token username clientIp) s =
        exec (sessionOf cfg username clientIp) s) ∨
    ∃ e, exec (getSessionFor cfg token username clientIp) s = (.error e, s) := by
  rw [getSessionFor, exec_tryCatch, exec_bind, exec_answer]
  cases hv : cfg.signer.verify token with
  | error e =>
    obtain ⟨e', he'⟩ := exec_rethrowJwt (s := s) token e
    exact Or.inr ⟨e', he'⟩
  | ok p =>
    by_cases hsub : p.subject = "openConnection"
    · simp only [if_neg (not_not.mpr hsub)]
      exact Or.inl ⟨p, rfl, hsub, exec_tryCatch.symm.trans (exec_tryCatch_sessionOf token)⟩
    · simp only [if_pos hsub, exec_throw]
      exact Or.inr ⟨_, rfl⟩

theorem sessionOf_eq_ok {session : Session} :
    (exec (sessionOf cfg name clientIp) s).1 = .ok session ↔
      s.live cfg name = some session ∧ session.mClientIp = clientIp := by
  rw [exec_sessionOf]
  cases s.live cfg name with
  | none => simp
  | some found =>
    simp only
    by_cases hip : found.mClientIp = clientIp
    · rw [if_neg (not_not.mpr hip), Except.ok.injEq, Option.some.injEq]
      constructor
      · rintro rfl
        exact ⟨rfl, hip⟩
      · exact fun h => h.1
    · rw [if_pos hip, Option.some.injEq]
      constructor
      · intro h
        exact absurd h (by simp)
      · rintro ⟨rfl, h⟩
        exact absurd h hip

/-- `getSession` hands out the live session of the token's name, to the ip it was opened from. -/
theorem of_getSession {token : String} {session : Session}
    (h : (exec (getSession cfg token clientIp) s).1 = .ok session) :
    ∃ p name, cfg.signer.verify token = .ok p ∧ p.name = some name ∧
      s.live cfg name = some session ∧ session.mClientIp = clientIp := by
  rcases getSession_cases cfg s token clientIp with ⟨p, name, hv, hn, heq⟩ | ⟨e, he⟩
  · rw [heq] at h
    obtain ⟨hlive, hip⟩ := sessionOf_eq_ok.mp h
    exact ⟨p, name, hv, hn, hlive, hip⟩
  · rw [he] at h
    exact absurd h (by simp)

/-- Either overload at most accesses one name. -/
theorem getSession_after (cfg : Config) (s : SessionManager b) (token clientIp : String) :
    (exec (getSession cfg token clientIp) s).2 = s ∨
      ∃ name, (exec (getSession cfg token clientIp) s).2 = s.touched cfg name := by
  rcases getSession_cases cfg s token clientIp with ⟨p, name, -, -, heq⟩ | ⟨e, he⟩
  · exact Or.inr ⟨name, by rw [heq, exec_sessionOf]⟩
  · exact Or.inl (by rw [he])

theorem getSessionFor_after (cfg : Config) (s : SessionManager b) (token username clientIp : String) :
    (exec (getSessionFor cfg token username clientIp) s).2 = s ∨
      ∃ name, (exec (getSessionFor cfg token username clientIp) s).2 = s.touched cfg name := by
  rcases getSessionFor_cases cfg s token username clientIp with ⟨p, -, -, heq⟩ | ⟨e, he⟩
  · exact Or.inr ⟨username, by rw [heq, exec_sessionOf]⟩
  · exact Or.inl (by rw [he])

/-! ## What a step does -/

/-- The cache holds `session` under `name`, expired or not. -/
def Cached (s : SessionManager b) (name : String) (session : Session) : Prop :=
  ∃ slot, s.mActiveSessions name = some slot ∧ slot.value = session

theorem cached_of_live {session : Session} (h : s.live cfg name = some session) :
    s.Cached name session := by
  obtain ⟨slot, hs, hv, -⟩ := ExpireCache.live_eq_some.mp h
  exact ⟨slot, hs, hv⟩

theorem cached_of_touched {name' : String} {session : Session}
    (h : (s.touched cfg name').Cached name session) : s.Cached name session := by
  obtain ⟨slot, hs, hv⟩ := h
  obtain ⟨slot', hs', hv'⟩ := ExpireCache.mem_touch hs
  exact ⟨slot', hs', hv'.trans hv⟩

/-- The step has just established `session` for the login `call`. -/
def Establishes (cfg : Config) (call : Login) (session : Session) (e : Event b) : Prop :=
  e.input = .login call ∧ e.before.live cfg call.userName = none ∧
    ∃ n, call.exec cfg.crypto e.before.db = (.ok (n, session), e.after.db)

/-- A step that at most accesses one name keeps the cache to what it was. -/
theorem cached_of_access {s' : SessionManager b} {session : Session}
    (hs : s' = s ∨ ∃ name', s' = s.touched cfg name') (h : s'.Cached name session) :
    s.Cached name session := by
  rcases hs with rfl | ⟨name', rfl⟩
  · exact h
  · exact cached_of_touched h

/-- **A session in the cache after a step was there before, or a login has just established it.** -/
theorem step_cached {i : Input} {session : Session}
    (h : (entryOf (step cfg) s i).after.Cached name session) :
    s.Cached name session ∨
      ∃ call, call.userName = name ∧ Establishes cfg call session (entryOf (step cfg) s i) := by
  cases i with
  | login call =>
    have hafter : (entryOf (step cfg) s (.login call)).after = (exec (login cfg call) s).2 := rfl
    cases hlive : s.live cfg call.userName with
    | some found =>
      rw [hafter, login_of_live hlive] at h
      exact Or.inl (cached_of_touched h)
    | none =>
      rcases hexec : call.exec cfg.crypto s.db with ⟨e | ⟨n, new⟩, db'⟩
      · rw [hafter, login_of_error hlive hexec] at h
        exact Or.inl (cached_of_touched (s := s) h)
      · obtain ⟨t, hlogin, -⟩ := login_of_new hlive hexec
        rw [hlogin] at hafter
        rw [hafter] at h
        obtain ⟨slot, hs, hv⟩ := h
        by_cases hname : name = call.userName
        · subst hname
          simp only [ExpireCache.add_self, Option.some.injEq] at hs
          rw [← hs] at hv
          refine Or.inr ⟨call, rfl, rfl, hlive, n, ?_⟩
          rw [hafter, ← hv]
          exact hexec
        · simp only [ExpireCache.add_of_ne _ hname] at hs
          exact Or.inl (cached_of_touched (s := s) ⟨slot, hs, hv⟩)
  | getSession token clientIp => exact Or.inl (cached_of_access (getSession_after ..) h)
  | getSessionFor token username clientIp => exact Or.inl (cached_of_access (getSessionFor_after ..) h)
  | openConnection => exact Or.inl h
  | expire name' =>
    obtain ⟨slot, hs, hv⟩ := h
    exact Or.inl ⟨slot, ExpireCache.remove_eq_some hs, hv⟩
  | wait time => exact Or.inl h

/-- **Only a login without a cached session changes the database**, by its `loginOrCreate`. -/
theorem step_db (cfg : Config) (s : SessionManager b) (i : Input) :
    (entryOf (step cfg) s i).after.db = s.db ∨
      ∃ call, i = .login call ∧ s.live cfg call.userName = none ∧
        (entryOf (step cfg) s i).after.db = (call.exec cfg.crypto s.db).2 := by
  have haccess : ∀ {s' : SessionManager b}, (s' = s ∨ ∃ name, s' = s.touched cfg name) →
      s'.db = s.db := by
    rintro s' (rfl | ⟨name, rfl⟩) <;> rfl
  cases i with
  | login call =>
    have hafter : (entryOf (step cfg) s (.login call)).after = (exec (login cfg call) s).2 := rfl
    cases hlive : s.live cfg call.userName with
    | some found =>
      rw [hafter, login_of_live hlive]
      exact Or.inl rfl
    | none =>
      refine Or.inr ⟨call, rfl, hlive, ?_⟩
      rcases hexec : call.exec cfg.crypto s.db with ⟨e | ⟨n, new⟩, db'⟩
      · rw [hafter, login_of_error hlive hexec]
      · obtain ⟨t, hlogin, -⟩ := login_of_new hlive hexec
        rw [hafter, hlogin]
  | getSession token clientIp => exact Or.inl (haccess (getSession_after ..))
  | getSessionFor token username clientIp => exact Or.inl (haccess (getSessionFor_after ..))
  | openConnection => exact Or.inl rfl
  | expire name => exact Or.inl rfl
  | wait time => exact Or.inl rfl

/-- The database only grows. -/
theorem step_grows (cfg : Config) (s : SessionManager b) (i : Input) :
    s.db.Grows (entryOf (step cfg) s i).after.db := by
  rcases step_db cfg s i with h | ⟨call, -, -, h⟩
  · rw [h]
    exact .refl _
  · rw [h]
    exact (Login.outcome cfg.crypto call s.db).grows

/-- A login that answers with a token had a session: a live one, or one it has just established. -/
theorem token_of_login {call : Login} {t : String}
    (h : (entryOf (step cfg) s (.login call)).output = .token t) :
    ∃ session, loginAnswer cfg call session s.now = .ok t ∧
      (s.live cfg call.userName = some session ∨
        Establishes cfg call session (entryOf (step cfg) s (.login call))) := by
  have hout : ofToken (exec (login cfg call) s).1 = .token t := h
  have hafter : (entryOf (step cfg) s (.login call)).after = (exec (login cfg call) s).2 := rfl
  cases hlive : s.live cfg call.userName with
  | some found =>
    rw [login_of_live hlive] at hout
    refine ⟨found, ?_, Or.inl rfl⟩
    cases ha : loginAnswer cfg call found s.now with
    | error e =>
      rw [ha] at hout
      exact Output.noConfusion hout
    | ok t' =>
      rw [ha] at hout
      rw [Output.token.inj hout]
  | none =>
    rcases hexec : call.exec cfg.crypto s.db with ⟨e | ⟨n, new⟩, db'⟩
    · rw [login_of_error hlive hexec] at hout
      exact Output.noConfusion hout
    · obtain ⟨t', hlogin, ha⟩ := login_of_new hlive hexec
      rw [hlogin] at hout
      rw [Output.token.inj hout] at ha
      refine ⟨new, ha, Or.inr ⟨rfl, hlive, n, ?_⟩⟩
      rw [hafter, hlogin]
      exact hexec

/-- A login that establishes a session answers with a token. -/
theorem Establishes.token {call : Login} {session : Session} {i : Input}
    (h : Establishes cfg call session (entryOf (step cfg) s i)) :
    ∃ t, (entryOf (step cfg) s i).output = .token t := by
  obtain ⟨rfl, hlive, n, hexec⟩ : i = .login call ∧ _ := h
  obtain ⟨t, hlogin, -⟩ := login_of_new hlive hexec
  have hfst : (exec (login cfg call) s).1 = .ok t := congrArg Prod.fst hlogin
  exact ⟨t, congrArg ofToken hfst⟩

/-- A step that hands out a session found it live under the name of the token. -/
theorem session_of_getSession {e : Event b} {token : String} {session : Session}
    (hspec : e = entryOf (step cfg) e.before e.input) (hin : e.input = .getSession token clientIp)
    (hout : e.output = .session session) :
    ∃ p name, cfg.signer.verify token = .ok p ∧ p.name = some name ∧
      e.before.live cfg name = some session ∧ session.mClientIp = clientIp := by
  rw [hin] at hspec
  rw [hspec] at hout
  refine of_getSession (?_ : (exec (getSession cfg token clientIp) e.before).1 = .ok session)
  have hof : ofSession (exec (getSession cfg token clientIp) e.before).1 = .session session := hout
  cases hr : (exec (getSession cfg token clientIp) e.before).1 with
  | error e' =>
    rw [hr] at hof
    exact Output.noConfusion hof
  | ok found =>
    rw [hr] at hof
    rw [Output.session.inj hof]

/-- **A token is of the kind of the step that handed it out.** -/
theorem minted_kind {e : Event b} {token : String} (hspec : e = entryOf (step cfg) e.before e.input)
    (hout : e.output = .token token) :
    (∃ call pk, e.input = .login call ∧
      token = cfg.signer.sign (loginToken cfg call.userName pk e.before.now)) ∨
    (e.input = .openConnection ∧
      token = cfg.signer.sign (connectionToken cfg e.before.now)) := by
  rw [hspec] at hout
  cases hin : e.input with
  | login call =>
    rw [hin] at hout
    obtain ⟨session, hanswer, -⟩ := token_of_login hout
    obtain ⟨-, pk, -, ht⟩ := loginAnswer_eq_ok.mp hanswer
    exact Or.inl ⟨call, pk, rfl, ht⟩
  | openConnection =>
    rw [hin] at hout
    exact Or.inr ⟨rfl, (Output.token.inj hout).symm⟩
  | getSession t clientIp =>
    rw [hin] at hout
    have hof : ofSession (exec (getSession cfg t clientIp) e.before).1 = .token token := hout
    cases hr : (exec (getSession cfg t clientIp) e.before).1 <;> rw [hr] at hof <;>
      exact Output.noConfusion hof
  | getSessionFor t username clientIp =>
    rw [hin] at hout
    have hof : ofSession (exec (getSessionFor cfg t username clientIp) e.before).1 =
      .token token := hout
    cases hr : (exec (getSessionFor cfg t username clientIp) e.before).1 <;> rw [hr] at hof <;>
      exact Output.noConfusion hof
  | expire name =>
    rw [hin] at hout
    exact Output.noConfusion hout
  | wait time =>
    rw [hin] at hout
    exact Output.noConfusion hout

end SessionManager

/-! ## A server that computes

A signer and a crypto that compute, to run the machine on concrete inputs. -/

namespace PlainSigner

/-- A string with its end marked. -/
def putString (s : List Char) : List Char := s.flatMap (fun c => ['x', c]) ++ ['.']

def takeString : List Char → Option (List Char × List Char)
  | 'x' :: c :: rest => (takeString rest).map fun r => (c :: r.1, r.2)
  | '.' :: rest => some ([], rest)
  | _ => none

/-- A number in unary with its end marked. -/
def putNat (n : Nat) : List Char := List.replicate n 'x' ++ ['.']

def takeNat : List Char → Option (Nat × List Char)
  | 'x' :: rest => (takeNat rest).map fun r => (r.1 + 1, r.2)
  | '.' :: rest => some (0, rest)
  | _ => none

def putOption : Option String → List Char
  | none => ['.']
  | some s => 'x' :: putString s.toList

def takeOption : List Char → Option (Option String × List Char)
  | '.' :: rest => some (none, rest)
  | 'x' :: rest => (takeString rest).map fun r => (some (String.ofList r.1), r.2)
  | _ => none

def sign (p : Payload) : String :=
  String.ofList (putString p.subject.toList ++ (putOption p.name ++ (putOption p.pubkey ++
    (putNat p.issuedAt ++ putNat p.expiration))))

def read (t : List Char) : Option Payload := do
  let (subject, t) ← takeString t
  let (name, t) ← takeOption t
  let (pubkey, t) ← takeOption t
  let (issuedAt, t) ← takeNat t
  let (expiration, _) ← takeNat t
  return ⟨String.ofList subject, name, pubkey, issuedAt, expiration⟩

def verify (t : String) : Except Exn Payload :=
  match read t.toList with
  | some p => .ok p
  | none => .error (.signatureVerificationException t)

theorem takeString_put (s rest : List Char) : takeString (putString s ++ rest) = some (s, rest) := by
  induction s with
  | nil => rfl
  | cons c s ih =>
    show (takeString (putString s ++ rest)).map _ = _
    rw [ih]
    rfl

theorem takeNat_put (n : Nat) (rest : List Char) : takeNat (putNat n ++ rest) = some (n, rest) := by
  induction n with
  | zero => rfl
  | succ n ih =>
    show (takeNat (putNat n ++ rest)).map _ = _
    rw [ih]
    rfl

theorem takeOption_put (o : Option String) (rest : List Char) :
    takeOption (putOption o ++ rest) = some (o, rest) := by
  cases o with
  | none => rfl
  | some s =>
    show (takeString (putString s.toList ++ rest)).map _ = _
    rw [takeString_put, Option.map_some, String.ofList_toList]

theorem verify_sign (p : Payload) : verify (sign p) = .ok p := by
  have hnat := takeNat_put p.expiration []
  rw [List.append_nil] at hnat
  have hread : read (sign p).toList = some p := by
    rw [sign, String.toList_ofList, read, takeString_put]
    simp only [Option.bind_eq_bind, Option.bind_some, takeOption_put, takeNat_put, hnat,
      String.ofList_toList]
    rfl
  rw [verify, hread]

end PlainSigner
/-- Tokens that carry their claims in the clear. -/
def plainSigner : Signer := ⟨PlainSigner.sign, PlainSigner.verify, PlainSigner.verify_sign⟩

/-- Names and passwords as their own secrets. -/
def plainCrypto : Crypto where
  createKey := fun userName password => bytesOf (userName ++ ":" ++ password)
  getKeyHashed := fun secret => UInt64.ofNat (secret.foldl (fun n c => n * 31 + c.toNat) 7)
  getCryptedPrivKey := fun k _ => some k.privateKey
  decrypt := fun _ encrypted => some encrypted
  ofPrivateKey := fun k => ⟨k.reverse, k⟩
  ofPassphrase := fun s => ⟨(bytesOf s).reverse, bytesOf s⟩
  sealFor := fun key s => key ++ bytesOf s

def plainConfig : Config :=
  ⟨plainCrypto, plainSigner, fun k => String.ofList (k.map fun c => Char.ofNat c.toNat), 25,
    by decide⟩

/-- A call in which nothing fails. -/
def quietEnv (passphrase : String) : LoginEnv := ⟨fun _ => none, fun _ => none, passphrase, some []⟩

end GradidoConnector
