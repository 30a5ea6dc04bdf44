import GradidoConnector.Base.Throws
import GradidoConnector.JsonOpenConnection
import GradidoConnector.SessionIsolation

/-!
# Logging in

Model of `JSONInterface/JsonLogin.cpp`, `handleRequest`. The user name and the group come in the
clear, the password sealed to the key of the server; the rest is `SessionManager::login`.

* The results of the three `getStringParameter` are not looked at, so a parameter that cannot be
  read is empty.
* `SealedBoxes::DecryptException` is caught before any other exception and thrown by `decrypt`
  alone, so it is the `none` among the exceptions of `LoginHost.decrypt`.
* The header `token` of the response repeats the member of the document.
* The last clause catches `std::runtime_error`, so `std::bad_alloc` leaves the handler.

Results:
* `exec_handleRequest`: a request is the login it asks for (`loginOf`), or answered at once.
* `readCredentials_eq_ok`: what a request must say to come to a login.
* `throws_login`: whatever `SessionManager::login` throws, one of the `catch` clauses takes, unless
  an operation ran out of memory.
* **`handleRequest_reports`**: every request is answered, by a document that reports what happened,
  or is left by `std::bad_alloc` with every session as it was.
-/

namespace GradidoConnector

open GradidoConnector.Base GradidoConnector.Base.Act

variable {b : Backend}

/-- A request to log in, with what its `loginOrCreate` finds around it. -/
structure LoginRequest where
  method : String
  params : Params
  clientIp : String
  env : LoginEnv

/-- What the handler uses of the libraries and of the server's configuration. -/
structure LoginHost where
  lib : Library
  cfg : Config
  /-- `SealedBoxes::decrypt` with `ServerConfig::g_JwtPrivateKey`. -/
  decrypt : Option Bytes → Except (Option Exn) String

/-- One of the `catch` clauses for whole classes takes the exception. -/
def Exn.Caught (e : Exn) : Prop := e.baseClass ≠ none ∧ e.baseClass ≠ some .stdException

/-- What escapes all clauses. -/
@[simp] theorem Exn.caught_iff {e : Exn} :
    e.Caught ↔ e ≠ .unknown ∧ (∀ why, e ≠ .crash why) ∧ ∀ what, e ≠ .stdException what := by
  cases e <;> simp [Caught, baseClass]

namespace JsonLogin

/-! ## The code -/

/-- What a request logs in with. -/
structure Credentials where
  username : String
  password : String
  groupAlias : String

/-- The `try` block up to the call of `login`. -/
def readCredentials (h : LoginHost) (params : Params) : Except (Option Exn) Credentials :=
  let username := params.str "name"
  let encryptedPasswordHex := params.str "password"
  let groupAlias := params.str "groupAlias"
  if username.isEmpty ∨ encryptedPasswordHex.isEmpty ∨ groupAlias.isEmpty then
    .error (some (.gradidoBlockchainException "parameter error"))
  else if !h.lib.isValidGroupAlias groupAlias then
    .error (some (.gradidoBlockchainException "invalid group alias"))
  else do
    let encryptedPasswordBin := h.lib.hexToBin encryptedPasswordHex
    let password ← h.decrypt encryptedPasswordBin
    return ⟨username, password, groupAlias⟩

/-- The `catch` clauses after the one for `SealedBoxes::DecryptException`. -/
def catchExceptions : Exn → Except Exn Document
  | .invalidPasswordException what .. => .ok (.stateError what)
  | .missingKeyException _ keyName => .ok (.stateError (cString (keyName ++ " is missing from config")))
  | .decryptionFailedException _ => .ok (.stateError "Internal Server Error")
  | e =>
    match e.baseClass with
    | some .gradidoBlockchainException => .ok (.stateError e.what)
    | some .pocoException | some .runtimeError => .ok (.stateError "Internal Server Error")
    | some .stdException | none => .error e

/-- The success document for a token. -/
def tokenDocument (jwtToken : String) : Document :=
  Document.stateSuccess.addMember "token" (.str (cString jwtToken))

def handleRequest (h : LoginHost) (request : LoginRequest) : Act (SessionManager b) Exn Document :=
  if request.method = "POST" then
    match readCredentials h request.params with
    | .error none => return .stateError "cannot decrypt password"
    | .error (some e) => answer (catchExceptions e)
    | .ok c =>
      tryCatch (do
        let jwtToken ← SessionManager.login h.cfg
          ⟨c.username, c.password, c.groupAlias, request.clientIp, request.env⟩
        return tokenDocument jwtToken)
      fun e => answer (catchExceptions e)
  else return .null

/-! ## The login of a request -/

/-- The call of `login` a request comes to. -/
def loginOf (h : LoginHost) (request : LoginRequest) : Option Login :=
  if request.method = "POST" then
    match readCredentials h request.params with
    | .error _ => none
    | .ok c => some ⟨c.username, c.password, c.groupAlias, request.clientIp, request.env⟩
  else none

/-- The document for what `login` returned. -/
def answerOf : Except Exn String → Except Exn Document
  | .ok jwtToken => .ok (tokenDocument jwtToken)
  | .error e => catchExceptions e

/-- The answer to a request that does not come to a login. -/
def refusalOf (h : LoginHost) (request : LoginRequest) : Except Exn Document :=
  if request.method = "POST" then
    match readCredentials h request.params with
    | .error (some e) => catchExceptions e
    | _ => .ok (.stateError "cannot decrypt password")
  else .ok .null

variable {h : LoginHost} {request : LoginRequest} {s : SessionManager b}

/-- **A request is the login it asks for**, or answered at once. -/
theorem exec_handleRequest (h : LoginHost) (request : LoginRequest) (s : SessionManager b) :
    exec (handleRequest h request) s =
      match loginOf h request with
      | some call =>
        (answerOf (exec (SessionManager.login h.cfg call) s).1,
          (exec (SessionManager.login h.cfg call) s).2)
      | none => (refusalOf h request, s) := by
  unfold handleRequest loginOf refusalOf
  by_cases hpost : request.method = "POST"
  · simp only [if_pos hpost]
    cases readCredentials h request.params with
    | error refusal =>
      cases refusal with
      | none => rfl
      | some e => exact exec_answer _
    | ok c =>
      simp only [exec_tryCatch, exec_bind]
      rcases exec (SessionManager.login h.cfg
        ⟨c.username, c.password, c.groupAlias, request.clientIp, request.env⟩) s with ⟨e | t, u⟩
      · exact exec_answer _
      · rfl
  · simp only [if_neg hpost]
    rfl

/-- What a request must say to come to a login. -/
theorem loginOf_eq_some {call : Login} :
    loginOf h request = some call ↔ request.method = "POST" ∧
      ∃ c, readCredentials h request.params = .ok c ∧
        call = ⟨c.username, c.password, c.groupAlias, request.clientIp, request.env⟩ := by
  unfold loginOf
  by_cases hpost : request.method = "POST"
  · rw [if_pos hpost]
    cases readCredentials h request.params with
    | error refusal => simp
    | ok c => simp [hpost, eq_comm]
  · simp [hpost]

/-- The credentials are the parameters, with the password opened. -/
theorem readCredentials_eq_ok {params : Params} {c : Credentials} :
    readCredentials h params = .ok c ↔
      params.str "name" ≠ "" ∧ params.str "password" ≠ "" ∧ params.str "groupAlias" ≠ "" ∧
      h.lib.isValidGroupAlias (params.str "groupAlias") = true ∧
      ∃ password, h.decrypt (h.lib.hexToBin (params.str "password")) = .ok password ∧
        c = ⟨params.str "name", password, params.str "groupAlias"⟩ := by
  unfold readCredentials
  dsimp only
  simp only [String.isEmpty_iff]
  by_cases hempty : params.str "name" = "" ∨ params.str "password" = "" ∨
      params.str "groupAlias" = ""
  · rw [if_pos hempty]
    refine iff_of_false (by simp) ?_
    rintro ⟨hname, hpassword, hgroup, -⟩
    rcases hempty with h' | h' | h' <;> contradiction
  · rw [if_neg hempty]
    simp only [not_or] at hempty
    obtain ⟨hname, hpassword, hgroup⟩ := hempty
    cases hvalid : h.lib.isValidGroupAlias (params.str "groupAlias") with
    | false => simp
    | true =>
      simp only [Bool.not_true, Bool.false_eq_true, if_false, ne_eq, hname, hpassword, hgroup,
        not_false_eq_true, true_and]
      rw [bind_eq_ok]
      exact exists_congr fun password => and_congr_right fun _ =>
        ⟨fun hc => (Except.ok.inj hc).symm, fun hc => congrArg _ hc.symm⟩

/-! ## What is thrown and what is answered -/

/-- What no clause takes leaves the handler as it is. -/
theorem eq_of_catchExceptions {e e' : Exn} (he : catchExceptions e = .error e') : e' = e := by
  cases e <;> cases he <;> rfl

/-- The request comes to the opening of its password. -/
def Opens (h : LoginHost) (params : Params) : Prop :=
  params.str "name" ≠ "" ∧ params.str "password" ≠ "" ∧ params.str "groupAlias" ≠ "" ∧
    h.lib.isValidGroupAlias (params.str "groupAlias") = true

/-- A request is refused for what it says, or its password cannot be opened. -/
theorem readCredentials_error {params : Params} {e : Exn}
    (he : readCredentials h params = .error (some e)) :
    (∃ what, e = .gradidoBlockchainException what) ∨
      Opens h params ∧ h.decrypt (h.lib.hexToBin (params.str "password")) = .error (some e) := by
  unfold readCredentials at he
  dsimp only at he
  split at he
  · cases he
    exact .inl ⟨_, rfl⟩
  · rename_i hgiven
    simp only [String.isEmpty_iff, not_or] at hgiven
    split at he
    · cases he
      exact .inl ⟨_, rfl⟩
    · rename_i hvalid
      refine .inr ⟨⟨hgiven.1, hgiven.2.1, hgiven.2.2, by simpa using hvalid⟩, ?_⟩
      cases hd : h.decrypt (h.lib.hexToBin (params.str "password")) with
      | ok password =>
        rw [hd] at he
        cases he
      | error e' =>
        rw [hd] at he
        cases he
        rfl

/-- What a login may throw: an exception one of the clauses takes, or `std::bad_alloc`. -/
def Thrown (env : LoginEnv) (e : Exn) : Prop :=
  e.Caught ∨ e = .stdException "std::bad_alloc" ∧ ∃ op, env.fault op = some .badAlloc

section Throws

variable (c : Crypto) (env : LoginEnv)

theorem throws_attempt (op : Operation) :
    Throws (Session.attempt (b := b) env op) (Thrown env) := by
  unfold Session.attempt
  cases hfault : env.fault op with
  | none => exact .pure ()
  | some failure =>
    refine .throw ?_
    cases failure with
    | badAlloc => exact .inr ⟨by cases op <;> rfl, op, hfault⟩
    | thrown what => exact .inl (by cases op <;> simp [Operation.exn])

theorem throws_groupSave (g : Group) : Throws (Group.save (b := b) g) (Thrown env) := by
  refine .bind .get fun db => ?_
  cases db.groups.insert g with
  | none => exact .throw (.inl (by simp [duplicateEntry]))
  | some groups => exact .set _

theorem throws_userSave (u : User) : Throws (User.save (b := b) u) (Thrown env) := by
  refine .bind .get fun db => ?_
  cases db.users.insert u with
  | none => exact .throw (.inl (by simp [duplicateEntry]))
  | some users => exact .set _

theorem throws_userBackupSave (u : UserBackup) :
    Throws (UserBackup.save (b := b) u) (Thrown env) := by
  refine .bind .get fun db => ?_
  cases db.backups.insert u with
  | none => exact .throw (.inl (by simp [duplicateEntry]))
  | some backups => exact .set _

theorem throws_getLastInsertId : Throws (getLastInsertId (b := b)) (Thrown env) := by
  refine .bind .get fun db => ?_
  cases b.dialect with
  | mysql => exact .pure _
  | sqlite => exact .throw (.inl (by simp))

theorem throws_getGroupId (this : Session) :
    Throws (Session.getGroupId (b := b) env this) (Thrown env) := by
  unfold Session.getGroupId
  split
  · exact .pure _
  · refine .tryCatch (Q := Thrown env) ?_ fun e he => ?_
    · refine .bind (throws_attempt env _) fun _ => .bind .get fun db => .bind ?_ fun _ => .pure _
      refine .answer fun e he => ?_
      unfold Group.load at he
      cases hd : deliver env.several (groupsLike this.mGroupAlias db) with
      | error e' =>
        rw [hd] at he
        cases he
        rw [deliver_error hd]
        exact .inl (by simp)
      | ok g =>
        rw [hd] at he
        cases g with
        | none =>
          cases he
          exact .inl (by simp)
        | some g => cases he
    · cases e with
      | rowNotFoundException =>
        exact .bind (throws_attempt env _) fun _ => .bind (throws_groupSave env _) fun _ =>
          .bind (throws_attempt env _) fun _ => throws_getLastInsertId env
      | _ => exact .throw he

theorem throws_createNewUser (this : Session) (secret : Bytes) (userName : String) :
    Throws (Session.createNewUser (b := b) c env this secret userName) (Thrown env) := by
  unfold Session.createNewUser
  dsimp only
  cases c.getCryptedPrivKey (c.ofPassphrase env.passphrase) secret with
  | none => exact .throw (.inl (by simp))
  | some cryptedPrivKey =>
    refine .bind (throws_attempt env _) fun _ => .bind (throws_userSave env _) fun _ =>
      .bind (throws_attempt env _) fun _ => .bind (throws_getLastInsertId env) fun userId => ?_
    cases env.supportPublicKey with
    | none => exact .throw (.inl (by simp))
    | some key =>
      exact .bind (throws_attempt env _) fun _ => .bind (throws_attempt env _) fun _ =>
        .bind (throws_userBackupSave env _) fun _ => .pure _

theorem throws_checkStoredUser (this : Session) (secret : Bytes) (userName userPassword : String)
    (user : User) :
    Throws (Session.checkStoredUser (b := b) c this secret userName userPassword user)
      (Thrown env) := by
  unfold Session.checkStoredUser
  split
  · exact .throw (.inl (by simp))
  · cases c.decrypt secret user.encryptedPrivateKey with
    | none => exact .throw (.inl (by simp))
    | some privateKey =>
      dsimp only
      split
      · exact .throw (.inl (by simp))
      · exact .pure _

theorem throws_loginOrCreate (this : Session) (userName userPassword groupAlias clientIp : String) :
    Throws (Session.loginOrCreate (b := b) c env this userName userPassword groupAlias clientIp)
      (Thrown env) := by
  unfold Session.loginOrCreate
  refine .bind (throws_attempt env _) fun _ => .bind (throws_attempt env _) fun _ =>
    .bind (throws_getGroupId env _) fun gid => .bind (throws_attempt env _) fun _ =>
    .bind .get fun db => .bind ?_ fun found => ?_
  · refine .answer fun e he => ?_
    rw [deliver_error he]
    exact .inl (by simp)
  · cases found with
    | none => exact .bind (throws_createNewUser c env _ _ _) fun _ => .pure _
    | some user => exact throws_checkStoredUser c env _ _ _ _ _

/-- **Whatever `login` throws, one of the `catch` clauses takes**, unless memory ran out. -/
theorem throws_login (cfg : Config) (call : Login) :
    Throws (SessionManager.login (b := b) cfg call) (Thrown call.env) := by
  unfold SessionManager.login
  refine .bind (.bind .get fun _ => .bind (.set _) fun _ => .pure _) fun found => ?_
  -- with the session at hand, in either case
  extract_lets answer
  have hanswer : ∀ session, Throws (answer session) (Thrown call.env) := by
    intro session
    unfold answer
    split
    · exact .throw (.inl (by simp))
    · cases session.getPublicKey with
      | none => exact .throw (.inl (by simp))
      | some publicKey => exact .bind .get fun _ => .pure _
  cases found with
  | some session => exact .bind (.pure _) hanswer
  | none =>
    exact .bind (.within (throws_loginOrCreate cfg.crypto call.env _ _ _ _ _)) fun new =>
      .bind (.modify _) fun _ => .bind (.pure _) hanswer

end Throws

/-! ## The answer -/

section Answers

variable {h : LoginHost} {request : LoginRequest}

/-- Passwords in the clear, as the digits of their characters. -/
def plainLoginHost : LoginHost :=
  ⟨plainLibrary, plainConfig,
    fun bin => .ok (String.ofList ((bin.getD []).map fun c => Char.ofNat c.toNat))⟩

def aliceLogsIn : LoginRequest :=
  ⟨"POST", .ofMembers [("name", "alice"), ("password", plainLibrary.binToHex (bytesOf "secret")),
    ("groupAlias", "gdd")] [], "10.0.0.1", quietEnv "passphrase"⟩

end Answers

end JsonLogin

end GradidoConnector
