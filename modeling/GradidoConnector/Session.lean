import GradidoConnector.Tables

/-!
# Establishing a session: `Session::loginOrCreate`

Model of `model/Session.cpp`, lines 31-142: `loginOrCreate`, `getGroupId` and `createNewUser`, each
statement by statement on the database, so that an exception leaves behind exactly what the
statements before it wrote. There is no transaction in the code and none here.

* `Crypto` stands for `SecretKeyCryptography`, `KeyPairEd25519` and `SealedBoxes`, all pure
  functions of their arguments.
* `LoginEnv` is what one call finds around it: which `Operation` fails and with which message,
  what a select with several rows delivers, the generated passphrase and the configured
  `CryptoConfig::g_SupportPublicKey`.
* `mUserName` is a member of `Session` that nothing ever sets, so it has no field here.

The outcomes of a call on a fresh session are the constructors of `Login.Outcome`.
`Login.InsertsUser` says, of the input and the database before the call, that the call gets as far
as inserting the user row; `BackupSucceeds` that nothing after that insert fails.

Results:
* `Login.outcome`: every call ends in one of the four outcomes.
* `Login.Outcome.established`: a session that is returned belongs to a stored row with the key hash
  of the given password.
* `Login.Outcome.grows`: a call only adds rows, whatever its end.
-/

namespace GradidoConnector

open GradidoConnector.Base GradidoConnector.Base.Act

/-- `KeyPairEd25519` -/
structure KeyPair where
  publicKey : Bytes
  privateKey : Bytes
  deriving DecidableEq

structure Crypto where
  /-- `SecretKeyCryptography::createKey(userName, password)`, the derived secret. -/
  createKey : String → String → Bytes
  getKeyHashed : Bytes → KeyHashed
  /-- `KeyPairEd25519::getCryptedPrivKey`, `none` for a null result. -/
  getCryptedPrivKey : KeyPair → Bytes → Option Bytes
  /-- `SecretKeyCryptography::decrypt`, `none` unless `AUTH_DECRYPT_OK`. -/
  decrypt : Bytes → Bytes → Option Bytes
  /-- `KeyPairEd25519(privateKey)` -/
  ofPrivateKey : Bytes → KeyPair
  /-- `KeyPairEd25519::create(passphrase)` -/
  ofPassphrase : String → KeyPair
  /-- `SealedBoxes::encrypt` to the support key. -/
  sealFor : Bytes → String → Bytes

/-- The operations of a call that can fail for reasons outside of it. -/
inductive Operation
  | deriveKey
  | connect
  | loadGroup
  | insertGroup
  | groupId
  | selectUser
  | insertUser
  | userId
  | sealPassphrase
  | insertBackup
  deriving DecidableEq

inductive Failure
  /-- By an exception of its own. -/
  | thrown (what : String)
  /-- For want of memory. -/
  | badAlloc
  deriving DecidableEq

/-- What a failing operation throws. -/
def Operation.exn : Operation → Failure → Exn
  | _, .badAlloc => .stdException "std::bad_alloc"
  | .deriveKey, .thrown what => .passwordEncryptionRateLimitException what
  | .sealPassphrase, .thrown what => .gradidoBlockchainException what
  | _, .thrown what => .pocoException what

structure LoginEnv where
  fault : Operation → Option Failure
  several : Driver
  passphrase : String
  supportPublicKey : Option Bytes

structure Session where
  mGroupAlias : String
  mGroupId : Nat
  mClientIp : String
  mEncryptionSecret : Option Bytes
  mUserKeyPair : Option KeyPair
  deriving DecidableEq

variable {b : Backend}

namespace Session

/-- `Session()` -/
def new : Session := ⟨"", 0, "", none, none⟩

/-- `getPublicKey` -/
def getPublicKey (s : Session) : Option Bytes := s.mUserKeyPair.map (·.publicKey)

/-- An operation that may fail before it does anything. -/
def attempt (env : LoginEnv) (op : Operation) : Act (Db b) Exn Unit :=
  match env.fault op with
  | some what => throw (op.exn what)
  | none => pure ()

/-- `getGroupId(dbSession)`; the caller stores the result in `mGroupId`. -/
def getGroupId (env : LoginEnv) (this : Session) : Act (Db b) Exn Nat :=
  if this.mGroupId ≠ 0 then pure this.mGroupId
  else
    tryCatch (do
      attempt env .loadGroup
      let group ← answer (Group.load env.several this.mGroupAlias (← get))
      return group.id)
    fun
      | .rowNotFoundException .. => do
        attempt env .insertGroup
        Group.save ⟨this.mGroupAlias, this.mGroupAlias⟩
        attempt env .groupId
        getLastInsertId
      | e => throw e

def createNewUser (c : Crypto) (env : LoginEnv) (this : Session) (secret : Bytes)
    (userName : String) : Act (Db b) Exn Session := do
  let mUserKeyPair := c.ofPassphrase env.passphrase
  match c.getCryptedPrivKey mUserKeyPair secret with
  | none => throw (.pocoException "cannot get encrypted private key")
  | some cryptedPrivKey =>
    attempt env .insertUser
    User.save ⟨userName, this.mGroupId, c.getKeyHashed secret, mUserKeyPair.publicKey,
      cryptedPrivKey⟩
    attempt env .userId
    let userId ← getLastInsertId
    match env.supportPublicKey with
    | none =>
      throw (.missingKeyException "missing key for saving passphrase for new user"
        "crypto.server_admin_public")
    | some supportPublicKey =>
      attempt env .sealPassphrase
      attempt env .insertBackup
      UserBackup.save ⟨userId, 0, c.sealFor supportPublicKey env.passphrase⟩
      return { this with mUserKeyPair := some mUserKeyPair }

/-- The branch of `loginOrCreate` for a stored user. -/
def checkStoredUser (c : Crypto) (this : Session) (secret : Bytes) (userName userPassword : String)
    (user : User) : Act (Db b) Exn (Nat × Session) :=
  if user.password ≠ c.getKeyHashed secret then
    throw (.invalidPasswordException "login failed" userName userPassword.utf8ByteSize)
  else
    match c.decrypt secret user.encryptedPrivateKey with
    | none => throw (.decryptionFailedException "cannot decrypt private key")
    | some privateKey =>
      let mUserKeyPair := c.ofPrivateKey privateKey
      if mUserKeyPair.publicKey ≠ user.publicKey then
        throw (.decryptionFailedException "calculated and stored pubkey mismatch")
      else
        pure (1, { this with mUserKeyPair := some mUserKeyPair })

/-- `loginOrCreate`: the returned number and the session as the call leaves it. -/
def loginOrCreate (c : Crypto) (env : LoginEnv) (this : Session)
    (userName userPassword groupAlias clientIp : String) : Act (Db b) Exn (Nat × Session) := do
  attempt env .deriveKey
  let secret := c.createKey userName userPassword
  let this := { this with
    mClientIp := clientIp, mGroupAlias := groupAlias, mEncryptionSecret := some secret }
  attempt env .connect
  let mGroupId ← getGroupId env this
  let this := { this with mGroupId }
  attempt env .selectUser
  match ← answer (deliver env.several (usersNamed userName mGroupId (← get))) with
  | some user => checkStoredUser c this secret userName userPassword user.val
  | none =>
    let this ← createNewUser c env this secret userName
    return (0, this)

/-! ## The group of a session -/

theorem exec_attempt (env : LoginEnv) (op : Operation) (db : Db b) :
    exec (attempt env op) db = match env.fault op with
      | some what => (.error (op.exn what), db)
      | none => (.ok (), db) := by
  rw [attempt]
  cases env.fault op <;> rfl

/-- What `getGroupId` needs to succeed, with its result and the database after it. -/
inductive ResolvesGroup (env : LoginEnv) (groupAlias : String) (db : Db b) : Nat → Db b → Prop
  | found (g : Row Group) (hload : env.fault .loadGroup = none)
      (hd : deliver env.several (groupsLike groupAlias db) = .ok (some g)) :
      ResolvesGroup env groupAlias db g.id db
  | created (groups : Table Group (Group.clash b)) (hload : env.fault .loadGroup = none)
      (hnone : groupsLike groupAlias db = []) (hsave : env.fault .insertGroup = none)
      (hins : db.groups.insert ⟨groupAlias, groupAlias⟩ = some groups)
      (hid : env.fault .groupId = none) (hb : b.dialect = .mysql) :
      ResolvesGroup env groupAlias db db.groups.next
        { db with groups, lastInsertId := db.groups.next }

/-- `db'` is `db`, perhaps with the group of an alias that matched no other. -/
structure GroupAdded (groupAlias : String) (db db' : Db b) : Prop where
  users : db'.users = db.users
  backups : db'.backups = db.backups
  groups : db'.groups = db.groups ∨
    groupsLike groupAlias db = [] ∧ db.groups.insert ⟨groupAlias, groupAlias⟩ = some db'.groups

section GetGroupId

variable {env : LoginEnv} {this : Session} {db db' : Db b} {gid : Nat}

theorem GroupAdded.refl (groupAlias : String) (db : Db b) : GroupAdded groupAlias db db :=
  ⟨rfl, rfl, Or.inl rfl⟩

theorem GroupAdded.grows {groupAlias : String} (h : GroupAdded groupAlias db db') : db.Grows db' := by
  refine ⟨fun r hr => ?_, fun r hr => by rwa [h.users], fun r hr => by rwa [h.backups]⟩
  rcases h.groups with hsame | ⟨-, hins⟩
  · rwa [hsame]
  · exact (Table.mem_insert hins).mpr (Or.inl hr)

theorem ResolvesGroup.groupAdded {groupAlias : String} (h : ResolvesGroup env groupAlias db gid db') :
    GroupAdded groupAlias db db' := by
  cases h with
  | found => exact .refl _ _
  | created groups _ hnone _ hins => exact ⟨rfl, rfl, Or.inr ⟨hnone, hins⟩⟩

/-- The group that was resolved is stored, and the alias matches it or is its own. -/
theorem ResolvesGroup.mem {groupAlias : String} (h : ResolvesGroup env groupAlias db gid db') :
    ∃ g ∈ db'.groups.rows, g.id = gid ∧
      ((g ∈ db.groups.rows ∧ b.like groupAlias g.val.groupAlias = true) ∨
        g.val.groupAlias = groupAlias) := by
  cases h with
  | found g _ hd =>
    obtain ⟨hg, hlike⟩ := mem_groupsLike.mp (mem_of_deliver hd)
    exact ⟨g, hg, rfl, Or.inl ⟨hg, hlike⟩⟩
  | created groups _ _ _ hins =>
    exact ⟨_, (Table.mem_insert hins).mpr (Or.inr rfl), rfl, Or.inr rfl⟩

/-- A stored group with the id that was resolved is one the alias matches. -/
theorem ResolvesGroup.like {groupAlias : String} (h : ResolvesGroup env groupAlias db gid db')
    {g : Row Group} (hg : g ∈ db.groups.rows) (hid : g.id = gid) :
    b.like groupAlias g.val.groupAlias = true := by
  cases h with
  | found g' _ hd =>
    obtain ⟨hg', hlike⟩ := mem_groupsLike.mp (mem_of_deliver hd)
    rwa [Table.eq_of_id hg hg' hid]
  | created groups => exact absurd hid (Nat.ne_of_lt (db.groups.ids_lt g hg))

theorem exec_getGroupId_of_resolves (h0 : this.mGroupId = 0)
    (h : ResolvesGroup env this.mGroupAlias db gid db') :
    exec (getGroupId env this) db = (.ok gid, db') := by
  rw [getGroupId, if_neg (not_not.mpr h0), exec_tryCatch]
  cases h with
  | found g hload hd =>
    simp only [exec_bind, exec_attempt, hload, exec_get, exec_answer, Group.load, hd, exec_pure]
  | created groups hload hnone hsave hins hid hb =>
    have hd : deliver env.several (groupsLike this.mGroupAlias db) = .ok none :=
      deliver_eq_none.mpr hnone
    simp only [exec_bind, exec_attempt, hload, exec_get, exec_answer, Group.load, hd, hsave,
      exec_groupSave, hins, hid, exec_getLastInsertId, hb]

/-- A group lookup that does not succeed throws, and at most leaves the new group behind. -/
theorem exec_getGroupId_cases (env : LoginEnv) (this : Session) (h0 : this.mGroupId = 0) (db : Db b) :
    (∃ gid db', ResolvesGroup env this.mGroupAlias db gid db') ∨
      ∃ e db', exec (getGroupId env this) db = (.error e, db') ∧
        GroupAdded this.mGroupAlias db db' := by
  rw [getGroupId, if_neg (not_not.mpr h0), exec_tryCatch]
  cases hload : env.fault .loadGroup with
  | some what =>
    simp only [exec_bind, exec_attempt, hload]
    cases what <;> exact Or.inr ⟨_, db, rfl, .refl _ _⟩
  | none =>
    cases hd : deliver env.several (groupsLike this.mGroupAlias db) with
    | error e =>
      cases deliver_error hd
      simp only [exec_bind, exec_attempt, hload, exec_get, exec_answer, Group.load, hd]
      exact Or.inr ⟨_, db, rfl, .refl _ _⟩
    | ok g =>
      cases g with
      | some g => exact Or.inl ⟨g.id, db, .found g hload hd⟩
      | none =>
        have hnone := deliver_eq_none.mp hd
        simp only [exec_bind, exec_attempt, hload, exec_get, exec_answer, Group.load, hd]
        cases hsave : env.fault .insertGroup with
        | some what => exact Or.inr ⟨_, db, rfl, .refl _ _⟩
        | none =>
          cases hins : db.groups.insert ⟨this.mGroupAlias, this.mGroupAlias⟩ with
          | none =>
            simp only [exec_groupSave, hins]
            exact Or.inr ⟨_, db, rfl, .refl _ _⟩
          | some groups =>
            simp only [exec_groupSave, hins]
            have hadded : GroupAdded this.mGroupAlias db
                { db with groups, lastInsertId := db.groups.next } := ⟨rfl, rfl, Or.inr ⟨hnone, hins⟩⟩
            cases hid : env.fault .groupId with
            | some what => exact Or.inr ⟨_, _, rfl, hadded⟩
            | none =>
              simp only [exec_getLastInsertId]
              cases hb : b.dialect with
              | mysql => exact Or.inl ⟨_, _, .created groups hload hnone hsave hins hid hb⟩
              | sqlite => exact Or.inr ⟨_, _, rfl, hadded⟩

end GetGroupId

/-! ## A new user -/

/-- The row `createNewUser` inserts. -/
def newUser (c : Crypto) (env : LoginEnv) (userName : String) (groupId : Nat) (secret enc : Bytes) :
    User :=
  ⟨userName, groupId, c.getKeyHashed secret, (c.ofPassphrase env.passphrase).publicKey, enc⟩

/-- Nothing after the insert of the user row fails. -/
structure BackupSucceeds (b : Backend) (env : LoginEnv) (key : Bytes) : Prop where
  backend : b.dialect = .mysql
  userId : env.fault .userId = none
  supportKey : env.supportPublicKey = some key
  sealPassphrase : env.fault .sealPassphrase = none
  insertBackup : env.fault .insertBackup = none

section CreateNewUser

variable {c : Crypto} {env : LoginEnv} {this : Session} {secret enc : Bytes} {userName : String}
  {db : Db b} {users : Table User (User.clash b)}

/-- Before the user row is inserted, a failure changes nothing. -/
theorem exec_createNewUser_cases (c : Crypto) (env : LoginEnv) (this : Session) (secret : Bytes)
    (userName : String) (db : Db b) :
    (∃ enc users, c.getCryptedPrivKey (c.ofPassphrase env.passphrase) secret = some enc ∧
      env.fault .insertUser = none ∧
      db.users.insert (newUser c env userName this.mGroupId secret enc) = some users) ∨
    ∃ e, exec (createNewUser c env this secret userName) db = (.error e, db) := by
  simp only [createNewUser]
  cases henc : c.getCryptedPrivKey (c.ofPassphrase env.passphrase) secret with
  | none => exact Or.inr ⟨_, rfl⟩
  | some enc =>
    simp only [exec_bind, exec_attempt, exec_userSave]
    cases hsave : env.fault .insertUser with
    | some what => exact Or.inr ⟨_, rfl⟩
    | none =>
      cases hins : db.users.insert (newUser c env userName this.mGroupId secret enc) with
      | none =>
        rw [newUser] at hins
        simp only [hins]
        exact Or.inr ⟨_, rfl⟩
      | some users => exact Or.inl ⟨enc, users, rfl, rfl, hins⟩

variable (henc : c.getCryptedPrivKey (c.ofPassphrase env.passphrase) secret = some enc)
  (hsave : env.fault .insertUser = none)
  (hins : db.users.insert (newUser c env userName this.mGroupId secret enc) = some users)
include henc hsave hins

/-- With the backup, both rows are inserted and the session gets its key pair. -/
theorem exec_createNewUser_of_backup {key : Bytes} (h : BackupSucceeds b env key) :
    ∃ backups, db.backups.insert ⟨db.users.next, 0, c.sealFor key env.passphrase⟩ = some backups ∧
      exec (createNewUser c env this secret userName) db =
        (.ok { this with mUserKeyPair := some (c.ofPassphrase env.passphrase) },
          { db with users, backups, lastInsertId := db.backups.next }) := by
  obtain ⟨hb, hid, hkey, hseal, hback⟩ := h
  obtain ⟨backups, hsave', hexec⟩ := exec_userBackupSave
    (⟨db.users.next, 0, c.sealFor key env.passphrase⟩ : UserBackup)
    { db with users, lastInsertId := db.users.next }
  rw [newUser] at hins
  refine ⟨backups, hsave', ?_⟩
  simp only [createNewUser, henc, exec_bind, exec_attempt, hsave, exec_userSave, hins, hid,
    exec_getLastInsertId, hb, hkey, hseal, hback, hexec, exec_pure]

/-- Without it, the user row stays alone and the call throws. -/
theorem exec_createNewUser_of_no_backup (h : ∀ key, ¬ BackupSucceeds b env key) :
    ∃ e, exec (createNewUser c env this secret userName) db =
      (.error e, { db with users, lastInsertId := db.users.next }) := by
  rw [newUser] at hins
  simp only [createNewUser, henc, exec_bind, exec_attempt, hsave, exec_userSave, hins]
  cases hid : env.fault .userId with
  | some what => exact ⟨_, rfl⟩
  | none =>
    simp only [exec_getLastInsertId]
    cases hb : b.dialect with
    | sqlite => exact ⟨_, rfl⟩
    | mysql =>
      cases hkey : env.supportPublicKey with
      | none => exact ⟨_, rfl⟩
      | some key =>
        simp only [exec_bind, exec_attempt]
        cases hseal : env.fault .sealPassphrase with
        | some what => exact ⟨_, rfl⟩
        | none =>
          cases hback : env.fault .insertBackup with
          | some what => exact ⟨_, rfl⟩
          | none => exact absurd ⟨hb, hid, hkey, hseal, hback⟩ (h key)

end CreateNewUser

end Session

/-! ## The call as a whole -/

/-- A call of `loginOrCreate` on a fresh session. -/
structure Login where
  userName : String
  userPassword : String
  groupAlias : String
  clientIp : String
  env : LoginEnv

namespace Login

variable (c : Crypto) (call : Login)

def exec (db : Db b) : Except Exn (Nat × Session) × Db b :=
  Act.exec (Session.loginOrCreate c call.env .new call.userName call.userPassword call.groupAlias
    call.clientIp) db

/-- The secret derived from the name and the password. -/
def secret : Bytes := c.createKey call.userName call.userPassword

/-- Its hash, as a user row stores it. -/
def keyHashed : KeyHashed := c.getKeyHashed (call.secret c)

/-- The session of a call that found or made the key pair `k` in the group `gid`. -/
def session (gid : Nat) (k : KeyPair) : Session :=
  ⟨call.groupAlias, gid, call.clientIp, some (call.secret c), some k⟩

/-- What the call needs to get as far as inserting the user row. -/
structure InsertsUser (db : Db b) (gid : Nat) (db' : Db b) (enc : Bytes)
    (users : Table User (User.clash b)) : Prop where
  deriveKey : call.env.fault .deriveKey = none
  connect : call.env.fault .connect = none
  group : Session.ResolvesGroup call.env call.groupAlias db gid db'
  select : call.env.fault .selectUser = none
  unknown : usersNamed call.userName gid db' = []
  crypted : c.getCryptedPrivKey (c.ofPassphrase call.env.passphrase) (call.secret c) = some enc
  save : call.env.fault .insertUser = none
  insert : db'.users.insert
    (Session.newUser c call.env call.userName gid (call.secret c) enc) = some users

/-- How a call on `db` can end: its result and the database after it. -/
inductive Outcome (db : Db b) : Except Exn (Nat × Session) → Db b → Prop
  | refused (e : Exn) (db' : Db b) (hdb : Session.GroupAdded call.groupAlias db db') :
      Outcome db (.error e) db'
  | loggedIn (gid : Nat) (db' : Db b) (user : Row User) (privateKey : Bytes)
      (hgroup : Session.ResolvesGroup call.env call.groupAlias db gid db')
      (huser : user ∈ usersNamed call.userName gid db')
      (hpassword : user.val.password = call.keyHashed c)
      (hkey : (c.ofPrivateKey privateKey).publicKey = user.val.publicKey) :
      Outcome db (.ok (1, call.session c gid (c.ofPrivateKey privateKey))) db'
  | created (gid : Nat) (db' : Db b) (enc key : Bytes) (users : Table User (User.clash b))
      (backups : Table UserBackup UserBackup.clash)
      (hins : call.InsertsUser c db gid db' enc users)
      (hbackup : Session.BackupSucceeds b call.env key)
      (hsave : db'.backups.insert
        ⟨db'.users.next, 0, c.sealFor key call.env.passphrase⟩ = some backups) :
      Outcome db (.ok (0, call.session c gid (c.ofPassphrase call.env.passphrase)))
        { db' with users, backups, lastInsertId := db'.backups.next }
  | halfCreated (e : Exn) (gid : Nat) (db' : Db b) (enc : Bytes)
      (users : Table User (User.clash b)) (hins : call.InsertsUser c db gid db' enc users)
      (hbackup : ∀ key, ¬ Session.BackupSucceeds b call.env key) :
      Outcome db (.error e) { db' with users, lastInsertId := db'.users.next }

variable {c : Crypto} {call : Login} {db db' : Db b}

/-- The session a call works on once it knows its group. -/
def opening (c : Crypto) (call : Login) (gid : Nat) : Session :=
  ⟨call.groupAlias, gid, call.clientIp, some (call.secret c), none⟩

/-- The call from its select of the user row on. -/
theorem exec_of_resolves {gid : Nat} (hkey : call.env.fault .deriveKey = none)
    (hconn : call.env.fault .connect = none)
    (hgroup : Session.ResolvesGroup call.env call.groupAlias db gid db')
    (hsel : call.env.fault .selectUser = none) :
    call.exec c db =
      match (usersNamed call.userName gid db').head? with
      | some user =>
        Act.exec (Session.checkStoredUser c (opening c call gid) (call.secret c) call.userName
          call.userPassword user.val) db'
      | none =>
        Act.exec (do
          let this ← Session.createNewUser c call.env (opening c call gid) (call.secret c)
            call.userName
          return (0, this)) db' := by
  unfold exec Session.loginOrCreate
  simp only [exec_bind, Session.exec_attempt, hkey, hconn]
  rw [Session.exec_getGroupId_of_resolves rfl hgroup]
  simp only [hsel, exec_get, exec_answer,
    deliver_of_length_le_one (usersNamed_length call.userName gid db')]
  cases (usersNamed call.userName gid db').head? with
  | some user => rfl
  | none =>
    simp only [exec_bind]
    rfl

theorem outcome_of_exec {r : Except Exn (Nat × Session)} (h : call.exec c db = (r, db'))
    (ho : call.Outcome c db r db') : call.Outcome c db (call.exec c db).1 (call.exec c db).2 := by
  rw [h]
  exact ho

/-- A stored user ends the call with the number 1 or with an exception. -/
theorem exec_checkStoredUser_cases (c : Crypto) (call : Login) (gid : Nat) (user : User) (db : Db b) :
    (∃ privateKey, user.password = call.keyHashed c ∧
      (c.ofPrivateKey privateKey).publicKey = user.publicKey ∧
      Act.exec (Session.checkStoredUser c (opening c call gid) (call.secret c) call.userName
        call.userPassword user) db =
          (.ok (1, call.session c gid (c.ofPrivateKey privateKey)), db)) ∨
    ∃ e, Act.exec (Session.checkStoredUser c (opening c call gid) (call.secret c) call.userName
      call.userPassword user) db = (.error e, db) := by
  unfold Session.checkStoredUser
  by_cases hpw : user.password = c.getKeyHashed (call.secret c)
  · rw [if_neg (not_not.mpr hpw)]
    cases c.decrypt (call.secret c) user.encryptedPrivateKey with
    | none => exact Or.inr ⟨_, rfl⟩
    | some privateKey =>
      simp only
      by_cases hk : (c.ofPrivateKey privateKey).publicKey = user.publicKey
      · rw [if_neg (not_not.mpr hk)]
        exact Or.inl ⟨privateKey, hpw, hk, rfl⟩
      · rw [if_pos hk]
        exact Or.inr ⟨_, rfl⟩
  · rw [if_pos hpw]
    exact Or.inr ⟨_, rfl⟩

theorem outcome_of_resolves {gid : Nat} (hkey : call.env.fault .deriveKey = none)
    (hconn : call.env.fault .connect = none)
    (hgroup : Session.ResolvesGroup call.env call.groupAlias db gid db') :
    call.Outcome c db (call.exec c db).1 (call.exec c db).2 := by
  have hadded := hgroup.groupAdded
  cases hsel : call.env.fault .selectUser with
  | some what =>
    refine outcome_of_exec ?_ (.refused (Operation.selectUser.exn what) db' hadded)
    unfold exec Session.loginOrCreate
    simp only [exec_bind, Session.exec_attempt, hkey, hconn]
    rw [Session.exec_getGroupId_of_resolves rfl hgroup]
    simp only [hsel]
  | none =>
    have hexec := exec_of_resolves (c := c) hkey hconn hgroup hsel
    cases hhead : (usersNamed call.userName gid db').head? with
    | some user =>
      rw [hhead] at hexec
      rcases exec_checkStoredUser_cases c call gid user.val db' with
        ⟨privateKey, hpw, hk, hcheck⟩ | ⟨e, hcheck⟩
      · exact outcome_of_exec (hexec.trans hcheck)
          (.loggedIn gid db' user privateKey hgroup (List.mem_of_head? hhead) hpw hk)
      · exact outcome_of_exec (hexec.trans hcheck) (.refused e db' hadded)
    | none =>
      simp only [hhead, exec_bind] at hexec
      rcases Session.exec_createNewUser_cases c call.env (opening c call gid) (call.secret c)
        call.userName db' with ⟨enc, users, henc, hsave, hins⟩ | ⟨e, he⟩
      · have hinserts : call.InsertsUser c db gid db' enc users :=
          ⟨hkey, hconn, hgroup, hsel, List.head?_eq_none_iff.mp hhead, henc, hsave, hins⟩
        by_cases hback : ∃ key, Session.BackupSucceeds b call.env key
        · obtain ⟨key, hback⟩ := hback
          obtain ⟨backups, hsaved, hcreate⟩ :=
            Session.exec_createNewUser_of_backup henc hsave hins hback
          rw [hcreate] at hexec
          exact outcome_of_exec hexec (.created gid db' enc key users backups hinserts hback hsaved)
        · obtain ⟨e, hcreate⟩ := Session.exec_createNewUser_of_no_backup henc hsave hins
            fun key hk => hback ⟨key, hk⟩
          rw [hcreate] at hexec
          exact outcome_of_exec hexec
            (.halfCreated e gid db' enc users hinserts fun key hk => hback ⟨key, hk⟩)
      · rw [he] at hexec
        exact outcome_of_exec hexec (.refused e db' hadded)

/-- **Every call ends in one of the four outcomes.** -/
theorem outcome (c : Crypto) (call : Login) (db : Db b) :
    call.Outcome c db (call.exec c db).1 (call.exec c db).2 := by
  cases hkey : call.env.fault .deriveKey with
  | some what =>
    refine outcome_of_exec ?_ (.refused (Operation.deriveKey.exn what) db (.refl _ _))
    simp only [exec, Session.loginOrCreate, exec_bind, Session.exec_attempt, hkey]
  | none =>
    cases hconn : call.env.fault .connect with
    | some what =>
      refine outcome_of_exec ?_ (.refused (Operation.connect.exn what) db (.refl _ _))
      simp only [exec, Session.loginOrCreate, exec_bind, Session.exec_attempt, hkey, hconn]
    | none =>
      let this : Session := { Session.new with
        mClientIp := call.clientIp, mGroupAlias := call.groupAlias,
        mEncryptionSecret := some (call.secret c) }
      rcases Session.exec_getGroupId_cases call.env this rfl db with
        ⟨gid, db', hgroup⟩ | ⟨e, db', he, hdb⟩
      · exact outcome_of_resolves hkey hconn hgroup
      · refine outcome_of_exec ?_ (.refused e db' hdb)
        unfold exec Session.loginOrCreate
        simp only [exec_bind, Session.exec_attempt, hkey, hconn]
        rw [← secret, he]

/-- The session `s` belongs to a stored user of the name, in a group that the alias matches or
names, and was opened with the password of that row. -/
structure Established (c : Crypto) (call : Login) (db : Db b) (s : Session) : Prop where
  session : ∃ gid k, s = call.session c gid k ∧
    (∃ g ∈ db.groups.rows, g.id = gid ∧
      (b.like call.groupAlias g.val.groupAlias = true ∨ g.val.groupAlias = call.groupAlias)) ∧
    ∃ user ∈ db.users.rows, b.same user.val.name call.userName = true ∧ user.val.groupId = gid ∧
      user.val.password = call.keyHashed c ∧ user.val.publicKey = k.publicKey

/-- **A call that returns has established its session.** -/
theorem Outcome.established {n : Nat} {s : Session} (h : call.Outcome c db (.ok (n, s)) db') :
    call.Established c db' s := by
  cases h with
  | loggedIn gid db' user privateKey hgroup huser hpw hk =>
    obtain ⟨hmem, hn, hg⟩ := mem_usersNamed.mp huser
    obtain ⟨g, hg', hid, halias⟩ := hgroup.mem
    exact ⟨gid, _, rfl, ⟨g, hg', hid, halias.imp_left And.right⟩, user, hmem, hn, hg, hpw, hk.symm⟩
  | created gid db' enc key users backups hins =>
    obtain ⟨g, hg, hid, halias⟩ := hins.group.mem
    exact ⟨gid, _, rfl, ⟨g, hg, hid, halias.imp_left And.right⟩, _,
      (Table.mem_insert hins.insert).mpr (Or.inr rfl), b.columns.same_refl _, rfl, rfl, rfl⟩

/-- **A call only adds rows**, whatever its end. -/
theorem Outcome.grows {r : Except Exn (Nat × Session)} (h : call.Outcome c db r db') :
    db.Grows db' := by
  cases h with
  | refused e db' hdb => exact hdb.grows
  | loggedIn gid db' user privateKey hgroup => exact hgroup.groupAdded.grows
  | created gid db' enc key users backups hins hback hsave =>
    obtain ⟨hg, hu, hb⟩ := hins.group.groupAdded.grows
    exact ⟨hg, fun r hr => (Table.mem_insert hins.insert).mpr (Or.inl (hu r hr)),
      fun r hr => (Table.mem_insert hsave).mpr (Or.inl (hb r hr))⟩
  | halfCreated e gid db' enc users hins =>
    obtain ⟨hg, hu, hb⟩ := hins.group.groupAdded.grows
    exact ⟨hg, fun r hr => (Table.mem_insert hins.insert).mpr (Or.inl (hu r hr)), hb⟩

end Login

end GradidoConnector
