import GradidoConnector.SessionManager

/-!
# Verifying a password

Model of `Session::verifyPassword`, which derives a key from `mUserName` and the password and
compares its hash with that of the key `loginOrCreate` has kept.

* `SessionObject` is a session with the member `mUserName`. Its constructor leaves the name empty,
  and `loginOrCreate` stores the ip, the alias, the group, the key and the key pair, but no name.
* `Reachable` are the objects after any number of calls. A call that threw may have left anything
  in the members it writes.

Results:
* `verifyPassword_iff`: the password is verified against the name the object remembers.
* `Reachable.mUserName_eq`: that name is empty, after any calls.
* **`verifyPassword_agrees_iff`**: it agrees with the login on all passwords exactly where the empty
  name gives the login's hash on the same passwords as the user's.
* `saltIrrelevant_iff`: where nothing else has the login's hash, that is for the empty name only.
-/

namespace GradidoConnector

open GradidoConnector.Base GradidoConnector.Base.Act

/-- A `Session` with the member that nothing sets. -/
structure SessionObject extends Session where
  mUserName : String
  deriving DecidableEq

namespace SessionObject

variable {b : Backend}

/-- `Session()` -/
def new : SessionObject := ⟨.new, ""⟩

def loginOrCreate (c : Crypto) (env : LoginEnv) (this : SessionObject)
    (userName userPassword groupAlias clientIp : String) :
    Act (Db b) Exn (Nat × SessionObject) := do
  let (n, session) ← Session.loginOrCreate c env this.toSession userName userPassword groupAlias
    clientIp
  return (n, { this with toSession := session })

/-- `waitForFreeSlotAndRunEncryption` fails as in `loginOrCreate`. Without a key from an earlier
call a null pointer is read. -/
def verifyPassword (c : Crypto) (env : LoginEnv) (this : SessionObject) (password : String) :
    Except Exn Bool :=
  match env.fault .deriveKey with
  | some what => .error (Operation.deriveKey.exn what)
  | none =>
    let secretCryptography := c.createKey this.mUserName password
    match this.mEncryptionSecret with
    | some mEncryptionSecret =>
      .ok (c.getKeyHashed mEncryptionSecret == c.getKeyHashed secretCryptography)
    | none => .error (.crash "mEncryptionSecret")

/-- The objects that calls of `loginOrCreate` lead to. -/
inductive Reachable (c : Crypto) : SessionObject → Prop
  | new : Reachable c .new
  | returned {b : Backend} {db db' : Db b} {env : LoginEnv} {this after : SessionObject} {n : Nat}
      {userName userPassword groupAlias clientIp : String} (h : Reachable c this)
      (hret : exec (loginOrCreate c env this userName userPassword groupAlias clientIp) db =
        (.ok (n, after), db')) : Reachable c after
  | threw {this after : SessionObject} (h : Reachable c this)
      (hname : after.mUserName = this.mUserName) : Reachable c after

/-- The hash of the key derived from a name and a password. -/
def keyHashed (c : Crypto) (userName password : String) : KeyHashed :=
  c.getKeyHashed (c.createKey userName password)

/-- Where a slot is free, `verifyPassword` accepts `password` exactly when it gives the user the
hash that the password of the login gave. -/
def Agrees (c : Crypto) (this : SessionObject) (userName userPassword password : String) : Prop :=
  ∀ env : LoginEnv, env.fault .deriveKey = none →
    (verifyPassword c env this password = .ok true ↔
      keyHashed c userName password = keyHashed c userName userPassword)

/-- The empty name gives the hash of the login on the passwords on which the user's name does. -/
def SaltIrrelevant (c : Crypto) (userName userPassword : String) : Prop :=
  ∀ password, keyHashed c "" password = keyHashed c userName userPassword ↔
    keyHashed c userName password = keyHashed c userName userPassword

variable {c : Crypto} {env : LoginEnv} {this after : SessionObject} {db db' : Db b} {n : Nat}
  {userName userPassword groupAlias clientIp password : String}

/-- The password is verified against the name the object remembers. -/
theorem verifyPassword_iff {secret : Bytes} (hslot : env.fault .deriveKey = none)
    (hsecret : this.mEncryptionSecret = some secret) :
    verifyPassword c env this password = .ok true ↔
      keyHashed c this.mUserName password = c.getKeyHashed secret := by
  rw [verifyPassword, hslot, hsecret]
  simp only [Except.ok.injEq, beq_iff_eq]
  exact eq_comm

/-! ## What a call leaves in the object -/

theorem mEncryptionSecret_of_checkStoredUser {session session' : Session} {secret : Bytes}
    {user : User}
    (h : exec (Session.checkStoredUser c session secret userName userPassword user) db =
      (.ok (n, session'), db')) : session'.mEncryptionSecret = session.mEncryptionSecret := by
  unfold Session.checkStoredUser at h
  split at h
  · cases h
  · split at h
    · cases h
    · simp only at h
      split at h
      · cases h
      · cases h
        rfl

theorem mEncryptionSecret_of_createNewUser {session session' : Session} {secret : Bytes}
    (h : exec (Session.createNewUser c env session secret userName) db = (.ok session', db')) :
    session'.mEncryptionSecret = session.mEncryptionSecret := by
  unfold Session.createNewUser at h
  simp only at h
  split at h
  · cases h
  · obtain ⟨-, _, -, h⟩ := of_exec_bind h
    obtain ⟨-, _, -, h⟩ := of_exec_bind h
    obtain ⟨-, _, -, h⟩ := of_exec_bind h
    obtain ⟨userId, _, -, h⟩ := of_exec_bind h
    split at h
    · cases h
    · obtain ⟨-, _, -, h⟩ := of_exec_bind h
      obtain ⟨-, _, -, h⟩ := of_exec_bind h
      obtain ⟨-, _, -, h⟩ := of_exec_bind h
      cases h
      rfl

/-- A call that returns, on any object, keeps the key it has derived. -/
theorem mEncryptionSecret_of_session {session session' : Session}
    (h : exec (Session.loginOrCreate c env session userName userPassword groupAlias clientIp) db =
      (.ok (n, session'), db')) :
    session'.mEncryptionSecret = some (c.createKey userName userPassword) := by
  unfold Session.loginOrCreate at h
  obtain ⟨-, _, -, h⟩ := of_exec_bind h
  obtain ⟨-, _, -, h⟩ := of_exec_bind h
  obtain ⟨mGroupId, _, -, h⟩ := of_exec_bind h
  obtain ⟨-, _, -, h⟩ := of_exec_bind h
  obtain ⟨stored, _, -, h⟩ := of_exec_bind h
  obtain ⟨row, _, -, h⟩ := of_exec_bind h
  cases row with
  | some user => exact mEncryptionSecret_of_checkStoredUser h
  | none =>
    obtain ⟨created, _, hnew, h⟩ := of_exec_bind h
    cases h
    exact mEncryptionSecret_of_createNewUser hnew

/-- **What a call that returns leaves behind**: the key of its arguments, and the old name. -/
theorem loginOrCreate_returned
    (h : exec (loginOrCreate c env this userName userPassword groupAlias clientIp) db =
      (.ok (n, after), db')) :
    after.mEncryptionSecret = some (c.createKey userName userPassword) ∧
      after.mUserName = this.mUserName := by
  obtain ⟨⟨m, session⟩, _, hcall, h⟩ := of_exec_bind h
  cases h
  exact ⟨mEncryptionSecret_of_session hcall, rfl⟩

/-- **No call sets the name.** -/
theorem Reachable.mUserName_eq (h : Reachable c this) : this.mUserName = "" := by
  induction h with
  | new => rfl
  | returned _ hret ih => exact (loginOrCreate_returned hret).2.trans ih
  | threw _ hname ih => exact hname.trans ih

/-! ## Verifying after a login -/

/-- On an object of any calls, the login that returned last decides. -/
theorem agrees_iff (hthis : Reachable c this)
    (hret : exec (loginOrCreate c env this userName userPassword groupAlias clientIp) db =
      (.ok (n, after), db')) :
    Agrees c after userName userPassword password ↔
      (keyHashed c "" password = keyHashed c userName userPassword ↔
        keyHashed c userName password = keyHashed c userName userPassword) := by
  obtain ⟨hsecret, hname⟩ := loginOrCreate_returned hret
  have hempty : after.mUserName = "" := hname.trans hthis.mUserName_eq
  have hverify : ∀ env : LoginEnv, env.fault .deriveKey = none →
      (verifyPassword c env after password = .ok true ↔
        keyHashed c "" password = keyHashed c userName userPassword) := by
    intro env hslot
    rw [verifyPassword_iff hslot hsecret, hempty]
    exact Iff.rfl
  constructor
  · intro hagrees
    rw [← hverify (quietEnv "") rfl]
    exact hagrees (quietEnv "") rfl
  · intro hsame env hslot
    rw [hverify env hslot]
    exact hsame

/-- **`verifyPassword` agrees with the login** on every password exactly where the salt of the empty
name makes no difference. -/
theorem verifyPassword_agrees_iff (c : Crypto) (env : LoginEnv) (this after : SessionObject)
    (db db' : Db b) (n : Nat) (userName userPassword groupAlias clientIp : String)
    (hthis : Reachable c this)
    (hret : exec (loginOrCreate c env this userName userPassword groupAlias clientIp) db =
      (.ok (n, after), db')) :
    (∀ password, Agrees c after userName userPassword password) ↔
      SaltIrrelevant c userName userPassword :=
  forall_congr' fun _ => agrees_iff hthis hret

/-- Where no other name and password have the hash of the login, that is for the empty name only. -/
theorem saltIrrelevant_iff
    (hunique : ∀ name password, keyHashed c name password = keyHashed c userName userPassword →
      name = userName ∧ password = userPassword) :
    SaltIrrelevant c userName userPassword ↔ userName = "" := by
  constructor
  · intro h
    exact (hunique "" userPassword ((h userPassword).mpr rfl)).1.symm
  · rintro rfl
    exact fun _ => Iff.rfl

/-- What the first login of `alice` returns. -/
def aliceObject : SessionObject where
  mGroupAlias := "gdd"
  mGroupId := 1
  mClientIp := "10.0.0.1"
  mEncryptionSecret := some (plainCrypto.createKey "alice" "secret")
  mUserKeyPair := some (plainCrypto.ofPassphrase "passphrase")
  mUserName := ""

/-- The first login of `alice`, on a fresh database. -/
def aliceLogsIn : Except Exn (Nat × SessionObject) × Db plainMysql :=
  exec (loginOrCreate plainCrypto (quietEnv "passphrase") .new "alice" "secret" "gdd" "10.0.0.1")
    .empty

theorem aliceLogsIn_eq : aliceLogsIn.1 = .ok (0, aliceObject) := by decide

theorem verifyPassword_agrees_iff_alice :
    (∀ password, Agrees plainCrypto aliceObject "alice" "secret" password) ↔
      SaltIrrelevant plainCrypto "alice" "secret" :=
  verifyPassword_agrees_iff plainCrypto (quietEnv "passphrase") .new aliceObject .empty aliceLogsIn.2 0
    "alice" "secret" "gdd" "10.0.0.1" .new (Prod.ext aliceLogsIn_eq rfl)

/-- **The password of the login is not verified**: `mUserName` is empty, and not `alice`. -/
theorem verifyPassword_refuses_login :
    aliceLogsIn.1 = .ok (0, aliceObject) ∧
    verifyPassword plainCrypto (quietEnv "") aliceObject "secret" = .ok false ∧
    ¬ Agrees plainCrypto aliceObject "alice" "secret" "secret" := by
  have hfalse : verifyPassword plainCrypto (quietEnv "") aliceObject "secret" = .ok false := by decide
  refine ⟨aliceLogsIn_eq, hfalse, fun h => ?_⟩
  have htrue := (h (quietEnv "") rfl).mpr rfl
  rw [hfalse] at htrue
  cases htrue

end SessionObject

end GradidoConnector
