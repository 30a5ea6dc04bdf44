import GradidoConnector.Base.Threads
import GradidoConnector.SessionManager
import Mathlib.Logic.Function.Iterate

/-!
# A login step by step

`SessionManager::login` holds no lock while it works (the mutex `loginOrCreate` takes is the one of
the session it has just made). Between its steps on the cache and the tables other calls make
theirs. `Phase` says where a call stands and `segment` is the next atomic step it makes there, in
the statements of the source: the lookup in `mActiveSessions`, the lookup and the insert of the
group, the lookup and the insert of the user, the insert of the backup, the add to
`mActiveSessions`.

`LAST_INSERT_ID()` is kept for each connection, and a call keeps its connection, so no other call
comes between an insert and the id of its row.

Results:
* `establish_eq`: the steps on the tables, one after another, are `loginOrCreate`.
* `Ends.invariant`: what each step of a call keeps holds when it has answered.
* **`ends_called`**: the steps of a call that runs alone are `login`.
* `writes_after`, `cache_after`: what a step changes.
-/

namespace GradidoConnector.LoginSteps

open GradidoConnector.Base GradidoConnector.Base.Act GradidoConnector.SessionManager

variable {b : Backend}

/-- Where a login stands. -/
inductive Phase
  | called
  /-- No session in the cache. -/
  | missed
  | noGroup
  | group (gid : Nat)
  | noUser (gid : Nat)
  | userStored (gid userId : Nat)
  | established (session : Session)
  | answered (r : Except Exn String)
  deriving DecidableEq

/-! ## The steps on the tables -/

section Tables

variable (c : Crypto) (call : Login)

/-- `Group::load` in `getGroupId`, with what comes before it; `none` when it finds no row. -/
def searchGroup : Act (Db b) Exn (Option Nat) := do
  Session.attempt call.env .deriveKey
  Session.attempt call.env .connect
  tryCatch (do
      Session.attempt call.env .loadGroup
      let group ← answer (Group.load call.env.several call.groupAlias (← get))
      return some group.id)
    fun
      | .rowNotFoundException .. => return none
      | e => throw e

/-- The `catch` clause of `getGroupId`. -/
def addGroup : Act (Db b) Exn Nat := do
  Session.attempt call.env .insertGroup
  Group.save ⟨call.groupAlias, call.groupAlias⟩
  Session.attempt call.env .groupId
  getLastInsertId

/-- The select of the user row, with the check of a row it finds. -/
def searchUser (gid : Nat) : Act (Db b) Exn (Option Session) := do
  Session.attempt call.env .selectUser
  match ← answer (deliver call.env.several (usersNamed call.userName gid (← get))) with
  | some user => do
    let (_, session) ← Session.checkStoredUser c (call.opening c gid) (call.secret c) call.userName
      call.userPassword user.val
    return some session
  | none => return none

/-- `createNewUser` up to the id of the new row. -/
def addUser (gid : Nat) : Act (Db b) Exn Nat :=
  match c.getCryptedPrivKey (c.ofPassphrase call.env.passphrase) (call.secret c) with
  | none => throw (.pocoException "cannot get encrypted private key")
  | some cryptedPrivKey => do
    Session.attempt call.env .insertUser
    (Session.newUser c call.env call.userName gid (call.secret c) cryptedPrivKey).save
    Session.attempt call.env .userId
    getLastInsertId

/-- The rest of `createNewUser`. -/
def addBackup (gid userId : Nat) : Act (Db b) Exn Session :=
  match call.env.supportPublicKey with
  | none =>
    throw (.missingKeyException "missing key for saving passphrase for new user"
      "crypto.server_admin_public")
  | some supportPublicKey => do
    Session.attempt call.env .sealPassphrase
    Session.attempt call.env .insertBackup
    UserBackup.save ⟨userId, 0, c.sealFor supportPublicKey call.env.passphrase⟩
    return call.session c gid (c.ofPassphrase call.env.passphrase)

/-- What comes after the group is known. -/
def enterGroup (gid : Nat) : Act (Db b) Exn Session := do
  match ← searchUser c call gid with
  | some session => return session
  | none => addBackup c call gid (← addUser c call gid)

/-- The steps on the tables one after another. -/
def establish : Act (Db b) Exn Session := do
  match ← searchGroup call with
  | some gid => enterGroup c call gid
  | none => enterGroup c call (← addGroup call)

end Tables

theorem createNewUser_eq (c : Crypto) (call : Login) (gid : Nat) :
    Session.createNewUser (b := b) c call.env (call.opening c gid) (call.secret c) call.userName =
      (do addBackup c call gid (← addUser c call gid)) := by
  unfold Session.createNewUser addUser addBackup
  cases henc : c.getCryptedPrivKey (c.ofPassphrase call.env.passphrase) (call.secret c) with
  | none => simp only [henc]; rfl
  | some enc =>
    simp only [henc, bind_assoc]
    cases call.env.supportPublicKey <;> rfl

/-- The call up to the id of its group. -/
theorem group_eq (call : Login) (this : Session) (h0 : this.mGroupId = 0)
    (halias : this.mGroupAlias = call.groupAlias) :
    (do
      Session.attempt (b := b) call.env .deriveKey
      Session.attempt call.env .connect
      Session.getGroupId call.env this) =
    (do
      match ← searchGroup call with
      | some gid => return gid
      | none => addGroup call) := by
  funext db
  show exec _ db = exec _ db
  rw [exec_bind, exec_bind, searchGroup, exec_bind]
  simp only [Session.exec_attempt]
  cases call.env.fault .deriveKey with
  | some what => rfl
  | none =>
    simp only [exec_bind, Session.exec_attempt]
    cases call.env.fault .connect with
    | some what => rfl
    | none =>
      simp only [Session.getGroupId, h0, ne_eq, not_true_eq_false, if_false, halias, exec_tryCatch,
        exec_bind, Session.exec_attempt]
      cases call.env.fault .loadGroup with
      | some what => cases what <;> rfl
      | none =>
        simp only [exec_get, exec_answer]
        cases Group.load call.env.several call.groupAlias db with
        | ok g => rfl
        | error e => cases e <;> rfl

/-- The call from the id of its group on. -/
theorem enterGroup_eq (c : Crypto) (call : Login) (gid : Nat) :
    enterGroup (b := b) c call gid = (do
      Session.attempt call.env .selectUser
      match ← answer (deliver call.env.several (usersNamed call.userName gid (← get))) with
      | some user => do
        let r ← Session.checkStoredUser c (call.opening c gid) (call.secret c) call.userName
          call.userPassword user.val
        return r.2
      | none =>
        Session.createNewUser c call.env (call.opening c gid) (call.secret c) call.userName) := by
  unfold enterGroup searchUser
  simp only [bind_assoc, createNewUser_eq]
  refine bind_congr fun _ => bind_congr fun db => bind_congr fun found => ?_
  cases found <;> simp only [bind_assoc, pure_bind]

/-- The steps on the tables are `loginOrCreate`. -/
theorem establish_eq (c : Crypto) (call : Login) :
    establish (b := b) c call = (do
      let r ← Session.loginOrCreate c call.env .new call.userName call.userPassword call.groupAlias
        call.clientIp
      return r.2) := by
  let this : Session := { Session.new with
    mClientIp := call.clientIp, mGroupAlias := call.groupAlias
    mEncryptionSecret := some (call.secret c) }
  have hleft : establish (b := b) c call = (do
      match ← searchGroup call with
      | some gid => return gid
      | none => addGroup call) >>= enterGroup c call := by
    rw [establish, bind_assoc]
    refine bind_congr fun found => ?_
    cases found <;> rfl
  rw [hleft, ← group_eq call this rfl rfl]
  simp only [Session.loginOrCreate, bind_assoc]
  refine bind_congr fun _ => bind_congr fun _ => bind_congr fun gid => ?_
  rw [enterGroup_eq]
  refine bind_congr fun _ => bind_congr fun db => bind_congr fun found => ?_
  cases found with
  | some user => rfl
  | none =>
    simp only [bind_assoc, pure_bind, bind_pure]
    rfl

/-! ## The steps of a call -/

section Steps

variable (cfg : Config) (call : Login)

/-- The end of a call that has its session. -/
def reply (session : Session) : Act (SessionManager b) Exn Phase := do
  let s ← get
  return .answered (loginAnswer cfg call session s.now)

def ofGroup : Option Nat → Phase
  | some gid => .group gid
  | none => .noGroup

def ofUser (gid : Nat) : Option Session → Phase
  | some session => .established session
  | none => .noUser gid

/-- The next step of a call, and where it leads. -/
def segment : Phase → Act (SessionManager b) Exn Phase
  | .called => do
    match ← getActive cfg call.userName with
    | some session => reply cfg call session
    | none => return .missed
  | .missed => do return ofGroup (← onDb (searchGroup call))
  | .noGroup => do return .group (← onDb (addGroup call))
  | .group gid => do return ofUser gid (← onDb (searchUser cfg.crypto call gid))
  | .noUser gid => do return .userStored gid (← onDb (addUser cfg.crypto call gid))
  | .userStored gid userId => do return .established (← onDb (addBackup cfg.crypto call gid userId))
  | .established session => do
    addActive call.userName session
    reply cfg call session
  | .answered r => return .answered r

/-- Where a result leads; an exception is the answer of the call. -/
def leads {α : Type} (f : α → Phase) : Except Exn α → Phase
  | .ok a => f a
  | .error e => .answered (.error e)

/-- The server and a call on it after the next step of the call. -/
def after (x : SessionManager b × Phase) : SessionManager b × Phase :=
  ((exec (segment cfg call x.2) x.1).2, leads id (exec (segment cfg call x.2) x.1).1)

/-- The next step in a schedule; a call that has answered has none. -/
def next (s : SessionManager b) : Phase → Option (SessionManager b × Phase)
  | .answered _ => none
  | p => some (after cfg call (s, p))

end Steps

variable {cfg : Config} {call : Login} {s : SessionManager b} {p : Phase}

theorem of_next {s' : SessionManager b} {p' : Phase}
    (h : next cfg call s p = some (s', p')) :
    (∀ r, p ≠ .answered r) ∧ s' = (after cfg call (s, p)).1 ∧ p' = (after cfg call (s, p)).2 := by
  cases p with
  | answered r => cases h
  | _ =>
    have hpair := Option.some.inj h
    exact ⟨fun r hr => Phase.noConfusion hr, (congrArg Prod.fst hpair).symm,
      (congrArg Prod.snd hpair).symm⟩

section After

variable {α : Type} {f : α → Phase}

/-- A step that leads to `f a` for its result `a`. -/
theorem after_of_segment {x : Act (SessionManager b) Exn α}
    (hseg : segment cfg call p = x >>= fun a => pure (f a)) :
    after cfg call (s, p) = ((exec x s).2, leads f (exec x s).1) := by
  unfold after
  rw [hseg, exec_bind]
  cases exec x s with
  | mk r t => cases r <;> rfl

/-- A step on the tables. -/
theorem after_of_tables {x : Act (Db b) Exn α}
    (hseg : segment cfg call p = onDb x >>= fun a => pure (f a)) :
    after cfg call (s, p) = ({ s with db := (exec x s.db).2 }, leads f (exec x s.db).1) :=
  after_of_segment hseg

theorem after_of_live {session : Session} (h : s.live cfg call.userName = some session) :
    after cfg call (s, .called) =
      (s.touched cfg call.userName, .answered (loginAnswer cfg call session s.now)) := by
  simp only [after, segment, exec_bind, exec_getActive, h]
  rfl

theorem after_of_miss (h : s.live cfg call.userName = none) :
    after cfg call (s, .called) = (s.touched cfg call.userName, .missed) := by
  simp only [after, segment, exec_bind, exec_getActive, h]
  rfl

theorem after_established (session : Session) :
    after cfg call (s, .established session) =
      ({ s with mActiveSessions := s.mActiveSessions.add s.now call.userName session },
        .answered (loginAnswer cfg call session s.now)) := rfl

end After

/-! ## A call that runs alone -/

/-- After `n` steps the call has answered, with the result and the state of `r`. -/
def Ends (cfg : Config) (call : Login) (n : Nat) (x : SessionManager b × Phase)
    (r : Except Exn String × SessionManager b) : Prop :=
  (after cfg call)^[n] x = (r.2, .answered r.1)

section Ends

variable {n : Nat} {x : SessionManager b × Phase} {r : Except Exn String × SessionManager b}

theorem ends_answered (n : Nat) (r : Except Exn String) :
    Ends cfg call n (s, .answered r) (r, s) := by
  unfold Ends
  induction n with
  | zero => rfl
  | succ n ih => exact ih

theorem ends_succ : Ends cfg call (n + 1) x r ↔ Ends cfg call n (after cfg call x) r := by
  rw [Ends, Ends, Function.iterate_succ_apply]

theorem Ends.add (h : Ends cfg call n x r) (m : Nat) : Ends cfg call (m + n) x r := by
  unfold Ends at *
  rw [Function.iterate_add_apply, h]
  exact ends_answered m r.1

/-- What each step of a call keeps holds when it has answered. -/
theorem Ends.invariant {R : SessionManager b × Phase → Prop} (h : Ends cfg call n x r)
    (keep : ∀ y, R y → R (after cfg call y)) (h0 : R x) : R (r.2, .answered r.1) := by
  induction n generalizing x with
  | zero => exact (show x = (r.2, .answered r.1) from h) ▸ h0
  | succ n ih => exact ih (ends_succ.mp h) (keep x h0)

/-- A step that leads to `f a` for its result `a`, before what `g a` does. -/
theorem ends_bind {α : Type} {x : Act (SessionManager b) Exn α} {f : α → Phase}
    {g : α → Act (SessionManager b) Exn String} (hseg : segment cfg call p = x >>= fun a => pure (f a))
    (h : ∀ a t, Ends cfg call n (t, f a) (exec (g a) t)) :
    Ends cfg call (n + 1) (s, p) (exec (x >>= g) s) := by
  rw [ends_succ, after_of_segment hseg, exec_bind]
  cases exec x s with
  | mk r t =>
    cases r with
    | ok a => exact h a t
    | error e => exact ends_answered n _

end Ends

/-- The last step of a call whose session was not in the cache. -/
def enter (cfg : Config) (call : Login) (session : Session) : Act (SessionManager b) Exn String := do
  addActive call.userName session
  let s ← get
  answer (loginAnswer cfg call session s.now)

theorem ends_established (session : Session) :
    Ends cfg call 1 (s, .established session) (exec (enter cfg call session) s) := by
  unfold Ends
  simp only [enter, addActive, exec_bind, exec_modify, exec_get, exec_answer]
  rfl

theorem onDb_bind {α β : Type} (x : Act (Db b) Exn α) (f : α → Act (Db b) Exn β) :
    onDb (x >>= f) = onDb x >>= fun a => onDb (f a) :=
  within_bind (fun _ _ => rfl) fun _ _ _ => rfl

theorem ends_group (gid : Nat) :
    Ends cfg call 4 (s, .group gid)
      (exec (onDb (enterGroup cfg.crypto call gid) >>= enter cfg call) s) := by
  rw [enterGroup, onDb_bind, bind_assoc]
  refine ends_bind (f := ofUser gid) rfl ?_
  rintro (_ | session) t
  · rw [onDb_bind, bind_assoc]
    refine ends_bind (f := .userStored gid) rfl fun id u => ?_
    exact ends_bind (f := .established) rfl fun session v => ends_established session
  · exact (ends_established session).add 2

theorem ends_missed :
    Ends cfg call 6 (s, .missed) (exec (onDb (establish cfg.crypto call) >>= enter cfg call) s) := by
  rw [establish, onDb_bind, bind_assoc]
  refine ends_bind (f := ofGroup) rfl ?_
  rintro (_ | gid) t
  · rw [onDb_bind, bind_assoc]
    exact ends_bind (f := .group) rfl fun gid u => ends_group gid
  · exact (ends_group gid).add 1

/-- A call without a session in the cache, from its first step on the tables. -/
theorem exec_login_of_miss (hlive : s.live cfg call.userName = none) :
    exec (onDb (establish cfg.crypto call) >>= enter cfg call) (s.touched cfg call.userName) =
      exec (login cfg call) s := by
  rw [establish_eq, exec_bind, onDb, exec_within, exec_bind, touched_db, ← Login.exec]
  rcases hexec : call.exec cfg.crypto s.db with ⟨e | ⟨n, session⟩, db'⟩
  · rw [login_of_error hlive hexec]
  · obtain ⟨t, hlogin, hanswer⟩ := login_of_new hlive hexec
    rw [hlogin]
    simp only [exec_pure, enter, addActive, exec_bind, exec_modify, exec_get, exec_answer]
    rw [← hanswer]
    rfl

/-- **The steps of a call that runs alone are `login`.** -/
theorem ends_called (cfg : Config) (call : Login) (s : SessionManager b) :
    Ends cfg call 7 (s, .called) (exec (login cfg call) s) := by
  rw [ends_succ]
  cases hlive : s.live cfg call.userName with
  | some session =>
    rw [after_of_live hlive, login_of_live hlive]
    exact ends_answered 6 _
  | none =>
    rw [after_of_miss hlive, ← exec_login_of_miss hlive]
    exact ends_missed

/-! ## What a step changes -/

/-- What a step writes to the tables `db`. -/
inductive Writes (c : Crypto) (call : Login) (db : Db b) : Phase → Db b → Prop
  | nothing (p : Phase) : Writes c call db p db
  | group (groups : Table Group (Group.clash b))
      (hins : db.groups.insert ⟨call.groupAlias, call.groupAlias⟩ = some groups) :
      Writes c call db .noGroup { db with groups, lastInsertId := db.groups.next }
  | user (gid : Nat) (enc : Bytes) (users : Table User (User.clash b))
      (hins : db.users.insert (Session.newUser c call.env call.userName gid (call.secret c) enc) =
        some users) :
      Writes c call db (.noUser gid) { db with users, lastInsertId := db.users.next }
  | backup (gid userId : Nat) (key : Bytes) (backups : Table UserBackup UserBackup.clash)
      (hins : db.backups.insert ⟨userId, 0, c.sealFor key call.env.passphrase⟩ = some backups) :
      Writes c call db (.userStored gid userId) { db with backups, lastInsertId := db.backups.next }

/-- The search reads the groups only, and writes nothing. -/
theorem exec_searchGroup {db db' : Db b} (h : db'.groups = db.groups) :
    exec (searchGroup call) db' = ((exec (searchGroup call) db).1, db') := by
  have hload : Group.load call.env.several call.groupAlias db' =
      Group.load call.env.several call.groupAlias db := by
    unfold Group.load groupsLike
    rw [h]
  simp only [searchGroup, exec_bind, exec_tryCatch, Session.exec_attempt, exec_get, exec_answer]
  cases call.env.fault .deriveKey with
  | some what => rfl
  | none =>
    cases call.env.fault .connect with
    | some what => rfl
    | none =>
      cases call.env.fault .loadGroup with
      | some what => cases what <;> rfl
      | none =>
        simp only [hload]
        cases Group.load call.env.several call.groupAlias db with
        | ok g => rfl
        | error e => cases e <;> rfl

theorem writes_addGroup (c : Crypto) (db : Db b) :
    Writes c call db .noGroup (exec (addGroup call) db).2 := by
  simp only [addGroup, exec_bind, Session.exec_attempt, exec_groupSave]
  cases call.env.fault .insertGroup with
  | some what => exact .nothing _
  | none =>
    cases hins : db.groups.insert ⟨call.groupAlias, call.groupAlias⟩ with
    | none =>
      simp only [hins]
      exact .nothing _
    | some groups =>
      simp only [hins]
      cases call.env.fault .groupId with
      | some what => exact .group groups hins
      | none =>
        simp only [exec_getLastInsertId]
        exact .group groups hins

/-- What the check of a stored user yields, which neither reads nor writes a table. -/
def checked (c : Crypto) (call : Login) (gid : Nat) (user : User) : Except Exn Session :=
  (exec (Session.checkStoredUser c (call.opening c gid) (call.secret c) call.userName
    call.userPassword user) (Db.empty : Db plainMysql)).1.map (·.2)

theorem exec_checked (c : Crypto) (gid : Nat) (user : User) (db : Db b) :
    exec (do
      let (_, session) ← Session.checkStoredUser c (call.opening c gid) (call.secret c) call.userName
        call.userPassword user
      return some session) db = ((checked c call gid user).map some, db) := by
  unfold checked Session.checkStoredUser
  split
  · rfl
  · split
    · rfl
    · simp only
      split <;> rfl

theorem exec_searchUser (c : Crypto) (gid : Nat) (db : Db b) :
    exec (searchUser c call gid) db =
      (match call.env.fault .selectUser, (usersNamed call.userName gid db).head? with
        | some what, _ => .error (Operation.selectUser.exn what)
        | none, some row => (checked c call gid row.val).map some
        | none, none => .ok none, db) := by
  simp only [searchUser, exec_bind, Session.exec_attempt]
  cases call.env.fault .selectUser with
  | some what => rfl
  | none =>
    simp only [exec_get, exec_answer,
      deliver_of_length_le_one (usersNamed_length call.userName gid db)]
    cases (usersNamed call.userName gid db).head? with
    | none => rfl
    | some row => exact exec_checked c gid row.val db

theorem writes_addUser (c : Crypto) (gid : Nat) (db : Db b) :
    Writes c call db (.noUser gid) (exec (addUser c call gid) db).2 := by
  unfold addUser
  cases c.getCryptedPrivKey (c.ofPassphrase call.env.passphrase) (call.secret c) with
  | none => exact .nothing _
  | some enc =>
    simp only [exec_bind, Session.exec_attempt, exec_userSave]
    cases call.env.fault .insertUser with
    | some what => exact .nothing _
    | none =>
      cases hins : db.users.insert
        (Session.newUser c call.env call.userName gid (call.secret c) enc) with
      | none =>
        simp only [hins]
        exact .nothing _
      | some users =>
        simp only [hins]
        cases call.env.fault .userId with
        | some what => exact .user gid enc users hins
        | none =>
          simp only [exec_getLastInsertId]
          exact .user gid enc users hins

theorem writes_addBackup (c : Crypto) (gid userId : Nat) (db : Db b) :
    Writes c call db (.userStored gid userId) (exec (addBackup c call gid userId) db).2 := by
  unfold addBackup
  cases call.env.supportPublicKey with
  | none => exact .nothing _
  | some key =>
    obtain ⟨backups, hins, hexec⟩ := exec_userBackupSave
      (⟨userId, 0, c.sealFor key call.env.passphrase⟩ : UserBackup) db
    simp only [exec_bind, Session.exec_attempt]
    cases call.env.fault .sealPassphrase with
    | some what => exact .nothing _
    | none =>
      cases call.env.fault .insertBackup with
      | some what => exact .nothing _
      | none =>
        simp only [hexec]
        exact .backup gid userId key backups hins

/-- **What a step writes to the tables.** -/
theorem writes_after (cfg : Config) (call : Login) (s : SessionManager b) (p : Phase) :
    Writes cfg.crypto call s.db p (after cfg call (s, p)).1.db := by
  cases p with
  | called =>
    cases hlive : s.live cfg call.userName with
    | some session =>
      rw [after_of_live hlive]
      exact .nothing _
    | none =>
      rw [after_of_miss hlive]
      exact .nothing _
  | missed =>
    rw [after_of_tables rfl, exec_searchGroup rfl]
    exact .nothing _
  | noGroup =>
    rw [after_of_tables rfl]
    exact writes_addGroup cfg.crypto s.db
  | group gid =>
    rw [after_of_tables rfl, exec_searchUser]
    exact .nothing _
  | noUser gid =>
    rw [after_of_tables rfl]
    exact writes_addUser cfg.crypto gid s.db
  | userStored gid userId =>
    rw [after_of_tables rfl]
    exact writes_addBackup cfg.crypto gid userId s.db
  | established session => exact .nothing _
  | answered r => exact .nothing _

/-- A step leaves the clock, and the sessions of other users, as they are. -/
theorem cache_after (cfg : Config) (call : Login) (s : SessionManager b) (p : Phase) :
    (after cfg call (s, p)).1.now = s.now ∧ ∀ name ≠ call.userName,
      (after cfg call (s, p)).1.mActiveSessions name = s.mActiveSessions name := by
  cases p with
  | called =>
    cases hlive : s.live cfg call.userName with
    | some session =>
      rw [after_of_live hlive]
      exact ⟨rfl, fun name hne => ExpireCache.touch_of_ne hne⟩
    | none =>
      rw [after_of_miss hlive]
      exact ⟨rfl, fun name hne => ExpireCache.touch_of_ne hne⟩
  | established session => exact ⟨rfl, fun name hne => ExpireCache.add_of_ne session hne⟩
  | answered r => exact ⟨rfl, fun _ _ => rfl⟩
  | _ =>
    rw [after_of_tables rfl]
    exact ⟨rfl, fun _ _ => rfl⟩

end GradidoConnector.LoginSteps
