import GradidoConnector.SessionManager

/-!
# The recovery backup of an account

`createNewUser` inserts the user row, asks for its id, looks up the support key, seals the
passphrase and inserts the backup row, in this order and without a transaction. When anything
after the first insert fails the user row stays alone, and the next login of the name treats it
like any other (`backup_missing`).

A run is any sequence of `loginOrCreate` calls from empty tables; an entry of its history is one
call with the database before and after it.

Results:
* `owned_before`: in every run a backup row belongs to a user row inserted before.
* `backedUp_step`: a call that is `BackupSafe` keeps every user row backed up.
* **`recoveryKept_iff`**: all accounts of a run can be recovered exactly when in each of its calls
  that inserts a user row nothing after the insert fails.
* `backup_missing`: without a support key an account stays without backup, and can be used.
-/

namespace GradidoConnector

open GradidoConnector.Base GradidoConnector.Base.Act

namespace Backup

variable {b : Backend} (c : Crypto)

/-- A call of `loginOrCreate` in a run. -/
abbrev Call (b : Backend) := Entry (Db b) Login (Except Exn (Nat × Session))

def step (db : Db b) (call : Login) : Except Exn (Nat × Session) × Db b := call.exec c db

/-- The calls one after another, from empty tables. -/
def runs (b : Backend) (calls : List Login) : List (Call b) := history (step c) Db.empty calls

/-- The call `d` inserted `user`, and `backup` holds its passphrase, sealed for the support key of
that call. -/
structure Recovers (d : Call b) (user : Row User) (backup : UserBackup) : Prop where
  fresh : user ∉ d.before.users.rows
  inserted : user ∈ d.after.users.rows
  publicKey : user.val.publicKey = (c.ofPassphrase d.input.env.passphrase).publicKey
  passphrase : ∃ key, d.input.env.supportPublicKey = some key ∧
    backup.encryptedPassphrase = c.sealFor key d.input.env.passphrase

/-- `user` has exactly one backup row, with the passphrase its key pair was generated from. -/
def BackedUp (h : List (Call b)) (db : Db b) (user : Row User) : Prop :=
  ∃ backup ∈ db.backups.rows, backup.val.userId = user.id ∧
    (∃ d ∈ h, Recovers c d user backup.val) ∧
    ∀ other ∈ db.backups.rows, other.val.userId = user.id → other = backup

/-- After every call each user row is backed up, and a call that returns a session returns the one
of a backed up user. -/
def RecoveryKept (run : List (Call b)) : Prop :=
  ∀ h e, Occurs run h e →
    (∀ user ∈ e.after.users.rows, BackedUp c (h ++ [e]) e.after user) ∧
    ∀ n session, e.output = .ok (n, session) → ∃ user ∈ e.after.users.rows,
      b.same user.val.name e.input.userName = true ∧ user.val.groupId = session.mGroupId ∧
      BackedUp c (h ++ [e]) e.after user

/-- If the call gets as far as inserting a user row, nothing after the insert fails. -/
def BackupSafe (e : Call b) : Prop :=
  ∀ gid db' enc users, e.input.InsertsUser c e.before gid db' enc users →
    ∃ key, Session.BackupSucceeds b e.input.env key

/-- Every backup row belongs to an id handed out before. -/
def Owned (db : Db b) : Prop := ∀ backup ∈ db.backups.rows, backup.val.userId < db.users.next

variable {c}

section Step

variable {h : List (Call b)} {e : Call b}

/-- A call with its outcome. -/
theorem outcome_entry (c : Crypto) (db : Db b) (call : Login) :
    (entryOf (step c) db call).input.Outcome c (entryOf (step c) db call).before
      (entryOf (step c) db call).output (entryOf (step c) db call).after :=
  Login.outcome c call db

theorem owned_of_eq {db db' : Db b} (hu : db'.users = db.users) (hb : db'.backups = db.backups)
    (hown : Owned db) : Owned db' := by
  intro backup hbackup
  rw [hb] at hbackup
  rw [hu]
  exact hown backup hbackup

/-- Every call keeps the backup rows to their users. -/
theorem owned_step (hout : e.input.Outcome c e.before e.output e.after) (hown : Owned e.before) :
    Owned e.after := by
  obtain ⟨before, call, output, after⟩ := e
  dsimp only at hout
  cases hout with
  | refused x after hdb => exact owned_of_eq hdb.users hdb.backups hown
  | loggedIn gid after user privateKey hgroup =>
    exact owned_of_eq hgroup.groupAdded.users hgroup.groupAdded.backups hown
  | created gid db' enc key users backups hins hbackup hsave =>
    have hadded := hins.group.groupAdded
    have hown' : Owned db' := owned_of_eq hadded.users hadded.backups hown
    have hnext : users.next = db'.users.next + 1 := (Table.insert_rows hins.insert).2
    intro backup hb
    show backup.val.userId < users.next
    rcases (Table.mem_insert hsave).mp hb with hold | rfl
    · have := hown' backup hold
      omega
    · show db'.users.next < users.next
      omega
  | halfCreated x gid db' enc users hins =>
    have hadded := hins.group.groupAdded
    have hown' : Owned db' := owned_of_eq hadded.users hadded.backups hown
    have hnext : users.next = db'.users.next + 1 := (Table.insert_rows hins.insert).2
    intro backup hb
    show backup.val.userId < users.next
    have := hown' backup hb
    omega

/-- A backup stays the only one of its user while no other row is added under the user's id. -/
theorem BackedUp.carry {db db' : Db b} {user : Row User} (hb : BackedUp c h db user)
    (hgrow : ∀ r ∈ db.backups.rows, r ∈ db'.backups.rows)
    (hnew : ∀ r ∈ db'.backups.rows, r.val.userId = user.id → r ∈ db.backups.rows) :
    BackedUp c (h ++ [e]) db' user := by
  obtain ⟨backup, hmem, hid, ⟨d, hd, hrec⟩, huniq⟩ := hb
  refine ⟨backup, hgrow backup hmem, hid, ⟨d, List.mem_append_left _ hd, hrec⟩, ?_⟩
  intro other hother hoid
  exact huniq other (hnew other hother hoid) hoid

/-- **A safe call keeps every user row backed up.** -/
theorem backedUp_step (hout : e.input.Outcome c e.before e.output e.after) (hsafe : BackupSafe c e)
    (hown : Owned e.before) (hinv : ∀ user ∈ e.before.users.rows, BackedUp c h e.before user) :
    ∀ user ∈ e.after.users.rows, BackedUp c (h ++ [e]) e.after user := by
  obtain ⟨before, call, output, after⟩ := e
  have hcarry : ∀ {db' : Db b} {x : Call b}, db'.users = before.users →
      db'.backups = before.backups → ∀ user ∈ db'.users.rows, BackedUp c (h ++ [x]) db' user := by
    intro db' x hu hb user huser
    rw [hu] at huser
    exact (hinv user huser).carry (fun r hr => by rwa [hb]) fun r hr _ => by rwa [hb] at hr
  dsimp only at hout
  cases hout with
  | refused x after hdb => exact hcarry hdb.users hdb.backups
  | loggedIn gid after user privateKey hgroup =>
    exact hcarry hgroup.groupAdded.users hgroup.groupAdded.backups
  | halfCreated x gid db' enc users hins hbackup =>
    obtain ⟨key, hkey⟩ := hsafe gid db' enc users hins
    exact absurd hkey (hbackup key)
  | created gid db' enc key users backups hins hbackup hsave =>
    have hadded := hins.group.groupAdded
    intro user huser
    rcases (Table.mem_insert hins.insert).mp huser with hold | rfl
    · -- an older user: the new backup row has the id of the new one
      rw [hadded.users] at hold
      refine (hinv user hold).carry (fun r hr => ?_) fun r hr hrid => ?_
      · rw [← hadded.backups] at hr
        exact (Table.mem_insert hsave).mpr (Or.inl hr)
      · rcases (Table.mem_insert hsave).mp hr with hr | rfl
        · rwa [hadded.backups] at hr
        · have hlt := before.users.ids_lt user hold
          rw [← hadded.users, ← hrid] at hlt
          exact absurd hlt (Nat.lt_irrefl _)
    · refine ⟨_, (Table.mem_insert hsave).mpr (Or.inr rfl), rfl,
        ⟨_, List.mem_append_right _ List.mem_cons_self, ?_⟩, fun other hother hoid => ?_⟩
      · refine ⟨fun hmem => ?_, (Table.mem_insert hins.insert).mpr (Or.inr rfl), rfl,
          key, hbackup.supportKey, rfl⟩
        rw [hadded.users] at hmem
        exact absurd (before.users.ids_lt _ hmem) (Nat.lt_irrefl _)
      · rcases (Table.mem_insert hsave).mp hother with hold | rfl
        · rw [hadded.backups] at hold
          have hlt := hown other hold
          rw [hoid, hadded.users] at hlt
          exact absurd hlt (Nat.lt_irrefl _)
        · rfl

end Step

/-- Where the insert is reached and something after it fails, the user row is there and the backup
is not. -/
theorem exec_of_insertsUser {call : Login} {db db' : Db b} {gid : Nat} {enc : Bytes}
    {users : Table User (User.clash b)} (hins : call.InsertsUser c db gid db' enc users)
    (hno : ∀ key, ¬ Session.BackupSucceeds b call.env key) :
    (call.exec c db).2 = { db' with users, lastInsertId := db'.users.next } := by
  have hcreate : ∃ e, exec (Session.createNewUser c call.env (Login.opening c call gid)
      (call.secret c) call.userName) db' =
        (.error e, { db' with users, lastInsertId := db'.users.next }) :=
    Session.exec_createNewUser_of_no_backup hins.crypted hins.save hins.insert hno
  obtain ⟨e, he⟩ := hcreate
  rw [Login.exec_of_resolves hins.deriveKey hins.connect hins.group hins.select, hins.unknown]
  simp only [List.head?_nil, exec_bind, he]

section Run

variable {calls : List Login} {h : List (Call b)} {e : Call b}

theorem outcome_of_occurs (ho : Occurs (runs c b calls) h e) :
    e.input.Outcome c e.before e.output e.after := by
  rw [occurs_spec ho]
  exact outcome_entry c e.before e.input

/-- In every run a backup row belongs to a user row inserted before. -/
theorem owned_before (ho : Occurs (runs c b calls) h e) : Owned e.before :=
  occurs_invariant (I := fun _ db => Owned db) (C := fun _ _ => True)
    (fun _ hr => absurd hr List.not_mem_nil)
    (fun _ db call hown _ => owned_step (outcome_entry c db call) hown) (fun _ _ _ => trivial) ho

/-- In a run of safe calls every user row is backed up before each of them. -/
theorem backedUp_before (hsafe : ∀ h e, Occurs (runs c b calls) h e → BackupSafe c e)
    (ho : Occurs (runs c b calls) h e) : ∀ user ∈ e.before.users.rows, BackedUp c h e.before user :=
  (occurs_invariant
    (I := fun h db => Owned db ∧ ∀ user ∈ db.users.rows, BackedUp c h db user)
    (C := fun _ e => BackupSafe c e)
    ⟨fun _ hr => absurd hr List.not_mem_nil, fun _ hr => absurd hr List.not_mem_nil⟩
    (fun _ db call hinv hs => ⟨owned_step (outcome_entry c db call) hinv.1,
      backedUp_step (outcome_entry c db call) hs hinv.1 hinv.2⟩) hsafe ho).2

end Run

/-- **All accounts of a run can be recovered exactly when no call fails between the insert of a user
row and the insert of its backup.** -/
theorem recoveryKept_iff (c : Crypto) (b : Backend) (calls : List Login) :
    RecoveryKept c (runs c b calls) ↔ ∀ h e, Occurs (runs c b calls) h e → BackupSafe c e := by
  constructor
  · intro hkept h e ho gid db' enc users hins
    by_contra hno
    have hspec := occurs_spec ho
    have hadded := hins.group.groupAdded
    have hafter : e.after = { db' with users, lastInsertId := db'.users.next } := by
      rw [hspec]
      exact exec_of_insertsUser hins fun key hkey => hno ⟨key, hkey⟩
    have hbacked := (hkept h e ho).1
    rw [hafter] at hbacked
    obtain ⟨backup, hmem, hid, -⟩ := hbacked _ ((Table.mem_insert hins.insert).mpr (Or.inr rfl))
    have hlt : backup.val.userId < e.before.users.next :=
      owned_before ho backup (by rwa [← hadded.backups])
    rw [hid, hadded.users] at hlt
    exact absurd hlt (Nat.lt_irrefl _)
  · intro hsafe h e ho
    have hall := backedUp_step (outcome_of_occurs ho) (hsafe h e ho) (owned_before ho)
      (backedUp_before hsafe ho)
    refine ⟨hall, fun n session hok => ?_⟩
    have hout := outcome_of_occurs ho
    rw [hok] at hout
    obtain ⟨gid, k, rfl, -, user, huser, hn, hg, -⟩ := hout.established.session
    exact ⟨user, huser, hn, hg, hall user huser⟩

/-! ## An account without a backup -/

/-- `alice` logs in for the first time with or without a support key in the configuration. -/
def aliceCall (supportPublicKey : Option Bytes) : Login :=
  ⟨"alice", "secret", "gdd", "10.0.0.1", { quietEnv "passphrase" with supportPublicKey }⟩

/-- The first call finds no support key, the second one finds it. -/
def aliceRetries : List Login := [aliceCall none, aliceCall (some [])]

/-- **A missing support key leaves an account without backup**: the first call throws after the user
row is inserted, and the second one logs in to that row. -/
theorem backup_missing :
    (history (step plainCrypto) (.empty : Db plainMysql) aliceRetries).map (·.output.toOption.map (·.1)) =
      [none, some 1] ∧
    ¬ RecoveryKept plainCrypto (runs plainCrypto plainMysql aliceRetries) := by
  refine ⟨by decide, fun hkept => ?_⟩
  let first : Call plainMysql := entryOf (step plainCrypto) .empty (aliceCall none)
  have huser : ∃ user ∈ first.after.users.rows, user.id = 1 := by decide
  have hnone : first.after.backups.rows = [] := by decide
  obtain ⟨user, hmem, -⟩ := huser
  obtain ⟨backup, hbackup, -⟩ := (hkept [] first ⟨_, rfl⟩).1 user hmem
  rw [hnone] at hbackup
  exact absurd hbackup List.not_mem_nil

end Backup

end GradidoConnector
