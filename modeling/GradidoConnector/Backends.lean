import GradidoConnector.AccountStore

/-!
# The two database backends

The same calls of `loginOrCreate` on a fresh MySQL database and on a fresh SQLite one. Each run has
its own environment, since the passphrases are generated; `SameRequest` compares the rest of two
calls. `Agree` compares the kinds of the outcomes and the rows at the end, with ids replaced by
what they refer to and without the keys.

`getLastInsertId` asks for `LAST_INSERT_ID()`, which SQLite does not have, so there a new group or
a new user is inserted and the call throws (`not_created_sqlite`). On MySQL the first quiet call
creates an account (`created_first`), and the runs already differ.

Result: **`agree_iff`**, on quiet calls the backends agree exactly on the empty sequence.
-/

namespace GradidoConnector

open GradidoConnector.Base

namespace Backup

/-- How a call of `loginOrCreate` ends. -/
inductive Kind
  | created
  | loggedIn
  | rejected
  | failed
  deriving DecidableEq

def kind : Except Exn (Nat × Session) → Kind
  | .ok (0, _) => .created
  | .ok (_ + 1, _) => .loggedIn
  | .error (.invalidPasswordException ..) => .rejected
  | .error _ => .failed

variable {b : Backend}

/-- The alias of the group with an id. -/
def aliasOf (db : Db b) (groupId : Nat) : Option String :=
  (db.groups.rows.find? fun g => g.id == groupId).map (·.val.groupAlias)

/-- The name and the group of the user with an id. -/
def userOf (db : Db b) (userId : Nat) : Option (String × Option String) :=
  (db.users.rows.find? fun u => u.id == userId).map fun u => (u.val.name, aliasOf db u.val.groupId)

/-- The rows of a database in the order they were inserted, without ids and generated keys. -/
structure Contents where
  groups : List String
  users : List (String × Option String × KeyHashed)
  backups : List (Option (String × Option String))
  deriving DecidableEq

def contents (db : Db b) : Contents where
  groups := db.groups.rows.map (·.val.groupAlias)
  users := db.users.rows.map fun u => (u.val.name, aliasOf db u.val.groupId, u.val.password)
  backups := db.backups.rows.map fun r => userOf db r.val.userId

/-- Two calls with the same arguments. -/
structure SameRequest (call call' : Login) : Prop where
  userName : call.userName = call'.userName
  userPassword : call.userPassword = call'.userPassword
  groupAlias : call.groupAlias = call'.groupAlias
  clientIp : call.clientIp = call'.clientIp

/-- The calls on MySQL and the calls on SQLite end alike, one by one, and leave the same rows. -/
def Agree (q q' : Collation) (c : Crypto) (calls calls' : List Login) : Prop :=
  (runs c (.mysql q) calls).map (kind ·.output) =
      (runs c (.sqlite q') calls').map (kind ·.output) ∧
    contents (final (step c) (Db.empty : Db (.mysql q)) calls) =
      contents (final (step c) (Db.empty : Db (.sqlite q')) calls')

variable {c : Crypto} {q : Collation}

/-- **No call on SQLite creates an account.** -/
theorem not_created_sqlite (c : Crypto) (db : Db (.sqlite q)) (call : Login) :
    kind (entryOf (step c) db call).output ≠ .created := by
  have hout := outcome_entry c db call
  generalize entryOf (step c) db call = e at hout ⊢
  obtain ⟨before, call, output, after⟩ := e
  dsimp only at hout ⊢
  cases hout with
  | refused x => cases x <;> exact Kind.noConfusion
  | loggedIn => exact Kind.noConfusion
  | created gid db' enc key users backups hins hbackup => exact Dialect.noConfusion hbackup.backend
  | halfCreated x => cases x <;> exact Kind.noConfusion

/-- **The first quiet call on MySQL creates an account.** -/
theorem created_first {call : Login} (hquiet : call.Quiet c) :
    kind (entryOf (step c) (Db.empty : Db (.mysql q)) call).output = .created := by
  have hfound : AliasFound (Db.empty : Db (.mysql q)) call.groupAlias :=
    fun _ hg => absurd hg List.not_mem_nil
  obtain ⟨gid, db', hgroup⟩ := resolvesGroup_of_quiet hquiet.fault hfound
    fun _ hg => absurd hg List.not_mem_nil
  have hunknown : usersNamed call.userName gid db' = [] := by
    rw [usersNamed, Base.Table.select, hgroup.groupAdded.users]
    rfl
  obtain ⟨enc, users, -, -, hout, -⟩ := step_unknown hquiet hgroup hunknown
  rw [hout]
  rfl

/-- **On quiet calls the backends agree exactly on the empty sequence.** -/
theorem agree_iff (q q' : Collation) (c : Crypto) (calls calls' : List Login)
    (hsame : List.Forall₂ SameRequest calls calls') (hquiet : ∀ call ∈ calls, call.Quiet c) :
    Agree q q' c calls calls' ↔ calls = [] := by
  cases hsame with
  | nil => exact iff_of_true ⟨rfl, rfl⟩ rfl
  | @cons call call' calls calls' _ _ =>
    refine iff_of_false ?_ (List.cons_ne_nil _ _)
    rintro ⟨hkinds, -⟩
    have hfirst : kind (entryOf (step c) (Db.empty : Db (.mysql q)) call).output =
        kind (entryOf (step c) (Db.empty : Db (.sqlite q')) call').output :=
      (List.cons.inj hkinds).1
    rw [created_first (hquiet call List.mem_cons_self)] at hfirst
    exact not_created_sqlite c .empty call' hfirst.symm

/-- The first login of `alice` on both. -/
theorem agree_iff_alice :
    Agree .generalCi .sqliteBinary plainCrypto [aliceIn "gdd" "passphrase"] [aliceIn "gdd" "passphrase"] ↔
      [aliceIn "gdd" "passphrase"] = [] :=
  agree_iff _ _ plainCrypto _ _ (.cons ⟨rfl, rfl, rfl, rfl⟩ .nil) (by simp [quiet_aliceIn])

/-- **The first login creates an account on MySQL and fails on SQLite.** -/
theorem backends_differ :
    (runs plainCrypto plainMysql [aliceIn "gdd" "passphrase"]).map (kind ·.output) = [.created] ∧
    (runs plainCrypto plainSqlite [aliceIn "gdd" "passphrase"]).map (kind ·.output) = [.failed] ∧
    ¬ Agree .generalCi .sqliteBinary plainCrypto [aliceIn "gdd" "passphrase"]
      [aliceIn "gdd" "passphrase"] := by
  refine ⟨by decide, by decide, ?_⟩
  rintro ⟨hkinds, -⟩
  exact absurd hkinds (by decide)

end Backup

end GradidoConnector
