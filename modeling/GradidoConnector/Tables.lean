import GradidoConnector.Base.Act
import GradidoConnector.Base.Table
import GradidoConnector.Basic
import GradidoConnector.Collation

/-!
# The tables `group`, `user` and `user_backup`

Model of `model/table/`: the schemas with their keys (`Group.h`, `User.h`, `UserBackup.h`), the
lookups `Group::load(alias)` and `User::load(name, groupId)` with their `LIKE` patterns,
`User::loadUserNamesForPubkeys`, the inserts behind `save`, and `BaseTable::getLastInsertId`. The
columns `description` of a group and `created` of every table are read by nothing and left out.

* The two schemas of `user` differ: MySQL has `UNIQUE KEY (name, group_id)`, SQLite
  `group_id … UNIQUE`. `User.clash` is the key of the `Backend`.
* How the columns compare texts is the `Collation` of the `Backend`. `HEX(public_key) IN (…)` reads
  no text of a column and compares by the collation of the connection, which is left at its default
  (`sameText`).
* `SELECT LAST_INSERT_ID()` exists in MySQL only; on SQLite the statement throws.
* The ids are `Nat`. The code keeps a group's id in an `int`, which is the same below 2^31 groups.
* `deliver` is `select.execute()` with scalar `into`s: nothing for no row, the row for one row.
  For several rows Poco says nothing the code could rely on, so a `Driver` decides by their number
  which of them arrives, or (`none`) that the extraction throws.

Results:
* `mem_of_deliver`: what a select delivers is one of its rows.
* `Db.eq_of_same_groupAlias`, `Db.eq_of_same_name_groupId`: the rows the keys make unique.
* `exec_groupSave`, `exec_userSave`, `exec_userBackupSave`: an insert adds one row to its table
  and remembers the id, or throws and changes nothing.
-/

namespace GradidoConnector

open GradidoConnector.Base GradidoConnector.Base.Act

inductive Dialect
  | mysql
  | sqlite
  deriving DecidableEq

/-- A database, with how the text columns of its tables compare. -/
structure Backend where
  dialect : Dialect
  columns : Collation

namespace Backend

abbrev mysql (columns : Collation) : Backend := ⟨.mysql, columns⟩

abbrev sqlite (columns : Collation) : Backend := ⟨.sqlite, columns⟩

/-- `text LIKE pat` -/
abbrev like (b : Backend) (pat text : String) : Bool := b.columns.like pat text

/-- `s = t` -/
abbrev same (b : Backend) (s t : String) : Bool := b.columns.same s t

end Backend

/-- MySQL as it is configured by default. -/
abbrev plainMysql : Backend := .mysql .generalCi

abbrev plainSqlite : Backend := .sqlite .sqliteBinary

/-- `KeyHashed` -/
abbrev KeyHashed := UInt64

structure Group where
  name : String
  groupAlias : String
  deriving DecidableEq

structure User where
  name : String
  groupId : Nat
  password : KeyHashed
  publicKey : Bytes
  encryptedPrivateKey : Bytes
  deriving DecidableEq

structure UserBackup where
  userId : Nat
  keyUserId : Nat
  encryptedPassphrase : Bytes
  deriving DecidableEq

/-- `UNIQUE KEY groupAlias (groupAlias)` -/
def Group.clash (b : Backend) (g g' : Group) : Bool := b.same g.groupAlias g'.groupAlias

/-- The unique key of `user` besides the id. -/
def User.clash (b : Backend) (u u' : User) : Bool :=
  match b.dialect with
  | .mysql => b.same u.name u'.name && u.groupId == u'.groupId
  | .sqlite => u.groupId == u'.groupId

/-- `user_backup` has no key besides the id. -/
def UserBackup.clash (_ _ : UserBackup) : Bool := false

/-- A migrated database, with what `LAST_INSERT_ID()` returns on the connection in use. -/
structure Db (b : Backend) where
  groups : Table Group (Group.clash b)
  users : Table User (User.clash b)
  backups : Table UserBackup UserBackup.clash
  lastInsertId : Nat

variable {b : Backend}

/-- A freshly migrated database. -/
def Db.empty : Db b := ⟨.empty, .empty, .empty, 0⟩

/-- Every row of `db` is a row of `db'`. -/
structure Db.Grows (db db' : Db b) : Prop where
  groups : ∀ r ∈ db.groups.rows, r ∈ db'.groups.rows
  users : ∀ r ∈ db.users.rows, r ∈ db'.users.rows
  backups : ∀ r ∈ db.backups.rows, r ∈ db'.backups.rows

theorem Db.Grows.refl (db : Db b) : db.Grows db := ⟨fun _ h => h, fun _ h => h, fun _ h => h⟩

/-- Which of several rows a scalar extraction ends with, `none` when it throws. -/
abbrev Driver := Nat → Option Nat

/-- `select.execute()` with scalar `into`s. -/
def deliver {ρ : Type} (several : Driver) : List (Row ρ) → Except Exn (Option (Row ρ))
  | [] => .ok none
  | [r] => .ok (some r)
  | r :: rows =>
    match several (rows.length + 1) with
    | some i => .ok (some ((r :: rows)[i]?.getD r))
    | none => .error (.pocoException "value already extracted")

/-- `where groupAlias LIKE ?` -/
def groupsLike (groupAlias : String) (db : Db b) : List (Row Group) :=
  db.groups.select fun g => b.like groupAlias g.groupAlias

/-- `where name LIKE ? AND group_id = ?` -/
def usersLike (name : String) (groupId : Nat) (db : Db b) : List (Row User) :=
  db.users.select fun u => b.like name u.name && u.groupId == groupId

/-- `where name = ? AND group_id = ?` -/
def usersNamed (name : String) (groupId : Nat) (db : Db b) : List (Row User) :=
  db.users.select fun u => b.same u.name name && u.groupId == groupId

/-- `Group::load(alias)` -/
def Group.load (several : Driver) (groupAlias : String) (db : Db b) : Except Exn (Row Group) :=
  match deliver several (groupsLike groupAlias db) with
  | .ok (some r) => .ok r
  | .ok none => .error (.rowNotFoundException "couldn't load group" "group"
      ("where groupAlias LIKE " ++ groupAlias))
  | .error e => .error e

/-- `User::load(name, groupId)` -/
def User.load (several : Driver) (name : String) (groupId : Nat) (db : Db b) :
    Except Exn (Row User) :=
  match deliver several (usersLike name groupId db) with
  | .ok (some r) => .ok r
  | .ok none => .error (.rowNotFoundException "couldn't load user" "user"
      ("where name LIKE " ++ name))
  | .error e => .error e

/-- `HEX(bin)` -/
def hex (bin : Bytes) : String :=
  String.ofList (bin.flatMap fun c =>
    [(Nat.digitChar (c.toNat / 16)).toUpper, (Nat.digitChar (c.toNat % 16)).toUpper])

/-- `LOWER(s)` -/
def lower (s : String) : String := String.ofList (s.toList.map Char.toLower)

/-- How texts of the connection compare, on each database by default. -/
def Dialect.collation : Dialect → Collation
  | .mysql => .generalCi
  | .sqlite => .sqliteBinary

/-- `s = t` for texts of the connection. -/
def sameText (d : Dialect) (s t : String) : Bool := d.collation.same s t

/-- `User::loadUserNamesForPubkeys`, as the pairs put into the map. Of two pairs with one key the
map keeps the first. -/
def User.loadUserNamesForPubkeys (pubkeysHex : List String) (db : Db b) : List (String × String) :=
  (db.users.select fun u => pubkeysHex.any fun pubkey => sameText b.dialect (hex u.publicKey) pubkey).map
    fun u => (lower (hex u.val.publicKey), u.val.name)

/-- What an insert against a unique key throws. -/
def duplicateEntry : Exn := .pocoException "Duplicate entry"

/-- The insert of `Group::save`. -/
def Group.save (g : Group) : Act (Db b) Exn Unit := do
  let db ← get
  match db.groups.insert g with
  | some groups => set { db with groups, lastInsertId := db.groups.next }
  | none => throw duplicateEntry

/-- `User::save` -/
def User.save (u : User) : Act (Db b) Exn Unit := do
  let db ← get
  match db.users.insert u with
  | some users => set { db with users, lastInsertId := db.users.next }
  | none => throw duplicateEntry

/-- `UserBackup::save` -/
def UserBackup.save (u : UserBackup) : Act (Db b) Exn Unit := do
  let db ← get
  match db.backups.insert u with
  | some backups => set { db with backups, lastInsertId := db.backups.next }
  | none => throw duplicateEntry

/-- `BaseTable::getLastInsertId` -/
def getLastInsertId : Act (Db b) Exn Nat := do
  let db ← get
  match b.dialect with
  | .mysql => return db.lastInsertId
  | .sqlite => throw (.pocoException "no such function: LAST_INSERT_ID")

/-! ## Selects -/

/-- MySQL ignores the letter case of hex digits. -/
theorem sameText_mysql {s t : String} : sameText .mysql s t = true ↔ lower s = lower t := by
  rw [sameText, Dialect.collation, Collation.generalCi, Collation.of, beq_iff_eq]
  exact String.ofList_inj.symm

theorem sameText_sqlite {s t : String} : sameText .sqlite s t = true ↔ s = t := by
  rw [sameText, Dialect.collation, Collation.sqliteBinary, Collation.of, beq_iff_eq, List.map_id,
    List.map_id, String.toList_inj]

section Select

variable {ρ : Type} {several : Driver} {rows : List (Row ρ)} {r : Row ρ}

theorem mem_of_deliver (h : deliver several rows = .ok (some r)) : r ∈ rows := by
  match rows, h with
  | [], h => exact absurd h (by simp [deliver])
  | [x], h =>
    cases h
    exact List.mem_cons_self
  | x :: y :: rows, h =>
    simp only [deliver] at h
    split at h
    · rename_i i _
      cases h
      cases hi : (x :: y :: rows)[i]? with
      | none => exact List.mem_cons_self
      | some z => exact List.mem_of_getElem? hi
    · exact absurd h (by simp)

theorem deliver_eq_none : deliver several rows = .ok none ↔ rows = [] := by
  unfold deliver
  split
  · simp
  · simp
  · split <;> simp_all

theorem deliver_error {e : Exn} (h : deliver several rows = .error e) :
    e = .pocoException "value already extracted" := by
  unfold deliver at h
  split at h
  · exact absurd h (by simp)
  · exact absurd h (by simp)
  · split at h
    · exact absurd h (by simp)
    · cases h
      rfl

/-- A select with at most one row does not depend on the driver. -/
theorem deliver_of_length_le_one (h : rows.length ≤ 1) : deliver several rows = .ok rows.head? := by
  match rows, h with
  | [], _ => rfl
  | [r], _ => rfl

end Select

variable {db : Db b} {several : Driver}

theorem Db.eq_of_same_groupAlias {g g' : Row Group} (hg : g ∈ db.groups.rows)
    (hg' : g' ∈ db.groups.rows) (h : b.same g.val.groupAlias g'.val.groupAlias = true) : g = g' :=
  Base.Table.eq_of_clash hg hg' h (Collation.same_symm h)

theorem Db.eq_of_groupAlias {g g' : Row Group} (hg : g ∈ db.groups.rows)
    (hg' : g' ∈ db.groups.rows) (h : g.val.groupAlias = g'.val.groupAlias) : g = g' :=
  Db.eq_of_same_groupAlias hg hg' (h ▸ b.columns.same_refl _)

/-- On either backend a name, however it is spelled, and a group determine at most one user. -/
theorem Db.eq_of_same_name_groupId {u u' : Row User} (hu : u ∈ db.users.rows)
    (hu' : u' ∈ db.users.rows) (hn : b.same u.val.name u'.val.name = true)
    (hg : u.val.groupId = u'.val.groupId) : u = u' := by
  have hn' := Collation.same_symm hn
  refine Base.Table.eq_of_clash hu hu' ?_ ?_ <;> unfold User.clash <;> split <;> simp [hn, hn', hg]

theorem Db.eq_of_name_groupId {u u' : Row User} (hu : u ∈ db.users.rows)
    (hu' : u' ∈ db.users.rows) (hn : u.val.name = u'.val.name)
    (hg : u.val.groupId = u'.val.groupId) : u = u' :=
  Db.eq_of_same_name_groupId hu hu' (hn ▸ b.columns.same_refl _) hg

theorem mem_groupsLike {groupAlias : String} {g : Row Group} :
    g ∈ groupsLike groupAlias db ↔ g ∈ db.groups.rows ∧ b.like groupAlias g.val.groupAlias = true :=
  Base.Table.mem_select

theorem mem_usersNamed {name : String} {groupId : Nat} {u : Row User} :
    u ∈ usersNamed name groupId db ↔
      u ∈ db.users.rows ∧ b.same u.val.name name = true ∧ u.val.groupId = groupId := by
  rw [usersNamed, Base.Table.mem_select, Bool.and_eq_true, beq_iff_eq]

/-- Two spellings of a name find the same users. -/
theorem usersNamed_congr {name name' : String} (h : b.same name name' = true) (groupId : Nat)
    (db : Db b) : usersNamed name groupId db = usersNamed name' groupId db := by
  unfold usersNamed
  congr
  funext u
  rw [Backend.same, Backend.same, Collation.same_comm, Collation.same_congr h, Collation.same_comm]

/-- A user that `=` finds is the only one it finds. -/
theorem usersNamed_eq_singleton {name : String} {groupId : Nat} {u : Row User}
    (h : u ∈ usersNamed name groupId db) : usersNamed name groupId db = [u] := by
  refine Base.Table.select_eq_singleton h fun u' h' => ?_
  obtain ⟨hu, hn, hg⟩ := mem_usersNamed.mp h
  obtain ⟨hu', hn', hg'⟩ := mem_usersNamed.mp h'
  exact Db.eq_of_same_name_groupId hu' hu (Collation.same_trans hn' (Collation.same_symm hn))
    (hg'.trans hg.symm)

theorem usersNamed_length (name : String) (groupId : Nat) (db : Db b) :
    (usersNamed name groupId db).length ≤ 1 := by
  cases hl : usersNamed name groupId db with
  | nil => exact Nat.zero_le _
  | cons u rest =>
    have hone := usersNamed_eq_singleton (hl ▸ List.mem_cons_self : u ∈ usersNamed name groupId db)
    rw [← hl, hone]
    exact Nat.le_refl _

theorem head?_usersNamed {name : String} {groupId : Nat} {u : Row User}
    (h : u ∈ usersNamed name groupId db) : (usersNamed name groupId db).head? = some u := by
  rw [usersNamed_eq_singleton h]
  rfl

/-! ## Loads -/

section Loads

variable {groupAlias name : String} {id : Nat} {g : Row Group} {u : Row User}

theorem mem_of_groupLoad (h : Group.load several groupAlias db = .ok g) :
    g ∈ groupsLike groupAlias db := by
  unfold Group.load at h
  split at h
  · rename_i hd
    cases h
    exact mem_of_deliver hd
  · cases h
  · cases h

/-- A group is not found exactly where no row matches. -/
theorem groupLoad_of_nil (h : groupsLike groupAlias db = []) :
    ∃ what table condition, Group.load several groupAlias db =
      .error (.rowNotFoundException what table condition) := by
  rw [Group.load, h]
  exact ⟨_, _, _, rfl⟩

theorem nil_of_groupLoad {what table condition : String}
    (h : Group.load several groupAlias db = .error (.rowNotFoundException what table condition)) :
    groupsLike groupAlias db = [] := by
  unfold Group.load at h
  split at h
  · cases h
  · rename_i hd
    exact deliver_eq_none.mp hd
  · rename_i e hd
    rw [deliver_error hd] at h
    cases h

end Loads

/-! ## Inserts -/

theorem exec_groupSave (g : Group) (db : Db b) :
    exec g.save db = match db.groups.insert g with
      | some groups => (.ok (), { db with groups, lastInsertId := db.groups.next })
      | none => (.error duplicateEntry, db) := by
  rw [Group.save, exec_bind, exec_get]
  simp only
  cases db.groups.insert g <;> rfl

theorem exec_userSave (u : User) (db : Db b) :
    exec u.save db = match db.users.insert u with
      | some users => (.ok (), { db with users, lastInsertId := db.users.next })
      | none => (.error duplicateEntry, db) := by
  rw [User.save, exec_bind, exec_get]
  simp only
  cases db.users.insert u <;> rfl

/-- A backup row has no key to clash with. -/
theorem exec_userBackupSave (u : UserBackup) (db : Db b) :
    ∃ backups, db.backups.insert u = some backups ∧
      exec u.save db = (.ok (), { db with backups, lastInsertId := db.backups.next }) := by
  obtain ⟨backups, hi⟩ := Base.Table.exists_insert (t := db.backups) (v := u) fun _ _ => rfl
  refine ⟨backups, hi, ?_⟩
  rw [UserBackup.save, exec_bind, exec_get]
  simp only [hi]
  rfl

theorem exec_getLastInsertId (db : Db b) :
    exec getLastInsertId db =
      (match b.dialect with
        | .mysql => .ok db.lastInsertId
        | .sqlite => .error (.pocoException "no such function: LAST_INSERT_ID"), db) := by
  rw [getLastInsertId, exec_bind, exec_get]
  dsimp only
  cases b.dialect <;> rfl

end GradidoConnector
