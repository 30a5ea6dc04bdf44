import Mathlib.Tactic.NormNum
import GradidoConnector.Base.Resume
import GradidoConnector.Tables

/-!
# Migration of the database

Model of `VersionsManager::migrate`, which `main` runs at the start of the server, with
`createTableIfNotExist`, `factoryTable`, `Migration::loadAll` and `Migration::save`. It reads the
table `migration` and creates the tables that have no row there.

* A `Database` is the names of its tables, as the database compares them, and the rows of
  `migration`. The schema texts a table is created with are not looked at.
* Each statement that changes the database is final, there is no transaction. The `Connection`
  keeps the database after each of them, which is what a server killed there leaves behind.
* `migrate` holds one session of the pool while `Migration::loadAll` takes a second one. Two
  sessions of SQLite's `:memory:` are on two databases (`Connection.own`), and nothing was written
  over the second.
* A version is read into a `uint32_t` and from there into an `int`.
* `id` of a row is read by nothing. On SQLite it is no alias of the row id and stays empty.

Results:
* `exec_migrate`: a run is the job `steps`, and it throws where a row has a `refusal`.
* `exec_migrate_of_own`: on databases of the sessions' own it throws whatever there is.
* `resumable_steps`, `migrate_after_retries`: any number of cut-off runs changes nothing in the end.
* **`migratesOnce_iff`**: where a run throws, creates and inserts what it should, and can be started
  over.
-/

namespace GradidoConnector

open GradidoConnector.Base GradidoConnector.Base.Act

/-- A row of `migration`, which is also what `Migration` holds. -/
structure Migration where
  tableName : String
  version : Int
  deriving DecidableEq

/-- What `migrate` asks a `BaseTable` for. -/
structure BaseTable where
  tableName : String
  getLastSchemaVersion : Int
  deriving DecidableEq

inductive MigrationExn
  | unknownTableNameException (what tableName : String)
  | missingMigrationException (what tableName : String) (version : Nat)
  | pocoException (what : String)
  deriving DecidableEq

/-- What a statement on `migration` throws before the table is there. -/
def noMigrationTable : MigrationExn := .pocoException "no such table: migration"

namespace User

def getTableName : String := "user"

/-- `USER_TABLE_LAST_SCHEMA_VERSION` -/
def lastSchemaVersion : Int := 1

def baseTable : BaseTable := ⟨getTableName, lastSchemaVersion⟩

end User

namespace Group

def getTableName : String := "group"

/-- `GROUP_TABLE_LAST_SCHEMA_VERSION` -/
def lastSchemaVersion : Int := 1

def baseTable : BaseTable := ⟨getTableName, lastSchemaVersion⟩

end Group

namespace UserBackup

def getTableName : String := "user_backup"

/-- `USER_BACKUP_TABLE_LAST_SCHEMA_VERSION` -/
def lastSchemaVersion : Int := 1

def baseTable : BaseTable := ⟨getTableName, lastSchemaVersion⟩

end UserBackup

namespace Migration

def getTableName : String := "migration"

/-- `UNIQUE KEY table_name (table_name)` -/
def clash (b : Backend) (m m' : Migration) : Bool := b.same m.tableName m'.tableName

/-- `Migration(tuple).getVersion()` -/
def getVersion (m : Migration) : Int := (BitVec.ofInt 32 m.version).toInt

end Migration

/-- A database before its migration. A table `migration` not yet there has no rows. -/
structure Database (b : Backend) where
  tables : List String
  migration : Table Migration (Migration.clash b)
  absent : Migration.getTableName ∉ tables → migration = .empty

/-- The session `migrate` holds, with its database after each statement that changed it. -/
structure Connection (b : Backend) where
  /-- Every session of the pool opens a database of its own. -/
  own : Bool
  db : Database b
  past : List (Database b)

variable {b : Backend}

namespace Database

/-- A database without tables. -/
def empty : Database b := ⟨[], .empty, fun _ => rfl⟩

/-- ``CREATE TABLE IF NOT EXISTS `tablename` `` -/
def createTable (tablename : String) (db : Database b) : Database b :=
  if tablename ∈ db.tables then db
  else { db with
    tables := db.tables ++ [tablename]
    absent := fun h => db.absent fun hm => h (List.mem_append_left _ hm) }

/-- `INSERT INTO migration` -/
def insert (m : Migration) (db : Database b) : Except MigrationExn (Database b) :=
  if h : Migration.getTableName ∈ db.tables then
    match db.migration.insert m with
    | some migration => .ok { db with migration, absent := fun hn => absurd h hn }
    | none => .error (.pocoException "Duplicate entry")
  else .error noMigrationTable

/-- `SELECT id, table_name, version from migration` -/
def select (db : Database b) : Except MigrationExn (List (Row Migration)) :=
  if Migration.getTableName ∈ db.tables then .ok db.migration.rows
  else .error noMigrationTable

end Database

/-- What a second session of the pool is on. -/
def Connection.other (c : Connection b) : Database b := if c.own then .empty else c.db

namespace VersionsManager

/-- A statement has left the database as `db`. -/
def leave (db : Database b) : Act (Connection b) MigrationExn Unit :=
  modify fun c => { c with db, past := c.past ++ [db] }

def createTableIfNotExist (tablename : String) : Act (Connection b) MigrationExn Unit := do
  let c ← get
  leave (c.db.createTable tablename)

/-- `Migration::save` -/
def save (m : Migration) : Act (Connection b) MigrationExn Unit := do
  let c ← get
  let db ← answer (c.db.insert m)
  leave db

/-- `Migration::loadAll`, over a session of its own. -/
def loadAll : Act (Connection b) MigrationExn (List (Row Migration)) := do
  let c ← get
  answer c.other.select

def factoryTable (tableName : String) : Except MigrationExn BaseTable :=
  if tableName = User.getTableName then .ok User.baseTable
  else if tableName = Group.getTableName then .ok Group.baseTable
  else if tableName = UserBackup.getTableName then .ok UserBackup.baseTable
  else .error (.unknownTableNameException "unknown tableName" tableName)

/-- The first loop of `migrate`, with `existingTables` as it is so far. -/
def checkMigrations : List (Row Migration) → List String → Except MigrationExn (List String)
  | [], existingTables => .ok existingTables
  | tuple :: migrations, existingTables => do
    let migration := tuple.val
    let tableBase ← factoryTable migration.tableName
    if migration.getVersion < tableBase.getLastSchemaVersion then
      .error (.missingMigrationException "migration missing" migration.tableName
        (migration.getVersion % 2 ^ 32).toNat)
    else checkMigrations migrations (migration.tableName :: existingTables)

/-- One round of the second loop of `migrate`. -/
def createMissing (existingTables : List String) (tableName : String) :
    Act (Connection b) MigrationExn Unit :=
  if tableName ∈ existingTables then pure ()
  else do
    let tableBase ← answer (factoryTable tableName)
    createTableIfNotExist tableBase.tableName
    save ⟨tableBase.tableName, tableBase.getLastSchemaVersion⟩

/-- `requiredTables` -/
def requiredTables : List String := [User.getTableName, Group.getTableName, UserBackup.getTableName]

def migrate : Act (Connection b) MigrationExn Unit := do
  createTableIfNotExist Migration.getTableName
  let migrations ← loadAll
  let existingTables ← answer (checkMigrations migrations [])
  requiredTables.forM (createMissing existingTables)

end VersionsManager

/-! ## The statements -/

namespace Database

variable {db db' : Database b} {tablename name : String} {m : Migration}

/-- The table names that have a row. -/
def names (db : Database b) : List String := db.migration.rows.map fun r => r.val.tableName

theorem mem_names : name ∈ db.names ↔ ∃ r ∈ db.migration.rows, r.val.tableName = name := List.mem_map

@[simp] theorem createTable_migration : (db.createTable tablename).migration = db.migration := by
  unfold createTable
  split <;> rfl

@[simp] theorem createTable_names : (db.createTable tablename).names = db.names := by
  rw [names, createTable_migration, names]

theorem createTable_of_mem (h : tablename ∈ db.tables) : db.createTable tablename = db := if_pos h

theorem mem_createTable :
    name ∈ (db.createTable tablename).tables ↔ name ∈ db.tables ∨ name = tablename := by
  unfold createTable
  split
  · rename_i h
    exact ⟨Or.inl, fun hname => hname.elim id fun heq => heq ▸ h⟩
  · rw [List.mem_append, List.mem_singleton]

theorem mem_createTable_self : tablename ∈ (db.createTable tablename).tables :=
  mem_createTable.mpr (Or.inr rfl)

/-- A table is created once. -/
theorem createTable_createTable :
    (db.createTable tablename).createTable tablename = db.createTable tablename :=
  createTable_of_mem mem_createTable_self

/-- What an insert that succeeds has done. -/
structure Inserted (m : Migration) (db db' : Database b) : Prop where
  tables : db'.tables = db.tables
  rows : db'.migration.rows = db.migration.rows ++ [⟨db.migration.next, m⟩]

theorem inserted_of_insert (h : db.insert m = .ok db') : Inserted m db db' := by
  unfold insert at h
  split at h
  · split at h
    · rename_i hins
      cases h
      exact ⟨rfl, (Base.Table.insert_rows hins).1⟩
    · cases h
  · cases h

theorem exists_insert (htable : Migration.getTableName ∈ db.tables)
    (hclash : ∀ r ∈ db.migration.rows, Migration.clash b r.val m = false) :
    ∃ db', db.insert m = .ok db' := by
  obtain ⟨migration, hins⟩ := Base.Table.exists_insert hclash
  unfold insert
  rw [dif_pos htable, hins]
  exact ⟨_, rfl⟩

theorem Inserted.mem_names (h : Inserted m db db') :
    name ∈ db'.names ↔ name ∈ db.names ∨ name = m.tableName := by
  rw [names, h.rows, List.map_append, List.mem_append, List.map_singleton, List.mem_singleton, names]

/-- The database after an insert, which leaves it alone where it fails. -/
def inserted (m : Migration) (db : Database b) : Database b :=
  match db.insert m with
  | .ok db' => db'
  | .error _ => db

end Database

/-- The row `migrate` inserts for a table. -/
def BaseTable.row (t : BaseTable) : Migration := ⟨t.tableName, t.getLastSchemaVersion⟩

namespace VersionsManager

/-! ## The checks -/

/-- The tables `factoryTable` knows, in the order `migrate` creates them. -/
def baseTables : List BaseTable := [User.baseTable, Group.baseTable, UserBackup.baseTable]

theorem factoryTable_of_mem : ∀ t ∈ baseTables, factoryTable t.tableName = .ok t := by decide

theorem factoryTable_cases (tableName : String) :
    (∃ t ∈ baseTables, t.tableName = tableName ∧ factoryTable tableName = .ok t) ∨
    (∀ t ∈ baseTables, t.tableName ≠ tableName) ∧
      factoryTable tableName = .error (.unknownTableNameException "unknown tableName" tableName) := by
  by_cases h : ∃ t ∈ baseTables, t.tableName = tableName
  · obtain ⟨t, ht, rfl⟩ := h
    exact Or.inl ⟨t, ht, rfl, factoryTable_of_mem t ht⟩
  · have hne : ∀ t ∈ baseTables, t.tableName ≠ tableName := fun t ht heq => h ⟨t, ht, heq⟩
    refine Or.inr ⟨hne, ?_⟩
    have huser : User.getTableName ≠ tableName := hne User.baseTable (by decide)
    have hgroup : Group.getTableName ≠ tableName := hne Group.baseTable (by decide)
    have hbackup : UserBackup.getTableName ≠ tableName := hne UserBackup.baseTable (by decide)
    unfold factoryTable
    rw [if_neg huser.symm, if_neg hgroup.symm, if_neg hbackup.symm]

/-- The exception for a row, if it throws. -/
def refusal (m : Migration) : Option MigrationExn :=
  match factoryTable m.tableName with
  | .error e => some e
  | .ok t =>
    if m.getVersion < t.getLastSchemaVersion then
      some (.missingMigrationException "migration missing" m.tableName
        (m.getVersion % 2 ^ 32).toNat)
    else none

theorem checkMigrations_cons (tuple : Row Migration) (migrations : List (Row Migration))
    (existingTables : List String) :
    checkMigrations (tuple :: migrations) existingTables =
      match refusal tuple.val with
      | some e => .error e
      | none => checkMigrations migrations (tuple.val.tableName :: existingTables) := by
  rw [checkMigrations, refusal]
  cases factoryTable tuple.val.tableName with
  | error e => rfl
  | ok t =>
    by_cases hv : tuple.val.getVersion < t.getLastSchemaVersion
    · simp only [if_pos hv]
      exact if_pos hv
    · simp only [if_neg hv]
      exact if_neg hv

/-- **The first loop** ends with the exception for the first row that has one, or with all names. -/
theorem checkMigrations_eq (migrations : List (Row Migration)) (existingTables : List String) :
    checkMigrations migrations existingTables =
      match migrations.findSome? fun r => refusal r.val with
      | some e => .error e
      | none => .ok ((migrations.map fun r => r.val.tableName).reverse ++ existingTables) := by
  induction migrations generalizing existingTables with
  | nil => rfl
  | cons tuple migrations ih =>
    rw [checkMigrations_cons, List.findSome?_cons]
    cases refusal tuple.val with
    | some e => rfl
    | none => simp only [ih, List.map_cons, List.reverse_cons, List.append_assoc,
        List.singleton_append]

/-- Nothing keeps the second loop from its work. -/
def ready (db : Database b) : Bool :=
  decide (Migration.getTableName ∈ db.tables) &&
    (db.migration.rows.findSome? fun r => refusal r.val).isNone

theorem ready_iff {db : Database b} :
    ready db = true ↔
      Migration.getTableName ∈ db.tables ∧ ∀ r ∈ db.migration.rows, refusal r.val = none := by
  rw [ready, Bool.and_eq_true, decide_eq_true_iff, Option.isNone_iff_eq_none,
    List.findSome?_eq_none_iff]

/-! ## The second loop -/

/-- `createTableIfNotExist` as a job. -/
def create (tablename : String) : Job (Database b) := fun db => [db.createTable tablename]

/-- The statements for a required table, which depend on the database alone. -/
def install (t : BaseTable) : Job (Database b) := fun db =>
  if t.tableName ∈ db.names then []
  else [db.createTable t.tableName, (db.createTable t.tableName).inserted t.row]

/-- All statements of `migrate`. -/
def steps : Job (Database b) :=
  (create Migration.getTableName).seq (Job.guarded ready (Job.all (baseTables.map install)))

theorem refusal_row : ∀ t ∈ baseTables, refusal t.row = none := by decide

theorem word_tableName : ∀ t ∈ baseTables, Word t.tableName := by decide

/-- A row that passes the check clashes only with its own name. -/
theorem clash_of_refusal {m : Migration} {t : BaseTable} (ht : t ∈ baseTables)
    (hm : refusal m = none) (hname : m.tableName ≠ t.tableName) :
    Migration.clash b m t.row = false := by
  rcases factoryTable_cases m.tableName with ⟨u, hu, hun, -⟩ | ⟨-, hfail⟩
  · rw [← hun] at hname
    rw [Migration.clash, ← hun]
    exact Bool.eq_false_iff.mpr fun hsame =>
      hname (b.columns.same_word (word_tableName u hu) (word_tableName t ht) hsame)
  · rw [refusal, hfail] at hm
    cases hm

section Install

variable {db : Database b} {t u : BaseTable} {name : String}

theorem ready_createTable (h : ready db = true) : ready (db.createTable name) = true := by
  rw [ready_iff] at h ⊢
  rw [Database.createTable_migration]
  exact ⟨Database.mem_createTable.mpr (Or.inl h.1), h.2⟩

/-- Where the table has no row yet, the insert succeeds. -/
theorem inserted_spec (ht : t ∈ baseTables) (h : ready db = true) (hname : t.tableName ∉ db.names) :
    db.insert t.row = .ok (db.inserted t.row) ∧
      Database.Inserted t.row db (db.inserted t.row) := by
  obtain ⟨htable, hrows⟩ := ready_iff.mp h
  obtain ⟨db', hins⟩ : ∃ db', db.insert t.row = .ok db' :=
    Database.exists_insert htable fun r hr => clash_of_refusal ht (hrows r hr) fun heq =>
      hname (Database.mem_names.mpr ⟨r, hr, heq⟩)
  rw [Database.inserted, hins]
  exact ⟨rfl, Database.inserted_of_insert hins⟩

theorem ready_inserted (ht : t ∈ baseTables) (h : ready db = true)
    (hname : t.tableName ∉ db.names) : ready (db.inserted t.row) = true := by
  obtain ⟨-, hins⟩ := inserted_spec ht h hname
  rw [ready_iff] at h ⊢
  refine ⟨hins.tables ▸ h.1, fun r hr => ?_⟩
  rw [hins.rows, List.mem_append, List.mem_singleton] at hr
  rcases hr with hr | rfl
  · exact h.2 r hr
  · exact refusal_row t ht

theorem install_of_mem (h : t.tableName ∈ db.names) : install t db = [] := if_pos h

theorem install_of_not_mem (h : t.tableName ∉ db.names) :
    install t db =
      [db.createTable t.tableName, (db.createTable t.tableName).inserted t.row] := if_neg h

/-- What a run of the two statements can leave behind. -/
theorem mem_install {cut : Database b} :
    cut ∈ install t db ↔ t.tableName ∉ db.names ∧
      (cut = db.createTable t.tableName ∨ cut = (db.createTable t.tableName).inserted t.row) := by
  by_cases hname : t.tableName ∈ db.names
  · rw [install_of_mem hname]
    exact iff_of_false List.not_mem_nil fun h => h.1 hname
  · rw [install_of_not_mem hname, List.mem_pair, and_iff_right hname]

theorem run_install_of_not_mem (h : t.tableName ∉ db.names) :
    (install t).run db = (db.createTable t.tableName).inserted t.row := by
  rw [Job.run, install_of_not_mem h]
  rfl

/-- The second statement for a table without a row succeeds. -/
theorem inserted_createTable (ht : t ∈ baseTables) (h : ready db = true)
    (hname : t.tableName ∉ db.names) :
    (db.createTable t.tableName).insert t.row =
        .ok ((db.createTable t.tableName).inserted t.row) ∧
      Database.Inserted t.row (db.createTable t.tableName)
        ((db.createTable t.tableName).inserted t.row) :=
  inserted_spec ht (ready_createTable h) (by rwa [Database.createTable_names])

/-- A table is done exactly when it has a row. -/
theorem run_install_eq_self (ht : t ∈ baseTables) (h : ready db = true) :
    (install t).run db = db ↔ t.tableName ∈ db.names := by
  constructor
  · intro hrun
    by_contra hname
    rw [run_install_of_not_mem hname] at hrun
    obtain ⟨-, hins⟩ := inserted_createTable ht h hname
    have hmem := hins.mem_names.mpr (Or.inr rfl)
    rw [hrun] at hmem
    exact hname hmem
  · exact fun hname => Job.run_of_nil (install_of_mem hname)

theorem mem_names_run_install (ht : t ∈ baseTables) (h : ready db = true) :
    name ∈ ((install t).run db).names ↔ name ∈ db.names ∨ name = t.tableName := by
  by_cases hname : t.tableName ∈ db.names
  · rw [(run_install_eq_self ht h).mpr hname]
    exact ⟨Or.inl, fun hor => hor.elim id fun heq => heq ▸ hname⟩
  · obtain ⟨-, hins⟩ := inserted_createTable ht h hname
    rw [run_install_of_not_mem hname, hins.mem_names, Database.createTable_names]
    rfl

/-- The rows of the tables that are still to come are not touched. -/
theorem mem_names_run_install_iff_of_mem {ts : List BaseTable} (ht : t ∈ baseTables)
    (hnot : t.tableName ∉ ts.map BaseTable.tableName) (h : ready db = true) (hu : u ∈ ts) :
    u.tableName ∈ ((install t).run db).names ↔ u.tableName ∈ db.names := by
  have hne : u.tableName ≠ t.tableName := fun heq => hnot (heq ▸ List.mem_map_of_mem hu)
  rw [mem_names_run_install ht h, or_iff_left hne]

/-- The statements for one table can be started over. -/
theorem resumable_install (ht : t ∈ baseTables) :
    Job.Resumable (fun db : Database b => ready db = true) (install t) where
  stays db h cut hcut := by
    obtain ⟨hname, rfl | rfl⟩ := mem_install.mp hcut
    · exact ready_createTable h
    · exact ready_inserted ht (ready_createTable h) (by rwa [Database.createTable_names])
  again db h cut hcut := by
    obtain ⟨hname, hcut⟩ := mem_install.mp hcut
    have hname' : t.tableName ∉ (db.createTable t.tableName).names := by
      rwa [Database.createTable_names]
    have hready : ready (db.createTable t.tableName) = true := ready_createTable h
    rw [run_install_of_not_mem hname]
    rcases hcut with rfl | rfl
    · -- the table is there, its row is not
      rw [run_install_of_not_mem hname', Database.createTable_createTable]
    · -- the row is there as well
      refine (run_install_eq_self ht (ready_inserted ht hready hname')).mpr ?_
      exact (inserted_createTable ht h hname).2.mem_names.mpr (Or.inr rfl)

/-- The statements for one table leave those before it done. -/
theorem keeps_install (ht : t ∈ baseTables) (hu : u ∈ baseTables) :
    Job.Keeps (fun db : Database b => ready db = true) (install u) (install t) := by
  intro db h hdone cut hcut
  have hname := (run_install_eq_self ht h).mp hdone
  have hready := (resumable_install hu).stays db h cut hcut
  refine (run_install_eq_self ht hready).mpr ?_
  obtain ⟨hu', rfl | rfl⟩ := mem_install.mp hcut
  · rwa [Database.createTable_names]
  · obtain ⟨-, hins⟩ := inserted_createTable hu h hu'
    exact hins.mem_names.mpr (Or.inl (by rwa [Database.createTable_names]))

end Install

theorem resumable_create (tablename : String) :
    Job.Resumable (fun _ : Database b => True) (create tablename) where
  stays _ _ _ _ := trivial
  again db _ cut hcut := by
    rw [List.mem_singleton.mp hcut]
    exact Database.createTable_createTable

theorem run_create (tablename : String) (db : Database b) :
    (create tablename).run db = db.createTable tablename := rfl

theorem keeps_create {t : BaseTable} (ht : t ∈ baseTables) :
    Job.Keeps (fun db : Database b => ready db = true) (install t)
      (create Migration.getTableName) := by
  intro db h _ cut hcut
  have hready := (resumable_install ht).stays db h cut hcut
  rw [run_create, Database.createTable_of_mem (ready_iff.mp hready).1]

theorem forall_resumable_install : ∀ t ∈ baseTables.map install,
    Job.Resumable (fun db : Database b => ready db = true) t := by
  rw [List.forall_mem_map]
  exact fun t ht => resumable_install ht

/-- The second loop can be started over. -/
theorem resumable_install_all :
    Job.Resumable (fun db : Database b => ready db = true) (Job.all (baseTables.map install)) := by
  refine Job.resumable_all forall_resumable_install ?_
  rw [List.pairwise_map]
  exact List.pairwise_of_forall_mem_list fun t ht u hu => keeps_install ht hu

/-- **A migration can be started over.** -/
theorem resumable_steps : Job.Resumable (fun _ : Database b => True) steps := by
  refine (resumable_create _).seq resumable_install_all.guarded (Job.Keeps.guarded ?_)
  refine Job.Keeps.all forall_resumable_install ?_
  rw [List.forall_mem_map]
  exact fun t ht => keeps_create ht

/-! ## Runs of the code -/

/-- The connection after the statements of a job. -/
def after (c : Connection b) (t : Job (Database b)) : Connection b :=
  { c with db := t.run c.db, past := c.past ++ t c.db }

section Exec

variable {c : Connection b} {t : BaseTable} {ts : List BaseTable} {existingTables : List String}

theorem after_after (t u : Job (Database b)) : after (after c t) u = after c (t.seq u) := by
  unfold after
  rw [Job.run_seq, Job.seq, List.append_assoc]

theorem after_of_nil {t : Job (Database b)} (h : t c.db = []) : after c t = c := by
  unfold after
  rw [Job.run_of_nil h, h, List.append_nil]

theorem after_guarded {t : Job (Database b)} (h : ready c.db = true) :
    after c (Job.guarded ready t) = after c t := by
  unfold after
  rw [Job.run, Job.guarded_of_pos h, Job.run]

theorem exec_createTableIfNotExist (tablename : String) :
    exec (createTableIfNotExist tablename) c = (.ok (), after c (create tablename)) := rfl

/-- One round of the second loop. -/
theorem exec_createMissing (ht : t ∈ baseTables) (h : ready c.db = true)
    (hexisting : t.tableName ∈ existingTables ↔ t.tableName ∈ c.db.names) :
    exec (createMissing existingTables t.tableName) c = (.ok (), after c (install t)) := by
  unfold createMissing
  by_cases hname : t.tableName ∈ c.db.names
  · rw [if_pos (hexisting.mpr hname), after_of_nil (install_of_mem hname)]
    rfl
  · obtain ⟨hins, -⟩ := inserted_createTable ht h hname
    have hsave : exec (save t.row) (after c (create t.tableName)) =
        (.ok (), after c (install t)) := by
      rw [save, exec_bind, exec_get]
      simp only [exec_bind, exec_answer, after, run_create, hins, run_install_of_not_mem hname,
        install_of_not_mem hname, create, leave, exec_modify, List.append_assoc,
        List.singleton_append]
    rw [if_neg fun hmem => hname (hexisting.mp hmem), factoryTable_of_mem t ht]
    rw [exec_bind, exec_answer]
    simp only [exec_bind, exec_createTableIfNotExist]
    exact hsave

/-- **The second loop** over the tables that are left. -/
theorem exec_forM (hts : ∀ t ∈ ts, t ∈ baseTables) (hnodup : (ts.map BaseTable.tableName).Nodup)
    (h : ready c.db = true)
    (hexisting : ∀ t ∈ ts, (t.tableName ∈ existingTables ↔ t.tableName ∈ c.db.names)) :
    exec ((ts.map BaseTable.tableName).forM (createMissing existingTables)) c =
      (.ok (), after c (Job.all (ts.map install))) := by
  induction ts generalizing c with
  | nil => rw [after_of_nil rfl]; rfl
  | cons t ts ih =>
    rw [List.forall_mem_cons] at hts hexisting
    rw [List.map_cons, List.nodup_cons] at hnodup
    have hnames : ∀ u ∈ ts,
        (u.tableName ∈ existingTables ↔ u.tableName ∈ (after c (install t)).db.names) := fun u hu =>
      (hexisting.2 u hu).trans (mem_names_run_install_iff_of_mem hts.1 hnodup.1 h hu).symm
    have hrest := ih hts.2 hnodup.2 ((resumable_install hts.1).run_stays h) hnames
    rw [List.map_cons, List.forM, exec_bind, exec_createMissing hts.1 h hexisting.1]
    refine hrest.trans ?_
    rw [after_after, List.map_cons, Job.all]

theorem exec_loadAll (hshared : c.own = false) (h : Migration.getTableName ∈ c.db.tables) :
    exec loadAll c = (.ok c.db.migration.rows, c) := by
  have hother : c.other = c.db := by rw [Connection.other, hshared, if_neg Bool.false_ne_true]
  rw [loadAll, exec_bind, exec_get]
  simp only [exec_answer, hother, Database.select, if_pos h]

/-- What a second session is on has no table. -/
theorem exec_loadAll_of_own (hown : c.own = true) : exec loadAll c = (.error noMigrationTable, c) := by
  have hother : c.other = .empty := by rw [Connection.other, hown, if_pos rfl]
  rw [loadAll, exec_bind, exec_get]
  simp only [exec_answer, hother]
  rfl

/-- How `migrate` ends where the sessions share the database. -/
def verdict (db : Database b) : Except MigrationExn Unit :=
  match db.migration.rows.findSome? fun r => refusal r.val with
  | some e => .error e
  | none => .ok ()

/-- **A run of `migrate`** on databases of the sessions' own. -/
theorem exec_migrate_of_own (hown : c.own = true) :
    exec migrate c = (.error noMigrationTable, after c (create Migration.getTableName)) := by
  have hload : exec loadAll (after c (create Migration.getTableName)) =
      (.error noMigrationTable, after c (create Migration.getTableName)) := exec_loadAll_of_own hown
  rw [migrate, exec_bind, exec_createTableIfNotExist]
  simp only [exec_bind, hload]

/-- **A run of `migrate`** on a database that the sessions share. -/
theorem exec_migrate (hshared : c.own = false) :
    exec migrate c = (verdict c.db, after c steps) := by
  have htable : Migration.getTableName ∈ (c.db.createTable Migration.getTableName).tables :=
    Database.mem_createTable_self
  have hready : ready (c.db.createTable Migration.getTableName) =
      (c.db.migration.rows.findSome? fun r => refusal r.val).isNone := by
    rw [ready, decide_eq_true htable, Bool.true_and, Database.createTable_migration]
  have hload : exec loadAll (after c (create Migration.getTableName)) =
      (.ok c.db.migration.rows, after c (create Migration.getTableName)) := by
    rw [exec_loadAll (c := after c (create Migration.getTableName)) hshared htable, after, run_create,
      Database.createTable_migration]
  rw [migrate, exec_bind, exec_createTableIfNotExist]
  simp only [exec_bind, hload, exec_answer, checkMigrations_eq]
  rw [steps, ← after_after, verdict]
  cases hfind : c.db.migration.rows.findSome? fun r => refusal r.val with
  | some e =>
    rw [hfind] at hready
    have hnot : ¬ ready (c.db.createTable Migration.getTableName) = true := by
      rw [hready]
      exact Bool.false_ne_true
    simp only
    rw [after_of_nil (Job.guarded_of_neg hnot)]
  | none =>
    rw [hfind] at hready
    have hloop : exec (requiredTables.forM (createMissing c.db.names.reverse))
        (after c (create Migration.getTableName)) =
          (.ok (), after (after c (create Migration.getTableName))
            (Job.all (baseTables.map install))) := by
      refine exec_forM (fun _ ht => ht) (by decide) hready fun t _ => ?_
      rw [List.mem_reverse, after, run_create, Database.createTable_names]
    simp only [List.append_nil]
    rw [after_guarded hready]
    exact hloop

end Exec

/-! ## What a migration does -/

/-- A row that stops a migration: one of an unknown table or of an older version. -/
inductive Blocks (m : Migration) : Prop
  | unknown (h : ∀ t ∈ baseTables, t.tableName ≠ m.tableName)
  | outdated (t : BaseTable) (ht : t ∈ baseTables) (hname : t.tableName = m.tableName)
      (hversion : m.version < t.getLastSchemaVersion)

/-- The version is in the range of an `int`. -/
def InRange (m : Migration) : Prop := -2 ^ 31 ≤ m.version ∧ m.version < 2 ^ 31

/-- `ts` are installed: each of them that had no row has got one, and exists. -/
structure Installed (ts : List BaseTable) (db db' : Database b) : Prop where
  rows : ∃ added, db'.migration.rows = db.migration.rows ++ added ∧
    added.map Row.val = (ts.filter fun t => t.tableName ∉ db.names).map BaseTable.row
  kept : ∀ name ∈ db.tables, name ∈ db'.tables
  created : ∀ t ∈ ts, t.tableName ∉ db.names → t.tableName ∈ db'.tables

/-- A run of `migrate` on a database, which each session may have for its own. -/
def migrateOn (own : Bool) (db : Database b) : Except MigrationExn Unit × Connection b :=
  exec migrate ⟨own, db, []⟩

theorem getVersion_of_inRange {m : Migration} (h : InRange m) : m.getVersion = m.version := by
  obtain ⟨hlow, hhigh⟩ := h
  rw [Migration.getVersion, BitVec.toInt_ofInt]
  exact Int.bmod_eq_of_le (by omega) (by omega)

theorem refusal_eq_none_iff {m : Migration} (h : InRange m) : refusal m = none ↔ ¬ Blocks m := by
  rcases factoryTable_cases m.tableName with ⟨t, ht, hname, hok⟩ | ⟨hne, herr⟩
  · have hblocks : Blocks m ↔ m.version < t.getLastSchemaVersion := by
      constructor
      · intro hm
        cases hm with
        | unknown hall => exact absurd hname (hall t ht)
        | outdated u hu huname hversion =>
          have huok := factoryTable_of_mem u hu
          rw [huname, hok] at huok
          cases huok
          exact hversion
      · exact Blocks.outdated t ht hname
    rw [hblocks, refusal, hok]
    simp only [getVersion_of_inRange h]
    split
    · exact iff_of_false (Option.some_ne_none _) (not_not_intro ‹_›)
    · exact iff_of_true rfl ‹_›
  · rw [refusal, herr]
    exact iff_of_false (Option.some_ne_none _) (not_not_intro (Blocks.unknown hne))

section Runs

variable {db cut : Database b} {t : BaseTable} {ts : List BaseTable}

theorem verdict_of_ready (h : ready db = true) : verdict db = .ok () := by
  rw [verdict, List.findSome?_eq_none_iff.mpr (ready_iff.mp h).2]

theorem verdict_createTable (tablename : String) :
    verdict (db.createTable tablename) = verdict db := by
  rw [verdict, Database.createTable_migration, verdict]

theorem ready_of_verdict (h : verdict db = .ok ()) :
    ready (db.createTable Migration.getTableName) = true := by
  rw [ready_iff, Database.createTable_migration]
  refine ⟨Database.mem_createTable_self, List.findSome?_eq_none_iff.mp ?_⟩
  unfold verdict at h
  split at h
  · cases h
  · assumption

theorem run_steps_of_ok (h : verdict db = .ok ()) :
    steps.run db =
      (Job.all (baseTables.map install)).run (db.createTable Migration.getTableName) := by
  rw [steps, Job.run_seq, run_create, Job.run, Job.guarded_of_pos (ready_of_verdict h), Job.run]

theorem run_steps_of_error {e : MigrationExn} (h : verdict db = .error e) :
    steps.run db = db.createTable Migration.getTableName := by
  have hnot : ¬ ready (db.createTable Migration.getTableName) = true := by
    intro hready
    rw [← verdict_createTable Migration.getTableName, verdict_of_ready hready] at h
    cases h
  rw [steps, Job.run_seq, run_create, Job.run_of_nil (Job.guarded_of_neg hnot)]

/-- A cut-off run does not change how the next one ends. -/
theorem verdict_of_mem_steps (hcut : cut ∈ steps db) : verdict cut = verdict db := by
  rw [steps, Job.seq, run_create, List.mem_append] at hcut
  rcases hcut with hcut | hcut
  · rw [List.mem_singleton.mp hcut, verdict_createTable]
  · by_cases hready : ready (db.createTable Migration.getTableName) = true
    · rw [Job.guarded_of_pos hready] at hcut
      have hstays := resumable_install_all.stays _ hready cut hcut
      rw [verdict_of_ready hstays, ← verdict_createTable Migration.getTableName,
        verdict_of_ready hready]
    · rw [Job.guarded_of_neg hready] at hcut
      exact absurd hcut List.not_mem_nil

theorem verdict_run_steps : verdict (steps.run db) = verdict db := by
  rcases Job.run_mem_or_eq steps db with hmem | heq
  · exact verdict_of_mem_steps hmem
  · rw [heq]

/-- **Any number of cut-off runs** before it leave the result and the end of a run as they were. -/
theorem migrate_after_retries (hcut : Job.Retries steps db cut) :
    (migrateOn false cut).1 = (migrateOn false db).1 ∧
      (migrateOn false cut).2.db = (migrateOn false db).2.db := by
  rw [migrateOn, migrateOn, exec_migrate rfl, exec_migrate rfl]
  refine ⟨?_, (resumable_steps.run_of_retries trivial hcut).2⟩
  induction hcut with
  | refl => rfl
  | tail _ hlast ih => exact (verdict_of_mem_steps hlast).trans ih

/-- What the statements for one table add. -/
theorem installed_install (ht : t ∈ baseTables) (h : ready db = true) :
    Installed [t] db ((install t).run db) := by
  by_cases hname : t.tableName ∈ db.names
  · rw [(run_install_eq_self ht h).mpr hname]
    refine ⟨⟨[], (List.append_nil _).symm, by simp [hname]⟩, fun _ hm => hm, fun u hu hnot => ?_⟩
    rw [List.mem_singleton.mp hu] at hnot
    exact absurd hname hnot
  · obtain ⟨-, hins⟩ := inserted_createTable ht h hname
    have hrows := hins.rows
    rw [Database.createTable_migration] at hrows
    rw [run_install_of_not_mem hname]
    refine ⟨⟨_, hrows, by simp [hname]⟩, fun name hm => ?_, fun u hu _ => ?_⟩
    · rw [hins.tables]
      exact Database.mem_createTable.mpr (Or.inl hm)
    · rw [hins.tables, List.mem_singleton.mp hu]
      exact Database.mem_createTable_self

/-- One table, then tables whose rows it has not touched. -/
theorem Installed.cons {mid after : Database b} (hfirst : Installed [t] db mid)
    (hrest : Installed ts mid after)
    (hsame : ∀ u ∈ ts, (u.tableName ∈ mid.names ↔ u.tableName ∈ db.names)) :
    Installed (t :: ts) db after where
  rows := by
    obtain ⟨added, hadded, hval⟩ := hfirst.rows
    obtain ⟨added', hadded', hval'⟩ := hrest.rows
    have hfilter : (ts.filter fun u => u.tableName ∉ mid.names) =
        ts.filter fun u => u.tableName ∉ db.names :=
      List.filter_congr fun u hu => decide_eq_decide.mpr (not_congr (hsame u hu))
    refine ⟨added ++ added', by rw [hadded', hadded, List.append_assoc], ?_⟩
    rw [List.map_append, hval, hval', hfilter, ← List.map_append, ← List.filter_append]
    rfl
  kept name hm := hrest.kept name (hfirst.kept name hm)
  created u hu hnot := by
    rcases List.mem_cons.mp hu with rfl | hu
    · exact hrest.kept _ (hfirst.created u (List.mem_singleton_self u) hnot)
    · exact hrest.created u hu fun hm => hnot ((hsame u hu).mp hm)

/-- What the second loop adds. -/
theorem installed_all (hts : ∀ t ∈ ts, t ∈ baseTables)
    (hnodup : (ts.map BaseTable.tableName).Nodup) (h : ready db = true) :
    Installed ts db ((Job.all (ts.map install)).run db) := by
  induction ts generalizing db with
  | nil =>
    exact ⟨⟨[], (List.append_nil _).symm, rfl⟩, fun _ hm => hm,
      fun _ ht => absurd ht List.not_mem_nil⟩
  | cons t ts ih =>
    rw [List.forall_mem_cons] at hts
    rw [List.map_cons, List.nodup_cons] at hnodup
    have hrest := ih hts.2 hnodup.2 ((resumable_install hts.1).run_stays h)
    rw [List.map_cons, Job.all, Job.run_seq]
    exact (installed_install hts.1 h).cons hrest fun u hu =>
      mem_names_run_install_iff_of_mem hts.1 hnodup.1 h hu

/-- A migration that goes through installs all tables. -/
theorem installed_of_ok (h : verdict db = .ok ()) : Installed baseTables db (steps.run db) := by
  have hall := installed_all (fun _ ht => ht) (by decide) (ready_of_verdict h)
  obtain ⟨added, hadded, hval⟩ := hall.rows
  rw [Database.createTable_migration] at hadded
  rw [Database.createTable_names] at hval
  rw [run_steps_of_ok h]
  refine ⟨⟨added, hadded, hval⟩, fun name hm => ?_, fun t ht hnot => ?_⟩
  · exact hall.kept name (Database.mem_createTable.mpr (Or.inl hm))
  · exact hall.created t ht (by rwa [Database.createTable_names])

/-- `migrate` throws exactly where a row stops it. -/
theorem exists_verdict_error_iff (hrange : ∀ r ∈ db.migration.rows, InRange r.val) :
    (∃ e, verdict db = .error e) ↔ ∃ r ∈ db.migration.rows, Blocks r.val := by
  have hnone : (db.migration.rows.findSome? fun r => refusal r.val) = none ↔
      ¬ ∃ r ∈ db.migration.rows, Blocks r.val := by
    rw [List.findSome?_eq_none_iff]
    push Not
    exact forall₂_congr fun r hr => refusal_eq_none_iff (hrange r hr)
  rw [← not_iff_not, ← hnone, verdict]
  cases db.migration.rows.findSome? fun r => refusal r.val with
  | none => exact iff_of_true (fun ⟨_, h⟩ => by cases h) rfl
  | some e => exact iff_of_false (not_not_intro ⟨e, rfl⟩) (Option.some_ne_none e)

end Runs

/-- A migration is guarded, complete and idempotent. It throws exactly where a row stops it, and
then has inserted nothing and created at most `migration`. Otherwise it installs the required
tables, and a second one changes nothing. Cut off after any statement and started over, it ends the
same way in the same database. -/
structure MigratesOnce (own : Bool) (db : Database b) : Prop where
  guarded : (∃ e, (migrateOn own db).1 = .error e) ↔ ∃ r ∈ db.migration.rows, Blocks r.val
  untouched : (∃ e, (migrateOn own db).1 = .error e) →
    (migrateOn own db).2.db.migration.rows = db.migration.rows ∧
    ∀ name, name ∈ (migrateOn own db).2.db.tables ↔ name ∈ db.tables ∨ name = Migration.getTableName
  complete : (migrateOn own db).1 = .ok () →
    Installed baseTables db (migrateOn own db).2.db ∧
    (migrateOn own (migrateOn own db).2.db).1 = .ok () ∧
    (migrateOn own (migrateOn own db).2.db).2.db = (migrateOn own db).2.db
  resumable : ∀ cut ∈ (migrateOn own db).2.past,
    (migrateOn own cut).1 = (migrateOn own db).1 ∧
      (migrateOn own cut).2.db = (migrateOn own db).2.db

section MigratesOnce

variable {db : Database b}

/-- A database that the sessions share is migrated as it should. -/
theorem migratesOnce_of_shared (hrange : ∀ r ∈ db.migration.rows, InRange r.val) :
    MigratesOnce false db where
  guarded := by
    rw [migrateOn, exec_migrate rfl]
    exact exists_verdict_error_iff hrange
  untouched := by
    rw [migrateOn, exec_migrate rfl]
    rintro ⟨e, he⟩
    rw [after, run_steps_of_error he, Database.createTable_migration]
    exact ⟨rfl, fun _ => Database.mem_createTable⟩
  complete hok := by
    rw [migrateOn, exec_migrate rfl] at hok ⊢
    refine ⟨installed_of_ok hok, ?_, ?_⟩
    · rw [migrateOn, exec_migrate rfl]
      exact verdict_run_steps.trans hok
    · rw [migrateOn, exec_migrate rfl]
      exact resumable_steps.run_run trivial
  resumable cut hcut := by
    rw [migrateOn, exec_migrate rfl, after, List.nil_append] at hcut
    exact migrate_after_retries (Relation.ReflTransGen.single hcut)

/-- On a database of the session's own it throws, and creates `migration`. -/
theorem migrateOn_own (db : Database b) :
    (migrateOn true db).1 = .error noMigrationTable ∧
      (migrateOn true db).2.db = db.createTable Migration.getTableName ∧
      (migrateOn true db).2.past = [db.createTable Migration.getTableName] := by
  rw [migrateOn, exec_migrate_of_own rfl]
  exact ⟨rfl, rfl, rfl⟩

/-- **A migration does what it should** exactly where the sessions share the database, or a row
stops it anyway. -/
theorem migratesOnce_iff (own : Bool) (db : Database b)
    (hrange : ∀ r ∈ db.migration.rows, InRange r.val) :
    MigratesOnce own db ↔ own = false ∨ ∃ r ∈ db.migration.rows, Blocks r.val := by
  cases own with
  | false => exact iff_of_true (migratesOnce_of_shared hrange) (Or.inl rfl)
  | true =>
    obtain ⟨hthrown, hdb, hpast⟩ := migrateOn_own db
    constructor
    · exact fun h => Or.inr (h.guarded.mp ⟨_, hthrown⟩)
    · rintro (h | hblocks)
      · cases h
      · refine ⟨iff_of_true ⟨_, hthrown⟩ hblocks, fun _ => ?_, fun hok => ?_, fun cut hcut => ?_⟩
        · rw [hdb, Database.createTable_migration]
          exact ⟨rfl, fun _ => Database.mem_createTable⟩
        · rw [hthrown] at hok
          cases hok
        · rw [hpast, List.mem_singleton] at hcut
          obtain ⟨hthrown', hdb', -⟩ := migrateOn_own cut
          rw [hthrown, hthrown', hdb, hdb', hcut, Database.createTable_createTable]
          exact ⟨rfl, rfl⟩

end MigratesOnce

/-- The first start on `:memory:`. No row stops it, and it throws. -/
theorem memory_not_migrated :
    (migrateOn true (Database.empty : Database plainSqlite)).1 = .error noMigrationTable ∧
      ¬ MigratesOnce true (Database.empty : Database plainSqlite) := by
  refine ⟨(migrateOn_own _).1, fun h => ?_⟩
  obtain ⟨r, hr, -⟩ := h.guarded.mp ⟨_, (migrateOn_own _).1⟩
  exact absurd hr List.not_mem_nil

/-- A database with a row for `group`. -/
def withGroup : Database plainMysql where
  tables := ["migration", "group"]
  migration := ⟨[⟨1, Group.baseTable.row⟩], 2, by decide, by decide, List.pairwise_singleton _ _⟩
  absent h := absurd List.mem_cons_self h

theorem inRange_withGroup : ∀ r ∈ withGroup.migration.rows, InRange r.val := by
  intro r hr
  rw [List.mem_singleton.mp hr]
  exact ⟨by decide, by decide⟩

/-- Its sessions share it, and two tables are installed. -/
theorem migratesOnce_withGroup :
    MigratesOnce false withGroup ∧ (migrateOn false withGroup).2.past.length = 5 ∧
      (migrateOn false withGroup).2.db.names = ["group", "user", "user_backup"] :=
  ⟨(migratesOnce_iff false withGroup inRange_withGroup).mpr (Or.inl rfl), by decide, by decide⟩

/-- A server killed between the two statements for `user_backup` has two rows and all tables. -/
example : (migrateOn false withGroup).2.past.map (fun db => (db.tables, db.names)) =
    [(["migration", "group"], ["group"]),
     (["migration", "group", "user"], ["group"]),
     (["migration", "group", "user"], ["group", "user"]),
     (["migration", "group", "user", "user_backup"], ["group", "user"]),
     (["migration", "group", "user", "user_backup"], ["group", "user", "user_backup"])] := by
  decide

end VersionsManager

end GradidoConnector
