import GradidoConnector.Integrity
import GradidoConnector.SessionLifetime
import GradidoConnector.Startup

/-!
# The life of a database

A database outlives the processes on it. Over its life the program is started any number of times,
each time with a configuration of its own; a start may be refused, may fail, may be killed after any
of its statements, or it serves requests until it is stopped, crashes or the next start takes its
place. `Deployment.step` is one event of this life.

* Sessions and pending transactions are in the memory of the process and gone with it.
* A process killed within a request has done what the request did whose next statement fails, which
  `LoginEnv` has among its faults.
* A start whose configuration names another database leaves this one alone. A database in memory is
  always another one.

Results:
* `Kept.step`: an event keeps the tables in order.
* `Stored.step`: it keeps the rows and the sessions in order.
* **`migratedOnce_of_life`**: a process serves on exactly the tables that one migration leaves.
* **`oneKey_of_life`**: a name stands for one key pair in its group, over all starts.
* **`foundSinceLaunch_of_life`**: a token finds what was opened since the last start, and kept.
-/

namespace GradidoConnector

open GradidoConnector.Base GradidoConnector.Base.Act VersionsManager

variable {b : Backend} {τ : Type}

/-- A start of the program. -/
structure Launch (τ : Type) where
  env : StartEnv
  settings : MapEnvironmentToConfig
  /-- What the process talks to, under its configuration. -/
  host : ServerConfig → Host τ
  now : Nat
  /-- After how many statements of `migrate` it is killed, if it is. -/
  killed : Option Nat

/-- A process that listens. -/
structure Process (b : Backend) (τ : Type) where
  service : Service
  host : Host τ
  connector : Connector b

/-- A database with the process on it. -/
structure Deployment (b : Backend) (τ : Type) where
  schema : Database b
  db : Db b
  process : Option (Process b τ)

namespace Deployment

inductive Input (τ : Type)
  | launch (l : Launch τ)
  /-- Something happens to the process. -/
  | inside (i : Connector.Input)
  | stop

/-- A start on the database, which ends the process before it. -/
def launch (l : Launch τ) (d : Deployment b τ) : Deployment b τ :=
  let (result, c) := exec (GradidoBlockchainConnector.main l.env l.settings) ⟨false, d.schema, []⟩
  match l.killed.bind fun n => (d.schema :: c.past)[n]? with
  | some cut => { d with schema := cut, process := none }
  | none =>
    match result with
    | .ok (some service) =>
      { d with
        schema := c.db
        process := some ⟨service, l.host service.config, Connector.start l.now d.db⟩ }
    | _ => { d with schema := c.db, process := none }

/-- The start is one on the database at `uri`. -/
def Here (b : Backend) (uri : String) (l : Launch τ) : Prop :=
  ConnectionManager.setConnectionsFromConfig l.settings = .ok (b.dialect, uri) ∧
    ConnectionManager.opensOwn l.env (b.dialect, uri) = false

instance (uri : String) (l : Launch τ) : Decidable (Here b uri l) :=
  inferInstanceAs (Decidable (_ ∧ _))

/-- An event in the life of the database at `uri`. -/
def step (uri : String) (d : Deployment b τ) : Input τ → Connector.Output × Deployment b τ
  | .launch l => (.done, if Here b uri l then launch l d else { d with process := none })
  | .inside i =>
    match d.process with
    | none => (.nothing, d)
    | some p =>
      let (output, connector) := Connector.step p.host p.connector i
      (output, { d with
        db := connector.server.sessions.db
        process := some { p with connector } })
  | .stop => (.done, { d with process := none })

/-- The database before the first start. -/
def init (schema : Database b) (db : Db b) : Deployment b τ := ⟨schema, db, none⟩

/-- The life of a database. -/
abbrev life (uri : String) (d : Deployment b τ) (inputs : List (Input τ)) :
    List (Entry (Deployment b τ) (Input τ) Connector.Output) :=
  history (step uri) d inputs

/-- The session the process keeps under a name. -/
def Cached (d : Deployment b τ) (name : String) (session : Session) : Prop :=
  ∃ p, d.process = some p ∧ p.connector.server.sessions.Cached name session

/-! ## One event -/

section Launch

variable {l : Launch τ} {d : Deployment b τ} {schema cut : Database b}

theorem verdict_of_retries (h : Job.Retries steps schema cut) : verdict cut = verdict schema := by
  have hsame := (migrate_after_retries h).1
  rwa [migrateOn, migrateOn, exec_migrate rfl, exec_migrate rfl] at hsame

/-- What a start has left behind, wherever it was killed. -/
inductive Launched (l : Launch τ) (d : Deployment b τ) : Deployment b τ → Prop
  | ended (cut : Database b) (hcut : Job.Retries steps d.schema cut) :
    Launched l d { d with schema := cut, process := none }
  | serves (service : Service)
    (hmain : GradidoBlockchainConnector.configure l.env l.settings = .ok (some service))
    (hverdict : verdict d.schema = .ok ()) :
    Launched l d ⟨steps.run d.schema, d.db,
      some ⟨service, l.host service.config, Connector.start l.now d.db⟩⟩

theorem retries_run (schema : Database b) : Job.Retries steps schema (steps.run schema) := by
  rcases Job.run_mem_or_eq steps schema with hmem | heq
  · exact .single hmem
  · rw [heq]
    exact .refl

/-- What a start on the database does, whatever the database holds. -/
theorem exec_main_of_here {uri : String} (hhere : Here b uri l) (schema : Database b) :
    exec (GradidoBlockchainConnector.main l.env l.settings) ⟨false, schema, []⟩ =
      (GradidoBlockchainConnector.outcome l.env l.settings (verdict schema),
        match GradidoBlockchainConnector.configure l.env l.settings with
        | .ok (some _) => after ⟨false, schema, []⟩ steps
        | _ => ⟨false, schema, []⟩) := by
  refine GradidoBlockchainConnector.exec_main _ fun service hconfigured => ?_
  have hconnection := (configured_of_configure hconfigured).connection
  rw [← Except.ok.inj (hhere.1.symm.trans hconnection)]
  exact hhere.2

theorem launched {uri : String} (hhere : Here b uri l) (d : Deployment b τ) :
    Launched l d (launch l d) := by
  have hmain := exec_main_of_here hhere d.schema
  have hcuts : ∀ cut ∈ (exec (GradidoBlockchainConnector.main l.env l.settings)
      ⟨false, d.schema, []⟩).2.past, cut ∈ steps d.schema := by
    rw [hmain]
    dsimp only
    split
    · exact fun cut hcut => hcut
    · exact fun cut hcut => absurd hcut List.not_mem_nil
  have hend : Job.Retries steps d.schema (exec (GradidoBlockchainConnector.main l.env l.settings)
      ⟨false, d.schema, []⟩).2.db := by
    rw [hmain]
    dsimp only
    split
    · exact retries_run d.schema
    · exact .refl
  unfold launch
  dsimp only
  split
  · rename_i cut hkilled
    obtain ⟨n, -, hn⟩ := Option.bind_eq_some_iff.mp hkilled
    refine .ended cut ?_
    rcases List.mem_cons.mp (List.mem_of_getElem? hn) with rfl | hpast
    · exact .refl
    · exact .single (hcuts cut hpast)
  · split
    · rename_i service hservice
      rw [hmain] at hservice ⊢
      obtain ⟨hconfigured, hverdict⟩ := GradidoBlockchainConnector.outcome_eq_ok hservice
      rw [hconfigured]
      exact .serves service hconfigured hverdict
    · exact .ended _ hend

/-- No start touches the accounts. -/
theorem launch_db {uri : String} (hhere : Here b uri l) (d : Deployment b τ) :
    (launch l d).db = d.db := by
  have hlaunched := launched hhere d
  generalize launch l d = d' at hlaunched ⊢
  cases hlaunched <;> rfl

end Launch

/-! ## The whole life -/

/-- The service is on the database at `uri` and has a private key of the right size. -/
structure Fit (b : Backend) (uri : String) (service : Service) : Prop where
  connection : service.connection = (b.dialect, uri)
  key : ∃ key, service.config.g_JwtPrivateKey = some key ∧
    key.length = ServerConfig.signSecretKeyBytes

/-- The tables in order, whatever has happened. -/
structure Kept (uri : String) (schema : Database b) (d : Deployment b τ) : Prop where
  retried : Job.Retries steps schema d.schema
  fit : ∀ p, d.process = some p → Fit b uri p.service
  served : d.process ≠ none → d.schema = steps.run schema ∧ verdict schema = .ok ()

/-- The rows in order, with all of `db`, and a process that is on them. -/
structure Stored (db : Db b) (d : Deployment b τ) : Prop where
  linked : d.db.Linked
  plain : d.db.PlainGroups
  grows : db.Grows d.db
  process : ∀ p, d.process = some p →
    p.connector.server.sessions.db = d.db ∧ Intact db p.connector.server.sessions ∧
      Connector.PlainAliases p.host.world.lib

/-- The libraries of all starts take plain aliases alone for valid. -/
def PlainStarts (inputs : List (Input τ)) : Prop :=
  ∀ l, .launch l ∈ inputs → ∀ config, Connector.PlainAliases (l.host config).world.lib

section Life

variable {schema : Database b} {db : Db b} {d : Deployment b τ} {uri : String} {i : Input τ}
  {inputs : List (Input τ)}

theorem kept_init : Kept uri schema (init (τ := τ) schema db) where
  retried := .refl
  fit _ h := by cases h
  served h := absurd rfl h

/-- A process that has ended leaves the tables as they are. -/
theorem Kept.ended (h : Kept uri schema d) {cut : Database b} (hcut : Job.Retries steps d.schema cut) :
    Kept uri schema ({ d with schema := cut, process := none } : Deployment b τ) where
  retried := h.retried.trans hcut
  fit _ hp := by cases hp
  served hp := absurd rfl hp

/-- Where a process serves, the migration of the first database would have gone through, and all has
been done that it does. -/
theorem Kept.serves (h : Kept uri schema d) (hverdict : verdict d.schema = .ok ()) :
    steps.run d.schema = steps.run schema ∧ verdict schema = .ok () :=
  ⟨(resumable_steps.run_of_retries trivial h.retried).2,
    (verdict_of_retries h.retried).symm.trans hverdict⟩

theorem Kept.launch (h : Kept uri schema d) {l : Launch τ} (hhere : Here b uri l) :
    Kept uri schema (launch l d) := by
  have hlaunched := launched hhere d
  generalize Deployment.launch l d = d' at hlaunched ⊢
  cases hlaunched with
  | ended cut hcut => exact h.ended hcut
  | serves service hmain hverdict =>
    have hfit : Fit b uri service := by
      have hconfigured := configured_of_configure hmain
      refine ⟨?_, (initServerCrypto_eq_ok hconfigured.crypto).2.1⟩
      exact Except.ok.inj (hconfigured.connection.symm.trans hhere.1)
    refine ⟨h.retried.trans (retries_run d.schema), fun p hp => ?_, fun _ => h.serves hverdict⟩
    obtain rfl := Option.some.inj hp
    exact hfit

/-- **An event keeps the tables in order.** -/
theorem Kept.step (h : Kept uri schema d) (i : Input τ) : Kept uri schema (step uri d i).2 := by
  cases i with
  | launch l =>
    by_cases hhere : Here b uri l
    · rw [show (Deployment.step uri d (.launch l)).2 = Deployment.launch l d from if_pos hhere]
      exact h.launch hhere
    · rw [show (Deployment.step uri d (.launch l)).2 = { d with process := none } from if_neg hhere]
      exact h.ended .refl
  | stop => exact h.ended .refl
  | inside i =>
    unfold Deployment.step
    cases hp : d.process with
    | none => exact h
    | some p =>
      have hserved := h.served (by rw [hp]; exact Option.some_ne_none p)
      refine ⟨h.retried, fun q hq => ?_, fun _ => hserved⟩
      obtain rfl := Option.some.inj hq
      exact h.fit p hp

/-- Before and after each event the tables are in order. -/
theorem kept_of_life {h : List (Entry (Deployment b τ) (Input τ) Connector.Output)}
    {e : Entry (Deployment b τ) (Input τ) Connector.Output}
    (ho : Occurs (life uri (init schema db) inputs) h e) :
    Kept uri schema e.before ∧ Kept uri schema e.after := by
  obtain ⟨before, i, later, -, -, rfl⟩ := occurs_prefix ho
  have hbefore : Kept uri schema (final (step uri) (init (τ := τ) schema db) before) :=
    final_invariant (I := fun _ (d : Deployment b τ) => Kept uri schema d) (C := fun _ _ => True)
      kept_init (fun _ _ i hkept _ => hkept.step i) fun _ _ _ => trivial
  exact ⟨hbefore, hbefore.step i⟩

/-! ### The tables -/

/-- A required table that has a row in `migration` exists. -/
def Recorded (schema : Database b) : Prop :=
  ∀ t ∈ baseTables, t.tableName ∈ schema.names → t.tableName ∈ schema.tables

/-- Where the migration goes through, all required tables are there and have their rows. -/
theorem complete_run (hrecorded : Recorded schema) (h : verdict schema = .ok ()) :
    ∀ t ∈ baseTables, t.tableName ∈ (steps.run schema).tables ∧
      t.tableName ∈ (steps.run schema).names := by
  intro t ht
  have hdone := installed_of_ok h
  obtain ⟨added, hrows, hadded⟩ := hdone.rows
  have hnames : (steps.run schema).names = schema.names ++
      added.map fun r => r.val.tableName := by
    rw [Database.names, hrows, List.map_append, Database.names]
  by_cases hname : t.tableName ∈ schema.names
  · refine ⟨hdone.kept _ (hrecorded t ht hname), ?_⟩
    rw [hnames]
    exact List.mem_append_left _ hname
  · refine ⟨hdone.created t ht hname, ?_⟩
    rw [hnames]
    have hrow : t.row ∈ added.map Row.val := by
      rw [hadded]
      exact List.mem_map_of_mem (List.mem_filter.mpr ⟨ht, decide_eq_true hname⟩)
    obtain ⟨r, hr, hval⟩ := List.mem_map.mp hrow
    refine List.mem_append_right _ (List.mem_map.mpr ⟨r, hr, ?_⟩)
    rw [hval]
    rfl

/-- Where a row stops the migration, no start inserts any. -/
theorem rows_of_retries {e : MigrationExn} {cut : Database b} (h : verdict schema = .error e)
    (hcut : Job.Retries steps schema cut) : cut.migration.rows = schema.migration.rows := by
  induction hcut with
  | refl => rfl
  | tail hretries hlast ih =>
    rename_i mid cut
    have hmid := (verdict_of_retries hretries).trans h
    have hrun := (resumable_steps.again mid trivial cut hlast).trans (run_steps_of_error hmid)
    have hnext := run_steps_of_error ((verdict_of_mem_steps hlast).trans hmid)
    -- the one statement creates `migration`, before and after the cut
    have hsame : (cut.createTable Migration.getTableName).migration =
        (mid.createTable Migration.getTableName).migration := by
      rw [← hnext, hrun]
    rw [Database.createTable_migration, Database.createTable_migration] at hsame
    rw [hsame, ih]

/-- What the starts make of the tables. A process serves on exactly the tables that one migration of
the first database leaves, with a private key of the right size. How a start ends does not depend on
those before it. Where a row stops the migration, none serves and no row is inserted. -/
structure MigratedOnce (uri : String) (schema : Database b)
    (e : Entry (Deployment b τ) (Input τ) Connector.Output) : Prop where
  serves : ∀ p, e.after.process = some p → Fit b uri p.service ∧
    e.after.schema = steps.run schema ∧
    ∀ t ∈ baseTables, t.tableName ∈ e.after.schema.tables ∧ t.tableName ∈ e.after.schema.names
  same : ∀ l, e.input = .launch l → Here b uri l →
    (exec (GradidoBlockchainConnector.main l.env l.settings) ⟨false, e.before.schema, []⟩).1 =
      (exec (GradidoBlockchainConnector.main l.env l.settings) ⟨false, schema, []⟩).1
  stopped : ∀ err, verdict schema = .error err →
    e.after.process = none ∧ e.after.schema.migration.rows = schema.migration.rows

/-- **All starts together migrate the database once.** -/
theorem migratedOnce_of_life (hrecorded : Recorded schema)
    {h : List (Entry (Deployment b τ) (Input τ) Connector.Output)}
    {e : Entry (Deployment b τ) (Input τ) Connector.Output}
    (ho : Occurs (life uri (init schema db) inputs) h e) : MigratedOnce uri schema e := by
  obtain ⟨hbefore, hafter⟩ := kept_of_life ho
  refine ⟨fun p hp => ?_, fun l _ hhere => ?_, fun err herr => ⟨?_, ?_⟩⟩
  · obtain ⟨hrun, hverdict⟩ := hafter.served (by rw [hp]; exact Option.some_ne_none p)
    refine ⟨hafter.fit p hp, hrun, ?_⟩
    rw [hrun]
    exact complete_run hrecorded hverdict
  · rw [exec_main_of_here hhere, exec_main_of_here hhere, verdict_of_retries hbefore.retried]
  · cases hp : e.after.process with
    | none => rfl
    | some p =>
      have hverdict := (hafter.served (by rw [hp]; exact Option.some_ne_none p)).2
      rw [herr] at hverdict
      cases hverdict
  · exact rows_of_retries herr hafter.retried

/-! ### The accounts -/

theorem stored_init (hdb : db.Linked) (hgroups : db.PlainGroups) :
    Stored db (init (τ := τ) schema db) where
  linked := hdb
  plain := hgroups
  grows := .refl db
  process _ h := by cases h

/-- A process that has ended leaves the rows as they are. -/
theorem Stored.ended (h : Stored db d) (cut : Database b) :
    Stored db ({ d with schema := cut, process := none } : Deployment b τ) where
  linked := h.linked
  plain := h.plain
  grows := h.grows
  process _ hp := by cases hp

theorem Stored.launch (h : Stored db d) {l : Launch τ} (hhere : Here b uri l)
    (hplain : ∀ config, Connector.PlainAliases (l.host config).world.lib) :
    Stored db (launch l d) := by
  have hlaunched := launched hhere d
  generalize Deployment.launch l d = d' at hlaunched ⊢
  cases hlaunched with
  | ended cut hcut => exact h.ended cut
  | serves service hmain hverdict =>
    refine ⟨h.linked, h.plain, h.grows, fun p hp => ?_⟩
    obtain rfl := Option.some.inj hp
    exact ⟨rfl, Connector.intact_start h.linked h.plain h.grows l.now, hplain service.config⟩

/-- **An event keeps the rows in order**, and none is lost. -/
theorem Stored.step (h : Stored db d)
    (hplain : ∀ l, i = .launch l → ∀ config, Connector.PlainAliases (l.host config).world.lib) :
    Stored db (step uri d i).2 ∧ d.db.Grows (step uri d i).2.db := by
  cases i with
  | launch l =>
    by_cases hhere : Here b uri l
    · rw [show (Deployment.step uri d (.launch l)).2 = Deployment.launch l d from if_pos hhere]
      refine ⟨h.launch hhere (hplain l rfl), ?_⟩
      rw [launch_db hhere]
      exact .refl _
    · rw [show (Deployment.step uri d (.launch l)).2 = { d with process := none } from if_neg hhere]
      exact ⟨h.ended d.schema, .refl _⟩
  | stop => exact ⟨h.ended d.schema, .refl _⟩
  | inside i =>
    unfold Deployment.step
    cases hp : d.process with
    | none => exact ⟨h, .refl _⟩
    | some p =>
      obtain ⟨hdb, hintact, hlib⟩ := h.process p hp
      have hnext := Connector.intact_step hlib hintact i
      refine ⟨⟨hnext.linked, hnext.plain, hnext.grows, fun q hq => ?_⟩, ?_⟩
      · obtain rfl := Option.some.inj hq
        exact ⟨rfl, hnext, hlib⟩
      · rw [← hdb]
        exact (Connector.intact_step hlib
          ⟨hintact.linked, hintact.plain, .refl _, hintact.sessions⟩ i).grows

/-- After each event the rows are in order, and none of them is lost later. -/
theorem stored_of_life (hdb : db.Linked) (hgroups : db.PlainGroups) (hplain : PlainStarts inputs)
    {h : List (Entry (Deployment b τ) (Input τ) Connector.Output)}
    {e : Entry (Deployment b τ) (Input τ) Connector.Output}
    (ho : Occurs (life uri (init schema db) inputs) h e) :
    Stored db e.after ∧ e.after.db.Grows (final (step uri) (init (τ := τ) schema db) inputs).db := by
  refine (final_invariant (I := fun h (d : Deployment b τ) => Stored db d ∧
      ∀ e ∈ h, Stored db e.after ∧ e.after.db.Grows d.db)
    (C := fun _ e => ∀ l, e.input = .launch l →
      ∀ config, Connector.PlainAliases (l.host config).world.lib)
    ⟨stored_init hdb hgroups, fun e he => absurd he List.not_mem_nil⟩ ?_ ?_).2 e ho.mem
  · intro h d i hstored hstart
    obtain ⟨hnext, hgrow⟩ := hstored.1.step hstart
    refine ⟨hnext, fun e he => ?_⟩
    rcases List.mem_append.mp he with hold | hnew
    · obtain ⟨hafter, hgrows⟩ := hstored.2 e hold
      exact ⟨hafter, hgrows.trans hgrow⟩
    · obtain rfl := List.mem_singleton.mp hnew
      exact ⟨hnext, .refl _⟩
  · exact fun h e ho l hl => hplain l (hl ▸ input_mem ho)

/-- Sessions under one name, as the database compares names, of one group have one key pair,
whichever processes kept them. -/
def OneKey (run : List (Entry (Deployment b τ) (Input τ) Connector.Output)) : Prop :=
  ∀ h e h' e', Occurs run h e → Occurs run h' e' → ∀ name name' session session',
    e.after.Cached name session → e'.after.Cached name' session' → b.same name name' = true →
    session.mGroupAlias = session'.mGroupAlias →
    session.mGroupId = session'.mGroupId ∧ session.getPublicKey = session'.getPublicKey

/-- **A name stands for one key pair in its group**, over all starts. -/
theorem oneKey_of_life (schema : Database b) (uri : String) (hdb : db.Linked)
    (hgroups : db.PlainGroups) (hplain : PlainStarts inputs) :
    OneKey (life uri (init schema db) inputs) := by
  have hrow : ∀ h e, Occurs (life uri (init schema db) inputs) h e → ∀ name session,
      e.after.Cached name session →
        OfAccountRow (final (step uri) (init (τ := τ) schema db) inputs).db name session := by
    rintro h e ho name session ⟨p, hp, hcached⟩
    obtain ⟨hafter, hgrows⟩ := stored_of_life hdb hgroups hplain ho
    obtain ⟨hsame, hintact, -⟩ := hafter.process p hp
    have hof := hintact.sessions name session hcached
    rw [hsame] at hof
    exact hof.grows hgrows
  intro h e h' e' ho ho' name name' session session' hs hs' hname halias
  exact (hrow h e ho name session hs).agree (hrow h' e' ho' name' session' hs') hname halias

end Life

/-! ### The processes -/

section Processes

/-- What happened to the process that runs at the end. -/
def sinceLaunch (h : List (Entry (Deployment b τ) (Input τ) Connector.Output)) :
    List Connector.Input :=
  h.foldl (fun inside e =>
    match e.input with
    | .inside i => inside ++ [i]
    | _ => []) []

theorem sinceLaunch_concat (h : List (Entry (Deployment b τ) (Input τ) Connector.Output))
    (e : Entry (Deployment b τ) (Input τ) Connector.Output) :
    sinceLaunch (h ++ [e]) =
      match e.input with
      | .inside i => sinceLaunch h ++ [i]
      | _ => [] := by
  rw [sinceLaunch, List.foldl_append]
  rfl

/-- The process is a run of the server, on a database as it was at the start, over
what happened since. -/
def IsRun (p : Process b τ) (inside : List Connector.Input) : Prop :=
  ∃ now db, p.connector = final (Connector.step p.host) (Connector.start now db) inside

/-- An event keeps the process a run of the server, or starts a new one. -/
theorem isRun_step {uri : String} {h : List (Entry (Deployment b τ) (Input τ) Connector.Output)}
    {d : Deployment b τ} {i : Input τ} {p : Process b τ} (hruns : ∀ p, d.process = some p → IsRun p (sinceLaunch h))
    (hp : (step uri d i).2.process = some p) :
    IsRun p (sinceLaunch (h ++ [entryOf (step uri) d i])) := by
  rw [sinceLaunch_concat]
  cases i with
  | launch l =>
    simp only [step] at hp
    split at hp
    · rename_i hhere
      have hlaunched := launched hhere d
      generalize launch l d = d' at hlaunched hp
      cases hlaunched with
      | ended cut hcut => cases hp
      | serves service hmain hverdict =>
        obtain rfl := Option.some.inj hp
        exact ⟨l.now, d.db, rfl⟩
    · cases hp
  | stop => cases hp
  | inside i =>
    simp only [step] at hp
    cases hq : d.process with
    | none =>
      rw [hq] at hp
      cases hq.symm.trans hp
    | some q =>
      rw [hq] at hp
      obtain rfl := Option.some.inj hp
      obtain ⟨now, db', hrun⟩ := hruns q hq
      refine ⟨now, db', ?_⟩
      dsimp only [entryOf]
      rw [final_concat, ← hrun]

/-- **Every process is a run of the server** that knows nothing of the processes before it. -/
theorem isRun_of_life (uri : String) (schema : Database b) (db : Db b) (inputs : List (Input τ)) :
    ∀ p, (final (step uri) (init schema db) inputs).process = some p →
      IsRun p (sinceLaunch (life uri (init schema db) inputs)) :=
  final_invariant
    (I := fun h (d : Deployment b τ) => ∀ p, d.process = some p → IsRun p (sinceLaunch h))
    (C := fun _ _ => True) (fun p hp => by cases hp)
    (fun _ _ _ hruns _ _ hp => isRun_step hruns hp) fun _ _ _ => trivial

/-- Every process is a run of the server since its start, in which a token finds, for an ip, exactly
the session that was opened from there under its name and kept since. -/
def FoundSinceLaunch (run : List (Entry (Deployment b τ) (Input τ) Connector.Output)) : Prop :=
  ∀ h e p, Occurs run h e → e.before.process = some p → ∃ (now : Nat) (db : Db b),
    p.connector = final (Connector.step p.host) (Connector.start now db) (sinceLaunch h) ∧
    ∀ token clientIp session,
      (exec (SessionManager.getSession p.host.cfg token clientIp) p.connector.server.sessions).1 =
          .ok session ↔
        session.mClientIp = clientIp ∧ ∃ name,
          SessionManager.tokenName p.host.cfg token = some name ∧
          Connector.KeptOpen p.host name session
            (Connector.runs p.host (Connector.start now db) (sinceLaunch h))

/-- **No session outlives its process**, whatever its token says. -/
theorem foundSinceLaunch_of_life (uri : String) (schema : Database b) (db : Db b)
    (inputs : List (Input τ)) : FoundSinceLaunch (life uri (init schema db) inputs) := by
  intro h e p ho hp
  obtain ⟨before, i, later, -, rfl, rfl⟩ := occurs_prefix ho
  obtain ⟨now, db', hrun⟩ := isRun_of_life uri schema db before p hp
  refine ⟨now, db', hrun, fun token clientIp session => ?_⟩
  rw [hrun, SessionManager.getSession_eq_ok]
  refine and_congr_right fun _ => exists_congr fun name => and_congr_right fun _ => ?_
  exact Connector.live_iff_keptOpen now db' _

end Processes

/-! ### A life -/

/-- A start where nothing fails. -/
def plainStartEnv : StartEnv where
  lib := plainLibrary
  sodiumHex2bin n hex := if hex.length = 2 * n then some n else none
  loadMnemonicWordLists := true
  loadCryptoKeys _ := .ok ()
  sslContext := .ok ()
  inMemory uri := uri == ":memory:"
  inMemory_memory := rfl
  initIota _ := .ok ()
  parseUri _ := .ok ()
  readUnsecureFlags _ := .ok ()
  listen _ := .ok ()

/-- The defaults with a private key. -/
def plainSettings : MapEnvironmentToConfig where
  getString name default :=
    if name = "crypto.jwt.private" then String.ofList (List.replicate 128 'a') else default
  getInt _ default := .ok default

def plainLaunch (killed : Option Nat) : Launch (List (Bytes × Bytes)) :=
  ⟨plainStartEnv, plainSettings, fun _ => Connector.plainHost, 0, killed⟩

def plainUri : String := "host=localhost;port=3306;db=blockchain_connector;user=root;password=;"

/-- The first start is killed. -/
def twoStarts : List (Input (List (Bytes × Bytes))) :=
  [.launch (plainLaunch (some 3)), .launch (plainLaunch none)]

/-- Alice logs in to a process and, after a restart, to the next one. -/
def aliceReturns : List (Input (List (Bytes × Bytes))) :=
  [.launch (plainLaunch none), .inside (.request Connector.loginAlice),
    .launch (plainLaunch none), .inside (.request Connector.loginAlice)]

theorem plainStarts_aliceReturns : PlainStarts aliceReturns := by
  intro l hl config
  simp only [aliceReturns, List.mem_cons, Input.launch.injEq, reduceCtorEq, List.not_mem_nil, or_false,
    false_or] at hl
  rcases hl with rfl | rfl <;> exact Connector.plainAliases_plainLibrary

/-- The second start does what the first one has left. -/
theorem migratedOnce_twoStarts :
    (life plainUri (init withGroup .empty) twoStarts).map (fun e =>
      (e.after.process.isSome, e.after.schema.names)) =
        [(false, ["group", "user"]), (true, ["group", "user", "user_backup"])] ∧
      ∀ h e, Occurs (life plainUri (init withGroup .empty) twoStarts) h e →
        MigratedOnce plainUri withGroup e :=
  ⟨by decide +kernel, fun _ _ ho => migratedOnce_of_life (by unfold Recorded; decide) ho⟩

/-- Both processes keep a session of Alice. -/
theorem oneKey_aliceReturns :
    (life plainUri (init withGroup .empty) aliceReturns).map (fun e =>
      (e.after.process.bind fun p => p.connector.server.sessions.live plainConfig "alice").isSome) =
        [false, true, false, true] ∧
      OneKey (life plainUri (init withGroup .empty) aliceReturns) :=
  ⟨by decide +kernel, oneKey_of_life withGroup plainUri linked_empty plainGroups_empty
    plainStarts_aliceReturns⟩

end Deployment

end GradidoConnector
