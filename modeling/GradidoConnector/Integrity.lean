import GradidoConnector.Accounts
import GradidoConnector.Authorization

/-!
# What is stored, and the sessions on it

The tables have no foreign keys. In every run, whatever statements fail and whatever a call leaves
half done, a user row belongs to a group row and a backup row to a user row, with at most one backup
for a user (`Db.Linked`), no row is changed or removed, and every session that is cached under a
name belongs to a user row of that name, as the database compares names, in the group of exactly its
alias: the group is found with `LIKE`, but `/login` lets none but plain aliases through, and so none
but plain aliases are stored, if those there at the start are plain.

Results:
* `Login.Outcome.linked`: every outcome of `loginOrCreate` keeps the tables linked.
* `Intact.step`: a call of the session manager with a plain alias keeps everything.
* `intact_step`: so does every step of the server.
* **`intact_of_run`**: every run of the server keeps the tables linked and the sessions on them.
-/

namespace GradidoConnector

open GradidoConnector.Base GradidoConnector.Base.Act

variable {b : Backend} {τ : Type}

/-! ## The tables -/

/-- What foreign keys would say, and that a user has one backup at most. -/
structure Db.Linked (db : Db b) : Prop where
  users : ∀ u ∈ db.users.rows, ∃ g ∈ db.groups.rows, g.id = u.val.groupId
  backups : ∀ k ∈ db.backups.rows, ∃ u ∈ db.users.rows, u.id = k.val.userId
  one : ∀ k ∈ db.backups.rows, ∀ k' ∈ db.backups.rows, k.val.userId = k'.val.userId → k = k'

theorem linked_empty : (Db.empty : Db b).Linked where
  users _ h := absurd h List.not_mem_nil
  backups _ h := absurd h List.not_mem_nil
  one _ h := absurd h List.not_mem_nil

section Tables

variable {db db' : Db b} {groupAlias : String}

theorem Db.Grows.trans {db'' : Db b} (h : db.Grows db') (h' : db'.Grows db'') : db.Grows db'' :=
  ⟨fun r hr => h'.groups r (h.groups r hr), fun r hr => h'.users r (h.users r hr),
    fun r hr => h'.backups r (h.backups r hr)⟩

/-- A new group leaves the links as they are. -/
theorem Db.Linked.addGroup (h : db.Linked) (hadded : Session.GroupAdded groupAlias db db') :
    db'.Linked where
  users u hu := by
    rw [hadded.users] at hu
    obtain ⟨g, hg, hid⟩ := h.users u hu
    exact ⟨g, hadded.grows.groups g hg, hid⟩
  backups k hk := by
    rw [hadded.backups] at hk
    rw [hadded.users]
    exact h.backups k hk
  one := by
    rw [hadded.backups]
    exact h.one

/-- A new user of a stored group. -/
theorem Db.Linked.addUser (h : db.Linked) {user : User} {users : Table User (User.clash b)} {id : Nat}
    (hins : db.users.insert user = some users) (hgroup : ∃ g ∈ db.groups.rows, g.id = user.groupId) :
    Db.Linked { db with users, lastInsertId := id } where
  users u hu := by
    rcases (Table.mem_insert hins).mp hu with hold | rfl
    · exact h.users u hold
    · exact hgroup
  backups k hk := by
    obtain ⟨u, hu, hid⟩ := h.backups k hk
    exact ⟨u, (Table.mem_insert hins).mpr (Or.inl hu), hid⟩
  one := h.one

/-- A backup for a user that has none. -/
theorem Db.Linked.addBackup (h : db.Linked) {backup : UserBackup}
    {backups : Table UserBackup UserBackup.clash} {id : Nat}
    (hins : db.backups.insert backup = some backups)
    (huser : ∃ u ∈ db.users.rows, u.id = backup.userId)
    (hfirst : ∀ k ∈ db.backups.rows, k.val.userId ≠ backup.userId) :
    Db.Linked { db with backups, lastInsertId := id } where
  users := h.users
  backups k hk := by
    rcases (Table.mem_insert hins).mp hk with hold | rfl
    · exact h.backups k hold
    · exact huser
  one k hk k' hk' hsame := by
    rcases (Table.mem_insert hins).mp hk with hold | rfl <;>
      rcases (Table.mem_insert hins).mp hk' with hold' | rfl
    · exact h.one k hold k' hold' hsame
    · exact absurd hsame (hfirst k hold)
    · exact absurd hsame.symm (hfirst k' hold')
    · rfl

/-- **Every outcome of `loginOrCreate` keeps the tables linked.** -/
theorem Login.Outcome.linked {c : Crypto} {call : Login} {r : Except Exn (Nat × Session)}
    (hout : call.Outcome c db r db') (h : db.Linked) : db'.Linked := by
  cases hout with
  | refused e db' hdb => exact h.addGroup hdb
  | loggedIn gid db' user privateKey hgroup => exact h.addGroup hgroup.groupAdded
  | halfCreated e gid db' enc users hins =>
    obtain ⟨g, hg, hid, -⟩ := hins.group.mem
    exact (h.addGroup hins.group.groupAdded).addUser hins.insert ⟨g, hg, hid⟩
  | created gid db' enc key users backups hins hbackup hsave =>
    obtain ⟨g, hg, hid, -⟩ := hins.group.mem
    have hgroup := h.addGroup hins.group.groupAdded
    have huser : Db.Linked { db' with users, lastInsertId := db'.users.next } :=
      hgroup.addUser hins.insert ⟨g, hg, hid⟩
    refine huser.addBackup hsave ?_ fun k hk hsame => ?_
    · exact ⟨_, (Table.mem_insert hins.insert).mpr (Or.inr rfl), rfl⟩
    · -- the id of the new user is not that of a user before, as the backups before have them
      obtain ⟨u, hu, hid⟩ := hgroup.backups k hk
      exact absurd (hid.trans hsame) (Nat.ne_of_lt (db'.users.ids_lt u hu))

end Tables

/-- The aliases of all groups are plain. -/
def Db.PlainGroups (db : Db b) : Prop := ∀ g ∈ db.groups.rows, PlainText g.val.groupAlias

theorem plainGroups_empty : (Db.empty : Db b).PlainGroups := fun _ h => absurd h List.not_mem_nil

theorem Db.PlainGroups.addGroup {db db' : Db b} {groupAlias : String} (h : db.PlainGroups)
    (hplain : PlainText groupAlias) (hadded : Session.GroupAdded groupAlias db db') :
    db'.PlainGroups := by
  intro g hg
  rcases hadded.groups with hsame | ⟨-, hins⟩
  · exact h g (hsame ▸ hg)
  · rcases (Table.mem_insert hins).mp hg with hold | rfl
    · exact h g hold
    · exact hplain

/-- A login under a plain alias stores no other. -/
theorem Login.Outcome.plainGroups {c : Crypto} {call : Login} {db db' : Db b}
    {r : Except Exn (Nat × Session)} (hout : call.Outcome c db r db') (h : db.PlainGroups)
    (hplain : PlainText call.groupAlias) : db'.PlainGroups := by
  cases hout with
  | refused e db' hdb => exact h.addGroup hplain hdb
  | loggedIn gid db' user privateKey hgroup => exact h.addGroup hplain hgroup.groupAdded
  | halfCreated e gid db' enc users hins =>
    exact fun g hg => h.addGroup hplain hins.group.groupAdded g hg
  | created gid db' enc key users backups hins =>
    exact fun g hg => h.addGroup hplain hins.group.groupAdded g hg

/-! ## The sessions -/

/-- The session belongs to a user row of the name in the group of its alias. -/
def OfAccountRow (db : Db b) (name : String) (session : Session) : Prop :=
  ∃ row ∈ db.users.rows, b.same row.val.name name = true ∧
    (∃ g ∈ db.groups.rows, g.val.groupAlias = session.mGroupAlias ∧ row.val.groupId = g.id) ∧
    session.mGroupId = row.val.groupId ∧ session.getPublicKey = some row.val.publicKey

/-- Linked tables of plain groups, with all rows of `db`, and sessions of their accounts. -/
structure Intact (db : Db b) (s : SessionManager b) : Prop where
  linked : s.db.Linked
  plain : s.db.PlainGroups
  grows : db.Grows s.db
  sessions : ∀ name session, s.Cached name session → OfAccountRow s.db name session

section Sessions

variable {db db' : Db b} {s : SessionManager b} {name : String} {session : Session}

theorem OfAccountRow.grows (h : OfAccountRow db name session) (hgrow : db.Grows db') :
    OfAccountRow db' name session := by
  obtain ⟨row, hrow, hname, ⟨g, hg, hgroup⟩, hkey⟩ := h
  exact ⟨row, hgrow.users row hrow, hname, ⟨g, hgrow.groups g hg, hgroup⟩, hkey⟩

/-- Sessions of one name, however it is spelled, and of one alias have one key. -/
theorem OfAccountRow.agree {name' : String} {session' : Session} (h : OfAccountRow db name session)
    (h' : OfAccountRow db name' session') (hname : b.same name name' = true)
    (halias : session.mGroupAlias = session'.mGroupAlias) :
    session.mGroupId = session'.mGroupId ∧ session.getPublicKey = session'.getPublicKey := by
  obtain ⟨row, hrow, hn, ⟨g, hg, ha, hgid⟩, hid, hkey⟩ := h
  obtain ⟨row', hrow', hn', ⟨g', hg', ha', hgid'⟩, hid', hkey'⟩ := h'
  obtain rfl : g = g' := Db.eq_of_groupAlias hg hg' (ha.trans (halias.trans ha'.symm))
  have hsame : b.same row.val.name row'.val.name = true :=
    Collation.same_trans (Collation.same_trans hn hname) (Collation.same_symm hn')
  obtain rfl := Db.eq_of_same_name_groupId hrow hrow' hsame (hgid.trans hgid'.symm)
  exact ⟨hid.trans hid'.symm, hkey.trans hkey'.symm⟩

/-- A session that is established for a plain alias, among plain groups, belongs to its account. -/
theorem ofAccountRow_of_established {c : Crypto} {call : Login} {n : Nat}
    (hplain : PlainText call.groupAlias) (hgroups : db'.PlainGroups)
    (hout : call.Outcome c db (.ok (n, session)) db') : OfAccountRow db' call.userName session := by
  obtain ⟨gid, k, hsession, ⟨g, hg, hgid, hfound⟩, row, hrow, hname, hrowid, -, hkey⟩ :=
    hout.established.session
  have halias : g.val.groupAlias = call.groupAlias :=
    hfound.elim (fun hlike => b.columns.like_plain hplain (hgroups g hg) hlike) id
  subst hsession
  refine ⟨row, hrow, hname, ⟨g, hg, halias, hrowid.trans hgid.symm⟩, hrowid.symm, ?_⟩
  rw [hkey]
  rfl

/-- **A call of the session manager with a plain alias keeps everything.** -/
theorem Intact.step {cfg : Config} {i : SessionManager.Input} (h : Intact db s)
    (hplain : ∀ call, i = .login call → PlainText call.groupAlias) :
    Intact db (SessionManager.step cfg s i).2 := by
  have hgrow : s.db.Grows (SessionManager.step cfg s i).2.db := SessionManager.step_grows cfg s i
  have htables : (SessionManager.step cfg s i).2.db.Linked ∧
      (SessionManager.step cfg s i).2.db.PlainGroups := by
    rcases SessionManager.step_db cfg s i with hdb | ⟨call, hin, -, hdb⟩
    · rw [show (SessionManager.step cfg s i).2.db = _ from hdb]
      exact ⟨h.linked, h.plain⟩
    · have hout := Login.outcome cfg.crypto call s.db
      rw [show (SessionManager.step cfg s i).2.db = _ from hdb]
      exact ⟨hout.linked h.linked, hout.plainGroups h.plain (hplain call hin)⟩
  refine ⟨htables.1, htables.2, h.grows.trans hgrow, fun name session hc => ?_⟩
  rcases SessionManager.step_cached hc with hold | ⟨call, rfl, hin, -, n, hexec⟩
  · exact (h.sessions name session hold).grows hgrow
  · have hout := Login.outcome cfg.crypto call s.db
    rw [show call.exec cfg.crypto s.db = _ from hexec] at hout
    exact ofAccountRow_of_established (hplain call hin) htables.2 hout

end Sessions

namespace Connector

/-- A valid group alias is plain: `[a-z0-9-]{3,120}`. -/
def PlainAliases (lib : Library) : Prop :=
  ∀ groupAlias, lib.isValidGroupAlias groupAlias = true → PlainText groupAlias

/-- `/login` lets plain aliases through alone. -/
theorem plain_of_loginOf {h : LoginHost} {request : LoginRequest} {call : Login}
    (hplain : PlainAliases h.lib) (hlogin : JsonLogin.loginOf h request = some call) :
    PlainText call.groupAlias := by
  obtain ⟨-, c, hc, rfl⟩ := JsonLogin.loginOf_eq_some.mp hlogin
  obtain ⟨-, -, -, hvalid, password, -, rfl⟩ := JsonLogin.readCredentials_eq_ok.mp hc
  exact hplain _ hvalid

/-- A step of the server, whatever it serves, keeps everything. -/
theorem intact_step {host : Host τ} (hplain : PlainAliases host.world.lib) {db : Db b}
    {c : Connector b} (h : Intact db c.server.sessions) (i : Input) :
    Intact db (step host c i).2.server.sessions := by
  have href := refines_sessions (b := b) host
  cases hshows : shows host c i with
  | none =>
    rw [href.silent c i hshows]
    exact h
  | some call =>
    rw [href.shown c i call hshows]
    refine h.step fun login hlogin => ?_
    obtain ⟨r, -, -, hof⟩ := login_of_shows (hlogin ▸ hshows)
    exact plain_of_loginOf hplain hof

theorem intact_start {db db' : Db b} (hdb : db'.Linked) (hgroups : db'.PlainGroups)
    (hgrow : db.Grows db') (now : Nat) : Intact db (start now db').server.sessions := by
  refine ⟨hdb, hgroups, hgrow, ?_⟩
  rintro name session ⟨slot, hs, -⟩
  exact absurd hs (by simp [start, SessionManager.start])

theorem plainAliases_plainLibrary : PlainAliases plainLibrary :=
  fun _ hvalid => List.all_eq_true.mp (Bool.and_eq_true_iff.mp hvalid).2

end Connector

end GradidoConnector
