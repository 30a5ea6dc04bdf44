import GradidoConnector.Backup
import GradidoConnector.LoginSteps

/-!
# What a login does to its user

A `View` is what the server holds for one user: the sessions in the cache under all spellings of the
name that `=` takes for one, and for each group the user row with its backups, on MySQL without
their AUTO_INCREMENT ids. A step of a login concerns the view of its own user and the group table,
nothing else. Once a call knows its group, the view of its user fixes what it still does and
answers: `View.outcome` says so, in the order of the source, for the view as a whole.

`Attached` and `Fits` are kept by every step: a backup row has its user row, and so has a call
between its two inserts.

Results:
* **`outcome_after`**: a step of a call that knows its group does not change how the call ends.
* **`view_after_of_ne`**: a step changes nothing for another user.
* `Ends.resolves`: a call that knows its group ends alone as its outcome says.
* `after_search_congr`: until then a call depends on the group table only.
-/

namespace GradidoConnector.LoginSteps

open GradidoConnector.Base GradidoConnector.Base.Act GradidoConnector.SessionManager

/-! ## What the server holds for one user -/

section Stored

variable {b : Backend}

/-- The backups of a user row. -/
def backupsOf (db : Db b) (userId : Nat) : List (Nat × Bytes) :=
  (db.backups.select fun r => r.userId == userId).map fun r =>
    (r.val.keyUserId, r.val.encryptedPassphrase)

/-- The row of a user in a group, with its backups. -/
def stored (db : Db b) (name : String) (gid : Nat) : Option (User × List (Nat × Bytes)) :=
  (usersNamed name gid db).head?.map fun row => (row.val, backupsOf db row.id)

/-- Every backup row belongs to a stored user. -/
def Attached (db : Db b) : Prop :=
  ∀ backup ∈ db.backups.rows, ∃ user ∈ db.users.rows, user.id = backup.val.userId

/-- The row a call has inserted is there. -/
def Fits (db : Db b) (name : String) : Phase → Prop
  | .userStored gid userId => ∃ user ∈ usersNamed name gid db, user.id = userId
  | _ => True

variable {db db' : Db b} {name : String}

/-- Two spellings of a name have the same row. -/
theorem stored_congr {name' : String} (h : b.same name name' = true) :
    stored db name = stored db name' := by
  funext gid
  rw [stored, usersNamed_congr h, stored]

theorem Attached.owned (h : Attached db) : Backup.Owned db := by
  intro backup hb
  obtain ⟨user, hu, hid⟩ := h backup hb
  exact hid ▸ db.users.ids_lt user hu

theorem Fits.mono {p : Phase} (h : Fits db name p) (hrows : ∀ r ∈ db.users.rows, r ∈ db'.users.rows) :
    Fits db' name p := by
  cases p with
  | userStored gid userId =>
    obtain ⟨user, hu, hid⟩ := h
    obtain ⟨hmem, hn, hg⟩ := mem_usersNamed.mp hu
    exact ⟨user, mem_usersNamed.mpr ⟨hrows user hmem, hn, hg⟩, hid⟩
  | _ => trivial

end Stored

section Inserts

variable {q : Collation} {db : Db (.mysql q)}

theorem backupsOf_fresh (h : Attached db) : backupsOf db db.users.next = [] := by
  unfold backupsOf Table.select
  rw [List.map_eq_nil_iff, List.filter_eq_nil_iff]
  intro backup hb
  have := h.owned backup hb
  simp only [beq_iff_eq]
  omega

/-- A new user row is the one of its name and group, without a backup. -/
theorem stored_addUser (hatt : Attached db) {u : User} {users : Table User (User.clash (.mysql q))}
    (hins : db.users.insert u = some users) (name : String) (gid k : Nat) :
    stored { db with users, lastInsertId := k } name gid =
      if q.same u.name name = true ∧ gid = u.groupId then some (u, []) else stored db name gid := by
  have hrows := (Table.insert_rows hins).1
  have hnamed : usersNamed name gid { db with users, lastInsertId := k } =
      usersNamed name gid db ++ [(⟨db.users.next, u⟩ : Row User)].filter fun r =>
        q.same r.val.name name && r.val.groupId == gid := by
    unfold usersNamed Table.select
    rw [hrows, List.filter_append]
  unfold stored
  rw [hnamed]
  by_cases hkey : q.same u.name name = true ∧ gid = u.groupId
  · obtain ⟨hsame, rfl⟩ := hkey
    have hnone : usersNamed name u.groupId db = [] := by
      rw [List.eq_nil_iff_forall_not_mem]
      intro row hrow
      obtain ⟨hmem, hn, hg⟩ := mem_usersNamed.mp hrow
      have hspelled := Collation.same_trans hn (Collation.same_symm hsame)
      have hclash : db.users.clashes u = true :=
        List.any_eq_true.mpr ⟨row, hmem, by simp [User.clash, hspelled, hg]⟩
      rw [Table.insert_eq_none.mpr hclash] at hins
      exact absurd hins (by simp)
    rw [hnone, if_pos ⟨hsame, rfl⟩]
    simp only [hsame, List.nil_append, BEq.rfl, Bool.and_self, List.filter_cons_of_pos,
      List.head?_cons, Option.map_some]
    rw [show backupsOf { db with users, lastInsertId := k } db.users.next = [] from backupsOf_fresh hatt]
  · rw [if_neg hkey]
    have hfilter : ([(⟨db.users.next, u⟩ : Row User)].filter fun r =>
        q.same r.val.name name && r.val.groupId == gid) = [] := by
      rw [List.filter_eq_nil_iff]
      intro r hr
      rw [List.mem_singleton.mp hr]
      simp only [Bool.and_eq_true, beq_iff_eq]
      exact fun h => hkey ⟨h.1, h.2.symm⟩
    rw [hfilter, List.append_nil]
    rfl

/-- A new backup row is added to those of its user. -/
theorem stored_addBackup {v : UserBackup} {backups : Table UserBackup UserBackup.clash} {row : Row User}
    {name : String} {gid : Nat} (hrow : row ∈ usersNamed name gid db) (hid : row.id = v.userId)
    (hins : db.backups.insert v = some backups) (k : Nat) (name' : String) (gid' : Nat) :
    stored { db with backups, lastInsertId := k } name' gid' =
      if q.same name name' = true ∧ gid' = gid then
        (stored db name gid).map fun a => (a.1, a.2 ++ [(v.keyUserId, v.encryptedPassphrase)])
      else stored db name' gid' := by
  have hrows := (Table.insert_rows hins).1
  have hbackups : ∀ id, backupsOf { db with backups, lastInsertId := k } id = backupsOf db id ++
      if v.userId = id then [(v.keyUserId, v.encryptedPassphrase)] else [] := by
    intro id
    unfold backupsOf Table.select
    rw [hrows, List.filter_append, List.map_append]
    by_cases hv : v.userId = id <;> simp [hv]
  have hnamed : usersNamed name' gid' { db with backups, lastInsertId := k } =
    usersNamed name' gid' db := rfl
  unfold stored
  rw [hnamed]
  by_cases hkey : q.same name name' = true ∧ gid' = gid
  · obtain ⟨hsame, rfl⟩ := hkey
    rw [if_pos ⟨hsame, rfl⟩, ← usersNamed_congr hsame, head?_usersNamed hrow]
    simp only [Option.map_some, hbackups]
    rw [if_pos hid.symm]
  · rw [if_neg hkey]
    cases hhead : (usersNamed name' gid' db).head? with
    | none => rfl
    | some row' =>
      have hmem := List.mem_of_head? hhead
      have hne : v.userId ≠ row'.id := by
        intro heq
        obtain ⟨h, hn, hg⟩ := mem_usersNamed.mp hmem
        obtain ⟨h₀, hn₀, hg₀⟩ := mem_usersNamed.mp hrow
        have hsame : row = row' := Table.eq_of_id h₀ h (hid.trans heq)
        subst hsame
        exact hkey ⟨Collation.same_trans (Collation.same_symm hn₀) hn, hg.symm.trans hg₀⟩
      simp only [Option.map_some, hbackups]
      rw [if_neg hne, List.append_nil]

/-- A user row is refused exactly where there is one of its name and group. -/
theorem insert_user_eq_none (db : Db (.mysql q)) (u : User) :
    db.users.insert u = none ↔ stored db u.name u.groupId ≠ none := by
  have hmap : stored db u.name u.groupId ≠ none ↔ usersNamed u.name u.groupId db ≠ [] := by
    unfold stored
    rw [ne_eq, Option.map_eq_none_iff, List.head?_eq_none_iff]
  rw [hmap, Table.insert_eq_none, Table.clashes, List.any_eq_true]
  constructor
  · rintro ⟨row, hmem, hclash⟩ hnil
    simp only [User.clash, Bool.and_eq_true, beq_iff_eq] at hclash
    have hrow : row ∈ usersNamed u.name u.groupId db := mem_usersNamed.mpr ⟨hmem, hclash⟩
    rw [hnil] at hrow
    exact absurd hrow List.not_mem_nil
  · intro hne
    obtain ⟨row, hrow⟩ := List.exists_mem_of_ne_nil _ hne
    obtain ⟨hmem, hn, hg⟩ := mem_usersNamed.mp hrow
    exact ⟨row, hmem, by simp [User.clash, hn, hg]⟩

end Inserts

/-! ## The outcome of a call that knows its group -/

/-- What the server holds for one user. -/
structure View where
  now : Nat
  /-- The sessions under the spellings of the name. -/
  slots : ExpireCache String Session
  stored : Nat → Option (User × List (Nat × Bytes))

/-- The part of a cache under the spellings of a name. -/
def spellings (b : Backend) (name : String) (c : ExpireCache String Session) :
    ExpireCache String Session :=
  fun n => if b.same n name = true then c n else none

def view {b : Backend} (s : SessionManager b) (name : String) : View :=
  ⟨s.now, spellings b name s.mActiveSessions, stored s.db name⟩

section Spellings

variable {b : Backend} {name : String} {c c' : ExpireCache String Session} {now : Nat}

theorem spellings_self : spellings b name c name = c name := if_pos (b.columns.same_refl name)

theorem spellings_congr (h : ∀ n, b.same n name = true → c' n = c n) :
    spellings b name c' = spellings b name c := by
  funext n
  unfold spellings
  split
  · exact h n ‹_›
  · rfl

/-- A change under the name itself. -/
theorem spellings_update (slot : Option (Slot Session)) :
    spellings b name (Function.update c name slot) =
      Function.update (spellings b name c) name slot := by
  funext n
  by_cases hn : n = name
  · subst hn
    rw [spellings_self, Function.update_self, Function.update_self]
  · rw [Function.update_of_ne hn]
    unfold spellings
    rw [Function.update_of_ne hn]

theorem live_spellings (timeout : Nat) :
    (spellings b name c).live timeout now name = c.live timeout now name := by
  unfold ExpireCache.live
  rw [spellings_self]

/-- A change under a name of another user. -/
theorem spellings_of_ne {name' : String} (hne : b.same name name' = false)
    (h : ∀ n ≠ name', c' n = c n) : spellings b name c' = spellings b name c := by
  refine spellings_congr fun n hn => h n ?_
  rintro rfl
  exact Bool.false_ne_true (hne.symm.trans (Collation.same_symm hn))

/-- Two spellings of a name have one view. -/
theorem view_congr (s : SessionManager b) {name' : String} (h : b.same name name' = true) :
    view s name = view s name' := by
  have hslots : spellings b name s.mActiveSessions = spellings b name' s.mActiveSessions := by
    funext n
    unfold spellings
    rw [Backend.same, Backend.same, Collation.same_comm, Collation.same_congr h, Collation.same_comm]
  rw [view, hslots, stored_congr h, view]

end Spellings

namespace View

/-- What a call makes of the view of its user, and its answer. -/
abbrev Result := View × Except Exn String

variable (cfg : Config) (call : Login) (a : View)

/-- `k`, unless `op` fails. -/
def past (op : Operation) (k : Result) : Result :=
  match call.env.fault op with
  | some what => (a, .error (op.exn what))
  | none => k

def addUser (gid : Nat) (user : User) : View :=
  { a with stored := Function.update a.stored gid (some (user, [])) }

def addBackup (gid : Nat) (encryptedPassphrase : Bytes) : View :=
  { a with
    stored := Function.update a.stored gid
      ((a.stored gid).map fun v => (v.1, v.2 ++ [(0, encryptedPassphrase)])) }

def established (session : Session) : Result :=
  ({ a with slots := a.slots.add a.now call.userName session }, loginAnswer cfg call session a.now)

def userStored (gid : Nat) : Result :=
  match call.env.supportPublicKey with
  | none =>
    (a, .error (.missingKeyException "missing key for saving passphrase for new user"
      "crypto.server_admin_public"))
  | some key =>
    a.past call .sealPassphrase (a.past call .insertBackup
      ((a.addBackup gid (cfg.crypto.sealFor key call.env.passphrase)).established cfg call
        (call.session cfg.crypto gid (cfg.crypto.ofPassphrase call.env.passphrase))))

def noUser (gid : Nat) : Result :=
  match cfg.crypto.getCryptedPrivKey (cfg.crypto.ofPassphrase call.env.passphrase)
    (call.secret cfg.crypto) with
  | none => (a, .error (.pocoException "cannot get encrypted private key"))
  | some enc =>
    a.past call .insertUser (match a.stored gid with
      | some _ => (a, .error duplicateEntry)
      | none =>
        let a' := a.addUser gid
          (Session.newUser cfg.crypto call.env call.userName gid (call.secret cfg.crypto) enc)
        a'.past call .userId (a'.userStored cfg call gid))

def group (gid : Nat) : Result :=
  a.past call .selectUser (match a.stored gid with
    | some (user, _) =>
      match checked cfg.crypto call gid user with
      | .ok session => a.established cfg call session
      | .error e => (a, .error e)
    | none => a.noUser cfg call gid)

/-- How the call ends, once it knows its group. -/
def outcome : Phase → Option Result
  | .called | .missed | .noGroup => none
  | .group gid => some (a.group cfg call gid)
  | .noUser gid => some (a.noUser cfg call gid)
  | .userStored gid _ => some (a.userStored cfg call gid)
  | .established session => some (a.established cfg call session)
  | .answered r => some (a, r)

end View

section Outcome

variable {q : Collation} {cfg : Config} {call : Login} {s : SessionManager (.mysql q)} {p : Phase}

theorem view_addUser (hatt : Attached s.db) {u : User} {users : Table User (User.clash (.mysql q))}
    (hins : s.db.users.insert u = some users) (k : Nat) :
    view { s with db := { s.db with users, lastInsertId := k } } u.name =
      (view s u.name).addUser u.groupId u := by
  have hstored : stored { s.db with users, lastInsertId := k } u.name =
      Function.update (stored s.db u.name) u.groupId (some (u, [])) := by
    funext gid
    rw [stored_addUser hatt hins]
    by_cases hg : gid = u.groupId <;> simp [hg]
  unfold view View.addUser
  rw [hstored]

theorem view_addBackup {v : UserBackup} {backups : Table UserBackup UserBackup.clash} {row : Row User}
    {name : String} {gid : Nat} (hrow : row ∈ usersNamed name gid s.db) (hid : row.id = v.userId)
    (hkey : v.keyUserId = 0) (hins : s.db.backups.insert v = some backups) (k : Nat) :
    view { s with db := { s.db with backups, lastInsertId := k } } name =
      (view s name).addBackup gid v.encryptedPassphrase := by
  have hstored : stored { s.db with backups, lastInsertId := k } name =
      Function.update (stored s.db name) gid
        ((stored s.db name gid).map fun a => (a.1, a.2 ++ [(0, v.encryptedPassphrase)])) := by
    funext gid'
    rw [stored_addBackup hrow hid hins, hkey]
    by_cases hg : gid' = gid <;> simp [hg]
  unfold view View.addBackup
  rw [hstored]

/-- How the call ends after a step of it. -/
def outcomeAfter (cfg : Config) (call : Login) (s : SessionManager (.mysql q)) (p : Phase) :
    Option View.Result :=
  (view (after cfg call (s, p)).1 call.userName).outcome cfg call (after cfg call (s, p)).2

theorem outcomeAfter_established (session : Session) :
    outcomeAfter cfg call s (.established session) =
      some ((view s call.userName).established cfg call session) := by
  rw [outcomeAfter, after_established]
  simp only [View.outcome, View.established, view, ExpireCache.add, spellings_update]

theorem outcomeAfter_userStored {gid userId : Nat}
    (hfits : Fits s.db call.userName (.userStored gid userId)) :
    outcomeAfter cfg call s (.userStored gid userId) =
      some ((view s call.userName).userStored cfg call gid) := by
  obtain ⟨row, hrow, hid⟩ := hfits
  rw [outcomeAfter, after_of_tables rfl]
  simp only [addBackup, View.userStored, View.past]
  cases call.env.supportPublicKey with
  | none => rfl
  | some key =>
    obtain ⟨backups, hins, hexec⟩ := exec_userBackupSave
      (⟨userId, 0, cfg.crypto.sealFor key call.env.passphrase⟩ : UserBackup) s.db
    simp only [exec_bind, Session.exec_attempt]
    cases call.env.fault .sealPassphrase with
    | some what => rfl
    | none =>
      cases call.env.fault .insertBackup with
      | some what => rfl
      | none =>
        simp only [hexec, exec_pure, leads, View.outcome]
        rw [view_addBackup hrow hid rfl hins]

theorem outcomeAfter_noUser (hatt : Attached s.db) (gid : Nat) :
    outcomeAfter cfg call s (.noUser gid) = some ((view s call.userName).noUser cfg call gid) := by
  rw [outcomeAfter, after_of_tables rfl]
  simp only [addUser, View.noUser, View.past]
  cases cfg.crypto.getCryptedPrivKey (cfg.crypto.ofPassphrase call.env.passphrase)
    (call.secret cfg.crypto) with
  | none => rfl
  | some enc =>
    have hrefused := insert_user_eq_none s.db
      (Session.newUser cfg.crypto call.env call.userName gid (call.secret cfg.crypto) enc)
    have hslot : (view s call.userName).stored gid = stored s.db call.userName gid := rfl
    simp only [exec_bind, Session.exec_attempt, exec_userSave, hslot]
    cases call.env.fault .insertUser with
    | some what => rfl
    | none =>
      cases hins : s.db.users.insert
        (Session.newUser cfg.crypto call.env call.userName gid (call.secret cfg.crypto) enc) with
      | none =>
        -- the key refuses the row: there is one of the name in the group
        obtain ⟨v, hv⟩ := Option.ne_none_iff_exists'.mp (hrefused.mp hins)
        have hv' : stored s.db call.userName gid = some v := hv
        simp only [hins, hv', leads, View.outcome]
      | some users =>
        have hv : stored s.db call.userName gid = none := by
          by_contra hne
          rw [hrefused.mpr hne] at hins
          cases hins
        have hview := view_addUser hatt hins s.db.users.next
        simp only [hins, hv]
        cases call.env.fault .userId with
        | some what => exact congrArg (fun a => some (a, _)) hview
        | none => exact congrArg (fun a => some (a.userStored cfg call gid)) hview

theorem outcomeAfter_group (gid : Nat) :
    outcomeAfter cfg call s (.group gid) = some ((view s call.userName).group cfg call gid) := by
  have hslot : (view s call.userName).stored gid = stored s.db call.userName gid := rfl
  rw [outcomeAfter, after_of_tables rfl, exec_searchUser]
  simp only [View.group, View.past, hslot]
  unfold stored
  cases call.env.fault .selectUser with
  | some what => rfl
  | none =>
    cases (usersNamed call.userName gid s.db).head? with
    | none => rfl
    | some row =>
      simp only [Option.map_some]
      cases checked cfg.crypto call gid row.val <;> rfl

/-- **A step of a call that knows its group does not change how the call ends.** -/
theorem outcome_after (hatt : Attached s.db) (hfits : Fits s.db call.userName p) {r : View.Result}
    (h : (view s call.userName).outcome cfg call p = some r) :
    (view (after cfg call (s, p)).1 call.userName).outcome cfg call (after cfg call (s, p)).2 =
      some r := by
  rw [← h]
  cases p with
  | called => cases h
  | missed => cases h
  | noGroup => cases h
  | group gid => exact outcomeAfter_group gid
  | noUser gid => exact outcomeAfter_noUser hatt gid
  | userStored gid userId => exact outcomeAfter_userStored hfits
  | established session => exact outcomeAfter_established session
  | answered r => rfl

end Outcome

/-! ## What a step leaves alone -/

section Frame

variable {q : Collation} {c : Crypto} {cfg : Config} {call : Login} {db db' : Db (.mysql q)}
  {s : SessionManager (.mysql q)}
  {p : Phase} {name : String}

theorem Writes.users_mem (h : Writes c call db p db') : ∀ r ∈ db.users.rows, r ∈ db'.users.rows := by
  intro r hr
  cases h with
  | user gid enc users hins => exact (Table.mem_insert hins).mpr (Or.inl hr)
  | _ => exact hr

theorem Writes.groups_eq (h : Writes c call db p db') (hp : p ≠ .noGroup) : db'.groups = db.groups := by
  cases h with
  | group groups hins => exact absurd rfl hp
  | _ => rfl

theorem Writes.attached (h : Writes c call db p db') (hatt : Attached db)
    (hfits : Fits db call.userName p) : Attached db' := by
  cases h with
  | nothing => exact hatt
  | group groups hins => exact hatt
  | user gid enc users hins =>
    intro backup hb
    obtain ⟨user, hu, hid⟩ := hatt backup hb
    exact ⟨user, (Table.mem_insert hins).mpr (Or.inl hu), hid⟩
  | backup gid userId key backups hins =>
    intro backup hb
    rcases (Table.mem_insert hins).mp hb with hold | rfl
    · exact hatt backup hold
    · obtain ⟨user, hu, hid⟩ := hfits
      exact ⟨user, (mem_usersNamed.mp hu).1, hid⟩

theorem Writes.stored_of_ne (h : Writes c call db p db') (hatt : Attached db)
    (hfits : Fits db call.userName p) (hne : q.same name call.userName = false) :
    stored db' name = stored db name := by
  have hne' : ¬ q.same call.userName name = true := by
    rw [Collation.same_comm, hne]
    exact Bool.false_ne_true
  cases h with
  | nothing => rfl
  | group groups hins => rfl
  | user gid enc users hins =>
    funext gid'
    rw [stored_addUser hatt hins, if_neg fun h => hne' h.1]
  | backup gid userId key backups hins =>
    obtain ⟨row, hrow, hid⟩ := hfits
    funext gid'
    rw [stored_addBackup hrow hid hins, if_neg fun h => hne' h.1]

/-- **A step changes nothing for another user.** -/
theorem view_after_of_ne (hatt : Attached s.db) (hfits : Fits s.db call.userName p)
    (hne : q.same name call.userName = false) : view (after cfg call (s, p)).1 name = view s name := by
  obtain ⟨hnow, hcache⟩ := cache_after cfg call s p
  unfold view
  rw [hnow, spellings_of_ne hne hcache, (writes_after cfg call s p).stored_of_ne hatt hfits hne]

theorem attached_after (hatt : Attached s.db) (hfits : Fits s.db call.userName p) :
    Attached (after cfg call (s, p)).1.db :=
  (writes_after cfg call s p).attached hatt hfits

theorem fits_addUser (c : Crypto) (call : Login) (gid : Nat) (db : Db (.mysql q)) :
    Fits (exec (addUser c call gid) db).2 call.userName
      (leads (.userStored gid) (exec (addUser c call gid) db).1) := by
  unfold addUser
  cases c.getCryptedPrivKey (c.ofPassphrase call.env.passphrase) (call.secret c) with
  | none => trivial
  | some enc =>
    simp only [exec_bind, Session.exec_attempt, exec_userSave]
    cases call.env.fault .insertUser with
    | some what => trivial
    | none =>
      cases hins : db.users.insert
        (Session.newUser c call.env call.userName gid (call.secret c) enc) with
      | none =>
        simp only [hins]
        trivial
      | some users =>
        simp only [hins]
        cases call.env.fault .userId with
        | some what => trivial
        | none =>
          exact ⟨_, mem_usersNamed.mpr ⟨(Table.mem_insert hins).mpr (Or.inr rfl), q.same_refl _, rfl⟩,
            rfl⟩

/-- The row of a call that has just inserted it is there. -/
theorem fits_after (cfg : Config) (call : Login) (s : SessionManager (.mysql q)) (p : Phase) :
    Fits (after cfg call (s, p)).1.db call.userName (after cfg call (s, p)).2 := by
  cases p with
  | called =>
    cases hlive : s.live cfg call.userName with
    | some session =>
      rw [after_of_live hlive]
      trivial
    | none =>
      rw [after_of_miss hlive]
      trivial
  | missed =>
    rw [after_of_tables rfl]
    rcases (exec (searchGroup call) s.db).1 with e | (_ | gid) <;> trivial
  | noGroup =>
    rw [after_of_tables rfl]
    cases (exec (addGroup call) s.db).1 <;> trivial
  | group gid =>
    rw [after_of_tables rfl]
    rcases (exec (searchUser cfg.crypto call gid) s.db).1 with e | (_ | session) <;> trivial
  | noUser gid =>
    rw [after_of_tables rfl]
    exact fits_addUser cfg.crypto call gid s.db
  | userStored gid userId =>
    rw [after_of_tables rfl]
    cases (exec (addBackup cfg.crypto call gid userId) s.db).1 <;> trivial
  | established session => trivial
  | answered r => trivial

/-- **A call that knows its group ends alone as its outcome says**, and leaves the groups and the
other users as they are. -/
theorem Ends.resolves {n : Nat} {r : Except Exn String × SessionManager (.mysql q)} {a : View}
    {answer : Except Exn String} (h : Ends cfg call n (s, p) r) (hatt : Attached s.db)
    (hfits : Fits s.db call.userName p)
    (hout : (view s call.userName).outcome cfg call p = some (a, answer)) :
    r.1 = answer ∧ view r.2 call.userName = a ∧ r.2.db.groups = s.db.groups ∧ Attached r.2.db ∧
      ∀ name, q.same name call.userName = false → view r.2 name = view s name := by
  have hend := h.invariant (R := fun y =>
    (view y.1 call.userName).outcome cfg call y.2 = some (a, answer) ∧
      Fits y.1.db call.userName y.2 ∧ y.1.db.groups = s.db.groups ∧ Attached y.1.db ∧
      ∀ name, q.same name call.userName = false → view y.1 name = view s name) ?_
    ⟨hout, hfits, rfl, hatt, fun _ _ => rfl⟩
  · obtain ⟨hout', -, hgroups, hatt', hother⟩ := hend
    have heq : (view r.2 call.userName, r.1) = (a, answer) := Option.some.inj hout'
    exact ⟨congrArg Prod.snd heq, congrArg Prod.fst heq, hgroups, hatt', hother⟩
  · rintro ⟨t, q⟩ ⟨hout', hfits', hgroups, hatt', hother⟩
    have hq : q ≠ .noGroup := by
      rintro rfl
      cases hout'
    refine ⟨outcome_after hatt' hfits' hout', fits_after cfg call t q, ?_,
      attached_after hatt' hfits', fun name hne => ?_⟩
    · rw [(writes_after cfg call t q).groups_eq hq]
      exact hgroups
    · rw [view_after_of_ne hatt' hfits' hne]
      exact hother name hne

end Frame

/-! ## The steps on the groups -/

section Search

variable {q : Collation} {c : Crypto} {cfg : Config} {call : Login} {db db' : Db (.mysql q)}
  {s : SessionManager (.mysql q)}
  {p : Phase} {name : String}

/-- Adding a group reads and writes the groups only. -/
theorem exec_addGroup_congr (call : Login) (h : db'.groups = db.groups) :
    (exec (addGroup call) db').1 = (exec (addGroup call) db).1 ∧
      (exec (addGroup call) db').2.groups = (exec (addGroup call) db).2.groups := by
  simp only [addGroup, exec_bind, Session.exec_attempt, exec_groupSave]
  cases call.env.fault .insertGroup with
  | some what => exact ⟨rfl, h⟩
  | none =>
    simp only [h]
    cases db.groups.insert ⟨call.groupAlias, call.groupAlias⟩ with
    | none => exact ⟨rfl, h⟩
    | some groups =>
      cases call.env.fault .groupId with
      | some what => exact ⟨rfl, rfl⟩
      | none => exact ⟨rfl, rfl⟩

/-- Searching and adding a group change nothing for any user. -/
theorem Writes.stored_eq (h : Writes c call db .noGroup db') : stored db' = stored db := by
  cases h with
  | nothing => rfl
  | group groups hins => rfl

/-- The search ends without a row exactly where nothing fails before and no alias matches. -/
theorem exec_searchGroup_eq_none {b : Backend} {db : Db b} :
    (exec (searchGroup call) db).1 = .ok none ↔
      (∀ op ∈ [Operation.deriveKey, .connect, .loadGroup], call.env.fault op = none) ∧
        groupsLike call.groupAlias db = [] := by
  simp only [searchGroup, exec_bind, exec_tryCatch, Session.exec_attempt, exec_get, exec_answer,
    List.forall_mem_cons]
  cases call.env.fault .deriveKey with
  | some what => simp
  | none =>
    cases call.env.fault .connect with
    | some what => simp
    | none =>
      cases call.env.fault .loadGroup with
      | some what => cases what <;> simp [Operation.exn]
      | none =>
        by_cases hnil : groupsLike call.groupAlias db = []
        · have hload : ∃ what table condition, Group.load call.env.several call.groupAlias db =
            .error (.rowNotFoundException what table condition) := groupLoad_of_nil hnil
          obtain ⟨what, table, condition, hload⟩ := hload
          simp [hload, hnil]
        · cases hload : Group.load call.env.several call.groupAlias db with
          | ok g => simp [hload, hnil]
          | error e =>
            cases e with
            | rowNotFoundException what table condition => exact absurd (nil_of_groupLoad hload) hnil
            | _ => simp [hload, hnil]

variable {s' : SessionManager (.mysql q)}

/-- Searching and adding a group depend on the groups only. -/
theorem after_search_congr (cfg : Config) (call : Login) (hp : p = .missed ∨ p = .noGroup)
    (h : s'.db.groups = s.db.groups) :
    (after cfg call (s', p)).2 = (after cfg call (s, p)).2 ∧
      (after cfg call (s', p)).1.db.groups = (after cfg call (s, p)).1.db.groups := by
  rcases hp with rfl | rfl
  · rw [after_of_tables rfl, after_of_tables rfl, exec_searchGroup h,
      exec_searchGroup (rfl : s.db.groups = s.db.groups)]
    exact ⟨rfl, h⟩
  · rw [after_of_tables rfl, after_of_tables rfl]
    obtain ⟨hresult, hgroups⟩ := exec_addGroup_congr call h
    exact ⟨congrArg (leads .group) hresult, hgroups⟩

/-- They change nothing for any user. -/
theorem view_after_search (hp : p = .missed ∨ p = .noGroup) (name : String) :
    view (after cfg call (s, p)).1 name = view s name := by
  have hwrites := writes_after cfg call s p
  rcases hp with rfl | rfl <;> rw [after_of_tables rfl] at hwrites ⊢ <;> unfold view
  · rw [exec_searchGroup rfl]
  · rw [hwrites.stored_eq]

/-- They settle the group of the call, or its answer, or find no group. -/
theorem outcome_after_search (cfg : Config) (call : Login) (s : SessionManager (.mysql q))
    (hp : p = .missed ∨ p = .noGroup) (v : View) :
    (after cfg call (s, p)).2 = .noGroup ∨
      ∃ a r, v.outcome cfg call (after cfg call (s, p)).2 = some (a, r) := by
  rcases hp with rfl | rfl <;> rw [after_of_tables rfl]
  · rcases (exec (searchGroup call) s.db).1 with e | (_ | gid)
    · exact Or.inr ⟨_, _, rfl⟩
    · exact Or.inl rfl
    · exact Or.inr ⟨_, _, rfl⟩
  · cases (exec (addGroup call) s.db).1 <;> exact Or.inr ⟨_, _, rfl⟩

end Search

/-! ## Access to the cache -/

namespace View

variable (cfg : Config) (a : View) (name : String)

/-- The session an access finds. -/
def live : Option Session := a.slots.live cfg.validDuration a.now name

/-- The view after an access. -/
def touched : View := { a with slots := a.slots.touch cfg.validDuration a.now name }

end View

section Access

variable {b : Backend} (cfg : Config) (s : SessionManager b)

theorem live_view (name : String) : (view s name).live cfg name = s.live cfg name := live_spellings _

theorem view_touched (name : String) :
    view (s.touched cfg name) name = (view s name).touched cfg name := by
  unfold view SessionManager.touched View.touched ExpireCache.touch
  rw [spellings_update]
  simp only [live_spellings]

theorem view_touched_of_ne {name name' : String} (h : b.same name' name = false) :
    view (s.touched cfg name) name' = view s name' := by
  unfold view SessionManager.touched
  rw [spellings_of_ne h fun n hn => ExpireCache.touch_of_ne hn]

end Access

/-- The call has looked for a session and not yet answered. -/
def Phase.inFlight : Phase → Bool
  | .called | .answered _ => false
  | _ => true

/-- A call that is not in flight and has an outcome has answered. -/
theorem View.of_idle {cfg : Config} {call : Login} {v a : View} {p : Phase} {r : Except Exn String}
    (h : v.outcome cfg call p = some (a, r)) (hp : p.inFlight = false) : a = v ∧ p = .answered r := by
  cases p with
  | called => cases h
  | answered r' =>
    cases h
    exact ⟨rfl, rfl⟩
  | _ => cases hp

end GradidoConnector.LoginSteps
