import GradidoConnector.Accounts
import GradidoConnector.Backup

/-!
# `loginOrCreate` as an account store

The abstract store keeps, under a user name and a group alias, the call that created the account:
`creator` finds it among the calls so far, and `answer` says what a later call gets, which depends
on the creating call and the later call alone. `IsAccountStore` compares every call of a run with
it, and asks for one group row under each alias with exactly the users of the alias.

The calls are `Quiet`: no operation fails, the support key is configured and the private key can be
encrypted. `Crypto.Lawful` is what the store relies on in the authenticated encryption and in the
key pairs.

The group of a call is looked up with `LIKE`, so an alias with a wildcard finds the group of another
alias (`wildcard_alias`), and one with an escape character may miss its own. `AliasFound` says that
it finds its own group only. The columns compare exactly here.

Results:
* `resolvesGroup_of_quiet`: such a call finds or makes the group of its alias.
* `stores_step`: it answers like the store, and the tables keep mirroring it.
* **`accountStore_of_exact`**: every run of such calls is an account store.
-/

namespace GradidoConnector

open GradidoConnector.Base GradidoConnector.Base.Act

/-- Authenticated encryption of key pairs: the secret that encrypted a private key decrypts it, any
other one fails or yields the same, and a private key determines its pair. -/
structure Crypto.Lawful (c : Crypto) : Prop where
  decrypt_crypted : ∀ k secret enc, c.getCryptedPrivKey k secret = some enc →
    c.decrypt secret enc = some k.privateKey
  authentic : ∀ k secret enc secret' privateKey, c.getCryptedPrivKey k secret = some enc →
    c.decrypt secret' enc = some privateKey → privateKey = k.privateKey
  ofPrivateKey : ∀ passphrase,
    c.ofPrivateKey (c.ofPassphrase passphrase).privateKey = c.ofPassphrase passphrase

namespace Login

/-- No operation of the call fails, with the support key configured. -/
structure Quiet (c : Crypto) (call : Login) : Prop where
  fault : ∀ op, call.env.fault op = none
  supportKey : ∃ key, call.env.supportPublicKey = some key
  crypted : ∃ enc, c.getCryptedPrivKey (c.ofPassphrase call.env.passphrase) (call.secret c) = some enc

/-- The secret of the call decrypts the private key of the account `first` created. -/
def decrypts (c : Crypto) (first call : Login) : Bool :=
  ((c.getCryptedPrivKey (c.ofPassphrase first.env.passphrase) (first.secret c)).bind
    (c.decrypt (call.secret c))).isSome

end Login

namespace Backup

variable {q : Collation}

/-- Of the stored groups, the alias matches its own one and no other. -/
def AliasFound {b : Backend} (db : Db b) (groupAlias : String) : Prop :=
  ∀ g ∈ db.groups.rows, b.like groupAlias g.val.groupAlias = true ↔ g.val.groupAlias = groupAlias

instance {b : Backend} (db : Db b) (groupAlias : String) : Decidable (AliasFound db groupAlias) := by
  unfold AliasFound
  infer_instance

/-- The call among `h` that created the account: the first one for the name and the alias. -/
def creator (userName groupAlias : String) (h : List (Call (.mysql q))) : Option Login :=
  (h.map (·.input)).find? fun d => d.userName == userName && d.groupAlias == groupAlias

/-- What the store answers to a call on an account that `creator` found or did not find: the number
and the key pair of the session, or `none` for an exception. -/
def answer (c : Crypto) (call : Login) : Option Login → Option (Nat × KeyPair)
  | none => some (0, c.ofPassphrase call.env.passphrase)
  | some first =>
    if call.keyHashed c = first.keyHashed c ∧ Login.decrypts c first call = true then
      some (1, c.ofPassphrase first.env.passphrase)
    else none

/-- The call returned a session with this number and key pair, or threw. -/
def Returns (c : Crypto) (e : Call (.mysql q)) : Option (Nat × KeyPair) → Prop
  | some (n, k) => ∃ gid, e.output = .ok (n, e.input.session c gid k)
  | none => ∃ x, e.output = .error x

/-- Each alias of the calls has one group row, and under its id exactly the users of its calls. -/
def GroupsKept (h : List (Call (.mysql q))) (db : Db (.mysql q)) : Prop :=
  ∀ d ∈ h, ∃ g ∈ db.groups.rows,
    (∀ g' ∈ db.groups.rows, g'.val.groupAlias = d.input.groupAlias ↔ g' = g) ∧
    ∀ name, (∃ user ∈ db.users.rows, user.val.name = name ∧ user.val.groupId = g.id) ↔
      ∃ d' ∈ h, d'.input.userName = name ∧ d'.input.groupAlias = d.input.groupAlias

/-- Every call of the run answers like the store, and only the call that creates an account changes
the tables. -/
def IsAccountStore (c : Crypto) (run : List (Call (.mysql q))) : Prop :=
  ∀ h e, Occurs run h e →
    Returns c e (answer c e.input (creator e.input.userName e.input.groupAlias h)) ∧
    (creator e.input.userName e.input.groupAlias h ≠ none → e.after = e.before) ∧
    GroupsKept (h ++ [e]) e.after

/-! ## The group of a quiet call -/

section Group

variable {env : LoginEnv} {groupAlias : String} {db db' : Db (.mysql q)} {gid : Nat}

/-- **Where its own group is found, the group of an alias is found, or made.** -/
theorem resolvesGroup_of_quiet (hfault : ∀ op, env.fault op = none) (hfound : AliasFound db groupAlias)
    (hsame : ∀ g ∈ db.groups.rows, q.same g.val.groupAlias groupAlias = true →
      g.val.groupAlias = groupAlias) :
    ∃ gid db', Session.ResolvesGroup env groupAlias db gid db' := by
  cases hrows : groupsLike groupAlias db with
  | nil =>
    have hclash : ∀ r ∈ db.groups.rows,
        Group.clash (.mysql q) r.val ⟨groupAlias, groupAlias⟩ = false := by
      intro r hr
      refine Bool.eq_false_iff.mpr fun hclash => ?_
      have hmem : r ∈ groupsLike groupAlias db :=
        mem_groupsLike.mpr ⟨hr, (hfound r hr).mpr (hsame r hr hclash)⟩
      rw [hrows] at hmem
      exact absurd hmem List.not_mem_nil
    obtain ⟨groups, hins⟩ := Base.Table.exists_insert hclash
    exact ⟨_, _, .created groups (hfault _) hrows (hfault _) hins (hfault _) rfl⟩
  | cons g rest =>
    have hall : ∀ r ∈ groupsLike groupAlias db, r ∈ db.groups.rows ∧ r.val.groupAlias = groupAlias := by
      intro r hr
      obtain ⟨hmem, hlike⟩ := mem_groupsLike.mp hr
      exact ⟨hmem, (hfound r hmem).mp hlike⟩
    -- a second row would have the same alias and so be the first one again
    have hmem : g ∈ groupsLike groupAlias db := hrows ▸ List.mem_cons_self
    obtain ⟨hg, hga⟩ := hall g hmem
    have hone := Base.Table.select_eq_singleton hmem fun r hr =>
      Db.eq_of_groupAlias (hall r hr).1 hg ((hall r hr).2.trans hga.symm)
    refine ⟨g.id, db, .found g (hfault _) ?_⟩
    rw [groupsLike, hone]
    rfl

/-- A group that is stored is found, and nothing is made. -/
theorem resolves_stored (hfound : AliasFound db groupAlias) {g : Row Group}
    (hg : g ∈ db.groups.rows) (hga : g.val.groupAlias = groupAlias)
    (h : Session.ResolvesGroup env groupAlias db gid db') : gid = g.id ∧ db' = db := by
  cases h with
  | found g' _ hd =>
    obtain ⟨hg', hlike⟩ := mem_groupsLike.mp (mem_of_deliver hd)
    have heq : g' = g := Db.eq_of_groupAlias hg' hg (((hfound g' hg').mp hlike).trans hga.symm)
    exact ⟨by rw [heq], rfl⟩
  | created groups _ hnone =>
    have hmem : g ∈ groupsLike groupAlias db := mem_groupsLike.mpr ⟨hg, (hfound g hg).mpr hga⟩
    rw [hnone] at hmem
    exact absurd hmem List.not_mem_nil

end Group

/-! ## The invariant -/

/-- `row` is what the call `first` stored. -/
def Holds (c : Crypto) (first : Login) (row : Row User) : Prop :=
  ∃ gid enc,
    c.getCryptedPrivKey (c.ofPassphrase first.env.passphrase) (first.secret c) = some enc ∧
      row.val = Session.newUser c first.env first.userName gid (first.secret c) enc

/-- The tables after the calls `h`: a group for each alias, for each account the row its creating
call stored, and no other rows. -/
structure Stores (c : Crypto) (h : List (Call (.mysql q))) (db : Db (.mysql q)) : Prop where
  group : ∀ d ∈ h, ∃ g ∈ db.groups.rows, g.val.groupAlias = d.input.groupAlias
  account : ∀ userName groupAlias first, creator userName groupAlias h = some first →
    ∃ row, IsAccount db userName groupAlias row ∧ Holds c first row
  user : ∀ row ∈ db.users.rows, ∃ d ∈ h, IsAccount db d.input.userName d.input.groupAlias row

section Creator

variable {userName groupAlias : String} {h : List (Call (.mysql q))} {e : Call (.mysql q)}

theorem creator_ne_none {d : Call (.mysql q)} (hd : d ∈ h) (hn : d.input.userName = userName)
    (ha : d.input.groupAlias = groupAlias) : creator userName groupAlias h ≠ none := by
  intro hnone
  rw [creator, List.find?_eq_none] at hnone
  exact hnone _ (List.mem_map_of_mem hd) (by simp [hn, ha])

theorem of_creator {first : Login} (hc : creator userName groupAlias h = some first) :
    ∃ d ∈ h, d.input = first ∧ first.userName = userName ∧ first.groupAlias = groupAlias := by
  obtain ⟨d, hd, hin⟩ := List.mem_map.mp (List.mem_of_find?_eq_some hc)
  have hkey := List.find?_some hc
  rw [Bool.and_eq_true, beq_iff_eq, beq_iff_eq] at hkey
  exact ⟨d, hd, hin, hkey⟩

/-- A later call creates an account only where there is none. -/
theorem creator_append (userName groupAlias : String) (h : List (Call (.mysql q))) (e : Call (.mysql q)) :
    creator userName groupAlias (h ++ [e]) = creator userName groupAlias h ∨
      (creator userName groupAlias h = none ∧
        creator userName groupAlias (h ++ [e]) = some e.input ∧
        e.input.userName = userName ∧ e.input.groupAlias = groupAlias) := by
  unfold creator
  rw [List.map_append, List.find?_append]
  cases hc : (h.map (·.input)).find? fun d => d.userName == userName && d.groupAlias == groupAlias with
  | some first => exact Or.inl rfl
  | none =>
    by_cases hkey : e.input.userName = userName ∧ e.input.groupAlias = groupAlias
    · exact Or.inr ⟨rfl, by simp [hkey.1, hkey.2], hkey⟩
    · refine Or.inl ?_
      rw [not_and] at hkey
      simpa using hkey

end Creator

/-! ## One call -/

section Step

variable {c : Crypto} {h : List (Call (.mysql q))} {db db' : Db (.mysql q)} {call : Login} {gid : Nat}

/-- The user row of a stored account is checked as the store says. -/
theorem exec_checkStoredUser (call : Login) (hc : c.Lawful) {first : Login} {user : User}
    {enc : Bytes} (hcrypted : c.getCryptedPrivKey (c.ofPassphrase first.env.passphrase)
      (first.secret c) = some enc)
    (huser : user = Session.newUser c first.env first.userName gid (first.secret c) enc)
    (db : Db (.mysql q)) :
    (∃ k, answer c call (some first) = some (1, k) ∧
      exec (Session.checkStoredUser c (Login.opening c call gid) (call.secret c) call.userName
        call.userPassword user) db = (.ok (1, call.session c gid k), db)) ∨
    ∃ x, answer c call (some first) = none ∧
      exec (Session.checkStoredUser c (Login.opening c call gid) (call.secret c) call.userName
        call.userPassword user) db = (.error x, db) := by
  have hpw : user.password = first.keyHashed c := by rw [huser]; rfl
  have henc : user.encryptedPrivateKey = enc := by rw [huser]; rfl
  have hpk : user.publicKey = (c.ofPassphrase first.env.passphrase).publicKey := by rw [huser]; rfl
  have hanswer : answer c call (some first) =
      if call.keyHashed c = first.keyHashed c ∧ (c.decrypt (call.secret c) enc).isSome = true then
        some (1, c.ofPassphrase first.env.passphrase)
      else none := by
    rw [answer, Login.decrypts, hcrypted]
    rfl
  rw [hanswer]
  unfold Session.checkStoredUser
  rw [hpw, henc, hpk, ← Login.keyHashed]
  by_cases hhash : call.keyHashed c = first.keyHashed c
  · rw [if_neg (not_not.mpr hhash.symm)]
    cases hdec : c.decrypt (call.secret c) enc with
    | none => exact Or.inr ⟨_, if_neg (by simp), rfl⟩
    | some privateKey =>
      have hkey : c.ofPrivateKey privateKey = c.ofPassphrase first.env.passphrase := by
        rw [hc.authentic _ _ _ _ _ hcrypted hdec, hc.ofPrivateKey]
      refine Or.inl ⟨_, if_pos ⟨hhash, rfl⟩, ?_⟩
      simp only [hkey]
      rw [if_neg (not_not.mpr rfl)]
      rfl
  · rw [if_pos fun heq => hhash heq.symm]
    exact Or.inr ⟨_, if_neg fun hboth => hhash hboth.1, rfl⟩

/-- A call on a stored account changes nothing and answers like the store. -/
theorem step_stored (hq : q.Exact) (hc : c.Lawful) (hquiet : call.Quiet c)
    (hfound : AliasFound db call.groupAlias) {first : Login} {row : Row User}
    (hrow : IsAccount db call.userName call.groupAlias row) (hholds : Holds c first row) :
    Returns c (entryOf (step c) db call) (answer c call (some first)) ∧
      (entryOf (step c) db call).after = db := by
  obtain ⟨gid, db', hgroup⟩ := resolvesGroup_of_quiet hquiet.fault hfound fun _ _ => hq _ _
  obtain ⟨hmem, hname, g, hg, hga, hid⟩ := hrow
  obtain ⟨rfl, rfl⟩ := resolves_stored hfound hg hga hgroup
  have hselected : row ∈ usersNamed call.userName g.id db' :=
    mem_usersNamed.mpr ⟨hmem, hname ▸ q.same_refl _, hid⟩
  have hexec := Login.exec_of_resolves (c := c) (hquiet.fault _) (hquiet.fault _) hgroup
    (hquiet.fault _)
  rw [head?_usersNamed hselected] at hexec
  obtain ⟨gid, enc, hcrypted, hval⟩ := hholds
  have hgid : gid = g.id := by
    rw [← hid, hval]
    rfl
  subst hgid
  rcases exec_checkStoredUser call hc hcrypted hval db' with
    ⟨k, hanswer, hcheck⟩ | ⟨x, hanswer, hcheck⟩
  · have hstep := hexec.trans hcheck
    rw [hanswer]
    exact ⟨⟨_, congrArg Prod.fst hstep⟩, congrArg Prod.snd hstep⟩
  · have hstep := hexec.trans hcheck
    rw [hanswer]
    exact ⟨⟨_, congrArg Prod.fst hstep⟩, congrArg Prod.snd hstep⟩

/-- A call without a stored account creates it. -/
theorem step_unknown (hquiet : call.Quiet c)
    (hgroup : Session.ResolvesGroup call.env call.groupAlias db gid db')
    (hunknown : usersNamed call.userName gid db' = []) :
    ∃ enc users,
      c.getCryptedPrivKey (c.ofPassphrase call.env.passphrase) (call.secret c) = some enc ∧
      db'.users.insert (Session.newUser c call.env call.userName gid (call.secret c) enc) = some users ∧
      (entryOf (step c) db call).output =
        .ok (0, call.session c gid (c.ofPassphrase call.env.passphrase)) ∧
      (entryOf (step c) db call).after.users = users ∧
      (entryOf (step c) db call).after.groups = db'.groups := by
  obtain ⟨enc, hcrypted⟩ := hquiet.crypted
  obtain ⟨key, hkey⟩ := hquiet.supportKey
  have hclash : ∀ r ∈ db'.users.rows, User.clash (.mysql q) r.val
      (Session.newUser c call.env call.userName gid (call.secret c) enc) = false := by
    intro r hr
    by_contra hclash
    rw [Bool.not_eq_false, User.clash, Bool.and_eq_true, beq_iff_eq] at hclash
    have hmem : r ∈ usersNamed call.userName gid db' := mem_usersNamed.mpr ⟨hr, hclash⟩
    rw [hunknown] at hmem
    exact absurd hmem List.not_mem_nil
  obtain ⟨users, hins⟩ := Base.Table.exists_insert hclash
  have hbackup : Session.BackupSucceeds (.mysql q) call.env key :=
    ⟨rfl, hquiet.fault _, hkey, hquiet.fault _, hquiet.fault _⟩
  have hcreates : ∃ backups, db'.backups.insert
      ⟨db'.users.next, 0, c.sealFor key call.env.passphrase⟩ = some backups ∧
      exec (Session.createNewUser c call.env (Login.opening c call gid) (call.secret c)
        call.userName) db' = (.ok { Login.opening c call gid with
          mUserKeyPair := some (c.ofPassphrase call.env.passphrase) },
          { db' with users, backups, lastInsertId := db'.backups.next }) :=
    Session.exec_createNewUser_of_backup hcrypted (hquiet.fault _) hins hbackup
  obtain ⟨backups, -, hcreate⟩ := hcreates
  have hexec := Login.exec_of_resolves (c := c) (hquiet.fault _) (hquiet.fault _) hgroup
    (hquiet.fault _)
  rw [hunknown] at hexec
  simp only [List.head?_nil, exec_bind, hcreate] at hexec
  exact ⟨enc, users, hcrypted, hins, congrArg Prod.fst hexec,
    congrArg (fun r => r.2.users) hexec, congrArg (fun r => r.2.groups) hexec⟩

/-- A row of the tables under the id of a group belongs to a call for the alias of the group. -/
theorem Stores.of_row (hinv : Stores c h db) {g : Row Group} (hg : g ∈ db.groups.rows)
    {row : Row User} (hrow : row ∈ db.users.rows) (hid : row.val.groupId = g.id) :
    ∃ d ∈ h, d.input.userName = row.val.name ∧ d.input.groupAlias = g.val.groupAlias := by
  obtain ⟨d, hd, -, hname, g', hg', ha', hid'⟩ := hinv.user row hrow
  have heq : g' = g := Base.Table.eq_of_id hg' hg (hid'.symm.trans hid)
  exact ⟨d, hd, hname.symm, by rw [← ha', heq]⟩

/-- The invariant is what `GroupsKept` asks for. -/
theorem Stores.groupsKept (hinv : Stores c h db) : GroupsKept h db := by
  intro d hd
  obtain ⟨g, hg, hga⟩ := hinv.group d hd
  refine ⟨g, hg, fun g' hg' => ⟨fun ha => Db.eq_of_groupAlias hg' hg (ha.trans hga.symm), ?_⟩,
    fun name => ⟨?_, ?_⟩⟩
  · rintro rfl
    exact hga
  · rintro ⟨user, huser, rfl, hid⟩
    obtain ⟨d', hd', hn, ha⟩ := hinv.of_row hg huser hid
    exact ⟨d', hd', hn, ha.trans hga⟩
  · rintro ⟨d', hd', rfl, ha⟩
    obtain ⟨first, hfirst⟩ := Option.ne_none_iff_exists'.mp (creator_ne_none hd' rfl ha)
    obtain ⟨row, ⟨hrow, hn, g', hg', hga', hid⟩, -⟩ := hinv.account _ _ first hfirst
    have heq : g' = g := Db.eq_of_groupAlias hg' hg (hga'.trans hga.symm)
    exact ⟨row, hrow, hn, by rw [hid, heq]⟩

/-- A call that changes nothing keeps the tables mirroring the store. -/
theorem Stores.of_stored (hinv : Stores c h db) {e : Call (.mysql q)} (hafter : e.after = db)
    (hcreator : creator e.input.userName e.input.groupAlias h ≠ none) :
    Stores c (h ++ [e]) e.after := by
  rw [hafter]
  refine ⟨fun d hd => ?_, fun u a first hfirst => ?_, fun row hrow => ?_⟩
  · rcases List.mem_append.mp hd with hd | hd
    · exact hinv.group d hd
    · rw [List.mem_singleton.mp hd]
      obtain ⟨first, hfirst⟩ := Option.ne_none_iff_exists'.mp hcreator
      obtain ⟨d', hd', rfl, -, ha⟩ := of_creator hfirst
      rw [← ha]
      exact hinv.group d' hd'
  · rcases creator_append u a h e with hsame | ⟨hnone, -, rfl, rfl⟩
    · exact hinv.account u a first (hsame ▸ hfirst)
    · exact absurd hnone hcreator
  · obtain ⟨d, hd, hacc⟩ := hinv.user row hrow
    exact ⟨d, List.mem_append_left _ hd, hacc⟩

/-- A call that creates its account keeps the tables mirroring the store. -/
theorem Stores.of_created (hinv : Stores c h db) {e : Call (.mysql q)} {g : Row Group} {enc : Bytes}
    {row : Row User} (hgrows : db.Grows e.after)
    (hg : g ∈ e.after.groups.rows) (hga : g.val.groupAlias = e.input.groupAlias)
    (hcrypted : c.getCryptedPrivKey (c.ofPassphrase e.input.env.passphrase)
      (e.input.secret c) = some enc)
    (hval : row.val = Session.newUser c e.input.env e.input.userName g.id (e.input.secret c) enc)
    (husers : ∀ r, r ∈ e.after.users.rows ↔ r ∈ db.users.rows ∨ r = row) :
    Stores c (h ++ [e]) e.after := by
  have hacc : IsAccount e.after e.input.userName e.input.groupAlias row :=
    ⟨(husers row).mpr (Or.inr rfl), by rw [hval]; rfl, g, hg, hga, by rw [hval]; rfl⟩
  refine ⟨fun d hd => ?_, fun u a first hfirst => ?_, fun r hr => ?_⟩
  · rcases List.mem_append.mp hd with hd | hd
    · obtain ⟨g', hg', ha'⟩ := hinv.group d hd
      exact ⟨g', hgrows.groups g' hg', ha'⟩
    · rw [List.mem_singleton.mp hd]
      exact ⟨g, hg, hga⟩
  · rcases creator_append u a h e with hsame | ⟨-, hnew, rfl, rfl⟩
    · obtain ⟨r, hr, hholds⟩ := hinv.account u a first (hsame ▸ hfirst)
      exact ⟨r, hr.grows hgrows, hholds⟩
    · rw [hnew] at hfirst
      cases hfirst
      exact ⟨row, hacc, g.id, enc, hcrypted, hval⟩
  · rcases (husers r).mp hr with hold | rfl
    · obtain ⟨d, hd, hacc'⟩ := hinv.user r hold
      exact ⟨d, List.mem_append_left _ hd, hacc'.grows hgrows⟩
    · exact ⟨e, List.mem_append_right _ List.mem_cons_self, hacc⟩

/-- **A quiet call whose alias finds its own group answers like the store**, changes the tables only
to create the account, and keeps them mirroring the store. -/
theorem stores_step (hq : q.Exact) (hc : c.Lawful) (hinv : Stores c h db) (hquiet : call.Quiet c)
    (hfound : AliasFound db call.groupAlias) :
    Returns c (entryOf (step c) db call) (answer c call (creator call.userName call.groupAlias h)) ∧
      (creator call.userName call.groupAlias h ≠ none → (entryOf (step c) db call).after = db) ∧
      Stores c (h ++ [entryOf (step c) db call]) (entryOf (step c) db call).after := by
  cases hcreator : creator call.userName call.groupAlias h with
  | some first =>
    obtain ⟨row, hrow, hholds⟩ := hinv.account _ _ first hcreator
    obtain ⟨hreturns, hafter⟩ := step_stored hq hc hquiet hfound hrow hholds
    refine ⟨hreturns, fun _ => hafter, hinv.of_stored hafter ?_⟩
    exact fun hnone => Option.some_ne_none first (hcreator.symm.trans hnone)
  | none =>
    obtain ⟨gid, db', hgroup⟩ := resolvesGroup_of_quiet hquiet.fault hfound fun _ _ => hq _ _
    obtain ⟨g, hg, rfl, hga⟩ := hgroup.exact fun g hg => (hfound g hg).mp
    have hadded := hgroup.groupAdded
    -- a row of the name in the group would belong to an earlier call for the account
    have hunknown : usersNamed call.userName g.id db' = [] := by
      refine List.eq_nil_iff_forall_not_mem.mpr fun row hrow => ?_
      obtain ⟨hmem, hname, hid⟩ := mem_usersNamed.mp hrow
      rw [hadded.users] at hmem
      obtain ⟨d, hd, -, hdn, g', hg', hga', hid'⟩ := hinv.user row hmem
      have heq : g' = g :=
        Base.Table.eq_of_id (hadded.grows.groups g' hg') hg (hid'.symm.trans hid)
      refine creator_ne_none hd (hdn.symm.trans (hq _ _ hname)) ?_ hcreator
      rw [← hga', heq, hga]
    obtain ⟨enc, users, hcrypted, hins, hout, hafter, hgroups⟩ :=
      step_unknown (c := c) hquiet hgroup hunknown
    refine ⟨⟨_, hout⟩, fun hne => absurd rfl hne, ?_⟩
    have husers : ∀ r, r ∈ (entryOf (step c) db call).after.users.rows ↔ r ∈ db.users.rows ∨
        r = ⟨db'.users.next,
          Session.newUser c call.env call.userName g.id (call.secret c) enc⟩ := by
      intro r
      rw [hafter, Table.mem_insert hins, hadded.users]
    exact hinv.of_created (Login.outcome c call db).grows (by rwa [hgroups]) hga hcrypted rfl husers

end Step

/-! ## Runs -/

/-- **Every run of quiet calls whose aliases find their own groups is an account store.** -/
theorem accountStore_of_exact (hq : q.Exact) (c : Crypto) (hc : c.Lawful) (calls : List Login)
    (hquiet : ∀ call ∈ calls, call.Quiet c)
    (hfound : ∀ h e, Occurs (runs c (.mysql q) calls) h e →
      AliasFound e.before e.input.groupAlias) :
    IsAccountStore c (runs c (.mysql q) calls) := by
  have hinv : ∀ {h e}, Occurs (runs c (.mysql q) calls) h e → Stores c h e.before :=
    occurs_invariant (I := Stores c)
      (C := fun _ e => e.input.Quiet c ∧ AliasFound e.before e.input.groupAlias)
      ⟨nofun, fun _ _ _ h => (Option.some_ne_none _ h.symm).elim, fun _ hr => absurd hr List.not_mem_nil⟩
      (fun _ _ _ hinv hguard => (stores_step hq hc hinv hguard.1 hguard.2).2.2)
      fun h e ho => ⟨hquiet _ (input_mem ho), hfound h e ho⟩
  intro h e ho
  have hstep := stores_step hq hc (hinv ho) (hquiet _ (input_mem ho)) (hfound h e ho)
  rw [← occurs_spec ho] at hstep
  exact ⟨hstep.1, hstep.2.1, hstep.2.2.groupsKept⟩

/-! ## An alias with a wildcard -/

theorem plainCrypto_lawful : plainCrypto.Lawful := by
  refine ⟨?_, ?_, fun passphrase => ?_⟩
  · rintro k secret enc h
    cases h
    rfl
  · rintro k secret enc secret' privateKey h hdec
    cases h
    cases hdec
    rfl
  · rfl

/-- `alice` logs in to a group. -/
def aliceIn (groupAlias passphrase : String) : Login :=
  ⟨"alice", "secret", groupAlias, "10.0.0.1", quietEnv passphrase⟩

theorem quiet_aliceIn (groupAlias passphrase : String) :
    (aliceIn groupAlias passphrase).Quiet plainCrypto :=
  ⟨fun _ => rfl, ⟨_, rfl⟩, ⟨_, rfl⟩⟩

/-- Two aliases, the first one again with another passphrase at hand. -/
theorem accountStore_aliceTwice :
    IsAccountStore plainCrypto (runs plainCrypto (.mysql .binary)
      [aliceIn "gdd" "passphrase", aliceIn "gdd2" "passphrase2", aliceIn "gdd" "passphrase3"]) := by
  refine accountStore_of_exact Collation.exact_binary plainCrypto plainCrypto_lawful _
    (by simp [quiet_aliceIn]) fun h e ho => ?_
  have hfound : ∀ e ∈ runs plainCrypto (.mysql .binary) [aliceIn "gdd" "passphrase",
      aliceIn "gdd2" "passphrase2", aliceIn "gdd" "passphrase3"],
      AliasFound e.before e.input.groupAlias := by decide
  exact hfound e ho.mem

/-- **An alias with a wildcard finds the group of another alias**: the first call for the alias
`g_d` logs in to the account of the alias `gdd`. -/
theorem wildcard_alias :
    (∀ call ∈ [aliceIn "gdd" "passphrase", aliceIn "g_d" "passphrase"], call.Quiet plainCrypto) ∧
    (runs plainCrypto (.mysql .binary) [aliceIn "gdd" "passphrase", aliceIn "g_d" "passphrase"]).map
      (·.output.toOption.map (·.1)) = [some 0, some 1] ∧
    ¬ IsAccountStore plainCrypto
      (runs plainCrypto (.mysql .binary) [aliceIn "gdd" "passphrase", aliceIn "g_d" "passphrase"]) := by
  refine ⟨by simp [quiet_aliceIn], by decide, fun hstore => ?_⟩
  let first : Call (.mysql .binary) := entryOf (step plainCrypto) .empty (aliceIn "gdd" "passphrase")
  let second : Call (.mysql .binary) := entryOf (step plainCrypto) first.after (aliceIn "g_d" "passphrase")
  obtain ⟨⟨gid, hout⟩, -⟩ := hstore [first] second ⟨[], rfl⟩
  have hone : second.output.toOption.map (·.1) = some 1 := by decide
  rw [hout] at hone
  exact absurd (Option.some.inj hone) Nat.zero_ne_one

end Backup

end GradidoConnector
