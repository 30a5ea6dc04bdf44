import GradidoConnector.Session

/-!
# Accounts

An account is a user row together with the group row its `group_id` names. The keys of the two
tables make it a function of the user name and the group alias (`IsAccount.unique`), and it stays
what it is while the tables grow (`IsAccount.grows`).

`Group::load` finds the group of a session with `LIKE`, and the select of the user compares the
names with `=`, both as the columns are collated. `AccountExact` says that what they find for a name
and an alias is of that very name and alias.

Result: **`Login.Outcome.account`**, where it is, `loginOrCreate` returns a session with the key
pair and the password hash of the account it was asked for.
-/

namespace GradidoConnector

open GradidoConnector.Base

variable {b : Backend} {db db' : Db b} {userName groupAlias : String}

/-- `row` is the user row of the account `(userName, groupAlias)`. -/
def IsAccount (db : Db b) (userName groupAlias : String) (row : Row User) : Prop :=
  row ∈ db.users.rows ∧ row.val.name = userName ∧
    ∃ g ∈ db.groups.rows, g.val.groupAlias = groupAlias ∧ row.val.groupId = g.id

instance (row : Row User) : Decidable (IsAccount db userName groupAlias row) := by
  unfold IsAccount
  infer_instance

/-- The alias, as a pattern, matches no group but its own. -/
def AliasExact (db : Db b) (groupAlias : String) : Prop :=
  ∀ g ∈ db.groups.rows, b.like groupAlias g.val.groupAlias = true → g.val.groupAlias = groupAlias

instance : Decidable (AliasExact db groupAlias) := by unfold AliasExact; infer_instance

/-- The users that `=` takes for one of the name, but for those in groups the alias does not match,
have that very name. -/
def NameExact (db : Db b) (userName groupAlias : String) : Prop :=
  ∀ u ∈ db.users.rows, b.same u.val.name userName = true →
    (∀ g ∈ db.groups.rows, g.id = u.val.groupId → b.like groupAlias g.val.groupAlias = true) →
    u.val.name = userName

instance : Decidable (NameExact db userName groupAlias) := by unfold NameExact; infer_instance

/-- What the database finds for a name and an alias is spelled as they are. -/
structure AccountExact (db : Db b) (userName groupAlias : String) : Prop where
  group : AliasExact db groupAlias
  user : NameExact db userName groupAlias

instance : Decidable (AccountExact db userName groupAlias) :=
  decidable_of_iff (AliasExact db groupAlias ∧ NameExact db userName groupAlias)
    ⟨fun h => ⟨h.1, h.2⟩, fun h => ⟨h.1, h.2⟩⟩

/-- An account has one row. -/
theorem IsAccount.unique {row row' : Row User} (h : IsAccount db userName groupAlias row)
    (h' : IsAccount db userName groupAlias row') : row = row' := by
  obtain ⟨hrow, hn, g, hg, ha, hid⟩ := h
  obtain ⟨hrow', hn', g', hg', ha', hid'⟩ := h'
  have hgg : g = g' := Db.eq_of_groupAlias hg hg' (ha.trans ha'.symm)
  subst hgg
  exact Db.eq_of_name_groupId hrow hrow' (hn.trans hn'.symm) (hid.trans hid'.symm)

/-- An account stays one. -/
theorem IsAccount.grows {row : Row User} (h : IsAccount db userName groupAlias row)
    (hgrow : db.Grows db') : IsAccount db' userName groupAlias row := by
  obtain ⟨hrow, hn, g, hg, ha, hid⟩ := h
  exact ⟨hgrow.users row hrow, hn, g, hgrow.groups g hg, ha, hid⟩

variable {c : Crypto} {call : Login}

/-- For an exact alias, the group of a call has that alias. -/
theorem Session.ResolvesGroup.exact {env : LoginEnv} {gid : Nat}
    (h : Session.ResolvesGroup env groupAlias db gid db') (hexact : AliasExact db groupAlias) :
    ∃ g ∈ db'.groups.rows, g.id = gid ∧ g.val.groupAlias = groupAlias := by
  obtain ⟨g, hg, hid, ⟨hold, hlike⟩ | halias⟩ := h.mem
  · exact ⟨g, hg, hid, hexact g hold hlike⟩
  · exact ⟨g, hg, hid, halias⟩

/-- **Where the names are exact, `loginOrCreate` returns a session of the account it
was asked for.** -/
theorem Login.Outcome.account {n : Nat} {s : Session} (h : call.Outcome c db (.ok (n, s)) db')
    (hexact : AccountExact db call.userName call.groupAlias) :
    s.mGroupAlias = call.groupAlias ∧ s.mClientIp = call.clientIp ∧
      s.mEncryptionSecret = some (call.secret c) ∧
      ∃ row, IsAccount db' call.userName call.groupAlias row ∧
        row.val.password = call.keyHashed c ∧ s.getPublicKey = some row.val.publicKey := by
  cases h with
  | loggedIn gid db' user privateKey hgroup huser hpw hk =>
    obtain ⟨hmem, hsame, hrg⟩ := mem_usersNamed.mp huser
    obtain ⟨g, hg, hid, halias⟩ := hgroup.exact hexact.group
    have hold : user ∈ db.users.rows := by rwa [← hgroup.groupAdded.users]
    have hname := hexact.user user hold hsame fun g' hg' hid' => hgroup.like hg' (hid'.trans hrg)
    exact ⟨rfl, rfl, rfl, user, ⟨hmem, hname, g, hg, halias, hrg.trans hid.symm⟩, hpw,
      congrArg some hk⟩
  | created gid db' enc key users backups hins hbackup hsave =>
    obtain ⟨g, hg, hid, halias⟩ := hins.group.exact hexact.group
    exact ⟨rfl, rfl, rfl, _, ⟨(Table.mem_insert hins.insert).mpr (Or.inr rfl), rfl, g, hg, halias,
      hid.symm⟩, rfl, rfl⟩

end GradidoConnector
