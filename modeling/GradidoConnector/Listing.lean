import GradidoConnector.NodeAnswers
import GradidoConnector.UserNames

/-!
# What a listing changes

`JsonListTransactions` takes the key out of the linked user of each transaction, enters the name
from the database and decrypts the memo. All else is to stay as the Gradido Node sent it.

* The members of an object are a collection without order, since `RemoveMember` does not keep one.
* `ListedAs` says what is to become of a transaction: the linked user is `ListsUser`, and the memo
  is the text that `Clears` names, if there is one.
* `Regular` is the transaction for which the code does so. Its members that are read or replaced
  occur once; the name of the key's user is entered (`Renames`), or was there before; no text ends
  early at a zero character.

Results:
* `replaceUser_iff`, `replaceMemo_iff`: the same for the linked user and for the memo.
* **`enrich_lists_iff`**: a transaction is listed as it should be exactly if it is `Regular`.
* **`listing_iff`**: a list is exactly if each of its transactions is, and one of them has a key.
-/

namespace GradidoConnector

open GradidoConnector.Base GradidoConnector.Base.Act

namespace JsonListTransactions

open JsonTransaction

variable {b : Backend} {lib : Library} {privateKey : Bytes} {db : Db b} {keys : List String}
variable {members user user' : Members Json} {transaction listed : Json} {key : String}
variable {typeId : Option Json}

/-! ## What is to be listed -/

/-- A transaction with the members, whose linked user has the key. -/
structure Linked (transaction : Json) (members user : Members Json) (key : String) : Prop where
  eq_obj : transaction = .obj members
  lookup_linkedUser : members.lookup "linkedUser" = some (.obj user)
  lookup_pubkey : user.lookup "pubkey" = some (.str key)

/-- The memo is base64, and with the two keys it is decrypted to the text, which is not empty. -/
structure Decrypts (lib : Library) (privateKey : Bytes) (key memo text : String) : Prop where
  isBase64 : isBase64 memo = true
  decrypt : ∃ pubkey, lib.hexToBin key = some pubkey ∧
    decryptMemo lib memo pubkey privateKey = .ok text
  ne_empty : text ≠ ""

/-- The text of the memo of a transaction with a type. -/
def Clears (lib : Library) (privateKey : Bytes) (key : String) (members : Members Json)
    (text : String) : Prop :=
  members.lookup "typeId" ≠ none ∧
    ∃ memo, members.lookup "memo" = some (.str memo) ∧ Decrypts lib privateKey key memo text

/-- The linked user keeps the name that the node sent. -/
def Keeps (db : Db b) (typeId : Option Json) (key : String) : Prop :=
  typeId = some (.str "CREATE") ∨ ¬ ∃ name, NameOf db key name

/-- The linked user without its key, and with the name of the key's user where it does not
keep its own. -/
structure ListsUser (db : Db b) (typeId : Option Json) (key : String)
    (user user' : Members Json) : Prop where
  keeps : Keeps db typeId key → user'.Perm (Members.without "pubkey" user)
  renames : ¬ Keeps db typeId key → ∃ name, NameOf db key name ∧
    user'.Perm (Members.assign "firstName" (.str name) (Members.without "pubkey" user))

/-- The transaction with its linked user and its memo as they are to be listed, and with
all other members. -/
structure ListsMembers (lib : Library) (privateKey : Bytes) (db : Db b) (key : String)
    (members user members' user' : Members Json) : Prop where
  user : ListsUser db (members.lookup "typeId") key user user'
  clears : ∀ text, Clears lib privateKey key members text →
    members'.Perm (Members.assign "memo" (.str text) (Members.assign "linkedUser" (.obj user') members))
  keeps : (¬ ∃ text, Clears lib privateKey key members text) →
    members'.Perm (Members.assign "linkedUser" (.obj user') members)

/-- What is to become of a transaction. -/
def ListedAs (lib : Library) (privateKey : Bytes) (db : Db b) (transaction listed : Json) : Prop :=
  ∃ members user key members' user', Linked transaction members user key ∧
    listed = .obj members' ∧ ListsMembers lib privateKey db key members user members' user'

/-! ## When the code lists it -/

/-- The code enters the name of the key's user. -/
structure Renames (db : Db b) (keys : List String) (typeId : Option Json) (key : String) : Prop where
  listed : key ∈ keys
  spelled : Spelled b keys key
  known : ∃ name, NameOf db key name
  type : ∀ s, typeId = some (.str s) → cString s ≠ "CREATE"

/-- The name to be listed is entered by the code as a whole, or stands there already. -/
structure Named (db : Db b) (keys : List String) (typeId : Option Json) (key : String)
    (user : Members Json) : Prop where
  entered : Renames db keys typeId key → Members.count "firstName" user ≤ 1 ∧
    ∃ owner, (owners key db).head? = some owner ∧ NameOf db key (cString owner.val.name)
  present : ¬ Renames db keys typeId key → ∃ name, NameOf db key name ∧
    (user.filter fun m => m.1 == "firstName") = [("firstName", .str name)]

/-- The memo that the code decrypts is the only one, and neither it nor its text ends early. -/
def MemoWhole (lib : Library) (privateKey : Bytes) (key : String) (members : Members Json) : Prop :=
  members.lookup "typeId" ≠ none → ∀ memo text, members.lookup "memo" = some (.str memo) →
    Decrypts lib privateKey key (cString memo) text →
    Members.count "memo" members ≤ 1 ∧ cString memo = memo ∧ cString text = text

/-- A transaction that the code lists as it should. -/
structure Regular (lib : Library) (privateKey : Bytes) (db : Db b) (keys : List String)
    (members user : Members Json) (key : String) : Prop where
  linkedUser : Members.count "linkedUser" members ≤ 1
  pubkey : Members.count "pubkey" user ≤ 1
  readable : ∀ typeId, members.lookup "typeId" = some typeId →
    (key ∈ keys ∧ Spelled b keys key ∧ (∃ name, NameOf db key name) → typeId.IsString) ∧
    ∀ memo, members.lookup "memo" = some memo → typeId.IsString ∧
      ∃ text, memo = .str text ∧ MemoReadable lib key (cString text)
  named : ¬ Keeps db (members.lookup "typeId") key →
    Named db keys (members.lookup "typeId") key user
  memo : MemoWhole lib privateKey key members

/-- The keys of the linked users. -/
def keysOf (transactions : List Json) : List String :=
  (transactions.filterMap fun transaction => (linkedPubkey transaction).toOption).filter (· ≠ "")

/-! ## The linked user -/

section User

/-- A linked user whose name is entered. -/
theorem replaceUser_of_entered {userName : String} {r : Json}
    (htype : ∀ s, typeId = some (.str s) → cString s ≠ "CREATE")
    (h : replaceUser (some userName) typeId (.obj user) = .ok r) :
    r = .obj (Members.remove "firstName" (Members.remove "pubkey" user) ++
      [("firstName", .str (cString userName))]) := by
  obtain ⟨_, hremove, h⟩ := bind_eq_ok.mp h
  cases hremove
  obtain ⟨swap, hswap, h⟩ := bind_eq_ok.mp h
  have hyes : swap = true := by
    cases typeId with
    | none =>
      cases hswap
      rfl
    | some value =>
      obtain ⟨s, hs, hswap⟩ := bind_eq_ok.mp hswap
      obtain ⟨text, rfl⟩ := (Json.reads_getString.ok_iff value).mp ⟨s, hs⟩
      cases hs
      cases hswap
      exact bne_iff_ne.mpr (htype _ rfl)
  rw [if_pos hyes] at h
  cases h
  rfl

/-- A linked user whose name stays. -/
theorem replaceUser_of_kept {userName : Option String} {r : Json}
    (hkept : userName = none ∨ ∃ s, typeId = some (.str s) ∧ cString s = "CREATE")
    (h : replaceUser userName typeId (.obj user) = .ok r) :
    r = .obj (Members.remove "pubkey" user) := by
  obtain ⟨_, hremove, h⟩ := bind_eq_ok.mp h
  cases hremove
  cases userName with
  | none =>
    cases h
    rfl
  | some userName =>
    obtain hnone | ⟨s, rfl, hs⟩ := hkept
    · cases hnone
    · obtain ⟨swap, hswap, h⟩ := bind_eq_ok.mp h
      cases hswap
      rw [hs, if_neg (by decide)] at h
      cases h
      rfl

variable (hempty : "" ∉ keys) (hlisted : key ∈ keys ∨ key = "")

theorem exists_lookup_of_renames (h : Renames db keys typeId key) :
    ∃ owner, (owners key db).head? = some owner ∧
      (User.loadUserNamesForPubkeys keys db).lookup key = some owner.val.name := by
  obtain ⟨name, hname⟩ := h.known
  have hsome := isSome_of_spelled h.listed h.spelled hname
  rw [lookup_of_spelled h.listed h.spelled, Option.isSome_map] at hsome
  obtain ⟨owner, howner⟩ := Option.isSome_iff_exists.mp hsome
  rw [lookup_of_spelled h.listed h.spelled]
  exact ⟨owner, howner, by rw [howner]; rfl⟩

include hempty hlisted in
theorem kept_of_not_renames (h : ¬ Renames db keys typeId key) :
    (User.loadUserNamesForPubkeys keys db).lookup key = none ∨
      ∃ s, typeId = some (.str s) ∧ cString s = "CREATE" := by
  cases hlookup : (User.loadUserNamesForPubkeys keys db).lookup key with
  | none => exact Or.inl rfl
  | some name =>
    refine Or.inr ?_
    have hkey : key ∈ keys := by
      rcases hlisted with hkey | rfl
      · exact hkey
      · rw [lookup_empty hempty] at hlookup
        cases hlookup
    by_contra hcreate
    exact h ⟨hkey, spelled_of_isSome (by rw [hlookup]; rfl), ⟨name, nameOf_of_lookup hlookup⟩,
      fun s hs heq => hcreate ⟨s, hs, heq⟩⟩

/-- A creation is not renamed. -/
theorem Renames.not_keeps (h : Renames db keys typeId key) : ¬ Keeps db typeId key := by
  rintro (hcreate | hunknown)
  · exact h.type _ hcreate (by decide)
  · exact hunknown h.known

/-- What is renamed had one key at most. -/
theorem pubkey_once {name : String} {l : Members Json}
    (hcount : Members.count "pubkey" l = Members.count "pubkey" user - 1)
    (hperm : l.Perm (Members.assign "firstName" (.str name) (Members.without "pubkey" user))) :
    Members.count "pubkey" user ≤ 1 := by
  rw [Members.count_perm _ hperm, Members.count_assign_of_ne (by decide),
    Members.count_without_self] at hcount
  omega

/-- The linked user with the name of its first owner. -/
theorem renamed_iff (hren : Renames db keys typeId key) {owner : Row User}
    (howner : (owners key db).head? = some owner) :
    ListsUser db typeId key user (Members.remove "firstName" (Members.remove "pubkey" user) ++
        [("firstName", .str (cString owner.val.name))]) ↔
      Members.count "pubkey" user ≤ 1 ∧ Named db keys typeId key user := by
  constructor
  · intro hlists
    obtain ⟨name, hname, hperm⟩ := hlists.renames hren.not_keeps
    have honce : Members.count "pubkey" user ≤ 1 := by
      refine pubkey_once ?_ hperm
      rw [Members.count_append, Members.count_single_of_ne (by decide), Nat.add_zero,
        Members.count_remove_of_ne (by decide), Members.count_remove_self]
    have hassign := hperm.trans (Members.assign_perm (Members.remove_perm_without_iff.mpr honce).symm)
    obtain ⟨hfirst, heq⟩ := Members.replace_perm_assign_iff.mp hassign
    rw [Members.count_remove_of_ne (by decide)] at hfirst
    refine ⟨honce, fun _ => ⟨hfirst, owner, howner, ?_⟩, fun hnot => absurd hren hnot⟩
    rw [Json.str.inj heq]
    exact hname
  · rintro ⟨honce, hnamed⟩
    obtain ⟨hfirst, owner', howner', hname⟩ := hnamed.entered hren
    obtain rfl : owner = owner' := Option.some.inj (howner.symm.trans howner')
    refine ⟨fun hkeeps => absurd hkeeps hren.not_keeps, fun _ => ⟨_, hname, ?_⟩⟩
    refine List.Perm.trans ?_ (Members.assign_perm (Members.remove_perm_without_iff.mpr honce))
    refine Members.replace_perm_assign_iff.mpr ⟨?_, rfl⟩
    rwa [Members.count_remove_of_ne (by decide)]

/-- The linked user with the name that the node sent. -/
theorem unrenamed_iff (hren : ¬ Renames db keys typeId key) :
    ListsUser db typeId key user (Members.remove "pubkey" user) ↔
      Members.count "pubkey" user ≤ 1 ∧ (¬ Keeps db typeId key → Named db keys typeId key user) := by
  have hpresent {name : String} (honce : Members.count "pubkey" user ≤ 1) :
      (Members.remove "pubkey" user).Perm
        (Members.assign "firstName" (.str name) (Members.without "pubkey" user)) ↔
      (user.filter fun m => m.1 == "firstName") = [("firstName", .str name)] := by
    have hperm := Members.remove_perm_without_iff.mpr honce
    rw [← Members.filter_without_of_ne (show "pubkey" ≠ "firstName" by decide),
      ← Members.perm_assign_iff]
    exact ⟨hperm.symm.trans, hperm.trans⟩
  constructor
  · intro hlists
    by_cases hkeeps : Keeps db typeId key
    · exact ⟨Members.remove_perm_without_iff.mp (hlists.keeps hkeeps),
        fun hnot => absurd hkeeps hnot⟩
    · obtain ⟨name, hname, hperm⟩ := hlists.renames hkeeps
      have honce := pubkey_once Members.count_remove_self hperm
      exact ⟨honce, fun _ => ⟨fun h => absurd h hren,
        fun _ => ⟨name, hname, (hpresent honce).mp hperm⟩⟩⟩
  · rintro ⟨honce, hnamed⟩
    refine ⟨fun _ => Members.remove_perm_without_iff.mpr honce, fun hkeeps => ?_⟩
    obtain ⟨name, hname, hfilter⟩ := (hnamed hkeeps).present hren
    exact ⟨name, hname, (hpresent honce).mpr hfilter⟩

include hempty hlisted in
/-- **The linked user** is listed as it should be where it has one key and is `Named`, if it does
not keep its name. -/
theorem replaceUser_iff
    (h : replaceUser ((User.loadUserNamesForPubkeys keys db).lookup key) typeId (.obj user) =
      .ok (.obj user')) :
    ListsUser db typeId key user user' ↔ Members.count "pubkey" user ≤ 1 ∧
      (¬ Keeps db typeId key → Named db keys typeId key user) := by
  by_cases hren : Renames db keys typeId key
  · obtain ⟨owner, howner, hlookup⟩ := exists_lookup_of_renames hren
    rw [hlookup] at h
    obtain rfl := Json.obj.inj (replaceUser_of_entered hren.type h)
    rw [renamed_iff hren howner]
    exact and_congr_right fun _ => (imp_iff_right hren.not_keeps).symm
  · obtain rfl := Json.obj.inj (replaceUser_of_kept (kept_of_not_renames hempty hlisted hren) h)
    exact unrenamed_iff hren

end User

/-! ## The memo -/

section Memo

variable {memo text : String}

theorem not_mem_of_base64RegExp {l : List Char} (h : base64RegExp l = true) :
    Char.ofNat 0 ∉ l := by
  have hchar {c : Char} (hc : isBase64Char c = true ∨ c = '=') : Char.ofNat 0 ≠ c := by
    rintro rfl
    revert hc
    decide
  induction l using base64RegExp.induct with
  | case1 => exact List.not_mem_nil
  | case2 a b c d rest hall ih =>
    rw [base64RegExp, if_pos hall] at h
    simp only [Bool.and_eq_true] at hall
    obtain ⟨⟨⟨ha, hb⟩, hc⟩, hd⟩ := hall
    simp only [List.mem_cons, not_or]
    exact ⟨hchar (.inl ha), hchar (.inl hb), hchar (.inl hc), hchar (.inl hd), ih h⟩
  | case3 a b c d rest hnot =>
    rw [base64RegExp, if_neg hnot] at h
    simp only [Bool.and_eq_true, Bool.or_eq_true, List.isEmpty_iff, beq_iff_eq] at h
    obtain ⟨⟨⟨ha, rfl⟩, rfl⟩, htail⟩ := h
    have hb : isBase64Char b = true ∨ b = '=' := by
      rcases htail with (⟨hb, -⟩ | ⟨hb, -⟩) | ⟨hb, -⟩
      · exact .inl hb
      · exact .inl hb
      · exact .inr hb
    have hc : isBase64Char c = true ∨ c = '=' := by
      rcases htail with (⟨-, hc⟩ | ⟨-, hc⟩) | ⟨-, hc⟩
      · exact .inl hc
      · exact .inr hc
      · exact .inr hc
    simp only [List.mem_cons, not_or]
    exact ⟨hchar (.inl ha), hchar hb, hchar hc, hchar (.inr rfl), List.not_mem_nil⟩
  | case4 l => simp [base64RegExp] at h

theorem cString_of_isBase64 (h : isBase64 memo = true) : cString memo = memo := by
  rw [isBase64, Bool.and_eq_true] at h
  exact cString_eq_self.mpr (not_mem_of_base64RegExp h.2)

theorem cString_cString (s : String) : cString (cString s) = cString s := by
  rw [cString, cString, String.toList_ofList, List.takeWhile_takeWhile]
  simp

theorem Decrypts.unique {text' : String} (h : Decrypts lib privateKey key memo text)
    (h' : Decrypts lib privateKey key memo text') : text = text' := by
  obtain ⟨pubkey, hpubkey, htext⟩ := h.decrypt
  obtain ⟨pubkey', hpubkey', htext'⟩ := h'.decrypt
  rw [hpubkey] at hpubkey'
  cases hpubkey'
  exact Except.ok.inj (htext.symm.trans htext')

/-- What is read from a memo is its text up to the first zero character. -/
theorem readMemo_cases {r : Option String} (h : readMemo lib privateKey key memo = .ok r) :
    (∃ text, Decrypts lib privateKey key memo text ∧ r = some (cString text)) ∨
      ((¬ ∃ text, Decrypts lib privateKey key memo text) ∧ r = none) := by
  unfold readMemo at h
  by_cases hbase : isBase64 memo = true
  · rw [if_pos hbase] at h
    cases hpubkey : lib.hexToBin key with
    | none =>
      rw [hpubkey] at h
      cases h
      refine Or.inr ⟨?_, rfl⟩
      rintro ⟨text, -, ⟨pubkey, hfound, -⟩, -⟩
      rw [hpubkey] at hfound
      cases hfound
    | some pubkey =>
      rw [hpubkey] at h
      obtain ⟨text, htext, h⟩ := bind_eq_ok.mp h
      by_cases hne : text = ""
      · subst hne
        cases h
        refine Or.inr ⟨?_, rfl⟩
        rintro ⟨text, -, ⟨pubkey', hfound, hdecrypt⟩, hne⟩
        rw [hpubkey] at hfound
        cases hfound
        exact hne (Except.ok.inj (hdecrypt.symm.trans htext))
      · rw [if_neg (by simpa using hne)] at h
        cases h
        exact Or.inl ⟨text, ⟨hbase, ⟨pubkey, hpubkey, htext⟩, hne⟩, rfl⟩
  · rw [if_neg hbase] at h
    cases h
    exact Or.inr ⟨fun ⟨_, hd⟩ => hbase hd.isBase64, rfl⟩

/-- What becomes of the members of a transaction with its memo. -/
theorem replaceMemo_cases {r : Json}
    (h : replaceMemo lib privateKey key typeId (.obj members) = .ok r) :
    (∃ memo text, typeId ≠ none ∧ members.lookup "memo" = some (.str memo) ∧
      Decrypts lib privateKey key (cString memo) text ∧
      r = .obj (Members.remove "memo" members ++ [("memo", .str (cString text))])) ∨
    ((typeId ≠ none → ∀ memo text, members.lookup "memo" = some (.str memo) →
      ¬ Decrypts lib privateKey key (cString memo) text) ∧ r = .obj members) := by
  unfold replaceMemo at h
  simp only [Json.findMember, bind, Except.bind] at h
  cases hmemo : members.lookup "memo" with
  | none =>
    rw [hmemo] at h
    cases h
    refine Or.inr ⟨fun _ _ _ hm => ?_, rfl⟩
    cases hm
  | some value =>
    rw [hmemo] at h
    cases typeId with
    | none =>
      cases h
      exact Or.inr ⟨fun hnone => absurd rfl hnone, rfl⟩
    | some type =>
      obtain ⟨memo, hget, hrest⟩ := bind_eq_ok.mp h
      obtain ⟨s, rfl⟩ := (Json.reads_getString.ok_iff value).mp ⟨memo, hget⟩
      obtain rfl : cString s = memo := Except.ok.inj hget
      obtain ⟨_, -, hrest⟩ := bind_eq_ok.mp hrest
      obtain ⟨r, hread, hrest⟩ := bind_eq_ok.mp hrest
      rcases readMemo_cases hread with ⟨text, hdecrypts, rfl⟩ | ⟨hnot, rfl⟩
      · cases hrest
        exact Or.inl ⟨s, text, by simp, rfl, hdecrypts, rfl⟩
      · cases hrest
        refine Or.inr ⟨fun _ memo text hm hd => hnot ⟨text, ?_⟩, rfl⟩
        obtain rfl : s = memo := Json.str.inj (Option.some.inj hm)
        exact hd

variable {written shown members' : Members Json} {linkedUser : Json}

/-- The members besides the memo show which linked user was written. -/
theorem linkedUser_of_without (hlinked : members.lookup "linkedUser" = some linkedUser)
    (hperm : (Members.without "memo" (Members.write "linkedUser" (.obj written) members)).Perm
      (Members.without "memo" (Members.assign "linkedUser" (.obj shown) members))) :
    Members.count "linkedUser" members ≤ 1 ∧ written = shown := by
  rw [Members.without_write_of_ne (by decide), Members.without_assign_of_ne (by decide)] at hperm
  obtain ⟨honce, heq⟩ := (Members.write_perm_assign_iff
    ((Members.lookup_without_of_ne (by decide)).trans hlinked)).mp hperm
  rw [Members.count_without_of_ne (by decide)] at honce
  exact ⟨honce, Json.obj.inj heq⟩

/-- Writing the linked user, as a collection. -/
theorem written_perm_iff (hlinked : members.lookup "linkedUser" = some linkedUser) :
    (Members.write "linkedUser" (.obj written) members).Perm
        (Members.assign "linkedUser" (.obj shown) members) ↔
      Members.count "linkedUser" members ≤ 1 ∧ written = shown := by
  rw [Members.write_perm_assign_iff hlinked, Json.obj.injEq]

/-- A memo that is replaced and is to be replaced. -/
theorem replaced_perm_iff {value value' : Json}
    (hlinked : members.lookup "linkedUser" = some linkedUser) :
    (Members.remove "memo" (Members.write "linkedUser" (.obj written) members) ++
        [("memo", value)]).Perm
        (Members.assign "memo" value' (Members.assign "linkedUser" (.obj shown) members)) ↔
      (Members.count "linkedUser" members ≤ 1 ∧ written = shown) ∧
        Members.count "memo" members ≤ 1 ∧ value = value' := by
  constructor
  · intro hperm
    have hrest := Members.without_perm "memo" hperm
    rw [Members.without_assign] at hrest
    have hlink := linkedUser_of_without hlinked
      ((Members.without_replace_perm "memo" _ _).symm.trans hrest)
    have hmemo := hperm.trans (Members.assign_perm ((written_perm_iff hlinked).mpr hlink).symm)
    rw [Members.replace_perm_assign_iff, Members.count_write] at hmemo
    exact ⟨hlink, hmemo⟩
  · rintro ⟨hlink, hmemo⟩
    refine List.Perm.trans ?_ (Members.assign_perm ((written_perm_iff hlinked).mpr hlink))
    rwa [Members.replace_perm_assign_iff, Members.count_write]

/-- A memo that is replaced, though it is to stay, is replaced by itself. -/
theorem eq_of_replaced_perm {value value' : Json}
    (hlinked : members.lookup "linkedUser" = some linkedUser)
    (hmemo : members.lookup "memo" = some value)
    (hperm : (Members.remove "memo" (Members.write "linkedUser" (.obj written) members) ++
      [("memo", value')]).Perm (Members.assign "linkedUser" (.obj shown) members)) :
    value' = value := by
  have hlink := linkedUser_of_without hlinked
    ((Members.without_replace_perm "memo" _ _).symm.trans (Members.without_perm _ hperm))
  exact Members.eq_of_replace_perm ((Members.lookup_write_of_ne (by decide)).trans hmemo)
    (hperm.trans ((written_perm_iff hlinked).mpr hlink).symm)

/-- A memo is decrypted whole where it is decrypted as it is to be listed. -/
theorem Clears.cString_eq (h : Clears lib privateKey key members text)
    (hmemo : members.lookup "memo" = some (.str memo)) :
    cString memo = memo ∧ Decrypts lib privateKey key memo text := by
  obtain ⟨-, memo', hmemo', hdecrypts⟩ := h
  obtain rfl : memo = memo' := Json.str.inj (Option.some.inj (hmemo.symm.trans hmemo'))
  exact ⟨cString_of_isBase64 hdecrypts.isBase64, hdecrypts⟩

/-- The memo as it is to be listed, beside the linked user `shown`. -/
structure ListsMemo (lib : Library) (privateKey : Bytes) (key : String)
    (members shown members' : Members Json) : Prop where
  clears : ∀ text, Clears lib privateKey key members text →
    members'.Perm (Members.assign "memo" (.str text) (Members.assign "linkedUser" (.obj shown) members))
  keeps : (¬ ∃ text, Clears lib privateKey key members text) →
    members'.Perm (Members.assign "linkedUser" (.obj shown) members)

/-- A memo that is replaced. -/
theorem replacedMemo_iff (hlinked : members.lookup "linkedUser" = some linkedUser)
    (htype : members.lookup "typeId" ≠ none) (hmemo : members.lookup "memo" = some (.str memo))
    (hdecrypts : Decrypts lib privateKey key (cString memo) text) :
    ListsMemo lib privateKey key members shown
        (Members.remove "memo" (Members.write "linkedUser" (.obj written) members) ++
          [("memo", .str (cString text))]) ↔
      (Members.count "linkedUser" members ≤ 1 ∧ written = shown) ∧
        MemoWhole lib privateKey key members := by
  by_cases hclears : ∃ text, Clears lib privateKey key members text
  · obtain ⟨text', hclear⟩ := hclears
    obtain ⟨hcut, hdecrypts'⟩ := hclear.cString_eq hmemo
    obtain rfl : text = text' := by
      rw [hcut] at hdecrypts
      exact hdecrypts.unique hdecrypts'
    constructor
    · intro hlists
      obtain ⟨hlink, honce, hend⟩ := (replaced_perm_iff hlinked).mp (hlists.clears text hclear)
      refine ⟨hlink, fun _ memo' text' hmemo' hd => ?_⟩
      obtain rfl : memo = memo' := Json.str.inj (Option.some.inj (hmemo.symm.trans hmemo'))
      obtain rfl := hdecrypts.unique hd
      exact ⟨honce, hcut, Json.str.inj hend⟩
    · rintro ⟨hlink, hwhole⟩
      obtain ⟨honce, -, hend⟩ := hwhole htype memo text hmemo hdecrypts
      refine ⟨fun text' hclear' => ?_, fun hnone => absurd ⟨text, hclear⟩ hnone⟩
      obtain rfl := hdecrypts'.unique (hclear'.cString_eq hmemo).2
      exact (replaced_perm_iff hlinked).mpr ⟨hlink, honce, congrArg Json.str hend⟩
  · -- it should have stayed
    constructor
    · intro hlists
      have heq := Json.str.inj (eq_of_replaced_perm hlinked hmemo (hlists.keeps hclears))
      rw [← heq, cString_cString, heq] at hdecrypts
      exact absurd ⟨text, htype, memo, hmemo, hdecrypts⟩ hclears
    · rintro ⟨-, hwhole⟩
      obtain ⟨-, hcut, -⟩ := hwhole htype memo text hmemo hdecrypts
      rw [hcut] at hdecrypts
      exact absurd ⟨text, htype, memo, hmemo, hdecrypts⟩ hclears

/-- A memo that stays. -/
theorem keptMemo_iff (hlinked : members.lookup "linkedUser" = some linkedUser)
    (hnot : members.lookup "typeId" ≠ none → ∀ memo text, members.lookup "memo" = some (.str memo) →
      ¬ Decrypts lib privateKey key (cString memo) text) :
    ListsMemo lib privateKey key members shown
        (Members.write "linkedUser" (.obj written) members) ↔
      (Members.count "linkedUser" members ≤ 1 ∧ written = shown) ∧
        MemoWhole lib privateKey key members := by
  have hnone : ¬ ∃ text, Clears lib privateKey key members text := by
    rintro ⟨text, hclear⟩
    have ⟨htype, memo, hmemo, _⟩ := hclear
    obtain ⟨hcut, hdecrypts⟩ := hclear.cString_eq hmemo
    exact hnot htype memo text hmemo (by rwa [hcut])
  have hwhole : MemoWhole lib privateKey key members := fun htype memo text hmemo hdecrypts =>
    absurd hdecrypts (hnot htype memo text hmemo)
  constructor
  · exact fun hlists => ⟨(written_perm_iff hlinked).mp (hlists.keeps hnone), hwhole⟩
  · rintro ⟨hlink, -⟩
    exact ⟨fun text hclear => absurd ⟨text, hclear⟩ hnone,
      fun _ => (written_perm_iff hlinked).mpr hlink⟩

/-- **The memo** is listed as it should be where the linked user was written under the only name and
the memo is `MemoWhole`. -/
theorem replaceMemo_iff (hlinked : members.lookup "linkedUser" = some linkedUser)
    (h : replaceMemo lib privateKey key (members.lookup "typeId")
      (.obj (Members.write "linkedUser" (.obj written) members)) = .ok (.obj members')) :
    ListsMemo lib privateKey key members shown members' ↔
      (Members.count "linkedUser" members ≤ 1 ∧ written = shown) ∧
        MemoWhole lib privateKey key members := by
  have hlookup : (Members.write "linkedUser" (.obj written) members).lookup "memo" =
      members.lookup "memo" := Members.lookup_write_of_ne (by decide)
  rcases replaceMemo_cases h with ⟨memo, text, htype, hmemo, hdecrypts, heq⟩ | ⟨hnot, heq⟩
  · obtain rfl := Json.obj.inj heq
    exact replacedMemo_iff hlinked htype (hlookup ▸ hmemo) hdecrypts
  · obtain rfl := Json.obj.inj heq
    exact keptMemo_iff hlinked (hlookup ▸ hnot)

end Memo

/-! ## A transaction -/

section Transaction

theorem Linked.unique {members' user' : Members Json} {key' : String}
    (h : Linked transaction members user key) (h' : Linked transaction members' user' key') :
    members = members' ∧ user = user' ∧ key = key' := by
  obtain rfl := Json.obj.inj (h.eq_obj.symm.trans h'.eq_obj)
  obtain rfl :=
    Json.obj.inj (Option.some.inj (h.lookup_linkedUser.symm.trans h'.lookup_linkedUser))
  exact ⟨rfl, rfl, Json.str.inj (Option.some.inj (h.lookup_pubkey.symm.trans h'.lookup_pubkey))⟩

theorem Linked.linkedPubkey_eq (h : Linked transaction members user key) :
    linkedPubkey transaction = .ok key :=
  linkedPubkey_eq_ok.mpr ⟨members, user, h.eq_obj, h.lookup_linkedUser, h.lookup_pubkey⟩

theorem replaceUser_obj {userName : Option String} {r : Json}
    (h : replaceUser userName typeId (.obj user) = .ok r) : ∃ written, r = .obj written := by
  by_cases hcreate : ∃ s, typeId = some (.str s) ∧ cString s = "CREATE"
  · exact ⟨_, replaceUser_of_kept (.inr hcreate) h⟩
  · cases userName with
    | none => exact ⟨_, replaceUser_of_kept (.inl rfl) h⟩
    | some userName =>
      exact ⟨_, replaceUser_of_entered (fun s hs heq => hcreate ⟨s, hs, heq⟩) h⟩

/-- A transaction is enriched at its linked user first, then at its memo. -/
theorem enrich_eq_ok {names : List (String × String)} (hlinked : Linked transaction members user key)
    (h : enrich lib privateKey names transaction = .ok listed) :
    ∃ written members', listed = .obj members' ∧
      replaceUser (names.lookup key) (members.lookup "typeId") (.obj user) = .ok (.obj written) ∧
      replaceMemo lib privateKey key (members.lookup "typeId")
        (.obj (Members.write "linkedUser" (.obj written) members)) = .ok (.obj members') := by
  obtain ⟨rfl, huser, hpubkey⟩ := hlinked
  unfold enrich at h
  obtain ⟨found, hfound, hrest⟩ := bind_eq_ok.mp h
  obtain rfl : found = .obj user := by
    obtain ⟨_, heq, hlookup⟩ := findValue_eq_ok.mp hfound
    cases heq
    exact Option.some.inj (hlookup.symm.trans huser)
  obtain ⟨key', hkey', hrest⟩ := bind_eq_ok.mp hrest
  obtain rfl : key' = key := Except.ok.inj (hkey'.symm.trans
    (linkedPubkey_eq_ok.mpr ⟨members, user, rfl, huser, hpubkey⟩))
  obtain ⟨type, htype, hrest⟩ := bind_eq_ok.mp hrest
  obtain rfl : members.lookup "typeId" = type := Except.ok.inj htype
  obtain ⟨r, hr, hrest⟩ := bind_eq_ok.mp hrest
  obtain ⟨written, rfl⟩ := replaceUser_obj hr
  obtain ⟨_, hwrite, hrest⟩ := bind_eq_ok.mp hrest
  obtain rfl := Except.ok.inj hwrite
  rcases replaceMemo_cases hrest with ⟨_, _, _, _, _, rfl⟩ | ⟨_, rfl⟩
  · exact ⟨written, _, rfl, hr, hrest⟩
  · exact ⟨written, _, rfl, hr, hrest⟩

variable (hempty : "" ∉ keys) (hlisted : key ∈ keys ∨ key = "")

include hempty hlisted in
theorem lookup_ne_none_iff : (User.loadUserNamesForPubkeys keys db).lookup key ≠ none ↔
    key ∈ keys ∧ Spelled b keys key ∧ ∃ name, NameOf db key name := by
  rw [Option.ne_none_iff_isSome]
  constructor
  · intro hsome
    obtain ⟨name, hlookup⟩ := Option.isSome_iff_exists.mp hsome
    refine ⟨?_, spelled_of_isSome hsome, name, nameOf_of_lookup hlookup⟩
    rcases hlisted with hkey | rfl
    · exact hkey
    · rw [lookup_empty hempty] at hlookup
      cases hlookup
  · rintro ⟨hkey, hspelled, name, hname⟩
    exact isSome_of_spelled hkey hspelled hname

include hempty hlisted in
/-- **A transaction** is listed as it should be exactly if it is regular. -/
theorem enrich_lists_iff (hlinked : Linked transaction members user key) :
    (∃ listed, enrich lib privateKey (User.loadUserNamesForPubkeys keys db) transaction = .ok listed ∧
      ListedAs lib privateKey db transaction listed) ↔
    Regular lib privateKey db keys members user key := by
  constructor
  · rintro ⟨listed, henrich, members₁, user₁, key₁, members', user', hlinked₁, rfl, hlists⟩
    obtain ⟨rfl, rfl, rfl⟩ := hlinked.unique hlinked₁
    obtain ⟨written, members'', heq, huser, hmemo⟩ := enrich_eq_ok hlinked henrich
    obtain rfl := Json.obj.inj heq
    obtain ⟨⟨honce, rfl⟩, hwhole⟩ := (replaceMemo_iff hlinked.lookup_linkedUser hmemo).mp
      ⟨hlists.clears, hlists.keeps⟩
    obtain ⟨hpubkey, hnamed⟩ := (replaceUser_iff hempty hlisted huser).mp hlists.user
    refine ⟨honce, hpubkey, fun typeId htype => ?_, hnamed, hwhole⟩
    obtain ⟨_, _, hobj, hkey', hread⟩ := enrich_ok_iff.mp ⟨_, henrich⟩
    obtain rfl := Json.obj.inj (hlinked.eq_obj.symm.trans hobj)
    obtain rfl := Except.ok.inj (hlinked.linkedPubkey_eq.symm.trans hkey')
    rw [← lookup_ne_none_iff hempty hlisted]
    exact hread typeId htype
  · intro hregular
    have henrichable : Enrichable lib (User.loadUserNamesForPubkeys keys db) transaction := by
      refine ⟨members, key, hlinked.eq_obj, hlinked.linkedPubkey_eq, fun typeId htype => ?_⟩
      rw [lookup_ne_none_iff hempty hlisted]
      exact hregular.readable typeId htype
    obtain ⟨listed, henrich⟩ : ∃ r, enrich lib privateKey _ transaction = .ok r :=
      enrich_ok_iff.mpr henrichable
    obtain ⟨written, members', rfl, huser, hmemo⟩ := enrich_eq_ok hlinked henrich
    obtain ⟨hclears, hkeeps⟩ := (replaceMemo_iff hlinked.lookup_linkedUser hmemo).mpr
      ⟨⟨hregular.linkedUser, rfl⟩, hregular.memo⟩
    have hlists := (replaceUser_iff hempty hlisted huser).mpr ⟨hregular.pubkey, hregular.named⟩
    exact ⟨_, henrich, members, user, key, members', written, hlinked, rfl, hlists, hclears, hkeeps⟩

end Transaction

/-! ## The list -/

section List

/-- An answer with a list of transactions, each with a key of its linked user. -/
structure ListAnswer (doc : Json) (list : Members Json) (transactions : List Json) : Prop where
  found : ∃ members result, doc = .obj members ∧ members.lookup "result" = some (.obj result) ∧
    result.lookup "transactionList" = some (.obj list)
  lookup_transactions : list.lookup "transactions" = some (.arr transactions)
  linked : ∀ transaction ∈ transactions, ∃ members user key, Linked transaction members user key

variable {doc : Json} {list : Members Json} {transactions : List Json}

theorem mem_keysOf :
    key ∈ keysOf transactions ↔ key ≠ "" ∧ ∃ t ∈ transactions, linkedPubkey t = .ok key := by
  have hsome (t : Json) : (linkedPubkey t).toOption = some key ↔ linkedPubkey t = .ok key := by
    cases linkedPubkey t <;> simp [Except.toOption]
  simp only [keysOf, List.mem_filter, List.mem_filterMap, hsome, decide_not, Bool.not_eq_true',
    decide_eq_false_iff_not, ne_eq]
  exact and_comm

/-- The keys that are collected, with those that were collected before. -/
theorem mem_collectPubkeys_iff {pubkeys collected : List String}
    (h : collectPubkeys transactions pubkeys = .ok collected) :
    key ∈ collected ↔ key ∈ pubkeys ∨ key ∈ keysOf transactions := by
  induction transactions generalizing pubkeys with
  | nil =>
    cases h
    simp [keysOf]
  | cons transaction rest ih =>
    rw [collectPubkeys] at h
    obtain ⟨pubkey, hpubkey, h⟩ := bind_eq_ok.mp h
    have hadded : key ∈ (if pubkey.isEmpty || pubkeys.contains pubkey then pubkeys
        else pubkeys ++ [pubkey]) ↔ key ∈ pubkeys ∨ (key ≠ "" ∧ pubkey = key) := by
      by_cases hempty : pubkey = ""
      · subst hempty
        simp
      · by_cases hmem : pubkey ∈ pubkeys
        · rw [if_pos (by simp [hmem]), iff_self_or]
          rintro ⟨-, rfl⟩
          exact hmem
        · rw [if_neg (by simp [hempty, hmem]), List.mem_append, List.mem_singleton]
          refine or_congr_right ⟨?_, fun h => h.2.symm⟩
          rintro rfl
          exact ⟨hempty, rfl⟩
    rw [ih h, hadded, mem_keysOf, mem_keysOf, List.exists_mem_cons_iff, hpubkey, Except.ok.injEq,
      and_or_left, or_assoc]

/-- What the second pass makes of an answer. -/
theorem enrichList_eq {loadUserNames : List String → List (String × String)} {pubkeys : List String}
    (h : ListAnswer doc list transactions) (hpubkeys : collectPubkeys transactions [] = .ok pubkeys) :
    enrichList lib privateKey loadUserNames doc =
      if pubkeys.isEmpty then .ok (.obj list)
      else (transactions.mapM (enrich lib privateKey (loadUserNames pubkeys))).map
        fun listed => .obj (Members.write "transactions" (.arr listed) list) := by
  obtain ⟨members, result, rfl, hresult, hlist⟩ := h.found
  have h₁ := findValue_eq_ok.mpr ⟨members, rfl, hresult⟩
  have h₂ := findValue_eq_ok.mpr ⟨result, rfl, hlist⟩
  have h₃ := findValue_eq_ok.mpr ⟨list, rfl, h.lookup_transactions⟩
  simp only [enrichList, h₁, h₂, h₃, Json.getArray, hpubkeys, bind, Except.bind]
  split
  · rfl
  · cases transactions.mapM (enrich lib privateKey (loadUserNames pubkeys)) <;> rfl

/-- A linked user that keeps its key is not as it should be. -/
theorem not_listedAs_self (hlinked : Linked transaction members user key) :
    ¬ ListedAs lib privateKey db transaction transaction := by
  rintro ⟨members₁, user₁, key₁, members', user', hlinked₁, heq, hlists⟩
  obtain ⟨rfl, rfl, rfl⟩ := hlinked.unique hlinked₁
  obtain rfl := Json.obj.inj (hlinked.eq_obj.symm.trans heq)
  have hrest : (Members.without "memo" members).Perm
      (Members.without "memo" (Members.assign "linkedUser" (.obj user') members)) := by
    by_cases hclears : ∃ text, Clears lib privateKey key members text
    · obtain ⟨text, hclear⟩ := hclears
      have h := Members.without_perm "memo" (hlists.clears text hclear)
      rwa [Members.without_assign] at h
    · exact Members.without_perm _ (hlists.keeps hclears)
  obtain rfl : user = user' := by
    refine (@linkedUser_of_without _ user _ _ hlinked.lookup_linkedUser ?_).2
    rwa [Members.write_of_lookup hlinked.lookup_linkedUser]
  have hcount : Members.count "pubkey" user = 0 := by
    by_cases hkeeps : Keeps db (members.lookup "typeId") key
    · rw [Members.count_perm _ (hlists.user.keeps hkeeps), Members.count_without_self]
    · obtain ⟨name, -, hperm⟩ := hlists.user.renames hkeeps
      rw [Members.count_perm _ hperm, Members.count_assign_of_ne (by decide),
        Members.count_without_self]
  exact absurd (Members.count_pos_of_lookup hlinked.lookup_pubkey) (by omega)

/-- **The second pass** lists all transactions as it should exactly if each of them is regular. -/
theorem mapM_listedAs_iff (h : ListAnswer doc list transactions) :
    (∃ listed, transactions.mapM (enrich lib privateKey
        (User.loadUserNamesForPubkeys (keysOf transactions) db)) = .ok listed ∧
      List.Forall₂ (ListedAs lib privateKey db) transactions listed) ↔
    ∀ t ∈ transactions, ∀ members user key, Linked t members user key →
      Regular lib privateKey db (keysOf transactions) members user key := by
  rw [exists_mapM_forall₂]
  refine forall₂_congr fun t ht => ?_
  obtain ⟨members, user, key, hlinked⟩ := h.linked t ht
  have hno : "" ∉ keysOf transactions := fun hmem => (mem_keysOf.mp hmem).1 rfl
  have hkey : key ∈ keysOf transactions ∨ key = "" := by
    by_cases hne : key = ""
    · exact Or.inr hne
    · exact Or.inl (mem_keysOf.mpr ⟨hne, t, ht, hlinked.linkedPubkey_eq⟩)
  rw [enrich_lists_iff hno hkey hlinked]
  constructor
  · intro hregular members' user' key' hlinked'
    obtain ⟨rfl, rfl, rfl⟩ := hlinked.unique hlinked'
    exact hregular
  · exact fun hall => hall members user key hlinked

/-- Lists with the same transactions written are the same. -/
theorem transactions_inj {listed listed' : List Json} (h : ListAnswer doc list transactions)
    (heq : Members.write "transactions" (Json.arr listed) list =
      Members.write "transactions" (.arr listed') list) : listed = listed' := by
  have hlookup := Members.lookup_write_self (a := Json.arr listed) h.lookup_transactions
  rw [heq, Members.lookup_write_self h.lookup_transactions] at hlookup
  exact (Json.arr.inj (Option.some.inj hlookup)).symm

/-- **A list** is as it should be exactly if one of the linked users has a key, unless the list is
empty, and each transaction is regular. -/
theorem enrichList_listedAs_iff (h : ListAnswer doc list transactions) :
    (∃ listed, enrichList lib privateKey (fun pubkeys => User.loadUserNamesForPubkeys pubkeys db) doc =
        .ok (.obj (Members.write "transactions" (.arr listed) list)) ∧
      List.Forall₂ (ListedAs lib privateKey db) transactions listed) ↔
    (keysOf transactions = [] → transactions = []) ∧
      ∀ t ∈ transactions, ∀ members user key, Linked t members user key →
        Regular lib privateKey db (keysOf transactions) members user key := by
  obtain ⟨pubkeys, hpubkeys⟩ : ∃ collected, collectPubkeys transactions [] = .ok collected := by
    refine collectPubkeys_ok_iff.mpr fun t ht => ?_
    obtain ⟨members, user, key, hlinked⟩ := h.linked t ht
    exact ⟨key, hlinked.linkedPubkey_eq⟩
  have hkeys : ∀ k, k ∈ pubkeys ↔ k ∈ keysOf transactions := fun k => by
    simpa using @mem_collectPubkeys_iff k _ _ _ hpubkeys
  have hnil : pubkeys.isEmpty = true ↔ keysOf transactions = [] := by
    simp only [List.isEmpty_iff, List.eq_nil_iff_forall_not_mem, hkeys]
  simp only [enrichList_eq h hpubkeys, loadUserNamesForPubkeys_congr hkeys]
  by_cases hempty : keysOf transactions = []
  · -- the second pass is left out, and every key stays
    rw [if_pos (hnil.mpr hempty)]
    constructor
    · rintro ⟨listed, heq, hall⟩
      obtain rfl : transactions = listed := transactions_inj h
        ((Members.write_of_lookup h.lookup_transactions).trans (Json.obj.inj (Except.ok.inj heq)))
      cases transactions with
      | nil => exact ⟨fun _ => rfl, fun t ht => absurd ht List.not_mem_nil⟩
      | cons t rest =>
        obtain ⟨members, user, key, hlinked⟩ := h.linked t List.mem_cons_self
        cases hall with
        | cons hhead _ => exact absurd hhead (not_listedAs_self hlinked)
    · rintro ⟨hnone, -⟩
      obtain rfl := hnone hempty
      exact ⟨[], by rw [Members.write_of_lookup h.lookup_transactions], .nil⟩
  · rw [if_neg (fun hp => hempty (hnil.mp hp)), ← mapM_listedAs_iff h]
    constructor
    · rintro ⟨listed, heq, hall⟩
      refine ⟨fun h => absurd h hempty, listed, ?_, hall⟩
      cases hmap : transactions.mapM (enrich lib privateKey
          (User.loadUserNamesForPubkeys (keysOf transactions) db)) with
      | error e =>
        rw [hmap] at heq
        cases heq
      | ok listed' =>
        rw [hmap] at heq
        rw [transactions_inj h (Json.obj.inj (Except.ok.inj heq))]
    · rintro ⟨-, listed, hmap, hall⟩
      exact ⟨listed, by rw [hmap]; rfl, hall⟩

end List

end JsonListTransactions

open JsonListTransactions

/-- **What a listing changes.** For a session with a key and an answer with a list of transactions,
each with a key of its linked user, the handler returns the list with every transaction as it should
be, and with all else as it was sent, exactly if one of the linked users has a key that is not
empty, unless the list is, and each transaction is regular. -/
theorem listing_iff {b : Backend} {w : World} {request : ListRequest} {s : Server b}
    {session : Session} {keyPair : KeyPair} {doc : Json} {list : Members Json}
    {transactions : List Json}
    (hsession : (exec (SessionManager.getSession w.cfg request.jwtToken request.clientIp)
      s.sessions).1 = .ok session)
    (hkey : session.mUserKeyPair = some keyPair)
    (hanswer : w.request s.trace "listtransactions" (nodeParams w.lib request.params session keyPair) =
      .ok doc)
    (hlist : ListAnswer doc list transactions) :
    (∃ listed, (exec (JsonListTransactions.handle w request) s).1 =
        .ok (Document.stateSuccess.addMember "transactionList"
          (.obj (Members.write "transactions" (.arr listed) list))) ∧
      List.Forall₂ (ListedAs w.lib keyPair.privateKey s.sessions.db) transactions listed) ↔
    (keysOf transactions = [] → transactions = []) ∧
      ∀ t ∈ transactions, ∀ members user key, Linked t members user key →
        Regular w.lib keyPair.privateKey s.sessions.db (keysOf transactions) members user key := by
  rw [← enrichList_listedAs_iff hlist]
  refine exists_congr fun listed => and_congr_left fun _ => ?_
  rw [exec_handle_of_answer hsession hkey hanswer]
  cases enrichList w.lib keyPair.privateKey _ doc with
  | error e => exact iff_of_false (by rintro ⟨⟩) (by rintro ⟨⟩)
  | ok transactionList =>
    constructor
    · intro h
      have hmembers := Document.success.inj (Except.ok.inj h)
      rw [(Prod.mk.inj (List.cons.inj hmembers).1).2]
    · intro h
      rw [Except.ok.inj h]
      rfl

/-! ### A payment and a list without keys -/

/-- The key of `alice` as the node sends it. -/
def aliceKey : String := plainLibrary.binToHex (bytesOf "passphrase").reverse

/-- A payment of `alice` to herself, which the node lists without her name. -/
def ownPayment : Json :=
  .obj [("linkedUser", .obj [("pubkey", .str aliceKey), ("firstName", .str "?")]),
    ("typeId", .str "SEND")]

/-- A transaction whose linked user has no key. -/
def anonymous : Json := .obj [("linkedUser", .obj [("pubkey", .str "")])]

/-- A node that answers with these transactions. -/
def listsWorld (transactions : List Json) : World where
  __ := plainWorld
  request _ _ _ :=
    .ok (.obj [("result", .obj [("transactionList", .obj [("transactions", .arr transactions)])])])

/-- The row of `alice`. -/
def aliceRow : Row User := aliceServer.sessions.db.users.rows.head (by decide)

theorem nameOf_aliceRow : NameOf aliceServer.sessions.db aliceKey (cString aliceRow.val.name) := by
  refine ⟨aliceRow, List.head_mem _, ?_, by decide⟩
  show lower (hex aliceRow.val.publicKey) = lower aliceKey
  decide

theorem regular_ownPayment : Regular plainLibrary (bytesOf "passphrase") aliceServer.sessions.db
    (keysOf [ownPayment]) [("linkedUser", .obj [("pubkey", .str aliceKey), ("firstName", .str "?")]),
      ("typeId", .str "SEND")] [("pubkey", .str aliceKey), ("firstName", .str "?")] aliceKey where
  linkedUser := by decide
  pubkey := by decide
  readable := by
    rintro typeId ⟨⟩
    exact ⟨fun _ => ⟨_, rfl⟩, fun _ hmemo => by cases hmemo⟩
  named _ := by
    refine ⟨fun _ => ⟨by decide, aliceRow, by decide, nameOf_aliceRow⟩, fun hnot => absurd ?_ hnot⟩
    refine ⟨by decide, ⟨by decide, fun h => absurd h (by decide)⟩, ⟨_, nameOf_aliceRow⟩, ?_⟩
    rintro s ⟨⟩
    decide
  memo _ memo text hmemo := by cases hmemo

/-- `alice` finds her name in her list. -/
theorem listing_alice : ∃ listed,
    (exec (JsonListTransactions.handle (listsWorld [ownPayment])
      ⟨[], SessionManager.aliceToken, "10.0.0.1"⟩) aliceServer).1 =
        .ok (Document.stateSuccess.addMember "transactionList"
          (.obj (Members.write "transactions" (.arr listed) [("transactions", .arr [ownPayment])]))) ∧
      List.Forall₂ (ListedAs plainLibrary (bytesOf "passphrase") aliceServer.sessions.db)
        [ownPayment] listed := by
  have hsession : (exec (SessionManager.getSession plainConfig SessionManager.aliceToken "10.0.0.1")
      aliceServer.sessions).1 = .ok ⟨"gdd", 1, "10.0.0.1",
        some (plainCrypto.createKey "alice" "secret"),
        some ⟨(bytesOf "passphrase").reverse, bytesOf "passphrase"⟩⟩ := by decide
  have hlinked : Linked ownPayment _ _ _ := ⟨rfl, rfl, rfl⟩
  have hanswer : ListAnswer (.obj [("result", .obj [("transactionList",
      .obj [("transactions", .arr [ownPayment])])])]) [("transactions", .arr [ownPayment])]
      [ownPayment] := by
    refine ⟨⟨_, _, rfl, rfl, rfl⟩, rfl, fun t ht => ?_⟩
    rw [List.mem_singleton.mp ht]
    exact ⟨_, _, _, hlinked⟩
  have hkeyed : keysOf [ownPayment] ≠ [] := by decide
  refine (@listing_iff _ (listsWorld [ownPayment]) ⟨[], SessionManager.aliceToken, "10.0.0.1"⟩
    aliceServer _ _ _ _ _ hsession rfl rfl hanswer).mpr ⟨fun h => absurd h hkeyed, ?_⟩
  · intro t ht members user key h
    rw [List.mem_singleton.mp ht] at h
    obtain ⟨rfl, rfl, rfl⟩ := hlinked.unique h
    exact regular_ownPayment

/-- **Where no linked user has a key** the empty keys stay in the list. -/
theorem empty_keys_stay : ¬ ∃ listed,
    (exec (JsonListTransactions.handle (listsWorld [anonymous])
      ⟨[], SessionManager.aliceToken, "10.0.0.1"⟩) aliceServer).1 =
        .ok (Document.stateSuccess.addMember "transactionList"
          (.obj (Members.write "transactions" (.arr listed) [("transactions", .arr [anonymous])]))) ∧
      List.Forall₂ (ListedAs plainLibrary (bytesOf "passphrase") aliceServer.sessions.db)
        [anonymous] listed := by
  rintro ⟨listed, hdocument, hall⟩
  have hsame : (exec (JsonListTransactions.handle (listsWorld [anonymous])
      ⟨[], SessionManager.aliceToken, "10.0.0.1"⟩) aliceServer).1 =
        .ok (Document.stateSuccess.addMember "transactionList"
          (.obj [("transactions", .arr [anonymous])])) := by rfl
  rw [hsame] at hdocument
  have hmembers := Document.success.inj (Except.ok.inj hdocument)
  obtain rfl : [anonymous] = listed := Json.arr.inj (Prod.mk.inj (List.cons.inj (Json.obj.inj
    (Prod.mk.inj (List.cons.inj hmembers).1).2)).1).2
  cases hall with
  | cons hhead _ => exact not_listedAs_self ⟨rfl, rfl, rfl⟩ hhead

end GradidoConnector
