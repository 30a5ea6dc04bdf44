import GradidoConnector.Base.Members
import GradidoConnector.Tables
import Mathlib

/-!
# The names of public keys on either backend

`User::loadUserNamesForPubkeys` compares `hex(public_key)`, written in capitals, with the keys as
its caller spells them, and files the names under `LOWER(HEX(public_key))`. The caller looks a key
up under its own spelling once more.

* `Denotes`: the key is a hex spelling of the bytes, with digits of either letter case.
* `Resolved`: what a lookup with a key is there for.
* `Spelled`: the key is in lower case, as the map has it, and on SQLite, where the filter looks for
  the capitals, listed in capitals.

Results:
* `mem_loadUserNamesForPubkeys`: which pairs go into the map.
* `nameOf_of_lookup`: a name that is found is the name of a user with the bytes of the key.
* **`resolved_iff`**: a key of the list is resolved exactly where no user has its bytes or it is
  `Spelled`.
* **`lookup_of_spelled`**: then the first user with its bytes is found.
* `spelling_missed`: on SQLite the keys as the node sends them find nobody.
-/

namespace GradidoConnector

open GradidoConnector.Base

variable {b : Backend} {db : Db b} {keys : List String} {key name : String} {bin : Bytes}

/-- `UPPER(s)` -/
def upper (s : String) : String := String.ofList (s.toList.map Char.toUpper)

/-- The key is a hex spelling of the bytes. -/
def Denotes (key : String) (bin : Bytes) : Prop := lower (hex bin) = lower key

/-- The name belongs to a user with the bytes of the key as public key. -/
def NameOf (db : Db b) (key name : String) : Prop :=
  ∃ user ∈ db.users.rows, Denotes key user.val.publicKey ∧ user.val.name = name

/-- A lookup with the key finds a name exactly if some user has its bytes, and finds the name of
such a user. -/
structure Resolved (db : Db b) (names : List (String × String)) (key : String) : Prop where
  isSome : (names.lookup key).isSome ↔ ∃ name, NameOf db key name
  nameOf : ∀ name, names.lookup key = some name → NameOf db key name

/-- The key is spelled as the map has it, and listed as the filter looks for it. -/
def Spelled (b : Backend) (keys : List String) (key : String) : Prop :=
  key = lower key ∧ (b.dialect = .sqlite → upper key ∈ keys)

/-- The users with the bytes of the key, in the order of their ids. -/
def owners (key : String) (db : Db b) : List (Row User) :=
  db.users.select fun u => lower (hex u.publicKey) == lower key

/-! ## Letter case -/

@[simp] theorem lower_lower (s : String) : lower (lower s) = lower s := by
  simp only [lower, String.toList_ofList, List.map_map]
  congr 2
  funext c
  exact Char.toLower_toLower_eq_toLower c

@[simp] theorem upper_lower (s : String) : upper (lower s) = upper s := by
  simp only [upper, lower, String.toList_ofList, List.map_map]
  congr 2
  funext c
  exact Char.toUpper_toLower_eq_toUpper c

@[simp] theorem upper_hex (bin : Bytes) : upper (hex bin) = hex bin := by
  simp only [upper, hex, String.toList_ofList]
  induction bin with
  | nil => rfl
  | cons c bin ih =>
    have ih := String.ofList_injective ih
    simp only [List.flatMap_cons, List.map_append, List.map_cons, List.map_nil,
      Char.toUpper_toUpper_eq_toUpper, ih]

/-- There is one spelling in capitals. -/
theorem Denotes.hex_eq (h : Denotes key bin) : hex bin = upper key := by
  rw [← upper_hex, ← upper_lower (hex bin), h, upper_lower]

/-- The spelling in lower case is the key of the map. -/
theorem denotes_of_lower_hex (h : lower (hex bin) = key) : Denotes key bin := by
  rw [Denotes, ← h, lower_lower]

theorem Denotes.lower_hex (h : Denotes key bin) (hkey : key = lower key) :
    lower (hex bin) = key := Eq.trans h hkey.symm

/-! ## The map -/

theorem mem_loadUserNamesForPubkeys :
    (key, name) ∈ User.loadUserNamesForPubkeys keys db ↔
      ∃ user ∈ db.users.rows, (∃ k ∈ keys, sameText b.dialect (hex user.val.publicKey) k = true) ∧
        lower (hex user.val.publicKey) = key ∧ user.val.name = name := by
  simp only [User.loadUserNamesForPubkeys, List.mem_map, Base.Table.mem_select, List.any_eq_true,
    Prod.mk.injEq, and_assoc]

/-- The order of the keys does not matter, nor how often they are listed. -/
theorem loadUserNamesForPubkeys_congr {keys' : List String} (h : ∀ k, k ∈ keys ↔ k ∈ keys')
    (db : Db b) :
    User.loadUserNamesForPubkeys keys db = User.loadUserNamesForPubkeys keys' db := by
  rw [User.loadUserNamesForPubkeys, User.loadUserNamesForPubkeys]
  congr 2
  funext user
  rw [Bool.eq_iff_iff, List.any_eq_true, List.any_eq_true]
  simp only [h]

/-- The map finds a key under which a name was put in. -/
theorem isSome_lookup_iff {names : List (String × String)} :
    (names.lookup key).isSome ↔ ∃ name, (key, name) ∈ names := by
  rw [List.lookup_isSome_iff]
  constructor
  · rintro ⟨⟨k, name⟩, hmem, hk⟩
    rw [beq_iff_eq] at hk
    exact ⟨name, hk ▸ hmem⟩
  · rintro ⟨name, hmem⟩
    exact ⟨_, hmem, beq_self_eq_true _⟩

/-- A name that is found is the name of a user with the bytes of the key. -/
theorem nameOf_of_lookup (h : (User.loadUserNamesForPubkeys keys db).lookup key = some name) :
    NameOf db key name := by
  obtain ⟨user, hmem, -, hlower, hname⟩ := mem_loadUserNamesForPubkeys.mp (Members.mem_of_lookup h)
  exact ⟨user, hmem, denotes_of_lower_hex hlower, hname⟩

/-- What is found is spelled in lower case, and on SQLite the filter has passed its capitals. -/
theorem spelled_of_isSome (h : ((User.loadUserNamesForPubkeys keys db).lookup key).isSome) :
    Spelled b keys key := by
  obtain ⟨name, hmem⟩ := isSome_lookup_iff.mp h
  obtain ⟨user, -, ⟨k, hk, hsame⟩, hlower, -⟩ := mem_loadUserNamesForPubkeys.mp hmem
  refine ⟨by rw [← hlower, lower_lower], ?_⟩
  intro hsqlite
  rw [hsqlite] at hsame
  have heq : hex user.val.publicKey = k := sameText_sqlite.mp hsame
  rw [← (denotes_of_lower_hex hlower).hex_eq, heq]
  exact hk

/-- The filter passes a user whose key is listed as it looks for it. -/
theorem exists_sameText (hkey : key ∈ keys) (hspelled : Spelled b keys key)
    (hden : Denotes key bin) : ∃ k ∈ keys, sameText b.dialect (hex bin) k = true := by
  cases hb : b.dialect with
  | mysql => exact ⟨key, hkey, sameText_mysql.mpr hden⟩
  | sqlite => exact ⟨upper key, hspelled.2 hb, sameText_sqlite.mpr hden.hex_eq⟩

theorem isSome_of_spelled (hkey : key ∈ keys) (hspelled : Spelled b keys key)
    (h : NameOf db key name) : ((User.loadUserNamesForPubkeys keys db).lookup key).isSome := by
  obtain ⟨user, hmem, hden, hname⟩ := h
  exact isSome_lookup_iff.mpr ⟨name, mem_loadUserNamesForPubkeys.mpr
    ⟨user, hmem, exists_sameText hkey hspelled hden, hden.lower_hex hspelled.1, hname⟩⟩

/-- **A key of the list is resolved** exactly where no user has its bytes, or it is spelled in lower
case and, on SQLite, listed in capitals as well. -/
theorem resolved_iff (hkey : key ∈ keys) :
    Resolved db (User.loadUserNamesForPubkeys keys db) key ↔
      ((∃ name, NameOf db key name) → key = lower key ∧ (b.dialect = .sqlite → upper key ∈ keys)) := by
  constructor
  · intro h hex
    exact spelled_of_isSome (h.isSome.mpr hex)
  · intro h
    refine ⟨⟨?_, ?_⟩, fun _ => nameOf_of_lookup⟩
    · intro hsome
      obtain ⟨name, hlookup⟩ := Option.isSome_iff_exists.mp hsome
      exact ⟨name, nameOf_of_lookup hlookup⟩
    · rintro ⟨name, hname⟩
      exact isSome_of_spelled hkey (h ⟨name, hname⟩) hname

/-- The pair that a lookup in the map of a table finds. -/
theorem lookup_map {α : Type} {f g : α → String} (l : List α) :
    (l.map fun x => (f x, g x)).lookup key = (l.find? fun x => f x == key).map g := by
  induction l with
  | nil => rfl
  | cons x rest ih =>
    rw [List.map_cons, List.lookup_cons, List.find?_cons, ih, Bool.beq_comm]
    cases f x == key <;> rfl

/-- **Of several users with the bytes of a key** the first is found. -/
theorem lookup_of_spelled (hkey : key ∈ keys) (hspelled : Spelled b keys key) :
    (User.loadUserNamesForPubkeys keys db).lookup key =
      (owners key db).head?.map fun user => user.val.name := by
  rw [User.loadUserNamesForPubkeys, lookup_map, owners, Base.Table.select, Base.Table.select,
    List.find?_filter, List.head?_filter]
  refine congrArg (fun p => (db.users.rows.find? p).map fun user => user.val.name) ?_
  funext user
  rw [← hspelled.1]
  by_cases h : lower (hex user.val.publicKey) = key
  · have hpass := exists_sameText hkey hspelled (denotes_of_lower_hex h)
    simp [List.any_eq_true.mpr hpass, h]
  · simp [h]

/-- Nobody is found without a key. -/
theorem lookup_empty (h : "" ∉ keys) :
    (User.loadUserNamesForPubkeys keys db).lookup "" = none := by
  rw [← Option.not_isSome_iff_eq_none]
  intro hsome
  obtain ⟨name, hmem⟩ := isSome_lookup_iff.mp hsome
  obtain ⟨user, -, ⟨k, hk, hsame⟩, hlower, -⟩ := mem_loadUserNamesForPubkeys.mp hmem
  refine h ?_
  have hden : Denotes k user.val.publicKey := by
    cases hb : b.dialect with
    | mysql =>
      rw [hb] at hsame
      exact sameText_mysql.mp hsame
    | sqlite =>
      rw [hb] at hsame
      exact congrArg lower (sameText_sqlite.mp hsame)
  have hk' : lower k = "" := hden.symm.trans hlower
  have hnil : k.toList = [] := by simpa [lower] using congrArg String.toList hk'
  rwa [String.toList_eq_nil_iff.mp hnil] at hk

/-! ## Spellings that miss -/

/-- A database with one user, whose public key is the byte `ab`. -/
def aliceOnly (b : Backend) : Db b where
  __ := Db.empty (b := b)
  users := ⟨[⟨1, ⟨"alice", 1, 0, [0xab], []⟩⟩], 2, by simp, by simp, List.pairwise_singleton _ _⟩

theorem nameOf_alice (b : Backend) (h : lower key = "ab") : NameOf (aliceOnly b) key "alice" :=
  ⟨⟨1, ⟨"alice", 1, 0, [0xab], []⟩⟩, List.mem_cons_self, Eq.trans (by decide) h.symm, rfl⟩

/-- Alice's key in lower case, on MySQL. -/
theorem resolved_alice : Resolved (aliceOnly plainMysql)
    (User.loadUserNamesForPubkeys ["ab"] (aliceOnly plainMysql)) "ab" :=
  (resolved_iff List.mem_cons_self).mpr fun _ => ⟨by decide, fun h => absurd h (by decide)⟩

/-- SQLite does not find Alice's key in lower case, as the node sends it. On MySQL the capitals
pass the filter, and the lookup misses them. -/
theorem spelling_missed :
    ¬ Resolved (aliceOnly plainSqlite)
      (User.loadUserNamesForPubkeys ["ab"] (aliceOnly plainSqlite)) "ab" ∧
    ¬ Resolved (aliceOnly plainMysql)
      (User.loadUserNamesForPubkeys ["AB"] (aliceOnly plainMysql)) "AB" := by
  constructor
  · intro h
    exact absurd (h.isSome.mpr ⟨_, nameOf_alice plainSqlite (by decide)⟩) (by decide)
  · intro h
    exact absurd (h.isSome.mpr ⟨_, nameOf_alice plainMysql (by decide)⟩) (by decide)

end GradidoConnector
