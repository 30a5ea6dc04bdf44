import GradidoConnector.EffectTrace
import GradidoConnector.JsonListTransactions

/-!
# Answers of the Gradido Node

The calls of `GradidoNodeRPC` look for the members they read, but not at the type of what they find,
and `JsonListTransactions` looks for none. An accessor of `rapidjson` on another type fails its
assertion, which ends the process.

* `Answers` is the shape of an answer that a call can read: an object, with an object for `result`
  if there is one, with a value of the right type if that has the member.
* `Listable` is the shape of a list of transactions that `JsonListTransactions` can read.

Results:
* `settled_reading_iff`: a call returns a value or throws a documented exception exactly for
  `Answers`.
* `enrichList_ok_iff`: a list is enriched exactly if it is `Listable`.
* **`answered_iff`**: both, for the four calls and for the handler.
-/

namespace GradidoConnector

open GradidoConnector.Base GradidoConnector.Base.Act

open GradidoNodeRPC

variable {b : Backend}

/-! ## Types of values -/

namespace Json

def IsString (value : Json) : Prop := ∃ s, value = .str s

def IsUint64 (value : Json) : Prop := ∃ n : Int, value = .int n ∧ 0 ≤ n ∧ n < 2 ^ 64

def IsUint64s (value : Json) : Prop := ∃ elements, value = .arr elements ∧ ∀ e ∈ elements, IsUint64 e

theorem hasMember_obj (name : String) (members : List (String × Json)) :
    hasMember name (.obj members) = .ok (members.lookup name).isSome := by
  rw [hasMember, Except.ok.injEq]
  induction members with
  | nil => rfl
  | cons m rest ih =>
    rw [List.any_cons, List.lookup_cons, ih, Bool.beq_comm]
    cases name == m.1 <;> rfl

theorem member_obj (name : String) (members : List (String × Json)) :
    member name (.obj members) = match members.lookup name with
      | some value => .ok value
      | none => .error (.crash "member not found") := by
  rw [member]
  induction members with
  | nil => rfl
  | cons m rest ih =>
    rw [List.lookup_cons, List.find?_cons, Bool.beq_comm]
    cases name == m.1 with
    | true => rfl
    | false => exact ih

/-- An accessor reads the values of one type and ends the process on all others. -/
structure Reads {α : Type} (get : Json → Except Exn α) (P : Json → Prop) : Prop where
  ok_iff : ∀ value, (∃ a, get value = .ok a) ↔ P value
  crash : ∀ value e, get value = .error e → ∃ why, e = .crash why

theorem reads_getString : Reads getString IsString where
  ok_iff value := by cases value <;> simp [getString, IsString]
  crash value e h := by cases value <;> cases h <;> exact ⟨_, rfl⟩

theorem reads_getWholeString : Reads getWholeString IsString where
  ok_iff value := by cases value <;> simp [getWholeString, IsString]
  crash value e h := by cases value <;> cases h <;> exact ⟨_, rfl⟩

theorem reads_getUint64 : Reads getUint64 IsUint64 where
  ok_iff value := by
    cases value with
    | int n =>
      simp only [getUint64, IsUint64]
      split
      · rename_i h
        exact iff_of_true ⟨_, rfl⟩ ⟨n, rfl, h⟩
      · rename_i h
        refine iff_of_false (by rintro ⟨_, ⟨⟩⟩) ?_
        rintro ⟨m, hm, hrange⟩
        cases hm
        exact h hrange
    | _ => simp [getUint64, IsUint64]
  crash value e h := by
    cases value with
    | int n =>
      simp only [getUint64] at h
      split at h <;> cases h
      exact ⟨_, rfl⟩
    | _ =>
      cases h
      exact ⟨_, rfl⟩

/-- A list that is read up to its first error crashes where an element does. -/
theorem crash_of_mapM {α : Type} {get : Json → Except Exn α} {P : Json → Prop} (hget : Reads get P)
    {elements : List Json} {e : Exn} (h : elements.mapM get = .error e) : ∃ why, e = .crash why := by
  induction elements with
  | nil => cases h
  | cons value rest ih =>
    rw [List.mapM_cons] at h
    cases hvalue : get value with
    | error e' =>
      rw [hvalue] at h
      cases h
      exact hget.crash value e hvalue
    | ok a =>
      rw [hvalue] at h
      cases hrest : rest.mapM get with
      | error e' =>
        simp only [hrest, bind, Except.bind] at h
        cases h
        exact ih hrest
      | ok as =>
        simp only [hrest, bind, Except.bind] at h
        cases h

theorem reads_uint64s : Reads (fun value => value.getArray >>= fun elements =>
    elements.mapM getUint64) IsUint64s where
  ok_iff value := by
    rw [exists_bind_eq_ok]
    cases value with
    | arr elements =>
      simp only [getArray, Except.ok.injEq, exists_eq_left', exists_mapM_eq_ok,
        reads_getUint64.ok_iff, IsUint64s, arr.injEq]
    | _ => simp [getArray, IsUint64s]
  crash value e h := by
    cases value with
    | arr elements => exact crash_of_mapM reads_getUint64 h
    | _ =>
      cases h
      exact ⟨_, rfl⟩

end Json

/-! ## The calls -/

/-- A call returns a value, or throws a `GradidoNodeRPCException` or a
`RequestResponseErrorException`. -/
def Settled {α : Type} : Except Exn α → Prop
  | .ok _ => True
  | .error (.gradidoNodeRPCException ..) | .error (.requestResponseErrorException _) => True
  | .error _ => False

/-- The answer is an object, its `result` is one if it has one, and what that has under the name
is `P`. -/
def Answers (name : String) (P : Json → Prop) : Json → Prop
  | .obj members => ∀ result, members.lookup "result" = some result →
      ∃ inner, result = .obj inner ∧ ∀ value, inner.lookup name = some value → P value
  | _ => False

/-- What a call finds in an answer: a value, no member, or a value that it takes for an object. -/
theorem resultMember_cases (method missing name type : String) (doc : Json) :
    (∃ members inner value, doc = .obj members ∧ members.lookup "result" = some (.obj inner) ∧
      inner.lookup name = some value ∧ resultMember method missing name type doc = .ok value) ∨
    ((∀ P, Answers name P doc) ∧ ∃ what member type', resultMember method missing name type doc =
      .error (.rapidjsonMissingMemberException what member type')) ∨
    ((∀ P, ¬ Answers name P doc) ∧ ∃ why, resultMember method missing name type doc =
      .error (.crash why)) := by
  unfold resultMember
  cases doc with
  | obj members =>
    simp only [Json.hasMember_obj, bind, Except.bind]
    cases hresult : members.lookup "result" with
    | none =>
      refine Or.inr (Or.inl ⟨fun P result h => ?_, _, _, _, rfl⟩)
      rw [hresult] at h
      cases h
    | some result =>
      simp only [Json.member_obj, hresult]
      cases result with
      | obj inner =>
        simp only [Json.hasMember_obj]
        cases hvalue : inner.lookup name with
        | none =>
          refine Or.inr (Or.inl ⟨fun P result h => ?_, _, _, _, rfl⟩)
          rw [hresult] at h
          cases h
          exact ⟨inner, rfl, fun value h => by rw [hvalue] at h; cases h⟩
        | some value =>
          exact Or.inl ⟨members, inner, value, rfl, hresult, hvalue, by simp [Json.member_obj, hvalue]⟩
      | _ =>
        refine Or.inr (Or.inr ⟨fun P h => ?_, _, rfl⟩)
        obtain ⟨_, hinner, -⟩ := h _ hresult
        cases hinner
  | _ => exact Or.inr (Or.inr ⟨fun _ h => h, _, rfl⟩)

/-- **A call is settled exactly by an answer that it can read.** -/
theorem settled_reading_iff {α : Type} {lib : Library} {get : Json → Except Exn α} {P : Json → Prop}
    (hget : Json.Reads get P) (method missing name type : String) (doc : Json) :
    Settled (reading lib (fun result => resultMember method missing name type result >>= get)
      (.ok doc)) ↔ Answers name P doc := by
  have hbind : (Except.ok doc >>= fun result => resultMember method missing name type result >>= get) =
      resultMember method missing name type doc >>= get := rfl
  rw [reading, hbind]
  rcases resultMember_cases method missing name type doc with
    ⟨members, inner, value, rfl, hresult, hvalue, hfound⟩ | ⟨hanswers, what, member, type', hmissing⟩ |
      ⟨hnot, why, hcrash⟩
  · have hshape : Answers name P (.obj members) ↔ P value := by
      constructor
      · intro h
        obtain ⟨inner', hinner, hall⟩ := h _ hresult
        cases hinner
        exact hall value hvalue
      · intro h result hfound
        rw [hresult] at hfound
        cases hfound
        refine ⟨inner, rfl, fun value' hvalue' => ?_⟩
        rw [hvalue] at hvalue'
        cases hvalue'
        exact h
    rw [hshape, ← hget.ok_iff, hfound]
    simp only [bind, Except.bind]
    cases hread : get value with
    | ok a => exact iff_of_true trivial ⟨a, rfl⟩
    | error e =>
      obtain ⟨why, rfl⟩ := hget.crash value e hread
      refine iff_of_false id ?_
      rintro ⟨_, ⟨⟩⟩
  · rw [hmissing]
    exact iff_of_true trivial (hanswers P)
  · rw [hcrash]
    exact iff_of_false id (hnot P)

/-! ## The list -/

namespace JsonListTransactions

open JsonTransaction

variable {lib : Library} {privateKey : Bytes}

/-- A memo that looks like base64 is base64, where the key it is decrypted with is hex. -/
def MemoReadable (lib : Library) (pubkeyHex memo : String) : Prop :=
  isBase64 memo = true → lib.hexToBin pubkeyHex ≠ none → lib.base64ToBin memo ≠ none

/-- A transaction that can be enriched: its linked user has a key; it has a text for `typeId`, if it
has one and it is read, which it is where the linked user is renamed or there is a memo; and with a
`typeId` it has a memo that is a readable text, if it has one. -/
def Enrichable (lib : Library) (names : List (String × String)) (transaction : Json) : Prop :=
  ∃ members pubkeyHex, transaction = .obj members ∧ linkedPubkey transaction = .ok pubkeyHex ∧
    ∀ typeId, members.lookup "typeId" = some typeId →
      (names.lookup pubkeyHex ≠ none → typeId.IsString) ∧
      ∀ memo, members.lookup "memo" = some memo → typeId.IsString ∧
        ∃ text, memo = .str text ∧ MemoReadable lib pubkeyHex (cString text)

theorem linkedPubkey_eq_ok {transaction : Json} {pubkeyHex : String} :
    linkedPubkey transaction = .ok pubkeyHex ↔ ∃ members user, transaction = .obj members ∧
      members.lookup "linkedUser" = some (.obj user) ∧ user.lookup "pubkey" = some (.str pubkeyHex) := by
  unfold linkedPubkey
  constructor
  · intro h
    obtain ⟨found, hfound, hpubkey⟩ := bind_eq_ok.mp h
    obtain ⟨value, hvalue, htext⟩ := bind_eq_ok.mp hpubkey
    cases transaction with
    | obj members =>
      cases hlinked : members.lookup "linkedUser" with
      | none =>
        simp only [Json.findValue, Json.findMember, hlinked] at hfound
        cases hfound
      | some linkedUser =>
        simp only [Json.findValue, Json.findMember, hlinked] at hfound
        cases hfound
        cases found with
        | obj user =>
          rw [Json.member_obj] at hvalue
          cases hmember : user.lookup "pubkey" with
          | none =>
            rw [hmember] at hvalue
            cases hvalue
          | some pubkey =>
            rw [hmember] at hvalue
            obtain rfl := Except.ok.inj hvalue
            obtain ⟨s, rfl⟩ := (Json.reads_getWholeString.ok_iff pubkey).mp ⟨_, htext⟩
            cases htext
            exact ⟨members, user, rfl, hlinked, hmember⟩
        | _ => cases hvalue
    | _ => cases hfound
  · rintro ⟨members, user, rfl, hlinked, hpubkey⟩
    refine bind_eq_ok.mpr ⟨.obj user, ?_, bind_eq_ok.mpr ⟨.str pubkeyHex, ?_, rfl⟩⟩
    · simp only [Json.findValue, Json.findMember, hlinked]
      rfl
    · rw [Json.member_obj, hpubkey]

theorem readMemo_ok_iff {pubkeyHex memo : String} :
    (∃ r, readMemo lib privateKey pubkeyHex memo = .ok r) ↔ MemoReadable lib pubkeyHex memo := by
  unfold readMemo MemoReadable
  by_cases hbase : isBase64 memo = true
  · rw [if_pos hbase]
    cases hpubkey : lib.hexToBin pubkeyHex with
    | none => simp
    | some pubkey =>
      dsimp only
      rw [exists_bind_eq_ok, decryptMemo]
      cases hmemo : lib.base64ToBin memo with
      | none => simp [hbase]
      | some bin =>
        refine iff_of_true ?_ (by simp)
        dsimp only
        cases lib.decrypt (lib.skToCurve25519 privateKey) (lib.pkToCurve25519 pubkey) bin <;>
          exact ⟨_, rfl, _, rfl⟩
  · rw [if_neg hbase]
    exact iff_of_true ⟨_, rfl⟩ fun h => absurd h hbase

theorem replaceUser_ok_iff {userName : Option String} {typeId : Option Json}
    {user : List (String × Json)} :
    (∃ r, replaceUser userName typeId (.obj user) = .ok r) ↔
      ∀ value, typeId = some value → userName ≠ none → value.IsString := by
  cases userName with
  | none => exact iff_of_true ⟨_, rfl⟩ fun _ _ h => absurd rfl h
  | some userName =>
    have hswaps : replaceUser (some userName) typeId (.obj user) =
        swapFirstName typeId >>= fun swap => if swap = true then
          Json.replaceMember "firstName" (.obj (Members.remove "pubkey" user)) (.str (cString userName))
        else pure (.obj (Members.remove "pubkey" user)) := rfl
    rw [hswaps, exists_bind_eq_ok]
    cases typeId with
    | none =>
      exact iff_of_true ⟨true, rfl, _, rfl⟩ fun _ h => by cases h
    | some typeId =>
      have hswap : (∃ u, swapFirstName (some typeId) = .ok u ∧ ∃ v, (if u = true then
          Json.replaceMember "firstName" (.obj (Members.remove "pubkey" user)) (.str (cString userName))
          else pure (.obj (Members.remove "pubkey" user))) = Except.ok v) ↔
          ∃ s, typeId.getString = .ok s := by
        constructor
        · rintro ⟨u, hu, -⟩
          obtain ⟨s, hs, -⟩ := bind_eq_ok.mp hu
          exact ⟨s, hs⟩
        · rintro ⟨s, hs⟩
          refine ⟨s != "CREATE", bind_eq_ok.mpr ⟨s, hs, rfl⟩, ?_⟩
          split <;> exact ⟨_, rfl⟩
      refine hswap.trans ((Json.reads_getString.ok_iff typeId).trans ?_)
      simp

theorem replaceMemo_ok_iff {pubkeyHex : String} {typeId : Option Json}
    {members : List (String × Json)} :
    (∃ r, replaceMemo lib privateKey pubkeyHex typeId (.obj members) = .ok r) ↔
      ∀ value, typeId = some value → ∀ memo, members.lookup "memo" = some memo → value.IsString ∧
        ∃ text, memo = .str text ∧ MemoReadable lib pubkeyHex (cString text) := by
  unfold replaceMemo
  rw [exists_bind_eq_ok]
  simp only [Json.findMember, Except.ok.injEq, exists_eq_left']
  cases hmemo : members.lookup "memo" with
  | none => exact iff_of_true ⟨_, rfl⟩ fun _ _ _ h => by cases h
  | some memo =>
    cases typeId with
    | none => exact iff_of_true ⟨_, rfl⟩ fun _ h => by cases h
    | some typeId =>
      simp only [exists_bind_eq_ok, Option.some.injEq, forall_eq']
      constructor
      · rintro ⟨text, htext, type, htype, r, hread, -⟩
        obtain ⟨s, rfl⟩ := (Json.reads_getString.ok_iff memo).mp ⟨text, htext⟩
        cases htext
        exact ⟨(Json.reads_getString.ok_iff typeId).mp ⟨type, htype⟩, s, rfl,
          readMemo_ok_iff.mp ⟨r, hread⟩⟩
      · rintro ⟨⟨type, rfl⟩, text, rfl, hreadable⟩
        obtain ⟨r, hread⟩ : ∃ r, readMemo lib privateKey pubkeyHex (cString text) = .ok r :=
          readMemo_ok_iff.mpr hreadable
        refine ⟨cString text, rfl, cString type, rfl, r, hread, ?_⟩
        cases r <;> exact ⟨_, rfl⟩

/-- **A transaction is enriched exactly if it is enrichable.** -/
theorem enrich_ok_iff {names : List (String × String)} {transaction : Json} :
    (∃ r, enrich lib privateKey names transaction = .ok r) ↔ Enrichable lib names transaction := by
  unfold enrich
  constructor
  · intro h
    obtain ⟨linkedUser, hlinked, h⟩ := exists_bind_eq_ok.mp h
    obtain ⟨pubkeyHex, hpubkey, h⟩ := exists_bind_eq_ok.mp h
    obtain ⟨members, user, rfl, huser, -⟩ := linkedPubkey_eq_ok.mp hpubkey
    simp only [Json.findValue, Json.findMember, huser] at hlinked
    cases hlinked
    obtain ⟨typeId, htype, h⟩ := exists_bind_eq_ok.mp h
    cases htype
    obtain ⟨renamed, hrenamed, h⟩ := exists_bind_eq_ok.mp h
    obtain ⟨written, hwritten, h⟩ := exists_bind_eq_ok.mp h
    cases hwritten
    have hname := replaceUser_ok_iff.mp ⟨_, hrenamed⟩
    have hmemo := replaceMemo_ok_iff.mp h
    rw [Members.lookup_write_of_ne (by decide)] at hmemo
    exact ⟨members, pubkeyHex, rfl, hpubkey, fun typeId htype =>
      ⟨hname typeId htype, fun memo hm => hmemo typeId htype memo hm⟩⟩
  · rintro ⟨members, pubkeyHex, rfl, hpubkey, hall⟩
    obtain ⟨_, user, hobj, huser, -⟩ := linkedPubkey_eq_ok.mp hpubkey
    cases hobj
    obtain ⟨renamed, hrenamed⟩ : ∃ r, replaceUser (names.lookup pubkeyHex) (members.lookup "typeId")
        (.obj user) = .ok r :=
      replaceUser_ok_iff.mpr fun typeId htype hname => (hall typeId htype).1 hname
    refine exists_bind_eq_ok.mpr ⟨.obj user, ?_, exists_bind_eq_ok.mpr ⟨pubkeyHex, hpubkey,
      exists_bind_eq_ok.mpr ⟨_, rfl, exists_bind_eq_ok.mpr ⟨renamed, hrenamed,
        exists_bind_eq_ok.mpr ⟨_, rfl, replaceMemo_ok_iff.mpr ?_⟩⟩⟩⟩⟩
    · simp only [Json.findValue, Json.findMember, huser]
      rfl
    · rw [Members.lookup_write_of_ne (by decide)]
      exact fun typeId htype memo hmemo => (hall typeId htype).2 memo hmemo

theorem collectPubkeys_ok_iff {transactions : List Json} {pubkeys : List String} :
    (∃ collected, collectPubkeys transactions pubkeys = .ok collected) ↔
      ∀ transaction ∈ transactions, ∃ pubkey, linkedPubkey transaction = .ok pubkey := by
  induction transactions generalizing pubkeys with
  | nil => exact iff_of_true ⟨_, rfl⟩ fun _ h => absurd h List.not_mem_nil
  | cons transaction rest ih =>
    rw [collectPubkeys, exists_bind_eq_ok, List.forall_mem_cons]
    constructor
    · rintro ⟨pubkey, hpubkey, h⟩
      exact ⟨⟨pubkey, hpubkey⟩, ih.mp h⟩
    · rintro ⟨⟨pubkey, hpubkey⟩, h⟩
      exact ⟨pubkey, hpubkey, ih.mpr h⟩

/-- A list that can be enriched: the answer has a `result` with a `transactionList` with an array of
`transactions`, each with the key of a linked user; where one of the keys is not empty, each
can be enriched. -/
def Listable (lib : Library) (loadUserNames : List String → List (String × String))
    (jsonAnswear : Json) : Prop :=
  ∃ members result list transactions, jsonAnswear = .obj members ∧
    members.lookup "result" = some (.obj result) ∧
    result.lookup "transactionList" = some (.obj list) ∧
    list.lookup "transactions" = some (.arr transactions) ∧
    ∃ pubkeys, collectPubkeys transactions [] = .ok pubkeys ∧
      (pubkeys ≠ [] → ∀ transaction ∈ transactions, Enrichable lib (loadUserNames pubkeys) transaction)

theorem findValue_eq_ok {name : String} {json value : Json} :
    json.findValue name = .ok value ↔ ∃ members, json = .obj members ∧
      members.lookup name = some value := by
  cases json with
  | obj members =>
    simp only [Json.findValue, Json.findMember]
    cases h : members.lookup name with
    | none => exact iff_of_false (fun h => by cases h) (by rintro ⟨_, ⟨⟩, hm⟩; rw [h] at hm; cases hm)
    | some found =>
      constructor
      · intro hfound
        cases hfound
        exact ⟨members, rfl, h⟩
      · rintro ⟨_, ⟨⟩, hm⟩
        rw [h] at hm
        cases hm
        rfl
  | _ => exact iff_of_false (fun h => by cases h) (by rintro ⟨_, ⟨⟩, -⟩)

/-- **A list is enriched exactly if it is listable.** -/
theorem enrichList_ok_iff {loadUserNames : List String → List (String × String)} {jsonAnswear : Json} :
    (∃ r, enrichList lib privateKey loadUserNames jsonAnswear = .ok r) ↔
      Listable lib loadUserNames jsonAnswear := by
  unfold enrichList Listable
  simp only [exists_bind_eq_ok]
  constructor
  · rintro ⟨result, hresult, list, hlist, array, harray, transactions, helements, pubkeys, hpubkeys, h⟩
    obtain ⟨members, rfl, hm⟩ := findValue_eq_ok.mp hresult
    obtain ⟨inner, rfl, hi⟩ := findValue_eq_ok.mp hlist
    obtain ⟨listMembers, rfl, hl⟩ := findValue_eq_ok.mp harray
    cases array with
    | arr elements =>
      cases helements
      refine ⟨members, inner, listMembers, transactions, rfl, hm, hi, hl, pubkeys, hpubkeys,
        fun hne transaction ht => ?_⟩
      rw [if_neg (by simpa using hne), exists_bind_eq_ok] at h
      obtain ⟨enriched, henriched, -⟩ := h
      exact enrich_ok_iff.mp (exists_mapM_eq_ok.mp ⟨enriched, henriched⟩ transaction ht)
    | _ => cases helements
  · rintro ⟨members, inner, listMembers, transactions, rfl, hm, hi, hl, pubkeys, hpubkeys, hall⟩
    refine ⟨.obj inner, findValue_eq_ok.mpr ⟨members, rfl, hm⟩, .obj listMembers,
      findValue_eq_ok.mpr ⟨inner, rfl, hi⟩, .arr transactions,
      findValue_eq_ok.mpr ⟨listMembers, rfl, hl⟩, transactions, rfl, pubkeys, hpubkeys, ?_⟩
    by_cases hne : pubkeys = []
    · rw [if_pos (by simpa using hne)]
      exact ⟨_, rfl⟩
    · rw [if_neg (by simpa using hne), exists_bind_eq_ok]
      obtain ⟨enriched, henriched⟩ := exists_mapM_eq_ok.mpr fun transaction ht =>
        show ∃ r, enrich lib privateKey _ transaction = .ok r from
          enrich_ok_iff.mpr (hall hne transaction ht)
      exact ⟨enriched, henriched, _, rfl⟩

end JsonListTransactions

/-! ## All that reads answers -/

theorem settled_rpc_iff {α : Type} {w : World} {s : Server b} {method : String}
    {params : List (String × Json)} {read : Json → Except Exn α} {doc : Json}
    (hanswer : w.request s.trace method params = .ok doc) :
    Settled (exec (rpc w method params read) s).1 ↔ Settled (reading w.lib read (.ok doc)) := by
  rw [exec_rpc, hanswer]

/-- **Which answers are read.** Whatever document the node answers with, a call is settled exactly
if it has the shape that the call reads, and the handler of a session with a key returns a document
exactly if it is a list that can be enriched. -/
theorem answered_iff (w : World) (s : Server b) (doc : Json) :
    (∀ pubkeyHex dateString groupAlias coinGroupId,
      w.request s.trace "getaddressbalance"
        (balanceParams pubkeyHex dateString groupAlias coinGroupId) = .ok doc →
      (Settled (exec (getAddressBalance w pubkeyHex dateString groupAlias coinGroupId) s).1 ↔
        Answers "balance" Json.IsString doc)) ∧
    (∀ pubkeyHex groupAlias,
      w.request s.trace "getaddresstype" (addressParams pubkeyHex groupAlias) = .ok doc →
      (Settled (exec (getAddressType w pubkeyHex groupAlias) s).1 ↔
        Answers "addressType" Json.IsString doc)) ∧
    (∀ pubkeyHex groupAlias,
      w.request s.trace "getaddresstxids" (addressParams pubkeyHex groupAlias) = .ok doc →
      (Settled (exec (getAddressTxids w pubkeyHex groupAlias) s).1 ↔
        Answers "transactionNrs" Json.IsUint64s doc)) ∧
    (∀ pubkeyHex month year startDateString groupAlias,
      w.request s.trace "getcreationsumformonth"
        (creationSumParams pubkeyHex month year startDateString groupAlias) = .ok doc →
      (Settled (exec (getCreationSumForMonth w pubkeyHex month year startDateString groupAlias) s).1 ↔
        Answers "sum" Json.IsString doc)) ∧
    (∀ request session keyPair,
      (exec (SessionManager.getSession w.cfg request.jwtToken request.clientIp) s.sessions).1 =
        .ok session → session.mUserKeyPair = some keyPair →
      w.request s.trace "listtransactions"
        (JsonListTransactions.nodeParams w.lib request.params session keyPair) = .ok doc →
      ((∃ d, (exec (JsonListTransactions.handle w request) s).1 = .ok d) ↔
        JsonListTransactions.Listable w.lib
          (fun pubkeys => User.loadUserNamesForPubkeys pubkeys s.sessions.db) doc)) := by
  refine ⟨fun _ _ _ _ hanswer => (settled_rpc_iff hanswer).trans ?_,
    fun _ _ hanswer => (settled_rpc_iff hanswer).trans ?_,
    fun _ _ hanswer => (settled_rpc_iff hanswer).trans ?_,
    fun _ _ _ _ _ hanswer => (settled_rpc_iff hanswer).trans ?_,
    fun request session keyPair hsession hkey hanswer => ?_⟩
  · exact settled_reading_iff Json.reads_getString _ _ _ _ doc
  · exact settled_reading_iff Json.reads_getString _ _ _ _ doc
  · exact settled_reading_iff Json.reads_uint64s _ _ _ _ doc
  · exact settled_reading_iff Json.reads_getString _ _ _ _ doc
  · rw [JsonListTransactions.exec_handle_of_answer hsession hkey hanswer,
      ← @JsonListTransactions.enrichList_ok_iff w.lib keyPair.privateKey]
    cases JsonListTransactions.enrichList w.lib keyPair.privateKey _ doc with
    | ok list => exact iff_of_true ⟨_, rfl⟩ ⟨_, rfl⟩
    | error e => exact iff_of_false (fun ⟨_, h⟩ => by cases h) (fun ⟨_, h⟩ => by cases h)

/-! ### An empty result and none -/

/-- An address without transactions. -/
theorem settled_noTxids : Settled (exec (getAddressTxids plainWorld "aa" "gdd1") aliceServer).1 :=
  ((answered_iff plainWorld aliceServer (.obj [("result", .obj [("transactionNrs", .arr [])])])).2.2.1
    "aa" "gdd1" rfl).mpr (by
      rintro result ⟨⟩
      refine ⟨_, rfl, ?_⟩
      rintro value ⟨⟩
      exact ⟨[], rfl, by simp⟩)

/-- A node whose result is null. -/
def nullWorld : World where
  __ := plainWorld
  request _ _ _ := .ok (.obj [("result", .null)])

/-- It ends the process from a call and from the handler. -/
theorem null_asserted :
    ¬ Settled (exec (getAddressBalance nullWorld "aa" "" "gdd1" "") aliceServer).1 ∧
      ∃ why, (exec (JsonListTransactions.handle nullWorld ⟨[], SessionManager.aliceToken, "10.0.0.1"⟩)
        aliceServer).1 = .error (.crash why) :=
  ⟨id, _, by rfl⟩

end GradidoConnector
