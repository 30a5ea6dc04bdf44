import GradidoConnector.Base.Members
import GradidoConnector.JsonTransaction

/-!
# Listing transactions

Model of `JSONInterface/JsonListTransactions.cpp`, `handle`. The Gradido Node's list comes back with
the names of the linked users from the database and with the memos decrypted.

* A `FindMember` whose result is read although the member is missing, and an accessor on a value of
  the wrong type, is `Exn.crash`.
* The key of a linked user is read with its length, its type and the memo as C strings.
* `g_base64RegExp.match` is anchored and wants a non-empty subject, which it has to match whole; the
  alternatives of the expression exclude each other, so the match is a recursion (`base64RegExp`).
* `RemoveMember` puts the last member into the place of the removed one (`Base.Members`).

Results:
* `exec_handle_of_error`, `of_success`: a call without a session, and one that ends in success.
* `enrich_memo`: what becomes of the memo of a transaction.
* **`listed_memo`**: the same for a transaction anywhere in the list of a success document.
-/

namespace GradidoConnector

open GradidoConnector.Base GradidoConnector.Base.Act

/-! ## `rapidjson` -/

namespace Json

/-- `std::string(GetString(), GetStringLength())` -/
def getWholeString : Json → Except Exn String
  | str s => .ok s
  | _ => .error (.crash "IsString()")

/-- `FindMember(name)`, `none` for `MemberEnd()`. -/
def findMember (name : String) : Json → Except Exn (Option Json)
  | obj members => .ok (members.lookup name)
  | _ => .error (.crash "IsObject()")

/-- The value at `FindMember(name)`. -/
def findValue (name : String) (json : Json) : Except Exn Json := do
  match ← json.findMember name with
  | some value => return value
  | none => throw (.crash "MemberEnd()")

/-- Another value at `FindMember(name)`. -/
def writeMember (name : String) : Json → Json → Except Exn Json
  | obj members, value => .ok (obj (Members.write name value members))
  | _, _ => .error (.crash "IsObject()")

/-- `RemoveMember(name)` -/
def removeMember (name : String) : Json → Except Exn Json
  | obj members => .ok (obj (Members.remove name members))
  | _ => .error (.crash "IsObject()")

/-- `RemoveMember(name)` and `AddMember(name, value)`. -/
def replaceMember (name : String) : Json → Json → Except Exn Json
  | obj members, value => .ok (obj (Members.remove name members ++ [(name, value)]))
  | _, _ => .error (.crash "IsObject()")

end Json

namespace JsonListTransactions

open JsonTransaction

variable {b : Backend}

/-! ## The code -/

/-- `[a-zA-Z0-9+/]` -/
def isBase64Char (c : Char) : Bool := c.isAlphanum || c == '+' || c == '/'

/--
`^(?:[a-zA-Z0-9+/]{4})*(?:|(?:[a-zA-Z0-9+/]{3}=)|(?:[a-zA-Z0-9+/]{2}==)|(?:[a-zA-Z0-9+/]{1}===))$`
-/
def base64RegExp : List Char → Bool
  | [] => true
  | a :: b :: c :: d :: rest =>
    if isBase64Char a && isBase64Char b && isBase64Char c && isBase64Char d then base64RegExp rest
    else
      isBase64Char a && rest.isEmpty && d == '=' &&
        ((isBase64Char b && isBase64Char c) || (isBase64Char b && c == '=') || (b == '=' && c == '='))
  | _ => false

/-- `g_base64RegExp.match(s)` -/
def isBase64 (s : String) : Bool := !s.isEmpty && base64RegExp s.toList

/-- A request to list transactions: the members of its body, with what its handler got from the
connection. -/
structure ListRequest where
  params : List (String × Json)
  jwtToken : String
  clientIp : String

/-- The request to the Gradido Node for the transactions of the session's key. -/
def nodeParams (lib : Library) (params : List (String × Json)) (session : Session)
    (keyPair : KeyPair) : List (String × Json) :=
  params ++ [("pubkey", .str (cString (lib.binToHex keyPair.publicKey))),
    ("groupAlias", .str (cString session.mGroupAlias))]

/-- The list from the Gradido Node, or the error document. -/
def askNode (w : World) (params : List (String × Json)) : Act (Server b) Exn (Except Document Json) :=
  tryCatch (do
    let jsonAnswear ← Server.perform (fun s => w.request s.trace "listtransactions" params)
      (.request "listtransactions" params)
    return .ok jsonAnswear)
  fun e =>
    if e.baseClass = some .gradidoBlockchainException then
      return .error (.stateError "error by requesting Gradido Node")
    else throw e

/-- `linkedUser["pubkey"]` of a transaction. -/
def linkedPubkey (transaction : Json) : Except Exn String := do
  (← (← transaction.findValue "linkedUser").member "pubkey").getWholeString

/-- The public keys of the linked users, each once. -/
def collectPubkeys : List Json → List String → Except Exn (List String)
  | [], pubkeys => .ok pubkeys
  | transaction :: rest, pubkeys => do
    let pubkey ← linkedPubkey transaction
    collectPubkeys rest
      (if pubkey.isEmpty || pubkeys.contains pubkey then pubkeys else pubkeys ++ [pubkey])

/-- The linked user of a creation keeps its name. -/
def swapFirstName : Option Json → Except Exn Bool
  | none => .ok true
  | some typeId => do return (← typeId.getString) != "CREATE"

/-- `linkedUser` without its key and with the name from the database. -/
def replaceUser (userName : Option String) (typeId : Option Json) (linkedUser : Json) :
    Except Exn Json := do
  let linkedUser ← linkedUser.removeMember "pubkey"
  match userName with
  | none => return linkedUser
  | some userName =>
    if ← swapFirstName typeId then
      linkedUser.replaceMember "firstName" (.str (cString userName))
    else return linkedUser

/-- The memo decrypted, `none` where it stays as it is. -/
def readMemo (lib : Library) (privateKey : Bytes) (pubkeyHex memo : String) :
    Except Exn (Option String) :=
  if isBase64 memo then
    match lib.hexToBin pubkeyHex with
    | none => .ok none
    | some pubkey => do
      let clearMemo ← decryptMemo lib memo pubkey privateKey
      return if clearMemo.isEmpty then none else some (cString clearMemo)
  else .ok none

/-- The memo of a transaction with a type is decrypted. -/
def replaceMemo (lib : Library) (privateKey : Bytes) (pubkeyHex : String) (typeId : Option Json)
    (transaction : Json) : Except Exn Json := do
  match ← transaction.findMember "memo", typeId with
  | some memo, some typeId =>
    let memo ← memo.getString
    let _ ← typeId.getString
    match ← readMemo lib privateKey pubkeyHex memo with
    | some clearMemo => transaction.replaceMember "memo" (.str clearMemo)
    | none => return transaction
  | _, _ => return transaction

/-- One transaction of the list with the name of its linked user and its memo. -/
def enrich (lib : Library) (privateKey : Bytes) (hexPubkeyUserNames : List (String × String))
    (transaction : Json) : Except Exn Json := do
  let linkedUser ← transaction.findValue "linkedUser"
  let pubkeyHex ← linkedPubkey transaction
  let typeId ← transaction.findMember "typeId"
  let linkedUser ← replaceUser (hexPubkeyUserNames.lookup pubkeyHex) typeId linkedUser
  let transaction ← transaction.writeMember "linkedUser" linkedUser
  replaceMemo lib privateKey pubkeyHex typeId transaction

/-- `transactionList` of the answer, with its transactions enriched where some linked user
has a key. -/
def enrichList (lib : Library) (privateKey : Bytes)
    (loadUserNames : List String → List (String × String)) (jsonAnswear : Json) :
    Except Exn Json := do
  let result ← jsonAnswear.findValue "result"
  let transactionList ← result.findValue "transactionList"
  let transactions ← (← transactionList.findValue "transactions").getArray
  let pubkeys ← collectPubkeys transactions []
  if pubkeys.isEmpty then return transactionList
  else
    let transactions ← transactions.mapM (enrich lib privateKey (loadUserNames pubkeys))
    transactionList.writeMember "transactions" (.arr transactions)

def handle (w : World) (request : ListRequest) : Act (Server b) Exn Document := do
  let session ← Server.onSessions
    (SessionManager.getSession w.cfg request.jwtToken request.clientIp)
  match session.mUserKeyPair with
  | none => throw (.crash "getPublicKey()")
  | some keyPair =>
    match ← askNode w (nodeParams w.lib request.params session keyPair) with
    | .error document => return document
    | .ok jsonAnswear =>
      let s ← get
      let transactionList ← answer (enrichList w.lib keyPair.privateKey
        (fun pubkeys => User.loadUserNamesForPubkeys pubkeys s.sessions.db) jsonAnswear)
      return Document.stateSuccess.addMember "transactionList" transactionList

/-! ## A call as a whole -/

section Handle

variable {w : World} {request : ListRequest} {s : Server b}

/-- An exception of `getSession` leaves the handler. -/
theorem exec_handle_of_error {e : Exn}
    (h : (exec (SessionManager.getSession w.cfg request.jwtToken request.clientIp) s.sessions).1 =
      .error e) : (exec (handle w request) s).1 = .error e := by
  unfold handle
  simp only [exec_bind, Server.onSessions, exec_within, h]

/-- **With a session and an answer of the node** the document lists the enriched transactions. -/
theorem exec_handle_of_answer {session : Session} {keyPair : KeyPair} {jsonAnswear : Json}
    (hsession : (exec (SessionManager.getSession w.cfg request.jwtToken request.clientIp)
      s.sessions).1 = .ok session)
    (hkey : session.mUserKeyPair = some keyPair)
    (hanswer : w.request s.trace "listtransactions" (nodeParams w.lib request.params session keyPair) =
      .ok jsonAnswear) :
    (exec (handle w request) s).1 =
      (enrichList w.lib keyPair.privateKey
        (fun pubkeys => User.loadUserNamesForPubkeys pubkeys s.sessions.db) jsonAnswear).map
          (Document.stateSuccess.addMember "transactionList") := by
  have hdb : (exec (SessionManager.getSession w.cfg request.jwtToken request.clientIp)
      s.sessions).2.db = s.sessions.db := by
    rcases SessionManager.getSession_after w.cfg s.sessions request.jwtToken request.clientIp with
      h | ⟨name, h⟩ <;> rw [h]
    rfl
  unfold handle
  simp only [exec_bind, Server.onSessions, exec_within, hsession, hkey, askNode, exec_tryCatch,
    Server.exec_perform, hanswer, exec_pure, exec_get, exec_answer, Server.log, hdb]
  cases enrichList w.lib keyPair.privateKey _ jsonAnswear <;> rfl

/-- **A success document** is the enriched list of the node's answer, for the session of
the token. -/
theorem of_success {members : List (String × Json)}
    (h : (exec (handle w request) s).1 = .ok (.success members)) :
    ∃ session keyPair jsonAnswear names transactionList,
      (exec (SessionManager.getSession w.cfg request.jwtToken request.clientIp) s.sessions).1 =
        .ok session ∧
      session.mUserKeyPair = some keyPair ∧
      w.request s.trace "listtransactions" (nodeParams w.lib request.params session keyPair) =
        .ok jsonAnswear ∧
      enrichList w.lib keyPair.privateKey names jsonAnswear = .ok transactionList ∧
      members = [("transactionList", transactionList)] := by
  cases hsession : (exec (SessionManager.getSession w.cfg request.jwtToken request.clientIp)
      s.sessions).1 with
  | error e =>
    rw [exec_handle_of_error hsession] at h
    cases h
  | ok session =>
    unfold handle at h
    simp only [exec_bind, Server.onSessions, exec_within, hsession] at h
    cases hkey : session.mUserKeyPair with
    | none =>
      rw [hkey] at h
      cases h
    | some keyPair =>
      rw [hkey] at h
      simp only [askNode, exec_bind, exec_tryCatch, Server.exec_perform] at h
      cases hanswer : w.request s.trace "listtransactions"
          (nodeParams w.lib request.params session keyPair) with
      | error e =>
        rw [hanswer] at h
        dsimp only at h
        by_cases hbase : e.baseClass = some .gradidoBlockchainException
        · rw [if_pos hbase] at h
          cases h
        · rw [if_neg hbase] at h
          cases h
      | ok jsonAnswear =>
        rw [hanswer] at h
        simp only [exec_pure, exec_bind, exec_get, exec_answer] at h
        split at h
        · rename_i transactionList _ henrich
          cases h
          exact ⟨session, keyPair, jsonAnswear, _, transactionList, rfl, hkey, hanswer,
            congrArg Prod.fst henrich, rfl⟩
        · cases h

end Handle

/-! ## The memo of a listed transaction -/

section Memo

variable {lib : Library} {privateKey : Bytes} {names : List (String × String)}

/-- Every key of a linked user is collected. -/
theorem mem_collectPubkeys {transactions : List Json} {pubkeys collected : List String}
    (h : collectPubkeys transactions pubkeys = .ok collected) :
    (∀ pubkey ∈ pubkeys, pubkey ∈ collected) ∧
      ∀ transaction ∈ transactions, ∃ pubkey, linkedPubkey transaction = .ok pubkey ∧
        (pubkey.isEmpty = true ∨ pubkey ∈ collected) := by
  induction transactions generalizing pubkeys with
  | nil =>
    cases h
    exact ⟨fun _ hp => hp, fun _ ht => absurd ht List.not_mem_nil⟩
  | cons transaction rest ih =>
    rw [collectPubkeys] at h
    obtain ⟨pubkey, hpubkey, h⟩ := bind_eq_ok.mp h
    obtain ⟨hkept, hrest⟩ := ih h
    have hthis : pubkey.isEmpty = true ∨ pubkey ∈ collected := by
      by_cases hempty : pubkey.isEmpty = true
      · exact Or.inl hempty
      · by_cases hmem : pubkeys.contains pubkey = true
        · refine Or.inr (hkept pubkey ?_)
          rw [if_pos (by rw [hmem, Bool.or_true])]
          exact List.contains_iff_mem.mp hmem
        · refine Or.inr (hkept pubkey ?_)
          rw [if_neg (by simpa [hempty] using hmem)]
          exact List.mem_append_right _ List.mem_cons_self
    refine ⟨fun p hp => hkept p ?_, fun t ht => ?_⟩
    · split
      · exact hp
      · exact List.mem_append_left _ hp
    · rcases List.mem_cons.mp ht with rfl | ht
      · exact ⟨pubkey, hpubkey, hthis⟩
      · exact hrest t ht

/-- A transaction with a linked user, a type and a memo, no name of a member twice. -/
structure Listed (transaction : Json) (pubkeyHex memo : String) : Prop where
  members : ∃ members, transaction = .obj members ∧ (Members.names members).Nodup ∧
    members.lookup "memo" = some (.str memo) ∧ ∃ typeId, members.lookup "typeId" = some (.str typeId)
  pubkey : linkedPubkey transaction = .ok pubkeyHex

/-- The memo of a transaction. -/
def memoOf (transaction : Json) : Option Json :=
  match transaction with
  | .obj members => members.lookup "memo"
  | _ => none

/-- **What becomes of the memo of a transaction.** -/
theorem enrich_memo {transaction enriched : Json} {pubkeyHex memo : String}
    (hlisted : Listed transaction pubkeyHex memo)
    (h : enrich lib privateKey names transaction = .ok enriched) :
    ∃ clearMemo, readMemo lib privateKey pubkeyHex (cString memo) = .ok clearMemo ∧
      memoOf enriched = some (.str (clearMemo.getD memo)) := by
  obtain ⟨⟨members, rfl, hnodup, hmemo, typeId, htype⟩, hpubkey⟩ := hlisted
  unfold enrich at h
  obtain ⟨linkedUser, -, h⟩ := bind_eq_ok.mp h
  obtain ⟨found, hfound, h⟩ := bind_eq_ok.mp h
  obtain rfl : found = pubkeyHex := Except.ok.inj (hfound.symm.trans hpubkey)
  obtain ⟨foundType, hfoundType, h⟩ := bind_eq_ok.mp h
  obtain rfl : foundType = some (.str typeId) := Except.ok.inj (hfoundType.symm.trans (congrArg _ htype))
  obtain ⟨linkedUser', -, h⟩ := bind_eq_ok.mp h
  obtain ⟨written, hwritten, h⟩ := bind_eq_ok.mp h
  cases hwritten
  -- the memo is read from the transaction with its linked user replaced
  have hmemo' : (Members.write "linkedUser" linkedUser' members).lookup "memo" = some (.str memo) :=
    (Members.lookup_write_of_ne (by decide)).trans hmemo
  have hnodup' : (Members.names (Members.write "linkedUser" linkedUser' members)).Nodup := by
    rwa [Members.names_write]
  unfold replaceMemo at h
  obtain ⟨memoFound, hmemoFound, h⟩ := bind_eq_ok.mp h
  obtain rfl : memoFound = some (.str memo) :=
    Except.ok.inj (hmemoFound.symm.trans (congrArg _ hmemo'))
  dsimp only at h
  obtain ⟨memoText, hmemoText, h⟩ := bind_eq_ok.mp h
  cases hmemoText
  obtain ⟨typeText, -, h⟩ := bind_eq_ok.mp h
  obtain ⟨clearMemo, hread, h⟩ := bind_eq_ok.mp h
  refine ⟨clearMemo, hread, ?_⟩
  cases clearMemo with
  | none =>
    cases h
    exact hmemo'
  | some clear =>
    cases h
    exact Members.lookup_replace hnodup'

/-- The transactions of a `transactionList`. -/
def transactionsOf (transactionList : Json) : Option (List Json) :=
  match transactionList with
  | .obj members =>
    match members.lookup "transactions" with
    | some (.arr transactions) => some transactions
    | _ => none
  | _ => none

theorem transactionsOf_eq_some {transactionList : Json} {transactions : List Json} :
    transactionsOf transactionList = some transactions ↔
      ∃ members, transactionList = .obj members ∧
        members.lookup "transactions" = some (.arr transactions) := by
  constructor
  · intro h
    cases transactionList with
    | obj members =>
      refine ⟨members, rfl, ?_⟩
      rw [transactionsOf] at h
      split at h
      · rename_i hlookup
        rw [hlookup, Option.some.inj h]
      · cases h
    | _ => cases h
  · rintro ⟨members, rfl, h⟩
    rw [transactionsOf, h]

/-- `result.transactionList` of an answer of the node. -/
def listOf (jsonAnswear : Json) : Except Exn Json := do
  (← jsonAnswear.findValue "result").findValue "transactionList"

/-- **The memo of a transaction anywhere in the list**, where its linked user has a key. -/
theorem listed_memo {loadUserNames : List String → List (String × String)}
    {jsonAnswear given transactionList : Json} {transactions : List Json}
    {i : Nat} {transaction : Json} {pubkeyHex memo : String}
    (hgiven : listOf jsonAnswear = .ok given)
    (htransactions : transactionsOf given = some transactions)
    (hi : transactions[i]? = some transaction) (hlisted : Listed transaction pubkeyHex memo)
    (hkey : pubkeyHex.isEmpty = false)
    (h : enrichList lib privateKey loadUserNames jsonAnswear = .ok transactionList) :
    ∃ enriched listed clearMemo, transactionsOf transactionList = some listed ∧
      listed.length = transactions.length ∧ listed[i]? = some enriched ∧
      readMemo lib privateKey pubkeyHex (cString memo) = .ok clearMemo ∧
      memoOf enriched = some (.str (clearMemo.getD memo)) := by
  unfold enrichList at h
  obtain ⟨result, hresult, h⟩ := bind_eq_ok.mp h
  obtain ⟨found, hfound, h⟩ := bind_eq_ok.mp h
  obtain rfl : found = given := by
    rw [listOf, hresult] at hgiven
    exact Except.ok.inj (hfound.symm.trans hgiven)
  obtain ⟨array, harray, h⟩ := bind_eq_ok.mp h
  obtain ⟨elements, helements, h⟩ := bind_eq_ok.mp h
  obtain ⟨members, rfl, harr⟩ := transactionsOf_eq_some.mp htransactions
  obtain rfl : array = .arr transactions := by
    rw [Json.findValue, Json.findMember, harr] at harray
    exact (Except.ok.inj harray).symm
  cases helements
  obtain ⟨pubkeys, hpubkeys, h⟩ := bind_eq_ok.mp h
  have hmem := List.mem_of_getElem? hi
  obtain ⟨pubkey, hpubkey, hcollected⟩ := (mem_collectPubkeys hpubkeys).2 transaction hmem
  obtain rfl : pubkey = pubkeyHex := Except.ok.inj (hpubkey.symm.trans hlisted.pubkey)
  have hsome : pubkeys.isEmpty = false := by
    rcases hcollected with hempty | hin
    · rw [hkey] at hempty
      cases hempty
    · exact List.isEmpty_eq_false_iff_exists_mem.mpr ⟨_, hin⟩
  rw [hsome] at h
  obtain ⟨listed, hmap, h⟩ := bind_eq_ok.mp h
  cases h
  obtain ⟨enriched, hget, henrich⟩ := getElem?_of_mapM hmap hi
  obtain ⟨clearMemo, hread, hmemo⟩ := enrich_memo hlisted henrich
  exact ⟨enriched, listed, clearMemo,
    transactionsOf_eq_some.mpr ⟨_, rfl, Members.lookup_write_self harr⟩,
    (forall₂_of_mapM hmap).length_eq.symm, hget, hread, hmemo⟩

end Memo

end JsonListTransactions

end GradidoConnector
