import GradidoConnector.NodeAnswers
import GradidoConnector.PendingList

/-!
# What can end the process

A failed assertion of `rapidjson` and a null pointer end the process, and with it every session and
the list of pending transactions. `Reliable` is what the server relies on: the libraries, iota and
the Gradido Node do not end it themselves, the node answers in the shapes that the handlers read,
and a message id is hex. `Spelled` is what it relies on in the requests for `/login`,
`/packTransaction`, `/sendTransactionIota` and `/openCommunication`, whose handlers hand the result
of `hexToBin` on unseen; for `/notify` it is an id of 64 bytes.

For all other paths nothing is assumed: whatever is in the body, in the token and in the database,
and whatever fails, the handler answers or throws something that Poco takes.

Results:
* `quiet_handler`: the three transaction handlers, from any state whose sessions have their key.
* `keyed_of_run`: every session of a run has its key.
* **`up_of_reliable`**: with a reliable other side and such requests the process never ends.
-/

namespace GradidoConnector

open GradidoConnector.Base GradidoConnector.Base.Act

open JsonTransaction GradidoNodeRPC

variable {b : Backend} {τ : Type}

/-- The exception does not end the process. -/
def Exn.Survived (e : Exn) : Prop := ∀ why, e ≠ .crash why

/-- An answer that does not end the process. -/
def Quiet {α : Type} (answer : Except Exn α) : Prop := ∀ e, answer = .error e → e.Survived

theorem Exn.survived_of_baseClass {e : Exn} {base : BaseClass} (h : e.baseClass = some base) :
    e.Survived := by
  rintro why rfl
  cases h

theorem Exn.Caught.survived {e : Exn} (h : e.Caught) : e.Survived :=
  (Option.ne_none_iff_exists'.mp h.1).elim fun _ => Exn.survived_of_baseClass

theorem quiet_ok {α : Type} (a : α) : Quiet (.ok a : Except Exn α) := fun _ h => by cases h

theorem quiet_error {α : Type} {e : Exn} (h : e.Survived) : Quiet (.error e : Except Exn α) := by
  rintro _ ⟨⟩
  exact h

/-! ## What the server relies on -/

/-- The Gradido Node answers each question in the shape that its handler reads. -/
structure World.NodeKeeps (w : World) : Prop where
  quiet : ∀ trace method params, Quiet (w.request trace method params)
  balance : ∀ trace params doc, w.request trace "getaddressbalance" params = .ok doc →
    Answers "balance" Json.IsString doc
  addressType : ∀ trace params doc, w.request trace "getaddresstype" params = .ok doc →
    Answers "addressType" Json.IsString doc
  txids : ∀ trace params doc, w.request trace "getaddresstxids" params = .ok doc →
    Answers "transactionNrs" Json.IsUint64s doc
  sum : ∀ trace params doc, w.request trace "getcreationsumformonth" params = .ok doc →
    Answers "sum" Json.IsString doc
  put : ∀ trace params doc, w.request trace "puttransaction" params = .ok doc →
    ∃ members, doc = .obj members
  list : ∀ trace params doc, w.request trace "listtransactions" params = .ok doc →
    ∀ loadUserNames, JsonListTransactions.Listable w.lib loadUserNames doc

/-- A world that ends no process. -/
structure World.Keeps (w : World) : Prop extends w.NodeKeeps where
  verifyToken : ∀ token, Quiet (w.cfg.signer.verify token)
  sendMessage : ∀ trace index message, Quiet (w.sendMessage trace index message)
  create : ∀ trace data, Quiet (w.create trace data)
  createLeg : ∀ trace data leg, Quiet (w.createLeg trace data leg)
  sign : ∀ trace keyPair bodyBytes, Quiet (w.sign trace keyPair bodyBytes)
  validate : ∀ trace transaction, Quiet (w.validate trace transaction)
  calculateDecay : ∀ balance startDate endDate,
    Quiet (w.lib.calculateDecay balance startDate endDate)
  /-- An id of iota is hex. -/
  ids : ∀ trace index message id, w.sendMessage trace index message = .ok id →
    w.lib.hexToBin id ≠ none
  hexToBin_binToHex : ∀ bin, w.lib.hexToBin (w.lib.binToHex bin) ≠ none

/-! ## The Gradido Node -/

section Rpc

variable {w : World} {α : Type}

theorem survived_handleGradidoNodeRpcException {lib : Library} {e : Exn} (h : e.Survived) :
    (handleGradidoNodeRpcException lib e).Survived := by
  cases e with
  | crash why => exact absurd rfl (h why)
  | _ => exact fun _ h => by cases h

/-- A call whose answers have the shape it reads. -/
theorem throws_rpc {method what missing name type : String} {params : List (String × Json)}
    {get : Json → Except Exn α} {P : Json → Prop} (hget : Json.Reads get P) (hw : w.NodeKeeps)
    (hshape : ∀ trace doc, w.request trace method params = .ok doc → Answers name P doc) :
    Throws (rpc (b := b) w method params fun result =>
      resultMember what missing name type result >>= get) Exn.Survived := by
  intro s e he
  rw [exec_rpc] at he
  cases hanswer : w.request s.trace method params with
  | error e' =>
    rw [hanswer] at he
    cases he
    exact survived_handleGradidoNodeRpcException (hw.quiet _ _ _ e' hanswer)
  | ok doc =>
    rw [hanswer] at he
    have hsettled := (@settled_reading_iff _ w.lib _ _ hget what missing name type doc).mpr
      (hshape _ _ hanswer)
    replace he : reading w.lib _ (.ok doc) = .error e := he
    rw [he] at hsettled
    cases e with
    | crash why => exact hsettled.elim
    | _ => exact fun _ h => by cases h

theorem throws_getAddressBalance (hw : w.NodeKeeps)
    (pubkeyHex dateString groupAlias coinGroupId : String) :
    Throws (getAddressBalance (b := b) w pubkeyHex dateString groupAlias coinGroupId)
      Exn.Survived :=
  throws_rpc Json.reads_getString hw fun _ _ => hw.balance _ _ _

theorem throws_getAddressType (hw : w.NodeKeeps) (pubkeyHex groupAlias : String) :
    Throws (getAddressType (b := b) w pubkeyHex groupAlias) Exn.Survived :=
  throws_rpc Json.reads_getString hw fun _ _ => hw.addressType _ _ _

theorem throws_getAddressTxids (hw : w.NodeKeeps) (pubkeyHex groupAlias : String) :
    Throws (getAddressTxids (b := b) w pubkeyHex groupAlias) Exn.Survived :=
  throws_rpc Json.reads_uint64s hw fun _ _ => hw.txids _ _ _

theorem throws_getCreationSumForMonth (hw : w.NodeKeeps) (pubkeyHex : String) (month year : Int)
    (startDateString groupAlias : String) :
    Throws (getCreationSumForMonth (b := b) w pubkeyHex month year startDateString groupAlias)
      Exn.Survived :=
  throws_rpc Json.reads_getString hw fun _ _ => hw.sum _ _ _

theorem throws_putTransaction (hw : w.NodeKeeps) (base64Transaction : String) (transactionNr : Nat)
    (groupAlias : String) :
    Throws (putTransaction (b := b) w base64Transaction transactionNr groupAlias) Exn.Survived := by
  intro s e he
  rw [putTransaction, exec_rpc] at he
  cases hanswer : w.request s.trace "puttransaction"
      (putParams base64Transaction transactionNr groupAlias) with
  | error e' =>
    rw [hanswer] at he
    cases he
    exact survived_handleGradidoNodeRpcException (hw.quiet _ _ _ e' hanswer)
  | ok doc =>
    obtain ⟨members, rfl⟩ := hw.put _ _ _ hanswer
    rw [hanswer] at he
    simp only [reading, readPut, Json.hasMember_obj, bind, Except.bind] at he
    cases hlookup : (members.lookup "result").isSome with
    | true =>
      rw [hlookup] at he
      cases he
    | false =>
      rw [hlookup] at he
      cases he
      exact survived_handleGradidoNodeRpcException (Exn.survived_of_baseClass rfl)

end Rpc

/-! ## Sending -/

section Send

variable {w : World} {this : JsonTransaction}

theorem throws_perform {α : Type} {ask : Server b → Except Exn α} {effect : Except Exn α → Effect}
    (h : ∀ s, Quiet (ask s)) : Throws (Server.perform ask effect) Exn.Survived := by
  intro s e he
  rw [Server.exec_perform] at he
  exact h s e he

theorem throws_signTransaction {session : Session} {keyPair : KeyPair} (hw : w.Keeps)
    (hkey : session.mUserKeyPair = some keyPair) (transaction : GradidoTransaction) :
    Throws (signTransaction (b := b) w session transaction) Exn.Survived := by
  unfold signTransaction
  rw [hkey]
  refine .bind .get fun s => ?_
  have hsign := hw.sign s.trace keyPair (w.lib.bodyBytes transaction.body)
  cases hanswer : w.sign s.trace keyPair (w.lib.bodyBytes transaction.body) with
  | ok sign => exact .pure _
  | error e =>
    cases e with
    | ed25519SignException => exact .pure _
    | _ => exact .throw (hsign _ hanswer)

theorem throws_checkApolloDecay (hw : w.Keeps) (this : JsonTransaction) (data : TransactionData) :
    Throws (checkApolloDecay (b := b) w this data) Exn.Survived := by
  unfold checkApolloDecay
  split
  · exact .pure _
  · unfold validateApolloDecay
    cases decayAddress data with
    | none => exact .pure _
    | some pubkey =>
      refine .bind (throws_getAddressBalance hw.toNodeKeeps _ _ _ _) fun balance => ?_
      cases w.lib.mpfrSetStr balance with
      | none => exact .throw (Exn.survived_of_baseClass rfl)
      | some startBalance =>
        refine .bind (.answer (hw.calculateDecay _ _ _)) fun endBalance => ?_
        cases w.lib.mpfrSetStr this.mApolloCreatedDecay with
        | none => exact .throw (Exn.survived_of_baseClass rfl)
        | some apolloDecay =>
          dsimp only
          split
          · exact .throw (Exn.survived_of_baseClass rfl)
          · exact .pure _

theorem throws_publish (hw : w.Keeps) (transaction : GradidoTransaction) (groupAlias : String) :
    Throws (publish (b := b) w this transaction groupAlias) Exn.Survived := by
  unfold publish
  dsimp only
  split
  · exact .bind (throws_putTransaction hw.toNodeKeeps _ _ _) fun _ => .pure _
  · exact throws_perform fun _ => hw.sendMessage _ _ _

/-- The id of a published message is hex. -/
theorem returns_publish (hw : w.Keeps) (transaction : GradidoTransaction) (groupAlias : String) :
    Returns (publish (b := b) w this transaction groupAlias) fun id =>
      w.lib.hexToBin id ≠ none := by
  unfold publish
  dsimp only
  split
  · exact .bind fun _ => .pure (hw.hexToBin_binToHex _)
  · intro s id hid
    rw [Server.exec_perform] at hid
    exact hw.ids _ _ _ _ hid

theorem throws_signAndSendTransaction {keyPair : KeyPair} (hw : w.Keeps)
    (hkey : this.mSession.mUserKeyPair = some keyPair) (transaction : GradidoTransaction)
    (groupAlias : String) :
    Throws (signAndSendTransaction (b := b) w this transaction groupAlias) Exn.Survived := by
  unfold signAndSendTransaction
  refine .bind (throws_signTransaction hw hkey _) fun signed => ?_
  cases signed with
  | none => exact .throw (Exn.survived_of_baseClass rfl)
  | some transaction =>
    refine .bind .get fun s => .bind (.answer (hw.validate _ _)) fun _ => ?_
    split
    · exact .throw (Exn.survived_of_baseClass rfl)
    · exact .bind (throws_checkApolloDecay hw _ _) fun _ => .bind (throws_publish hw _ _) fun _ =>
        .bind (.modify _) fun _ => .pure _

theorem returns_signAndSendTransaction (hw : w.Keeps) (transaction : GradidoTransaction)
    (groupAlias : String) :
    Returns (signAndSendTransaction (b := b) w this transaction groupAlias) fun id =>
      w.lib.hexToBin id ≠ none := by
  unfold signAndSendTransaction
  refine .bind fun signed => ?_
  cases signed with
  | none => exact .throw _
  | some transaction =>
    refine .bind fun _ => .bind fun _ => ?_
    split
    · exact .throw _
    · exact .bind fun _ => .bind_of (returns_publish hw _ _) fun _ hid => .bind fun _ => .pure hid

theorem throws_buildLeg (hw : w.Keeps) (data : TransactionData) (crossGroup : CrossGroup) :
    Throws (buildLeg (b := b) w data crossGroup) Exn.Survived :=
  .bind .get fun _ => .bind (.answer (hw.createLeg _ _ _)) fun _ => .pure _

/-- **Sending**: the parent of the second leg is an id that is hex. -/
theorem throws_send {keyPair : KeyPair} (hw : w.Keeps)
    (hkey : this.mSession.mUserKeyPair = some keyPair) (data : TransactionData) (route : Route) :
    Throws (send (b := b) w this data route) Exn.Survived := by
  cases route with
  | within groupAlias => exact throws_signAndSendTransaction hw hkey _ _
  | across groupAlias otherGroup =>
    refine .bind (throws_buildLeg hw _ _) fun outbound => .bind_of
      (throws_signAndSendTransaction hw hkey _ _) (returns_signAndSendTransaction hw _ _)
      fun id hid => .bind (throws_buildLeg hw _ _) fun inbound => ?_
    obtain ⟨bin, hbin⟩ := Option.ne_none_iff_exists'.mp hid
    rw [hbin]
    exact throws_signAndSendTransaction hw hkey _ _

/-- Asking, building and sending. -/
theorem throws_checkAndSend {keyPair : KeyPair} (hw : w.Keeps)
    (hkey : this.mSession.mUserKeyPair = some keyPair)
    {check : Act (Server b) Exn (Except Document Unit)} {data : TransactionData} {route : Route}
    {handler : Exn → Except Exn Document} (hcheck : Throws check Exn.Survived)
    (hhandler : ∀ e, e.Survived → Quiet (handler e)) :
    Throws (checkAndSend w this check data route handler) Exn.Survived := by
  refine .bind hcheck fun checked => ?_
  cases checked with
  | error document => exact .pure _
  | ok _ =>
    refine .tryCatch (Q := Exn.Survived) ?_ fun e he => .answer (hhandler e he)
    exact .bind (throws_perform fun _ => hw.create _ _) fun _ => .bind (throws_send hw hkey _ _)
      fun _ => .pure _

theorem throws_catchNode {check : Act (Server b) Exn (Except Document Unit)}
    (h : Throws check Exn.Survived) : Throws (catchNode check) Exn.Survived := by
  refine .tryCatch h fun e he => ?_
  cases e with
  | gradidoNodeRPCException => exact .pure _
  | _ => exact .throw he

theorem quiet_handleSignAndSendTransactionExceptions {lib : Library} {e : Exn} (h : e.Survived) :
    Quiet (handleSignAndSendTransactionExceptions lib e) := by
  cases e <;> first | exact quiet_ok _ | exact quiet_error h

end Send

/-! ## The handlers -/

section Tables

variable {db : Db b}

theorem quiet_groupLoad (several : Driver) (groupAlias : String) :
    Quiet (Group.load several groupAlias db) := by
  intro e he
  unfold Group.load at he
  cases hd : deliver several (groupsLike groupAlias db) with
  | error e' =>
    rw [hd] at he
    cases he
    rw [deliver_error hd]
    exact Exn.survived_of_baseClass rfl
  | ok row =>
    rw [hd] at he
    cases row with
    | none =>
      cases he
      exact Exn.survived_of_baseClass rfl
    | some row => cases he

theorem quiet_userLoad (several : Driver) (name : String) (groupId : Nat) :
    Quiet (User.load several name groupId db) := by
  intro e he
  unfold User.load at he
  cases hd : deliver several (usersLike name groupId db) with
  | error e' =>
    rw [hd] at he
    cases he
    rw [deliver_error hd]
    exact Exn.survived_of_baseClass rfl
  | ok row =>
    rw [hd] at he
    cases row with
    | none =>
      cases he
      exact Exn.survived_of_baseClass rfl
    | some row => cases he

end Tables

section Sessions

variable {cfg : Config}

theorem throws_sessionOf (cfg : Config) (name clientIp : String) :
    Throws (SessionManager.sessionOf (b := b) cfg name clientIp) Exn.Survived := by
  intro s e he
  rw [SessionManager.exec_sessionOf] at he
  cases hlive : s.live cfg name with
  | none =>
    rw [hlive] at he
    cases he
    exact Exn.survived_of_baseClass rfl
  | some session =>
    rw [hlive] at he
    dsimp only at he
    split at he
    · cases he
      exact Exn.survived_of_baseClass rfl
    · cases he

theorem throws_getSession (hverify : ∀ token, Quiet (cfg.signer.verify token))
    (token clientIp : String) :
    Throws (SessionManager.getSession (b := b) cfg token clientIp) Exn.Survived := by
  refine .tryCatch (Q := Exn.Survived) (.bind (.answer (hverify token)) fun payload => ?_)
    fun e he => ?_
  · cases payload.name with
    | none => exact .throw (Exn.survived_of_baseClass rfl)
    | some name => exact throws_sessionOf cfg name clientIp
  · cases e with
    | signatureVerificationException => exact .throw (Exn.survived_of_baseClass rfl)
    | _ => exact .throw he

end Sessions

/-- Every session of the cache has its key. -/
def SessionManager.Keyed (s : SessionManager b) : Prop :=
  ∀ name session, s.Cached name session → session.mUserKeyPair ≠ none

/-- A session that is handed out has its key. -/
theorem SessionManager.Keyed.key {cfg : Config} {s : SessionManager b} (h : s.Keyed)
    {token clientIp : String} {session : Session}
    (hsession : (exec (getSession cfg token clientIp) s).1 = .ok session) :
    ∃ keyPair, session.mUserKeyPair = some keyPair := by
  obtain ⟨p, name, -, -, hlive, -⟩ := of_getSession hsession
  exact Option.ne_none_iff_exists'.mp (h name session (cached_of_live hlive))

section Handlers

variable {w : World} {this : JsonTransaction} {request : Request} {s : Server b}

theorem throws_readSharedParameter (hw : w.Keeps) (request : Request) :
    Throws (readSharedParameter (b := b) w request) Exn.Survived := by
  unfold readSharedParameter
  dsimp only
  cases request.params.getStringParameter "created" with
  | error document => exact .pure _
  | ok created =>
    refine .bind .get fun s => ?_
    cases readDates w.lib (w.clock s.trace) created (request.params.str "apolloDecayStart") with
    | error document => exact .pure _
    | ok dates =>
      refine .bind ?_ fun found => ?_
      · refine .tryCatch (Q := Exn.Survived)
          (.bind (.within (throws_getSession hw.verifyToken _ _)) fun _ => .pure _) fun e he => ?_
        cases e with
        | jwtTokenException | loginException | sessionException => exact .pure _
        | _ => exact .throw he
      · cases found <;> exact .pure _

/-- A handler whose session has its key, as all sessions of the cache have. -/
theorem survived_withSharedParameter (hw : w.Keeps) (hkeyed : s.sessions.Keyed)
    {rest : JsonTransaction → Act (Server b) Exn Document}
    (hrest : ∀ this keyPair, this.mSession.mUserKeyPair = some keyPair →
      Throws (rest this) Exn.Survived) :
    Quiet (exec (withSharedParameter w request rest) s).1 := by
  intro e he
  unfold withSharedParameter at he
  rw [exec_bind] at he
  have hread := throws_readSharedParameter hw request s
  rcases hshared : exec (readSharedParameter w request) s with ⟨e' | d | this, t⟩
  · rw [hshared] at he hread
    cases he
    exact hread e rfl
  · rw [hshared] at he
    cases he
  · rw [hshared] at he
    obtain ⟨created, dates, session, -, -, hfound, hthis⟩ :=
      exec_readSharedParameter_eq_ok.mp hshared
    have hget := Connector.getSession_of_findSession _ _ (congrArg Prod.fst hfound)
    obtain ⟨keyPair, hkey⟩ := hkeyed.key hget
    exact hrest this keyPair (by rw [hthis]; exact hkey) t e he

theorem JsonCreationTransaction.throws_checkNode (hw : w.Keeps) (recipientPublicKey : Bytes)
    (amountString : String) (targetDate : DateTime) :
    Throws (checkNode (b := b) w this recipientPublicKey amountString targetDate) Exn.Survived := by
  unfold checkNode
  split
  · exact .pure _
  · refine .bind (throws_getAddressType hw.toNodeKeeps _ _) fun addressType => ?_
    split
    · split <;> exact .pure _
    · refine .bind (throws_getCreationSumForMonth hw.toNodeKeeps _ _ _ _ _) fun sumString => ?_
      cases w.lib.mpfrSetStr sumString with
      | none => exact .throw (Exn.survived_of_baseClass rfl)
      | some sum =>
        cases w.lib.mpfrSetStr amountString with
        | none => exact .throw (Exn.survived_of_baseClass rfl)
        | some amount =>
          dsimp only
          split
          · exact .throw (Exn.survived_of_baseClass rfl)
          · exact .pure _

theorem JsonCreationTransaction.throws_createFor {keyPair : KeyPair} (hw : w.Keeps)
    (hkey : this.mSession.mUserKeyPair = some keyPair) (user : User) (amountString : String)
    (targetDate : DateTime) :
    Throws (createFor (b := b) w this keyPair user amountString targetDate) Exn.Survived := by
  unfold createFor
  refine .tryCatch (Q := Exn.Survived) ?_ fun e he =>
    .answer (quiet_handleSignAndSendTransactionExceptions he)
  refine throws_checkAndSend hw (?_ : _ = some keyPair) ?_ fun _ he => quiet_error he
  · exact hkey
  · exact throws_checkNode hw _ _ _

theorem JsonTransferTransaction.throws_checkNode (hw : w.Keeps) (request : Request)
    (senderPublicKey recipientPublicKey : Bytes) (recipientGroupAlias amountString : String) :
    Throws (checkNode (b := b) w this request senderPublicKey recipientPublicKey recipientGroupAlias
      amountString) Exn.Survived := by
  unfold checkNode
  split
  · exact .pure _
  · refine .bind (throws_getAddressType hw.toNodeKeeps _ _) fun addressType => ?_
    split
    · exact .pure _
    · refine .bind (throws_getAddressBalance hw.toNodeKeeps _ _ _ _) fun balanceString => ?_
      cases w.lib.mpfrSetStr balanceString with
      | none => exact .pure _
      | some balance =>
        cases w.lib.mpfrSetStr amountString with
        | none => exact .pure _
        | some amount =>
          dsimp only
          split <;> exact .pure _

theorem JsonTransferTransaction.throws_transferTo {keyPair : KeyPair} (hw : w.Keeps)
    (hkey : this.mSession.mUserKeyPair = some keyPair) (request : Request) (user : User)
    (recipientGroupAlias amountString : String) :
    Throws (transferTo (b := b) w this request keyPair user recipientGroupAlias amountString)
      Exn.Survived := by
  unfold transferTo
  refine throws_checkAndSend hw (?_ : _ = some keyPair) ?_ fun _ he => quiet_error he
  · exact hkey
  · exact throws_catchNode (throws_checkNode hw _ _ _ _ _)

theorem JsonTransferTransaction.throws_recipientGroup (w : World) (session : Session)
    (recipientGroupAlias : String) :
    Throws (recipientGroup (b := b) w session recipientGroupAlias) Exn.Survived := by
  unfold recipientGroup
  split
  · exact .pure _
  · refine .tryCatch (Q := Exn.Survived)
      (.bind (throws_perform fun _ => quiet_groupLoad _ _) fun _ => .pure _) fun e he => ?_
    cases e with
    | rowNotFoundException => exact .pure _
    | _ => exact .throw he

theorem JsonRegisterAddressTransaction.throws_checkNode (hw : w.Keeps) (userRootPubkey : Bytes)
    (currentGroupAlias newGroupAlias : String) :
    Throws (checkNode (b := b) w this userRootPubkey currentGroupAlias newGroupAlias)
      Exn.Survived := by
  unfold checkNode
  split
  · exact .pure _
  · refine .bind (throws_getAddressTxids hw.toNodeKeeps _ _) fun addressTxids => ?_
    split <;> exact .pure _

theorem JsonRegisterAddressTransaction.throws_register {keyPair : KeyPair} (hw : w.Keeps)
    (hkey : this.mSession.mUserKeyPair = some keyPair) (addressType : AddressType)
    (currentGroupAlias newGroupAlias : String) :
    Throws (register (b := b) w this keyPair addressType currentGroupAlias newGroupAlias)
      Exn.Survived := by
  unfold register
  refine throws_checkAndSend hw (?_ : _ = some keyPair) ?_ fun _ he =>
    quiet_handleSignAndSendTransactionExceptions he
  · exact hkey
  · exact throws_catchNode (throws_checkNode hw _ _ _)

/-- **The transaction handlers** end no process, from any state whose sessions have their key. -/
theorem quiet_handler (hw : w.Keeps) (hkeyed : s.sessions.Keyed) (h : Handler) (request : Request) :
    Quiet (exec (h.handle w request) s).1 := by
  cases h with
  | creation =>
    show Quiet (exec (JsonCreationTransaction.handle w request) s).1
    unfold JsonCreationTransaction.handle
    refine survived_withSharedParameter hw hkeyed fun this keyPair hkey => ?_
    split
    · exact .pure _
    · exact .pure _
    · exact .pure _
    · split
      · exact .pure _
      · refine .bind (throws_perform fun _ => quiet_userLoad _ _ _) fun user => ?_
        rw [hkey]
        exact JsonCreationTransaction.throws_createFor hw hkey _ _ _
  | transfer =>
    show Quiet (exec (JsonTransferTransaction.handle w request) s).1
    unfold JsonTransferTransaction.handle
    refine survived_withSharedParameter hw hkeyed fun this keyPair hkey => ?_
    split
    · exact .pure _
    · refine .bind (JsonTransferTransaction.throws_recipientGroup _ _ _) fun found => ?_
      split
      · exact .pure _
      · split
        · exact .pure _
        · refine .bind (throws_perform fun _ => quiet_userLoad _ _ _) fun user => ?_
          rw [hkey]
          exact JsonTransferTransaction.throws_transferTo hw hkey _ _ _ _
  | registerAddress =>
    show Quiet (exec (JsonRegisterAddressTransaction.handle w request) s).1
    unfold JsonRegisterAddressTransaction.handle
    refine survived_withSharedParameter hw hkeyed fun this keyPair hkey => ?_
    split
    · exact .pure _
    · dsimp only
      split
      · exact .pure _
      · split
        · exact .pure _
        · split
          · exact .pure _
          · rw [hkey]
            exact JsonRegisterAddressTransaction.throws_register hw hkey _ _ _

end Handlers

/-! ## The other handlers -/

section Others

variable {w : World} {s : Server b}

theorem quiet_of_refused {r : Except Exn Document} (h : Refused r) : Quiet r := by
  rintro e rfl
  exact h

theorem throws_askNode (hw : w.NodeKeeps) (params : List (String × Json)) :
    Throws (JsonListTransactions.askNode (b := b) w params) Exn.Survived := by
  refine .tryCatch (Q := Exn.Survived)
    (.bind (throws_perform fun _ => hw.quiet _ _ _) fun _ => .pure _) fun e he => ?_
  split
  · exact .pure _
  · exact .throw he

/-- The list from the node can be listed. -/
theorem returns_askNode (hw : w.NodeKeeps) (params : List (String × Json)) :
    Returns (JsonListTransactions.askNode (b := b) w params) fun r => ∀ doc, r = .ok doc →
      ∀ loadUserNames, JsonListTransactions.Listable w.lib loadUserNames doc := by
  rintro s r hr doc rfl
  unfold JsonListTransactions.askNode at hr
  rw [exec_tryCatch, exec_bind, Server.exec_perform] at hr
  cases hanswer : w.request s.trace "listtransactions" params with
  | ok doc' =>
    rw [hanswer] at hr
    cases hr
    exact hw.list _ _ _ hanswer
  | error e =>
    rw [hanswer] at hr
    dsimp only at hr
    split at hr <;> cases hr

theorem quiet_listTransactions (hw : w.Keeps) (hkeyed : s.sessions.Keyed)
    (request : JsonListTransactions.ListRequest) :
    Quiet (exec (JsonListTransactions.handle w request) s).1 := by
  intro e he
  unfold JsonListTransactions.handle at he
  rw [exec_bind, Server.onSessions, exec_within] at he
  have hget := throws_getSession hw.verifyToken request.jwtToken request.clientIp s.sessions
  cases hsession : (exec (SessionManager.getSession w.cfg request.jwtToken request.clientIp)
      s.sessions).1 with
  | error e' =>
    rw [hsession] at he
    cases he
    exact hget e hsession
  | ok session =>
    obtain ⟨keyPair, hkey⟩ := hkeyed.key hsession
    rw [hsession] at he
    simp only [hkey] at he
    refine Throws.bind_of (throws_askNode hw.toNodeKeeps _) (returns_askNode hw.toNodeKeeps _)
      (fun r hr => ?_) _ e he
    cases r with
    | error document => exact .pure _
    | ok doc =>
      refine .bind .get fun t => .bind (.answer fun e' he' => ?_) fun _ => .pure _
      have hlistable := hr doc rfl fun pubkeys => User.loadUserNamesForPubkeys pubkeys t.sessions.db
      obtain ⟨list, hlist⟩ := JsonListTransactions.enrichList_ok_iff.mpr hlistable
      exact absurd (hlist.symm.trans he') (by simp)

/-- The password that a request to log in has opened is hex. -/
def LoginSpelled (h : LoginHost) (params : Params) : Prop :=
  JsonLogin.Opens h params → h.lib.hexToBin (params.str "password") ≠ none

/-- A request that is refused before the login. -/
theorem quiet_refusalOf {h : LoginHost} {request : LoginRequest}
    (hdecrypt : ∀ bin e, h.decrypt (some bin) = .error (some e) → e.Survived)
    (hspelled : LoginSpelled h request.params) : Quiet (JsonLogin.refusalOf h request) := by
  intro e he
  unfold JsonLogin.refusalOf at he
  split at he
  · split at he
    · rename_i e' hread
      obtain rfl := JsonLogin.eq_of_catchExceptions he
      rcases JsonLogin.readCredentials_error hread with ⟨what, rfl⟩ | ⟨hopens, hopened⟩
      · exact Exn.survived_of_baseClass rfl
      · obtain ⟨bin, hbin⟩ := Option.ne_none_iff_exists'.mp (hspelled hopens)
        rw [hbin] at hopened
        exact hdecrypt bin e hopened
    · cases he
  · cases he

theorem quiet_login (h : LoginHost) (request : LoginRequest)
    (hdecrypt : ∀ bin e, h.decrypt (some bin) = .error (some e) → e.Survived)
    (hspelled : LoginSpelled h request.params) (s : SessionManager b) :
    Quiet (exec (JsonLogin.handleRequest h request) s).1 := by
  intro e he
  rw [JsonLogin.exec_handleRequest] at he
  cases hlogin : JsonLogin.loginOf h request with
  | none =>
    rw [hlogin] at he
    exact quiet_refusalOf hdecrypt hspelled e he
  | some call =>
    rw [hlogin] at he
    cases hrun : (exec (SessionManager.login h.cfg call) s).1 with
    | ok t => simp [hrun, JsonLogin.answerOf] at he
    | error e' =>
      simp only [hrun, JsonLogin.answerOf] at he
      obtain rfl := JsonLogin.eq_of_catchExceptions he
      rcases JsonLogin.throws_login h.cfg call s e hrun with hcaught | ⟨rfl, -⟩
      · exact hcaught.survived
      · exact Exn.survived_of_baseClass rfl

/-- The key and the signature of a request to open a connection are hex, the key of 32
bytes at least. -/
def OpenSpelled (o : Opener) (params : Params) : Prop :=
  params.str "community-key-A" ≠ "" → params.str "signature" ≠ "" →
    ∃ communityPubkey signature, o.lib.hexToBin (params.str "community-key-A") = some communityPubkey ∧
      o.lib.hexToBin (params.str "signature") = some signature ∧ 32 ≤ communityPubkey.length

theorem quiet_openConnection {o : Opener} {request : OpenRequest} (halive : o.Alive)
    (hspelled : OpenSpelled o request.params) :
    Quiet (JsonOpenConnection.handleRequest o request) := by
  unfold JsonOpenConnection.handleRequest
  split
  · cases hrun : JsonOpenConnection.openConnection o request.params with
    | ok d => exact quiet_ok d
    | error e =>
      refine quiet_of_refused (refused_catchExceptions ?_)
      unfold JsonOpenConnection.openConnection at hrun
      dsimp only at hrun
      split at hrun
      · cases hrun
        exact Exn.survived_of_baseClass rfl
      · rename_i hgiven
        rw [not_or, String.isEmpty_iff, String.isEmpty_iff] at hgiven
        obtain ⟨key, signature, hkey, hsignature, hlength⟩ := hspelled hgiven.1 hgiven.2
        rw [verifyCaller_eq hkey hlength hsignature] at hrun
        cases hverify : o.verify (key.take 32) o.serverPubkey (some signature) with
        | error e' =>
          rw [hverify] at hrun
          cases hrun
          exact fun why heq => halive _ _ _ why (heq ▸ hverify)
        | ok valid =>
          rw [hverify] at hrun
          cases valid <;> cases hrun
          exact Exn.survived_of_baseClass rfl
  · exact quiet_ok _

/-- No key that is given in a complete request is missing. -/
def PackSpelled (p : Packer) (request : PackRequest) : Prop :=
  ∀ s, submission p request = .ok s → s.data.missing request.params = false

theorem quiet_packTransaction {p : Packer} {request : PackRequest} (halive : p.Alive)
    (hspelled : PackSpelled p request) : Quiet (JsonPackTransaction.handle p request) := by
  rw [handle_eq]
  cases hsub : submission p request with
  | error r => exact quiet_of_refused (refused_of_submission hsub)
  | ok s =>
    show Quiet (packSubmission p (request.params.str "memo") s)
    by_cases hrefused : Refused (packSubmission p (request.params.str "memo") s)
    · exact quiet_of_refused hrefused
    · -- accepted, so every part of it succeeds
      obtain ⟨hcreate, legs, hlegs, hall⟩ := not_not.mp
        ((not_congr (refused_packSubmission_iff halive (hspelled s hsub))).mp hrefused)
      unfold packSubmission
      rw [hcreate, hlegs]
      rcases entries_cases halive (request.params.str "memo") s.mCreated legs with
        ⟨-, es, hes⟩ | ⟨hnot, -⟩
      · simp only [bind, Except.bind, JsonPackTransaction.resultBase64Transactions, hes]
        exact quiet_ok _
      · exact absurd hall hnot

/-- Every key and every signature that is handed to the library is there. -/
def SendSpelled (l : TransactionLibrary τ) (request : SendRequest) : Prop :=
  ∀ pairs transaction, JsonSendTransactionIota.Loads l request pairs transaction →
    AllHanded l pairs transaction

theorem quiet_sendTransactionIota {l : TransactionLibrary τ} {request : SendRequest}
    (halive : l.Alive) (hspelled : SendSpelled l request) :
    Quiet (JsonSendTransactionIota.handle l request) := by
  by_cases haccepted : JsonSendTransactionIota.Accepted l request
  · rcases JsonSendTransactionIota.handle_cases l request with ⟨-, hhandle⟩ | ⟨hnot, -⟩ | ⟨hnot, -⟩
    · rw [hhandle]
      exact quiet_ok _
    · exact absurd haccepted hnot
    · exact absurd haccepted hnot
  · exact quiet_of_refused ((refused_handle_iff halive hspelled).mpr haccepted)

/-- A notification whose update stays within the ids. -/
theorem quiet_notify {dec : JsonTransactionListener.Decoder}
    (hbin : ∀ text, Quiet (dec.base64ToBinString text)) (hblock : ∀ bin, Quiet (dec.gradidoBlock bin))
    {params : Params} {st : PendingTransactions.Store}
    (hupdate : ∀ id c m, JsonTransactionListener.verdictOf dec params = some (id, c, m) →
      PendingTransactions.updateTransaction id c m st ≠ none) :
    Quiet (exec (JsonTransactionListener.handle dec params) st).1 := by
  intro e he
  unfold JsonTransactionListener.handle at he
  unfold JsonTransactionListener.verdictOf at hupdate
  by_cases hgiven : params.str "transactionBase64" = ""
  · rw [if_neg (not_not.mpr hgiven)] at he
    cases he
  · rw [if_pos hgiven, exec_bind, exec_answer] at he
    rw [if_neg hgiven] at hupdate
    cases hdecoded : dec.base64ToBinString (params.str "transactionBase64") with
    | error e' =>
      rw [hdecoded] at he
      cases he
      exact hbin _ e hdecoded
    | ok bin =>
      rw [hdecoded] at he hupdate
      by_cases herror : params.str "error" = ""
      · simp only [herror, ne_eq, not_true_eq_false, if_false, exec_bind, exec_answer] at he hupdate
        cases hid : dec.gradidoBlock bin with
        | error e' =>
          rw [hid] at he
          cases he
          exact hblock _ e hid
        | ok id =>
          rw [hid] at he hupdate
          obtain ⟨st', hst⟩ := Option.ne_none_iff_exists'.mp (hupdate _ _ _ rfl)
          simp only [JsonTransactionListener.exec_updatePending, hst] at he
          cases he
      · simp only [herror, ne_eq, not_false_eq_true, if_true, exec_bind] at he hupdate
        obtain ⟨st', hst⟩ := Option.ne_none_iff_exists'.mp (hupdate _ _ _ rfl)
        simp only [JsonTransactionListener.exec_updatePending, hst] at he
        cases he

end Others

/-! ## The process -/

/-- **The sessions that a run establishes have their key.** -/
theorem SessionManager.keyed_of_run (cfg : Config) (now : Nat) (db : Db b)
    (inputs : List SessionManager.Input) : (final (step cfg) (start now db) inputs).Keyed := by
  refine final_invariant (I := fun _ (s : SessionManager b) => s.Keyed) (C := fun _ _ => True) ?_ ?_
    fun _ _ _ => trivial
  · rintro name session ⟨slot, hs, -⟩
    exact absurd hs (by simp [start])
  · rintro h s i hkeyed - name session hc
    rcases step_cached hc with hold | ⟨call, -, -, -, n, hexec⟩
    · exact hkeyed name session hold
    · have hout := Login.outcome cfg.crypto call s.db
      rw [show call.exec cfg.crypto s.db = _ from hexec] at hout
      obtain ⟨⟨gid, k, hsession, -⟩⟩ := hout.established
      rw [hsession]
      exact Option.some_ne_none k

namespace Connector

open PendingTransactions (Op IsId)

/-- The other side ends no process, and answers in the shapes that the server reads. -/
structure Reliable (host : Host τ) : Prop where
  world : host.world.Keeps
  /-- For a password that is there. -/
  decrypt : ∀ bin e, host.decrypt (some bin) = .error (some e) → e.Survived
  opener : ∀ now, (host.opener now).Alive
  packer : host.packer.Alive
  transactions : host.transactions.Alive
  parseAddress : ∀ text, Quiet (host.parseAddress text)
  base64ToBinString : ∀ text, Quiet (host.decoder.base64ToBinString text)
  gradidoBlock : ∀ bin, Quiet (host.decoder.gradidoBlock bin)

/-- What the handlers hand on as hex is hex. -/
def Spelled (host : Host τ) (r : HttpRequest) : RequestHandler → Prop
  | .login => LoginSpelled host.toLoginHost r.params
  | .packTransaction => PackSpelled host.packer ⟨r.params, r.coinGroupId⟩
  | .sendTransactionIota => SendSpelled host.transactions ⟨r.params, r.signaturePairs⟩
  | .openConnection => ∀ now, OpenSpelled (host.opener now) r.params
  | _ => True

section Step

variable {host : Host τ} {r : HttpRequest} {s : Server b} {handler : RequestHandler}

/-- **No request ends the process.** -/
theorem quiet_handle (hreliable : Reliable host) (hkeyed : s.sessions.Keyed)
    (hspelled : Spelled host r handler)
    (hupdate : handler = .transactionListener → ∀ id c m,
      JsonTransactionListener.verdictOf host.decoder r.params = some (id, c, m) →
        PendingTransactions.updateTransaction id c m s.pending ≠ none) :
    Quiet (exec (handle host r handler) s).1 := by
  cases handler with
  | creation => exact quiet_handler hreliable.world hkeyed .creation _
  | transfer => exact quiet_handler hreliable.world hkeyed .transfer _
  | registerAddress => exact quiet_handler hreliable.world hkeyed .registerAddress _
  | listTransactions => exact quiet_listTransactions hreliable.world hkeyed _
  | login =>
    exact quiet_login host.toLoginHost r.toLoginRequest hreliable.decrypt hspelled _
  | packTransaction =>
    rw [handle, exec_answer]
    exact quiet_packTransaction hreliable.packer hspelled
  | sendTransactionIota =>
    rw [handle, exec_answer]
    exact quiet_sendTransactionIota hreliable.transactions hspelled
  | openConnection =>
    rw [handle, exec_bind, exec_get]
    dsimp only
    rw [exec_answer]
    exact quiet_openConnection (hreliable.opener _) (hspelled _)
  | transactionListener =>
    exact quiet_notify hreliable.base64ToBinString hreliable.gradidoBlock (hupdate rfl)
  | getPendingTransactions => exact quiet_ok _
  | unknown => exact quiet_ok _

end Step

section Run

variable {host : Host τ} {now : Nat} {db : Db b} {inputs : List Input}

/-- The update of a notification finds ids of 64 bytes. -/
theorem updates_of_hasIds (hids : HasIds host (runs host (start now db) inputs))
    {h : List (Event b)} {e : Event b} (ho : Occurs (runs host (start now db) inputs) h e)
    {r : HttpRequest} (hserves : Serves host e.before e.input r .transactionListener)
    {id : String} {c : Bool} {m : String}
    (hverdict : JsonTransactionListener.verdictOf host.decoder r.params = some (id, c, m)) :
    PendingTransactions.updateTransaction id c m e.before.server.pending ≠ none := by
  have hcall : Op.update id c m ∈ callsOf host e := by
    have hnotice : noticeOf host e = some (id, c, m) := by
      rw [occurs_spec ho, noticeOf_served hserves, if_pos rfl, hverdict]
    refine List.mem_append_right _ ?_
    rw [hnotice]
    exact List.mem_cons_self
  have hid : IsId id := hids _ (List.mem_flatMap.mpr ⟨e, ho.mem, hcall⟩)
  have hstored : ∀ entry ∈ e.before.server.pending, IsId entry.iotaMessageId := by
    intro entry hentry
    rw [pending_eq_entries hids ho] at hentry
    obtain ⟨d, hd, hpush⟩ := List.mem_flatMap.mp
      (PendingTransactions.exists_push_of_mem_entries (List.mem_of_mem_drop hentry))
    obtain ⟨later, hrun⟩ := ho
    exact hids _ (List.mem_flatMap.mpr ⟨d, by rw [hrun]; exact List.mem_append_left _ hd, hpush⟩)
  rw [PendingTransactions.updateTransaction_eq hid c m hstored]
  exact Option.some_ne_none _

/-- A step of a process that is up. -/
theorem up_of_step (hreliable : Reliable host)
    (hspelled : ∀ r handler, .request r ∈ inputs → host.handlerOf r = .ok handler →
      Spelled host r handler)
    (hids : HasIds host (runs host (start now db) inputs)) {h : List (Event b)} {e : Event b}
    (ho : Occurs (runs host (start now db) inputs) h e) (hup : e.before.crashed = false) :
    e.after.crashed = false := by
  have hquiet : ∀ {r : Except Exn Document}, Quiet r → isCrash r = false := by
    intro r hr
    rcases r with e | d
    · cases e with
      | crash why => exact absurd rfl (hr _ rfl why)
      | _ => rfl
    · rfl
  have hkeyed : e.before.server.sessions.Keyed :=
    (refines_sessions host).invariant (I := fun _ s => s.Keyed)
      (fun calls => SessionManager.keyed_of_run host.cfg now db calls) ho
  rw [occurs_spec ho]
  show (step host e.before e.input).2.crashed = false
  cases hin : e.input with
  | expire name => simp [step, hup, withSessions]
  | wait time => simp [step, hup, withSessions]
  | request r =>
    rw [step_request hup]
    refine hquiet ?_
    cases hhandler : host.handlerOf r with
    | error err =>
      rw [serve, exec_bind, exec_answer, hhandler]
      refine quiet_error ?_
      unfold Host.handlerOf JsonRequestHandlerFactory.createRequestHandler at hhandler
      cases hip : r.realIp with
      | none => rw [hip] at hhandler; cases hhandler
      | some text =>
        rw [hip] at hhandler
        cases haddress : host.parseAddress text with
        | ok _ =>
          simp only [haddress, bind, Except.bind] at hhandler
          cases hhandler
        | error err' =>
          simp only [haddress, bind, Except.bind] at hhandler
          cases hhandler
          exact hreliable.parseAddress text _ haddress
    | ok handler =>
      rw [exec_serve hhandler]
      refine quiet_handle hreliable hkeyed (hspelled r handler ?_ hhandler) ?_
      · rw [← hin]
        exact input_mem ho
      · rintro rfl id c m hverdict
        exact updates_of_hasIds hids ho ⟨hup, hin, hhandler⟩ hverdict

/-- **With a reliable other side the process never ends.** -/
theorem up_of_reliable (hreliable : Reliable host)
    (hspelled : ∀ r handler, .request r ∈ inputs → host.handlerOf r = .ok handler →
      Spelled host r handler)
    (hids : HasIds host (runs host (start now db) inputs)) {h : List (Event b)} {e : Event b}
    (ho : Occurs (runs host (start now db) inputs) h e) : e.after.crashed = false := by
  refine up_of_step hreliable hspelled hids ho ?_
  refine occurs_invariant (I := fun _ (c : Connector b) => c.crashed = false)
    (C := fun _ d => d.before.crashed = false → d.after.crashed = false) rfl
    (fun _ _ _ hup hkeep => hkeep hup) (fun _ _ ho' => up_of_step hreliable hspelled hids ho') ho

end Run

/-! ## A host on which nothing ends the process -/

theorem hexDigit_digitChar : ∀ n < 16, PlainLibrary.hexDigit (Nat.digitChar n) = some n := by decide

/-- The plain library reads the hex it writes. -/
theorem readHex_binToHex (bin : Bytes) :
    PlainLibrary.readHex (PlainLibrary.binToHex bin).toList = some bin := by
  rw [PlainLibrary.binToHex, String.toList_ofList]
  induction bin with
  | nil => rfl
  | cons c bin ih =>
    have hhigh : c.toNat / 16 < 16 := Nat.div_lt_of_lt_mul (UInt8.toNat_lt c)
    have hlow : c.toNat % 16 < 16 := Nat.mod_lt _ (by decide)
    rw [List.flatMap_cons, List.cons_append, List.cons_append, List.nil_append, PlainLibrary.readHex,
      hexDigit_digitChar _ hhigh, hexDigit_digitChar _ hlow, ih]
    simp only
    rw [Nat.div_add_mod', UInt8.ofNat_toNat]

/-- What the `result` of an answer of a steady node has. -/
def steadyResult : List (String × Json) :=
  [("transactionNrs", .arr []), ("transactionList", .obj [("transactions", .arr [])])]

/-- A node whose one document answers every question. -/
def steadyWorld : World :=
  { idHost.world with request := fun _ _ _ => .ok (.obj [("result", .obj steadyResult)]) }

def steadyHost : Host (List (Bytes × Bytes)) where
  __ := idHost
  world := steadyWorld

theorem answers_steady {name : String} {P : Json → Prop} {trace : List Effect} {method : String}
    {params : List (String × Json)} {doc : Json} (h : ∀ value ∈ steadyResult.lookup name, P value)
    (hdoc : steadyWorld.request trace method params = .ok doc) : Answers name P doc := by
  obtain rfl := Except.ok.inj hdoc
  intro result hresult
  obtain rfl := Option.some.inj hresult
  exact ⟨_, rfl, h⟩

theorem nodeKeeps_steadyWorld : steadyWorld.NodeKeeps where
  quiet _ _ _ := quiet_ok _
  balance _ _ _ := answers_steady nofun
  addressType _ _ _ := answers_steady nofun
  sum _ _ _ := answers_steady nofun
  txids _ _ _ := answers_steady fun _ hvalue =>
    ⟨[], (Option.some.inj hvalue).symm, fun _ he => absurd he List.not_mem_nil⟩
  put _ _ _ hdoc := ⟨_, (Except.ok.inj hdoc).symm⟩
  list _ _ _ hdoc _ := ⟨_, _, _, _, (Except.ok.inj hdoc).symm, rfl, rfl, rfl, [], rfl,
    fun hne => absurd rfl hne⟩

theorem keeps_steadyWorld : steadyWorld.Keeps where
  __ := nodeKeeps_steadyWorld
  verifyToken token e h := by
    replace h : PlainSigner.verify token = .error e := h
    unfold PlainSigner.verify at h
    split at h <;> cases h
    exact Exn.survived_of_baseClass rfl
  sendMessage _ _ _ := quiet_ok _
  create _ _ := quiet_ok _
  createLeg _ _ _ := quiet_ok _
  sign _ _ _ := quiet_ok _
  validate _ _ := quiet_ok _
  calculateDecay _ _ _ := quiet_ok _
  ids _ _ _ id hid := by
    rw [← Except.ok.inj hid]
    decide
  hexToBin_binToHex bin := by
    rw [show steadyWorld.lib.hexToBin (steadyWorld.lib.binToHex bin) = _ from readHex_binToHex bin]
    exact Option.some_ne_none bin

theorem alive_plainPacker : plainPacker.Alive where
  create _ _ _ _ h := by cases h
  createLeg _ _ _ h := by cases h
  validate _ _ h := by cases h
  bodyBytes _ _ h := by cases h

theorem reliable_steadyHost : Reliable steadyHost where
  world := keeps_steadyWorld
  decrypt _ _ h := by cases h
  opener _ := alive_plainOpener
  packer := alive_plainPacker
  transactions := alive_plainTransactions
  parseAddress _ := quiet_ok _
  base64ToBinString _ := quiet_ok _
  gradidoBlock _ := quiet_ok _

/-- Alice registers, has it confirmed and lists her transactions. -/
def aliceLists : List Input := aliceLooks ++
  [.request (postRequest "/listTransactions" SessionManager.aliceToken [])]

theorem hasIds_aliceLists :
    HasIds steadyHost (runs (b := plainMysql) steadyHost (start 0 .empty) aliceLists) := by
  rw [HasIds]
  decide

/-- Alice registers, has it confirmed and asks for her list, and the process is up all the time. -/
theorem up_aliceLists :
    (final (step steadyHost) (start (b := plainMysql) 0 .empty) aliceLists).server.trace.length = 5 ∧
      ∀ h e, Occurs (runs (b := plainMysql) steadyHost (start 0 .empty) aliceLists) h e →
        e.after.crashed = false := by
  refine ⟨by decide, fun h e ho => up_of_reliable reliable_steadyHost ?_ hasIds_aliceLists ho⟩
  intro r handler hr hhandler
  simp only [aliceLists, aliceLooks, List.cons_append, List.nil_append, List.mem_cons,
    Input.request.injEq, List.not_mem_nil, or_false] at hr
  cases handler with
  | login =>
    rcases hr with rfl | rfl | rfl | rfl | rfl
    · exact fun _ => by decide
    all_goals cases hhandler
  | packTransaction | sendTransactionIota | openConnection =>
    rcases hr with rfl | rfl | rfl | rfl | rfl <;> cases hhandler
  | _ => trivial

end Connector

end GradidoConnector
