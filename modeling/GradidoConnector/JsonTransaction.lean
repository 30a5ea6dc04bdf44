import GradidoConnector.GradidoNodeRPC

/-!
# What the transaction handlers share

Model of `JSONInterface/JsonTransaction.cpp`: the members of a handler, `readSharedParameter`,
`signAndSendTransaction` with `validateApolloDecay`, `encryptMemo`, `decryptMemo` and
`handleSignAndSendTransactionExceptions`.

* A handler object lives for one request, so its members start from their defaults; where
  `readSharedParameter` gives no error document it returns them all.
* The archive test compares seconds with `60 * 60 * 60`. `Timespan::totalSeconds` is an `int`.
* `sendCrossGroup` is the sequence of two legs that the transfer and the register handler write out
  each for itself.

The specification of a trace: `LegSent` is one leg that went through, `LegStopped` one that did not,
and `Sends` is a list of legs sent in order up to the first that stopped.

Results:
* `emits_readSharedParameter`: reading the parameters has no effect.
* `exec_readSharedParameter_eq_ok`: the requests whose parameters are accepted.
* **`emits_signAndSendTransaction`**: one call sends its leg and pushes its entry, or stops before
  the message got out.
* **`emits_sendCrossGroup`**: the two legs are sent in order, the second as a child of the first.
-/

namespace GradidoConnector

open GradidoConnector.Base GradidoConnector.Base.Act

open GradidoNodeRPC

variable {b : Backend}

/-- The members of a handler once its parameters are read. -/
structure JsonTransaction where
  mMemo : String
  mCreated : DateTime
  mApolloTransactionId : Nat
  mApolloCreatedDecay : String
  mApolloDecayStart : DateTime
  mArchiveTransaction : Bool
  mTransactionNr : Nat
  mSession : Session

/-- One of the transactions a request is sent as, and the group it is sent to. -/
structure Leg where
  crossGroup : CrossGroup
  groupAlias : String
  deriving DecidableEq

namespace JsonTransaction

/-! ## The code -/

/-- `Poco::Timespan::totalSeconds` -/
def totalSeconds (span : Int) : Int := Int.bmod (span.tdiv 1000000) (2 ^ 32)

/-- The condition under which `mArchiveTransaction` is set. -/
def isArchive (now mCreated : DateTime) (mTransactionNr : Nat) : Bool :=
  decide (totalSeconds (now - mCreated) > 60 * 60 * 60) && mTransactionNr != 0

/-- `mCreated` and `mApolloDecayStart`, or the error document. A default `Poco::DateTime` is the
current time. -/
def readDates (lib : Library) (now : DateTime) (created apolloDecayStart : String) :
    Except Document (DateTime × DateTime) :=
  match lib.parse created with
  | .error what => .error (.error "cannot parse created" (.text what))
  | .ok (mCreated, _) =>
    if apolloDecayStart.isEmpty then .ok (mCreated, now)
    else
      match lib.parse apolloDecayStart with
      | .error what => .error (.error "cannot parse apollo decay start" (.text what))
      | .ok (mApolloDecayStart, _) => .ok (mCreated, mApolloDecayStart)

/-- The session of the request, or the error document. -/
def findSession (w : World) (request : Request) : Act (Server b) Exn (Except Document Session) :=
  tryCatch (do return .ok (← w.getSession request))
    fun
    | .jwtTokenException .. => return .error (.stateError "invalid jwt token")
    | .loginException what .. => return .error (.stateError what)
    | .sessionException what .. => return .error (.stateError what)
    | e => throw e

def readSharedParameter (w : World) (request : Request) :
    Act (Server b) Exn (Except Document JsonTransaction) := do
  let params := request.params
  match params.getStringParameter "created" with
  | .error paramError => return .error paramError
  | .ok created =>
    let now := w.clock (← get).trace
    match readDates w.lib now created (params.str "apolloDecayStart") with
    | .error document => return .error document
    | .ok (mCreated, mApolloDecayStart) =>
      let mTransactionNr := params.uint64 "transactionNr"
      match ← findSession w request with
      | .error document => return .error document
      | .ok mSession =>
        return .ok
          { mMemo := params.str "memo"
            mCreated, mApolloDecayStart, mTransactionNr, mSession
            mApolloTransactionId := params.uint64 "apolloTransactionId"
            mApolloCreatedDecay := params.str "apolloCreatedDecay"
            mArchiveTransaction := isArchive now mCreated mTransactionNr }

def encryptMemo (lib : Library) (memo : String) (ed25519Pubkey ed25519Privkey : Bytes) : String :=
  lib.binToBase64
    (lib.encrypt (lib.skToCurve25519 ed25519Privkey) (lib.pkToCurve25519 ed25519Pubkey) memo)

def decryptMemo (lib : Library) (base64EncodedEncryptedMemo : String)
    (ed25519Pubkey ed25519Privkey : Bytes) : Except Exn String :=
  match lib.base64ToBin base64EncodedEncryptedMemo with
  | none => .error (.crash "encryptedMemoBin")
  | some encryptedMemoBin =>
    match lib.decrypt (lib.skToCurve25519 ed25519Privkey) (lib.pkToCurve25519 ed25519Pubkey)
      encryptedMemoBin with
    | none => .ok ""
    | some clearMemo => .ok clearMemo

/-- The address whose balance `validateApolloDecay` asks for; a register address
transaction has none. -/
def decayAddress : TransactionData → Option Bytes
  | .creation recipientPublicKey .. => some recipientPublicKey
  | .transfer senderPublicKey .. => some senderPublicKey
  | .registerAddress .. => none

/-- The double `0.00001`. -/
def maxDecayDifference : Mpfr := .num (5902958103587057 / 590295810358705651712)

def validateApolloDecay (w : World) (this : JsonTransaction) (data : TransactionData) :
    Act (Server b) Exn Unit := do
  match decayAddress data with
  | none => return
  | some pubkey =>
    let startBalanceString ← getAddressBalance w (w.lib.binToHex pubkey)
      (w.lib.format this.mApolloDecayStart) this.mSession.mGroupAlias ""
    match w.lib.mpfrSetStr startBalanceString with
    | none => throw (.gradidoNodeRPCException ("invalid balance string " ++ startBalanceString) "")
    | some startBalance =>
      let balance ← answer (w.lib.calculateDecay startBalance this.mApolloDecayStart this.mCreated)
      let decay := startBalance.sub balance
      match w.lib.mpfrSetStr this.mApolloCreatedDecay with
      | none => throw (.transactionValidationInvalidInputException "cannot parse to number"
          "apolloCreatedDecay" "number as string")
      | some apolloDecay =>
        if (apolloDecay.sub decay).abs.cmp maxDecayDifference ≠ .lt then
          throw (.apolloDecayException
            "apollo decay deviates more than 0.00001 from Gradido Node decay" startBalanceString
            (w.lib.amountToString apolloDecay))

/-- `validateApolloDecay` is called when the request gives a decay. -/
def checkApolloDecay (w : World) (this : JsonTransaction) (data : TransactionData) :
    Act (Server b) Exn Unit :=
  if this.mApolloCreatedDecay.isEmpty then pure () else validateApolloDecay w this data

/-- `Session::signTransaction`, `none` where it returns false. -/
def signTransaction (w : World) (session : Session) (transaction : GradidoTransaction) :
    Act (Server b) Exn (Option GradidoTransaction) := do
  match session.mUserKeyPair with
  | none => throw (.crash "mUserKeyPair")
  | some keyPair =>
    match w.sign (← get).trace keyPair (w.lib.bodyBytes transaction.body) with
    | .ok sign =>
      return some { transaction with
        signPairs := transaction.signPairs ++ [(keyPair.publicKey, sign)] }
    | .error (.ed25519SignException ..) => return none
    | .error e => throw e

/-- The index of the messages of a group in iota. -/
def iotaIndex (groupAlias : String) : String := "GRADIDO." ++ groupAlias

/-- Hand the transaction to the Gradido Node, if it is archived, or to iota; the message id. -/
def publish (w : World) (this : JsonTransaction) (transaction : GradidoTransaction)
    (groupAlias : String) : Act (Server b) Exn String := do
  let rawMessage := w.lib.getSerialized transaction
  if this.mArchiveTransaction then do
    putTransaction w (w.lib.binToBase64 rawMessage) this.mTransactionNr groupAlias
    return w.lib.binToHex (w.lib.genericHash rawMessage)
  else
    let index := w.lib.binToHex (bytesOf (iotaIndex groupAlias))
    let message := w.lib.binToHex rawMessage
    Server.perform (fun s => w.sendMessage s.trace index message) (.sendMessage index message)

/-- The pending transaction of a leg. -/
def pendingOf (this : JsonTransaction) (data : TransactionData) (id : String) (created : DateTime) :
    PendingTransactions.Sent :=
  ⟨id, data.type, created, this.mApolloCreatedDecay, this.mApolloDecayStart,
    this.mApolloTransactionId⟩

def signAndSendTransaction (w : World) (this : JsonTransaction) (transaction : GradidoTransaction)
    (groupAlias : String) : Act (Server b) Exn String := do
  let transaction := { transaction with
    body := { transaction.body with memo := this.mMemo, created := this.mCreated } }
  match ← signTransaction w this.mSession transaction with
  | none =>
    throw (.ed25519SignException "cannot sign transaction" (this.mSession.getPublicKey.getD [])
      (w.lib.bodyBytes transaction.body))
  | some transaction =>
    answer (w.validate (← get).trace transaction)
    if !w.lib.isValidGroupAlias groupAlias then
      throw (.transactionValidationInvalidInputException "invalid group alias" "groupAlias"
        "string, [a-z0-9-]{3,120}")
    else
      checkApolloDecay w this transaction.body.data
      let iotaMessageId ← publish w this transaction groupAlias
      modify fun s =>
        s.log (.push (pendingOf this transaction.body.data iotaMessageId (w.clock s.trace)))
      return iotaMessageId

/-- A transaction as the factory and the builder leave it. -/
def newTransaction (data : TransactionData) (crossGroup : CrossGroup) : GradidoTransaction :=
  ⟨⟨data, crossGroup, "", 0⟩, none, []⟩

/-- `createOutboundTransaction` and `createInboundTransaction` of the builder. -/
def buildLeg (w : World) (data : TransactionData) (crossGroup : CrossGroup) :
    Act (Server b) Exn GradidoTransaction := do
  answer (w.createLeg (← get).trace data crossGroup)
  return newTransaction data crossGroup

/-- The outbound leg to `groupAlias`, then the inbound leg to `otherGroup`. -/
def sendCrossGroup (w : World) (this : JsonTransaction) (data : TransactionData)
    (groupAlias otherGroup : String) : Act (Server b) Exn String := do
  let outbound ← buildLeg w data (.outbound otherGroup)
  let lastIotaMessageId ← signAndSendTransaction w this outbound groupAlias
  let inbound ← buildLeg w data (.inbound groupAlias)
  match w.lib.hexToBin lastIotaMessageId with
  | none => throw (.crash "setParentMessageId")
  | some iotaMessageIdBin =>
    signAndSendTransaction w this { inbound with parentMessageId := some iotaMessageIdBin } otherGroup

/-- `handleSignAndSendTransactionExceptions`; what it does not map is thrown on. -/
def handleSignAndSendTransactionExceptions (lib : Library) : Exn → Except Exn Document
  | .transactionValidationInvalidSignatureException _ => .ok (.stateError "Internal Server Error")
  | e@(.transactionValidationInvalidInputException ..) =>
    .ok (.error "transaction validation failed" (.exception e))
  | e@(.iotaRequestException _) => .ok (.error "error by calling iota" (.exception e))
  | e@(.requestResponseErrorException _) =>
    .ok (.error "request response exception" (.exception e))
  | e@(.rapidjsonParseErrorException _) => .ok (.error "error by calling iota" (.exception e))
  | .ed25519SignException .. => .ok (.stateError "Internal Server Error")
  | e@(.gradidoNodeRPCException ..) =>
    .ok (.error "error by requesting Gradido Node" (.text (e.getFullString lib)))
  | e@(.apolloDecayException ..) => .ok (.error "error with apollo decay" (.exception e))
  | e => .error e

/-- The success document of a sent transaction. -/
def sentDocument (iotaMessageId : String) : Document :=
  Document.stateSuccess.addMember "iotaMessageId" (.str iotaMessageId)

/-! ## The trace of a leg -/

section Spec

variable (w : World) (this : JsonTransaction) (data : TransactionData)

/-- The transaction of a leg, signed. -/
def legTransaction (leg : Leg) (parent : Option Bytes) (signPairs : List (Bytes × Bytes)) :
    GradidoTransaction :=
  ⟨⟨data, leg.crossGroup, this.mMemo, this.mCreated⟩, parent, signPairs⟩

/-- `e` hands the transaction out for `groupAlias`: by `puttransaction` if it is archived, else to
iota. The answer gives the message id or fails. -/
def Publishes (transaction : GradidoTransaction) (groupAlias : String) (r : Except Exn String)
    (e : Effect) : Prop :=
  let raw := w.lib.getSerialized transaction
  if this.mArchiveTransaction then
    ∃ a, e = .request "puttransaction"
        (putParams (w.lib.binToBase64 raw) this.mTransactionNr groupAlias) a ∧
      r = (reading w.lib readPut a).map fun _ => w.lib.binToHex (w.lib.genericHash raw)
  else e = .sendMessage (w.lib.binToHex (bytesOf (iotaIndex groupAlias))) (w.lib.binToHex raw) r

/-- The request `validateApolloDecay` makes before a leg, when a decay was given. -/
def DecayCheck (out : List Effect) : Prop :=
  out = [] ∨ this.mApolloCreatedDecay ≠ "" ∧ ∃ pubkey a, decayAddress data = some pubkey ∧
    out = [.request "getaddressbalance" (balanceParams (w.lib.binToHex pubkey)
      (w.lib.format this.mApolloDecayStart) this.mSession.mGroupAlias "") a]

/-- The leg was published with the id, and its entry pushed. -/
inductive LegSent (leg : Leg) (parent : Option String) (id : String) : List Effect → Prop
  | intro (bin : Option Bytes) (signPairs : List (Bytes × Bytes)) (decay : List Effect)
      (publish : Effect) (created : DateTime) (hparent : parent.map w.lib.hexToBin = bin.map some)
      (hdecay : DecayCheck w this data decay)
      (hpub : Publishes w this (legTransaction this data leg bin signPairs) leg.groupAlias (.ok id)
        publish) :
      LegSent leg parent id (decay ++ [publish, .push (pendingOf this data id created)])

/-- The leg was not published: it stopped before, or the answer failed. -/
inductive LegStopped (leg : Leg) : List Effect → Prop
  | before (decay : List Effect) (hdecay : DecayCheck w this data decay) : LegStopped leg decay
  | failed (e : Exn) (transaction : GradidoTransaction) (decay : List Effect) (publish : Effect)
      (hdecay : DecayCheck w this data decay)
      (hpub : Publishes w this transaction leg.groupAlias (.error e) publish) :
      LegStopped leg (decay ++ [publish])

/-- The legs are sent in order, each as a child of the one before, up to the first that stops. -/
inductive Sends : Option String → List Leg → Except Exn String → List Effect → Prop
  | done (id : String) : Sends (some id) [] (.ok id) []
  | stopped (parent : Option String) (leg : Leg) (legs : List Leg) (e : Exn) (out : List Effect)
      (h : LegStopped w this data leg out) : Sends parent (leg :: legs) (.error e) out
  | sent (parent : Option String) (leg : Leg) (legs : List Leg) (id : String)
      (r : Except Exn String) (out rest : List Effect) (h : LegSent w this data leg parent id out)
      (hrest : Sends (some id) legs r rest) : Sends parent (leg :: legs) r (out ++ rest)

/-- How one `signAndSendTransaction` ends. -/
def SentOrStopped (leg : Leg) (parent : Option String) : Except Exn String → List Effect → Prop
  | .ok id, out => LegSent w this data leg parent id out
  | .error _, out => LegStopped w this data leg out

end Spec

/-- The one leg of a transaction within a group. -/
def localLegs (groupAlias : String) : List Leg := [⟨.local, groupAlias⟩]

/-- The two legs of a cross-group transaction. -/
def crossLegs (groupAlias otherGroup : String) : List Leg :=
  [⟨.outbound otherGroup, groupAlias⟩, ⟨.inbound groupAlias, otherGroup⟩]

/-! ## What the code emits -/

/-- A document that ends a handler early reports an error. -/
def RefusesWithError {α : Type} (r : Except Exn (Except Document α)) : Prop :=
  ∀ d, r = .ok (.error d) → d.isError = true

theorem refusesWithError_of_error {α : Type} (e : Exn) :
    RefusesWithError (.error e : Except Exn (Except Document α)) := fun _ h => by cases h

theorem refusesWithError_of_ok {α : Type} (a : α) : RefusesWithError (.ok (.ok a)) :=
  fun _ h => by cases h

theorem refusesWithError_of_document {α : Type} {d : Document} (h : d.isError = true) :
    RefusesWithError (.ok (.error d) : Except Exn (Except Document α)) := by
  intro d' hd
  cases hd
  exact h

section Emits

variable {w : World} {this : JsonTransaction} {data : TransactionData} {s : Server b}

/-- Looking up the session has no effect. -/
theorem emits_getSession (w : World) (request : Request) (s : Server b) :
    Emits (Server.effects b) (w.getSession request) (fun _ out => out = []) s := by
  refine ⟨[], ⟨(List.append_nil _).symm, rfl, ?_⟩, rfl⟩
  show (exec (SessionManager.getSession w.cfg request.jwtToken request.clientIp) s.sessions).2.db = _
  rcases SessionManager.getSession_after w.cfg s.sessions request.jwtToken request.clientIp with
    h | ⟨name, h⟩ <;> rw [h]
  rfl

theorem emits_findSession (w : World) (request : Request) (s : Server b) :
    Emits (Server.effects b) (findSession w request)
      (fun r out => out = [] ∧ RefusesWithError r) s := by
  have hget : Emits (Server.effects b) (do return Except.ok (← w.getSession request) :
      Act (Server b) Exn (Except Document Session)) (fun r out => out = [] ∧ RefusesWithError r) s := by
    refine Emits.bind (emits_getSession w request s) ?_ ?_
    · rintro session out t - rfl
      exact Emits.pure ⟨rfl, refusesWithError_of_ok session⟩
    · rintro e out rfl
      exact ⟨rfl, refusesWithError_of_error e⟩
  refine Emits.tryCatch hget (fun _ _ h => h) ?_
  rintro e out t ⟨rfl, -⟩
  cases e <;>
    first
    | exact Emits.pure ⟨rfl, refusesWithError_of_document rfl⟩
    | exact Emits.throw ⟨rfl, refusesWithError_of_error _⟩

theorem readDates_isError {lib : Library} {now : DateTime} {created apolloDecayStart : String}
    {d : Document} (h : readDates lib now created apolloDecayStart = .error d) : d.isError = true := by
  unfold readDates at h
  cases hc : lib.parse created with
  | error what =>
    rw [hc] at h
    cases h
    rfl
  | ok parsed =>
    rw [hc] at h
    dsimp only at h
    split at h
    · cases h
    · cases hd : lib.parse apolloDecayStart with
      | error what =>
        rw [hd] at h
        cases h
        rfl
      | ok start =>
        rw [hd] at h
        cases h

/-- **Reading the parameters has no effect**, and refuses with an error document. -/
theorem emits_readSharedParameter (w : World) (request : Request) (s : Server b) :
    Emits (Server.effects b) (readSharedParameter w request)
      (fun r out => out = [] ∧ RefusesWithError r) s := by
  unfold readSharedParameter
  dsimp only
  cases hcreated : request.params.getStringParameter "created" with
  | error d =>
    have herror := request.params.isError_of_string "created" d hcreated
    exact Emits.pure ⟨rfl, refusesWithError_of_document herror⟩
  | ok created =>
    refine Emits.get_bind ?_
    cases hdates : readDates w.lib (w.clock s.trace) created
        (request.params.str "apolloDecayStart") with
    | error d => exact Emits.pure ⟨rfl, refusesWithError_of_document (readDates_isError hdates)⟩
    | ok dates =>
      refine Emits.bind (emits_findSession w request s) ?_ ?_
      · rintro found out t - ⟨rfl, hfound⟩
        cases found with
        | error d => exact Emits.pure ⟨rfl, refusesWithError_of_document (hfound d rfl)⟩
        | ok session => exact Emits.pure ⟨rfl, refusesWithError_of_ok _⟩
      · rintro e out ⟨rfl, -⟩
        exact ⟨rfl, refusesWithError_of_error e⟩

/-- The members of a handler with these dates and this session. -/
def membersOf (params : Params) (now : DateTime) (dates : DateTime × DateTime) (mSession : Session) :
    JsonTransaction where
  mMemo := params.str "memo"
  mCreated := dates.1
  mApolloTransactionId := params.uint64 "apolloTransactionId"
  mApolloCreatedDecay := params.str "apolloCreatedDecay"
  mApolloDecayStart := dates.2
  mArchiveTransaction := isArchive now dates.1 (params.uint64 "transactionNr")
  mTransactionNr := params.uint64 "transactionNr"
  mSession := mSession

/-- **The requests whose parameters are accepted**, with the members they are read into. -/
theorem exec_readSharedParameter_eq_ok {request : Request} {t : Server b} :
    exec (readSharedParameter w request) s = (.ok (.ok this), t) ↔
      ∃ created dates session, request.params.getStringParameter "created" = .ok created ∧
        readDates w.lib (w.clock s.trace) created (request.params.str "apolloDecayStart") = .ok dates ∧
        exec (findSession w request) s = (.ok (.ok session), t) ∧
        this = membersOf request.params (w.clock s.trace) dates session := by
  unfold readSharedParameter
  dsimp only
  constructor
  · intro h
    cases hcreated : request.params.getStringParameter "created" with
    | error d =>
      rw [hcreated] at h
      cases h
    | ok created =>
      rw [hcreated] at h
      dsimp only at h
      obtain ⟨now, u, hnow, h⟩ := of_exec_bind h
      cases hnow
      cases hdates : readDates w.lib (w.clock s.trace) created
          (request.params.str "apolloDecayStart") with
      | error d =>
        rw [hdates] at h
        cases h
      | ok dates =>
        rw [hdates] at h
        obtain ⟨found, u, hfound, h⟩ := of_exec_bind h
        cases found with
        | error d => cases h
        | ok session =>
          cases h
          exact ⟨created, dates, session, rfl, hdates, hfound, rfl⟩
  · rintro ⟨created, dates, session, hcreated, hdates, hfound, rfl⟩
    rw [hcreated]
    dsimp only
    rw [exec_bind, exec_get]
    dsimp only
    rw [hdates]
    dsimp only
    rw [exec_bind, hfound]
    rfl

theorem emits_validateApolloDecay (h : this.mApolloCreatedDecay ≠ "") :
    Emits (Server.effects b) (validateApolloDecay w this data)
      (fun _ out => DecayCheck w this data out) s := by
  unfold validateApolloDecay
  cases hd : decayAddress data with
  | none => exact Emits.pure (Or.inl rfl)
  | some pubkey =>
    have hask : Emits (Server.effects b) (getAddressBalance w (w.lib.binToHex pubkey)
        (w.lib.format this.mApolloDecayStart) this.mSession.mGroupAlias "")
        (fun _ out => DecayCheck w this data out) s := by
      refine Emits.mono (emits_rpc w _ _ _ s) ?_
      rintro r out ⟨a, rfl, -⟩
      exact Or.inr ⟨h, pubkey, a, hd, rfl⟩
    refine Emits.bind hask (fun balance out t _ hout => ?_) fun _ _ hout => hout
    -- what follows the request computes only
    refine Emits.mono (R := fun _ out' => out' = []) ?_ fun _ _ hnil => by
      rwa [hnil, List.append_nil]
    cases w.lib.mpfrSetStr balance with
    | none => exact Emits.throw rfl
    | some startBalance =>
      refine Emits.bind (Emits.answer (Q := fun _ out => out = []) rfl) ?_ fun _ _ hnil => hnil
      rintro endBalance _ t' - rfl
      cases w.lib.mpfrSetStr this.mApolloCreatedDecay with
      | none => exact Emits.throw rfl
      | some apolloDecay =>
        dsimp only
        split
        · exact Emits.throw rfl
        · exact Emits.pure rfl

theorem emits_checkApolloDecay (w : World) (this : JsonTransaction) (data : TransactionData)
    (s : Server b) :
    Emits (Server.effects b) (checkApolloDecay w this data)
      (fun _ out => DecayCheck w this data out) s := by
  unfold checkApolloDecay
  by_cases h : this.mApolloCreatedDecay.isEmpty = true
  · rw [if_pos h]
    exact Emits.pure (Or.inl rfl)
  · rw [if_neg h]
    refine emits_validateApolloDecay fun hempty => h ?_
    rw [hempty]
    rfl

/-- What signing hands back is the transaction with signatures. -/
def SignedAs (transaction : GradidoTransaction) (r : Except Exn (Option GradidoTransaction)) : Prop :=
  ∀ signed, r = .ok (some signed) → ∃ signPairs, signed = { transaction with signPairs }

theorem emits_signTransaction (w : World) (session : Session) (transaction : GradidoTransaction)
    (s : Server b) :
    Emits (Server.effects b) (signTransaction w session transaction)
      (fun r out => out = [] ∧ SignedAs transaction r) s := by
  have hthrow : ∀ e, Emits (Server.effects b) (throw e : Act (Server b) Exn _)
      (fun r out => out = [] ∧ SignedAs transaction r) s :=
    fun e => Emits.throw ⟨rfl, fun _ h => by cases h⟩
  unfold signTransaction
  cases session.mUserKeyPair with
  | none => exact hthrow _
  | some keyPair =>
    refine Emits.get_bind ?_
    cases w.sign s.trace keyPair (w.lib.bodyBytes transaction.body) with
    | ok sign => exact Emits.pure ⟨rfl, fun signed h => ⟨_, (Option.some.inj (Except.ok.inj h)).symm⟩⟩
    | error e =>
      cases e with
      | ed25519SignException => exact Emits.pure ⟨rfl, fun _ h => by cases h⟩
      | _ => exact hthrow _

/-- Publishing is one effect. -/
theorem emits_publish (w : World) (this : JsonTransaction) (transaction : GradidoTransaction)
    (groupAlias : String) (s : Server b) :
    Emits (Server.effects b) (publish w this transaction groupAlias)
      (fun r out => ∃ e, out = [e] ∧ Publishes w this transaction groupAlias r e) s := by
  unfold publish Publishes
  dsimp only
  cases this.mArchiveTransaction with
  | true =>
    refine Emits.bind (emits_rpc w _ _ readPut s) ?_ ?_
    · rintro ⟨⟩ out t - ⟨a, rfl, ha⟩
      exact Emits.pure ⟨_, rfl, a, rfl, by rw [← ha]; rfl⟩
    · rintro e out ⟨a, rfl, ha⟩
      exact ⟨_, rfl, a, rfl, by rw [← ha]; rfl⟩
  | false => exact Server.emits_perform ⟨_, rfl, rfl⟩

/-- **One call sends its leg and pushes its entry, or stops before the message got out.** -/
theorem emits_signAndSendTransaction (leg : Leg) (parent : Option String) (bin : Option Bytes)
    (hparent : parent.map w.lib.hexToBin = bin.map some) (s : Server b) :
    Emits (Server.effects b) (signAndSendTransaction w this
      { newTransaction data leg.crossGroup with parentMessageId := bin } leg.groupAlias)
      (SentOrStopped w this data leg parent) s := by
  have hbefore : LegStopped w this data leg [] := .before [] (Or.inl rfl)
  unfold signAndSendTransaction
  refine Emits.bind (emits_signTransaction w this.mSession _ s) ?_ ?_
  · rintro signed out t - ⟨rfl, hsigned⟩
    cases signed with
    | none => exact Emits.throw hbefore
    | some transaction =>
      obtain ⟨signPairs, rfl⟩ := hsigned transaction rfl
      refine Emits.get_bind ?_
      refine Emits.bind (Emits.answer (Q := fun _ out => out = []) rfl) ?_ ?_
      · rintro ⟨⟩ _ t₁ - rfl
        dsimp only
        split
        · exact Emits.throw hbefore
        · refine Emits.bind (emits_checkApolloDecay w this data t₁) (fun _ decay t₂ _ hdecay => ?_)
            fun e decay hdecay => LegStopped.before decay hdecay
          refine Emits.bind (emits_publish w this _ leg.groupAlias t₂) ?_ ?_
          · rintro id out t₃ - ⟨publish, rfl, hpub⟩
            exact Server.emits_log (.intro bin _ decay publish _ hparent hdecay hpub)
          · rintro e out ⟨publish, rfl, hpub⟩
            exact .failed e _ decay publish hdecay hpub
      · rintro e _ rfl
        exact hbefore
  · rintro e out ⟨rfl, -⟩
    exact hbefore

/-- A transaction within a group is sent as one leg. -/
theorem emits_sendLocal (w : World) (this : JsonTransaction) (data : TransactionData)
    (groupAlias : String) (s : Server b) :
    Emits (Server.effects b) (signAndSendTransaction w this (newTransaction data .local) groupAlias)
      (Sends w this data none (localLegs groupAlias)) s := by
  refine Emits.mono (emits_signAndSendTransaction ⟨.local, groupAlias⟩ none none rfl s) ?_
  rintro (e | id) out hout
  · exact .stopped none _ _ e out hout
  · have hsends := Sends.sent none _ [] id _ out [] hout (.done id)
    rwa [List.append_nil] at hsends

/-- The trace of a leg that stops without any effect. -/
theorem sends_stopped (w : World) (this : JsonTransaction) (data : TransactionData) (leg : Leg)
    (legs : List Leg) (parent : Option String) (e : Exn) :
    Sends w this data parent (leg :: legs) (.error e) [] :=
  .stopped parent leg legs e [] (.before [] (Or.inl rfl))

theorem emits_buildLeg (w : World) (data : TransactionData) (crossGroup : CrossGroup) (s : Server b) :
    Emits (Server.effects b) (buildLeg w data crossGroup)
      (fun r out => out = [] ∧ ∀ t, r = .ok t → t = newTransaction data crossGroup) s := by
  unfold buildLeg
  refine Emits.get_bind (Emits.bind (Emits.answer (Q := fun _ out => out = []) rfl) ?_ ?_)
  · rintro ⟨⟩ _ t - rfl
    exact Emits.pure ⟨rfl, fun t h => (Except.ok.inj h).symm⟩
  · rintro e _ rfl
    exact ⟨rfl, fun _ h => by cases h⟩

/-- **The two legs are sent in order**, the second as a child of the first. -/
theorem emits_sendCrossGroup (w : World) (this : JsonTransaction) (data : TransactionData)
    (groupAlias otherGroup : String) (s : Server b) :
    Emits (Server.effects b) (sendCrossGroup w this data groupAlias otherGroup)
      (Sends w this data none (crossLegs groupAlias otherGroup)) s := by
  unfold sendCrossGroup
  refine Emits.bind (emits_buildLeg w data (.outbound otherGroup) s) ?_ ?_
  · rintro outbound _ t - ⟨rfl, hout⟩
    obtain rfl := hout outbound rfl
    refine Emits.bind (emits_signAndSendTransaction ⟨.outbound otherGroup, groupAlias⟩ none none rfl t)
      (fun id sent t₁ _ hsent => ?_) fun e out hstop => .stopped none _ _ e out hstop
    -- the outbound leg is out: whatever comes now is the trace of the inbound leg
    refine Emits.mono (R := Sends w this data (some id) [⟨.inbound groupAlias, otherGroup⟩]) ?_
      fun r out hrest => .sent none _ _ id r sent out hsent hrest
    refine Emits.bind (emits_buildLeg w data (.inbound groupAlias) t₁) ?_ ?_
    · rintro inbound _ t₂ - ⟨rfl, hin⟩
      obtain rfl := hin inbound rfl
      cases hbin : w.lib.hexToBin id with
      | none => exact Emits.throw (sends_stopped w this data _ _ _ _)
      | some bin =>
        refine Emits.mono (emits_signAndSendTransaction ⟨.inbound groupAlias, otherGroup⟩ (some id)
          (some bin) (congrArg some hbin) t₂) ?_
        rintro (e | id') out hleg
        · exact .stopped _ _ _ e out hleg
        · have hsends := Sends.sent (some id) _ [] id' _ out [] hleg (.done id')
          rwa [List.append_nil] at hsends
    · rintro e _ ⟨rfl, -⟩
      exact sends_stopped w this data _ _ _ e
  · rintro e _ ⟨rfl, -⟩
    exact sends_stopped w this data _ _ _ e

end Emits

end JsonTransaction

end GradidoConnector
