import GradidoConnector.JsonListTransactions

/-!
# Packing transactions

Model of `JSONInterface/JsonPackTransaction.cpp`. A request is packed into one transaction, or into
the two legs of a cross-group transaction when two group aliases are given, and the answer lists
their bodies as base64.

* `transfer`, `creation` and `registerAddress` are the functions of the source up to their last
  line, `return resultBase64Transactions(transactions)`, which `handle` has once for the three.
* `Packer` stands for the parts of the `gradido_blockchain` library that packing uses. A null
  `MemoryBin*` is `none`.
* `transfer` and `registerAddress` decide with the same condition and push the same legs, each with
  its own aliases (`legsFor`).

Results:
* `forall₂_of_entries`: a list of entries has one for each transaction, all of them valid.
* **`of_success`**: what a success document lists.
-/

namespace GradidoConnector

open GradidoConnector.Base GradidoConnector.Base.Act

/-- What `TransactionFactory` builds a packed transaction from. -/
inductive PackData
  | transfer (senderPubkey : Option Bytes) (amount coinGroupId : String)
      (recipientPubkey : Option Bytes)
  | creation (recipientPubkey : Option Bytes) (amount : String) (targetDate : DateTime)
  | registerAddress (userRootPubkey : Option Bytes) (addressType : AddressType)
      (nameHash subaccountPubkey : Option Bytes)
  deriving DecidableEq

/-- A transaction without signatures. -/
structure PackBody where
  data : PackData
  crossGroup : CrossGroup
  memo : String
  created : DateTime
  deriving DecidableEq

structure Packer where
  lib : Library
  /-- `Poco::Timezone::tzd()` in seconds. -/
  tzd : Int
  /-- `TransactionFactory` -/
  create : PackData → Except Exn Unit
  /-- `CrossGroupTransactionBuilder` -/
  createLeg : PackData → CrossGroup → Except Exn Unit
  validate : PackBody → Except Exn Bool
  /-- `getBodyBytes` -/
  bodyBytes : PackBody → Except Exn Bytes
  toJson : PackBody → String

/-- A request with its member `coinGroupId` as `FindMember` finds it. -/
structure PackRequest where
  params : Params
  coinGroupId : Option Json

/-- A transaction and the group it is labelled with. -/
structure TransactionGroupAlias where
  transaction : PackBody
  groupAlias : String
  deriving DecidableEq

namespace JsonPackTransaction

/-! ## The code -/

def readCoinGroupId (request : PackRequest) : Except Exn String :=
  match request.coinGroupId with
  | none => .ok ""
  | some (.str coinColorString) => .ok (cString coinColorString)
  | some _ => .error (.gradidoBlockchainException "groupId has unknown type")

/-- A transaction as the factory and the builder leave it. -/
def newBody (data : PackData) (crossGroup : CrossGroup) : PackBody := ⟨data, crossGroup, "", 0⟩

/-- The legs of a transaction from `groupAlias` to `otherGroup`, or the one local transaction. -/
def legsFor (p : Packer) (data : PackData) (groupAlias otherGroup : String) :
    Except Exn (List TransactionGroupAlias) := do
  if groupAlias.isEmpty = false ∧ otherGroup.isEmpty = false then
    p.createLeg data (.outbound otherGroup)
    p.createLeg data (.inbound groupAlias)
    return [⟨newBody data (.outbound otherGroup), groupAlias⟩,
      ⟨newBody data (.inbound groupAlias), otherGroup⟩]
  else return [⟨newBody data .local, ""⟩]

def transfer (p : Packer) (request : PackRequest) :
    Except Exn (Except Document (List TransactionGroupAlias)) :=
  match request.params.getStringParameter "senderPubkey",
    request.params.getStringParameter "recipientPubkey",
    request.params.getStringParameter "amount" with
  | .error document, _, _ | _, .error document, _ | _, _, .error document => return .error document
  | .ok senderPubkey, .ok recipientPubkey, .ok amount => do
    let senderGroupAlias := request.params.str "senderGroupAlias"
    let recipientGroupAlias := request.params.str "recipientGroupAlias"
    let baseTransaction := PackData.transfer (p.lib.hexToBin senderPubkey) amount
      (← readCoinGroupId request) (p.lib.hexToBin recipientPubkey)
    p.create baseTransaction
    return .ok (← legsFor p baseTransaction senderGroupAlias recipientGroupAlias)

/-- `targetDate`, made local, or the error document. -/
def readTargetDate (p : Packer) (targetDateString : String) : Except Document DateTime :=
  match p.lib.parse targetDateString with
  | .error what => .error (.error "cannot parse targetDate" (.text what))
  | .ok (targetDate, _) => .ok (targetDate + p.tzd * 1000000)

def creation (p : Packer) (request : PackRequest) :
    Except Exn (Except Document (List TransactionGroupAlias)) :=
  match request.params.getStringParameter "recipientPubkey",
    request.params.getStringParameter "amount",
    request.params.getStringParameter "targetDate" with
  | .error document, _, _ | _, .error document, _ | _, _, .error document => return .error document
  | .ok recipientPubkey, .ok amount, .ok targetDateString =>
    match readTargetDate p targetDateString with
    | .error document => return .error document
    | .ok targetDate => do
      let creation := PackData.creation (p.lib.hexToBin recipientPubkey) amount targetDate
      p.create creation
      return .ok [⟨newBody creation .local, ""⟩]

/-- The bytes of a parameter that is given. -/
def hexIfGiven (lib : Library) (hex : String) : Option Bytes :=
  if hex.isEmpty then none else lib.hexToBin hex

def registerAddress (p : Packer) (request : PackRequest) :
    Except Exn (Except Document (List TransactionGroupAlias)) :=
  let userRootPubkeyHex := request.params.str "userRootPubkey"
  match request.params.getStringParameter "addressType" with
  | .error document => return .error document
  | .ok addressTypeString =>
    let addressType := p.lib.getAddressTypeFromString addressTypeString
    let nameHashHex := request.params.str "nameHash"
    let subaccountPubkeyHex := request.params.str "subaccountPubkey"
    if userRootPubkeyHex.isEmpty ∧ subaccountPubkeyHex.isEmpty then
      return .error (.stateError "userRootPubkey or subaccountPubkey must be given")
    else do
      let currentGroupAlias := request.params.str "currentGroupAlias"
      let newGroupAlias := request.params.str "newGroupAlias"
      let baseTransaction := PackData.registerAddress (hexIfGiven p.lib userRootPubkeyHex) addressType
        (hexIfGiven p.lib nameHashHex) (hexIfGiven p.lib subaccountPubkeyHex)
      p.create baseTransaction
      return .ok (← legsFor p baseTransaction currentGroupAlias newGroupAlias)

/-- The entry of a transaction. -/
def entry (groupAlias base64 : String) : Json :=
  .obj ((if groupAlias.isEmpty then [] else [("groupAlias", .str (cString groupAlias))]) ++
    [("bodyBytesBase64", .str base64)])

/-- `setMemo(mMemo).setCreated(mCreated)` -/
def dated (mMemo : String) (mCreated : DateTime) (transaction : PackBody) : PackBody :=
  { transaction with memo := mMemo, created := mCreated }

/-- The loop of `resultBase64Transactions`: `transactionsJsonArray` or the error document. -/
def entries (p : Packer) (mMemo : String) (mCreated : DateTime) :
    List TransactionGroupAlias → Except Exn (Except Document (List Json))
  | [] => return .ok []
  | it :: rest => do
    let transaction := dated mMemo mCreated it.transaction
    if !(← p.validate transaction) then
      return .error (.error "invalid transaction" (.text (p.toJson transaction)))
    match p.bodyBytes transaction with
    | .error e =>
      if e.baseClass = some .pocoException then
        return .error (.error "exception in serializing" (.text (p.lib.getFullString e)))
      else throw e
    | .ok bodyBytes =>
      match ← entries p mMemo mCreated rest with
      | .error document => return .error document
      | .ok transactionsJsonArray =>
        return .ok (entry it.groupAlias (p.lib.binToBase64 bodyBytes) :: transactionsJsonArray)

def resultBase64Transactions (p : Packer) (mMemo : String) (mCreated : DateTime)
    (transactions : List TransactionGroupAlias) : Except Exn Document := do
  match ← entries p mMemo mCreated transactions with
  | .error document => return document
  | .ok transactionsJsonArray =>
    return Document.stateSuccess.addMember "transactions" (.arr transactionsJsonArray)

/-- `transactionType` and `mCreated`, or the error document. -/
def readParameter (p : Packer) (request : PackRequest) : Except Document (String × DateTime) :=
  match request.params.getStringParameter "transactionType" with
  | .error paramError => .error paramError
  | .ok transactionType =>
    match request.params.getStringParameter "created" with
    | .error paramError => .error paramError
    | .ok created_string =>
      match p.lib.parse created_string with
      | .error what => .error (.error "cannot parse created" (.text what))
      | .ok (mCreated, _) => .ok (transactionType, mCreated)

/-- The transactions of a request of this type. -/
def transactionsOf (p : Packer) (request : PackRequest) (transactionType : String) :
    Except Exn (Except Document (List TransactionGroupAlias)) :=
  if transactionType = "transfer" then transfer p request
  else if transactionType = "creation" then creation p request
  else if transactionType = "registerAddress" then registerAddress p request
  else return .error (.stateError "transaction_type unknown")

def handle (p : Packer) (request : PackRequest) : Except Exn Document :=
  match readParameter p request with
  | .error document => return document
  | .ok (transactionType, mCreated) => do
    match ← transactionsOf p request transactionType with
    | .error document => return document
    | .ok transactions =>
      resultBase64Transactions p (request.params.str "memo") mCreated transactions

/-! ## What a document lists -/

/-- The request of this type is packed into `transactions`, dated `mCreated`. -/
def Packs (p : Packer) (request : PackRequest) (transactionType : String) (mCreated : DateTime)
    (transactions : List TransactionGroupAlias) : Prop :=
  readParameter p request = .ok (transactionType, mCreated) ∧
    transactionsOf p request transactionType = .ok (.ok transactions)

/-- `e` is the entry of the transaction `it`, which is valid. -/
def Lists (p : Packer) (mMemo : String) (mCreated : DateTime) (it : TransactionGroupAlias)
    (e : Json) : Prop :=
  p.validate (dated mMemo mCreated it.transaction) = .ok true ∧
    ∃ bodyBytes, p.bodyBytes (dated mMemo mCreated it.transaction) = .ok bodyBytes ∧
      e = entry it.groupAlias (p.lib.binToBase64 bodyBytes)

section Lists

variable {p : Packer} {request : PackRequest} {mMemo : String} {mCreated : DateTime}

/-- **A list of entries** has one for each transaction, in order, all of them valid. -/
theorem forall₂_of_entries {transactions : List TransactionGroupAlias} {es : List Json}
    (h : entries p mMemo mCreated transactions = .ok (.ok es)) :
    List.Forall₂ (Lists p mMemo mCreated) transactions es := by
  induction transactions generalizing es with
  | nil =>
    cases h
    exact .nil
  | cons it rest ih =>
    rw [entries] at h
    obtain ⟨valid, hvalid, h⟩ := bind_eq_ok.mp h
    cases valid with
    | false => cases h
    | true =>
      simp only [Bool.not_true, Bool.false_eq_true, if_false] at h
      cases hbytes : p.bodyBytes (dated mMemo mCreated it.transaction) with
      | error e =>
        rw [hbytes] at h
        dsimp only at h
        split at h <;> cases h
      | ok bodyBytes =>
        rw [hbytes] at h
        obtain ⟨packed, hpacked, h⟩ := bind_eq_ok.mp h
        cases packed with
        | error document => cases h
        | ok array =>
          cases h
          exact .cons ⟨hvalid, bodyBytes, hbytes, rfl⟩ (ih hpacked)

/-- A document that ends the loop reports an error. -/
theorem isError_of_entries {transactions : List TransactionGroupAlias} {d : Document}
    (h : entries p mMemo mCreated transactions = .ok (.error d)) : d.isError = true := by
  induction transactions with
  | nil => cases h
  | cons it rest ih =>
    rw [entries] at h
    obtain ⟨valid, -, h⟩ := bind_eq_ok.mp h
    cases valid with
    | false =>
      cases h
      rfl
    | true =>
      simp only [Bool.not_true, Bool.false_eq_true, if_false] at h
      cases hbytes : p.bodyBytes (dated mMemo mCreated it.transaction) with
      | error e =>
        rw [hbytes] at h
        dsimp only at h
        split at h <;> cases h
        rfl
      | ok bodyBytes =>
        rw [hbytes] at h
        obtain ⟨packed, hpacked, h⟩ := bind_eq_ok.mp h
        cases packed with
        | ok array => cases h
        | error document =>
          cases h
          exact ih hpacked

theorem isError_of_readParameter {d : Document} (h : readParameter p request = .error d) :
    d.isError = true := by
  unfold readParameter at h
  cases htype : request.params.getStringParameter "transactionType" with
  | error paramError =>
    rw [htype] at h
    cases h
    exact request.params.isError_of_string _ _ htype
  | ok transactionType =>
    rw [htype] at h
    cases hcreated : request.params.getStringParameter "created" with
    | error paramError =>
      rw [hcreated] at h
      cases h
      exact request.params.isError_of_string _ _ hcreated
    | ok created_string =>
      rw [hcreated] at h
      dsimp only at h
      split at h <;> cases h
      rfl

theorem isError_of_transfer {d : Document} (h : transfer p request = .ok (.error d)) :
    d.isError = true := by
  unfold transfer at h
  split at h
  · rename_i hsender
    cases h
    exact request.params.isError_of_string _ _ hsender
  · rename_i hrecipient _
    cases h
    exact request.params.isError_of_string _ _ hrecipient
  · rename_i hamount _ _
    cases h
    exact request.params.isError_of_string _ _ hamount
  · obtain ⟨coinGroupId, -, h⟩ := bind_eq_ok.mp h
    obtain ⟨_, -, h⟩ := bind_eq_ok.mp h
    obtain ⟨legs, -, h⟩ := bind_eq_ok.mp h
    cases h

theorem isError_of_creation {d : Document} (h : creation p request = .ok (.error d)) :
    d.isError = true := by
  unfold creation at h
  split at h
  · rename_i hrecipient
    cases h
    exact request.params.isError_of_string _ _ hrecipient
  · rename_i hamount _
    cases h
    exact request.params.isError_of_string _ _ hamount
  · rename_i htarget _ _
    cases h
    exact request.params.isError_of_string _ _ htarget
  · unfold readTargetDate at h
    cases hdate : p.lib.parse _ with
    | error what =>
      rw [hdate] at h
      cases h
      rfl
    | ok targetDate =>
      rw [hdate] at h
      obtain ⟨_, -, h⟩ := bind_eq_ok.mp h
      cases h

theorem isError_of_registerAddress {d : Document} (h : registerAddress p request = .ok (.error d)) :
    d.isError = true := by
  unfold registerAddress at h
  dsimp only at h
  split at h
  · rename_i htype
    cases h
    exact request.params.isError_of_string _ _ htype
  · split at h
    · cases h
      rfl
    · obtain ⟨_, -, h⟩ := bind_eq_ok.mp h
      obtain ⟨legs, -, h⟩ := bind_eq_ok.mp h
      cases h

theorem isError_of_transactionsOf {transactionType : String} {d : Document}
    (h : transactionsOf p request transactionType = .ok (.error d)) : d.isError = true := by
  unfold transactionsOf at h
  split at h
  · exact isError_of_transfer h
  · split at h
    · exact isError_of_creation h
    · split at h
      · exact isError_of_registerAddress h
      · cases h
        rfl

theorem ne_success_of_isError {d : Document} {members : List (String × Json)}
    (hd : d.isError = true) : d ≠ .success members := by
  rintro rfl
  cases hd

/-- **What a success document lists**: one entry for each transaction, in order, all of
them valid. -/
theorem of_success {members : List (String × Json)} (h : handle p request = .ok (.success members)) :
    ∃ transactionType mCreated transactions es, Packs p request transactionType mCreated transactions ∧
      members = [("transactions", .arr es)] ∧
      List.Forall₂ (Lists p (request.params.str "memo") mCreated) transactions es := by
  unfold handle at h
  cases hparam : readParameter p request with
  | error d =>
    rw [hparam] at h
    exact absurd (Except.ok.inj h) (ne_success_of_isError (isError_of_readParameter hparam))
  | ok parameter =>
    obtain ⟨transactionType, mCreated⟩ := parameter
    rw [hparam] at h
    obtain ⟨packed, hpacked, h⟩ := bind_eq_ok.mp h
    cases packed with
    | error d =>
      exact absurd (Except.ok.inj h) (ne_success_of_isError (isError_of_transactionsOf hpacked))
    | ok transactions =>
      unfold resultBase64Transactions at h
      obtain ⟨listed, hlisted, h⟩ := bind_eq_ok.mp h
      cases listed with
      | error d => exact absurd (Except.ok.inj h) (ne_success_of_isError (isError_of_entries hlisted))
      | ok es =>
        cases h
        exact ⟨transactionType, mCreated, transactions, es, ⟨hparam, hpacked⟩, rfl,
          forall₂_of_entries hlisted⟩

/-- A request is packed in one way. -/
theorem Packs.unique {transactionType transactionType' : String} {mCreated mCreated' : DateTime}
    {transactions transactions' : List TransactionGroupAlias}
    (h : Packs p request transactionType mCreated transactions)
    (h' : Packs p request transactionType' mCreated' transactions') :
    transactionType = transactionType' ∧ mCreated = mCreated' ∧ transactions = transactions' := by
  obtain ⟨hparam, hpacked⟩ := h
  obtain ⟨hparam', hpacked'⟩ := h'
  rw [hparam, Except.ok.injEq, Prod.mk.injEq] at hparam'
  obtain ⟨rfl, rfl⟩ := hparam'
  rw [hpacked, Except.ok.injEq, Except.ok.injEq] at hpacked'
  exact ⟨rfl, rfl, hpacked'⟩

end Lists

end JsonPackTransaction

end GradidoConnector
