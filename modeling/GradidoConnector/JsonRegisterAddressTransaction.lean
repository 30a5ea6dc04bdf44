import GradidoConnector.HandlerTrace

/-!
# The register address handler

Model of `JSONInterface/JsonRegisterAddressTransaction.cpp`, `handle`. An address is registered in
the session's group, or moved when both aliases are given and differ. The question to the Gradido
Node answers a `GradidoNodeRPCException` with an error document; building and sending is guarded by
`handleSignAndSendTransactionExceptions`.

Result: **`emits_handle`**, every request to the handler has the trace of a transaction handler.
-/

namespace GradidoConnector.JsonRegisterAddressTransaction

open GradidoConnector.Base GradidoConnector.Base.Act

open GradidoNodeRPC JsonTransaction

variable {b : Backend}

/-! ## The code -/

/-- An alias of the request is empty or valid. -/
def AliasAllowed (lib : Library) (groupAlias : String) : Prop :=
  groupAlias.isEmpty = true ∨ lib.isValidGroupAlias groupAlias = true

instance (lib : Library) (groupAlias : String) : Decidable (AliasAllowed lib groupAlias) := by
  unfold AliasAllowed
  infer_instance

/-- `movingAddress` -/
def Moving (currentGroupAlias newGroupAlias : String) : Prop :=
  currentGroupAlias.isEmpty = false ∧ newGroupAlias.isEmpty = false ∧
    currentGroupAlias ≠ newGroupAlias

instance (currentGroupAlias newGroupAlias : String) :
    Decidable (Moving currentGroupAlias newGroupAlias) := by
  unfold Moving
  infer_instance

/-- The group whose transactions are searched for the address. -/
def askedGroup (this : JsonTransaction) (currentGroupAlias newGroupAlias : String) : String :=
  if Moving currentGroupAlias newGroupAlias then newGroupAlias else this.mSession.mGroupAlias

/-- The question to the Gradido Node. -/
def checkNode (w : World) (this : JsonTransaction) (userRootPubkey : Bytes)
    (currentGroupAlias newGroupAlias : String) : Act (Server b) Exn (Except Document Unit) := do
  if this.mArchiveTransaction then return .ok ()
  else
    let addressTxids ← getAddressTxids w (w.lib.binToHex userRootPubkey)
      (askedGroup this currentGroupAlias newGroupAlias)
    if addressTxids ≠ [] then
      return .error (.stateError "cannot register address because it already exist")
    else return .ok ()

/-- What a registration of the session's key is sent as. -/
def plan (this : JsonTransaction) (keyPair : KeyPair) (addressType : AddressType)
    (currentGroupAlias newGroupAlias : String) : Plan where
  memo := this.mMemo
  data := .registerAddress keyPair.publicKey addressType
  route := if Moving currentGroupAlias newGroupAlias then .across currentGroupAlias newGroupAlias
    else .within this.mSession.mGroupAlias

/-- The rest of `handle` once the parameters are read. -/
def register (w : World) (this : JsonTransaction) (keyPair : KeyPair) (addressType : AddressType)
    (currentGroupAlias newGroupAlias : String) : Act (Server b) Exn Document :=
  let plan := plan this keyPair addressType currentGroupAlias newGroupAlias
  checkAndSend w { this with mMemo := plan.memo }
    (catchNode (checkNode w this keyPair.publicKey currentGroupAlias newGroupAlias))
    plan.data plan.route (handleSignAndSendTransactionExceptions w.lib)

def handle (w : World) (request : Request) : Act (Server b) Exn Document :=
  withSharedParameter w request fun this => do
    match request.params.getStringParameter "addressType" with
    | .error document => return document
    | .ok addressTypeString =>
      let addressType := w.lib.getAddressTypeFromString addressTypeString
      let currentGroupAlias := request.params.str "currentGroupAlias"
      let newGroupAlias := request.params.str "newGroupAlias"
      if addressType = .subaccount then
        return .stateError "subaccount address type currently not supported from this function"
      else if ¬ AliasAllowed w.lib currentGroupAlias then
        return .stateError "invalid character in currentGroupAlias, only ascii allowed"
      else if ¬ AliasAllowed w.lib newGroupAlias then
        return .stateError "invalid character in newGroupAlias, only ascii allowed"
      else
        match this.mSession.mUserKeyPair with
        | none => throw (.crash "getKeyPair()")
        | some keyPair => register w this keyPair addressType currentGroupAlias newGroupAlias

/-! ## Its trace -/

section Spec

variable (w : World) (this : JsonTransaction) (request : Request)

/-- The question with the answer that lets a registration pass: the address has no transactions in
the group it asks for. -/
inductive Passed (userRootPubkey : Bytes) (currentGroupAlias newGroupAlias : String) :
    List Effect → Prop
  | intro (txidsAnswer : Except Exn Json)
      (htxids : reading w.lib readAddressTxids txidsAnswer = .ok []) :
      Passed userRootPubkey currentGroupAlias newGroupAlias
        [.request "getaddresstxids" (addressParams (w.lib.binToHex userRootPubkey)
          (askedGroup this currentGroupAlias newGroupAlias)) txidsAnswer]

/-- A registration is sent once its question has passed. -/
inductive Prepared : Plan → List Effect → List Effect → Prop
  | intro (addressTypeString currentGroupAlias newGroupAlias : String) (keyPair : KeyPair)
      (checks : List Effect)
      (htype : request.params.getStringParameter "addressType" = .ok addressTypeString)
      (hcurrent : currentGroupAlias = request.params.str "currentGroupAlias")
      (hnew : newGroupAlias = request.params.str "newGroupAlias")
      (hkey : this.mSession.mUserKeyPair = some keyPair)
      (harchive : this.mArchiveTransaction = true → checks = [])
      (hpassed : this.mArchiveTransaction = false →
        Passed w this keyPair.publicKey currentGroupAlias newGroupAlias checks) :
      Prepared (plan this keyPair (w.lib.getAddressTypeFromString addressTypeString)
        currentGroupAlias newGroupAlias) [] checks

end Spec

section Emits

variable {w : World} {this : JsonTransaction} {request : Request} {s : Server b}

/-- The question of a registration, as far as it is asked. -/
theorem emits_checkNode (userRootPubkey : Bytes) (currentGroupAlias newGroupAlias : String) :
    Emits (Server.effects b) (checkNode w this userRootPubkey currentGroupAlias newGroupAlias)
      (CheckTrace this (Passed w this userRootPubkey currentGroupAlias newGroupAlias)) s := by
  unfold checkNode
  cases harchive : this.mArchiveTransaction with
  | true => exact Emits.pure (.of_archive harchive)
  | false =>
    refine Emits.bind (emits_rpc w _ _ _ s) ?_ ?_
    · rintro addressTxids out t - ⟨txidsAnswer, rfl, htxids⟩
      by_cases hnil : addressTxids = []
      · subst hnil
        exact Emits.pure (.of_passed harchive (by simp [IsQuery]) (.intro txidsAnswer htxids.symm))
      · rw [if_pos hnil]
        exact Emits.pure (.of_refusal harchive (by simp [IsQuery])
          (refusesWithError_of_document rfl) (by simp))
    · rintro e out ⟨txidsAnswer, rfl, -⟩
      exact .of_refusal harchive (by simp [IsQuery]) (refusesWithError_of_error e) (by simp)

/-- **Every request to the register address handler has the trace of a transaction handler.** -/
theorem emits_handle (w : World) (request : Request) (s : Server b) :
    Emits (Server.effects b) (handle w request)
      (fun r out => match (exec (readSharedParameter w request) s).1 with
        | .ok (.ok this) => HandlerTrace w this (Prepared w this request) r out
        | _ => out = [] ∧ ¬ Succeeded r) s := by
  refine emits_withSharedParameter fun this t _ _ => ?_
  have hrefuse : ∀ d : Document, d.isError = true → Emits (Server.effects b)
      (pure d : Act (Server b) Exn Document)
      (fun r out => HandlerTrace w this (Prepared w this request) r out) t := fun d hd =>
    Emits.pure (handlerTrace_of_lookups (not_succeeded_of_isError hd) (by simp))
  cases htype : request.params.getStringParameter "addressType" with
  | error d => exact hrefuse d (request.params.isError_of_string _ d htype)
  | ok addressTypeString =>
    dsimp only
    split
    · exact hrefuse _ rfl
    · split
      · exact hrefuse _ rfl
      · split
        · exact hrefuse _ rfl
        · cases hkey : this.mSession.mUserKeyPair with
          | none => exact Emits.throw (handlerTrace_of_lookups not_succeeded_error (by simp))
          | some keyPair =>
            have hnone : ∀ e ∈ ([] : List Effect), IsLookup e := fun _ h => absurd h List.not_mem_nil
            refine emits_checkAndSend (plan this keyPair _ _ _)
              (emits_catchNode (emits_checkNode _ _ _)) hnone ?_
              (not_succeeded_handleSignAndSendTransactionExceptions w.lib)
            intro checks harchive hpassed
            exact .intro addressTypeString _ _ keyPair checks htype rfl rfl hkey harchive hpassed

end Emits

end GradidoConnector.JsonRegisterAddressTransaction
