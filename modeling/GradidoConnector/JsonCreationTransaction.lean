import GradidoConnector.HandlerTrace

/-!
# The creation handler

Model of `JSONInterface/JsonCreationTransaction.cpp`, `handle`. The recipient is looked up by name
in the session's group. Everything from the questions to the Gradido Node to the sending is guarded
by `handleSignAndSendTransactionExceptions`.

As in the transfer handler, the answer "unknown recipient user" is never reached.

Result: **`emits_handle`**, every request to the handler has the trace of a transaction handler.
-/

namespace GradidoConnector.JsonCreationTransaction

open GradidoConnector.Base GradidoConnector.Base.Act

open GradidoNodeRPC JsonTransaction

variable {b : Backend}

/-! ## The code -/

/-- `targetDate`, made local, or the error document. -/
def readTargetDate (w : World) (targetDate : String) : Except Document DateTime :=
  match w.lib.parse targetDate with
  | .error what => .error (.error "cannot parse targetDate" (.text what))
  | .ok (date, _) => .ok (date + w.tzd * 1000000)

/-- The questions to the Gradido Node. -/
def checkNode (w : World) (this : JsonTransaction) (recipientPublicKey : Bytes) (amountString : String)
    (targetDate : DateTime) : Act (Server b) Exn (Except Document Unit) := do
  if this.mArchiveTransaction then return .ok ()
  else
    let pubkeyHex := w.lib.binToHex recipientPublicKey
    let addressType ← getAddressType w pubkeyHex this.mSession.mGroupAlias
    if addressType ≠ w.lib.getAddressStringFromType .human then
      if addressType = w.lib.getAddressStringFromType .none then
        return .error (.stateError "address isn't registered on blockchain")
      else return .error (.stateError "address has the wrong type for creation")
    else
      let sumString ← getCreationSumForMonth w pubkeyHex (w.lib.month targetDate)
        (w.lib.year targetDate) (w.lib.format this.mCreated) this.mSession.mGroupAlias
      match w.lib.mpfrSetStr sumString, w.lib.mpfrSetStr amountString with
      | none, _ => throw (.gradidoNodeRPCException
          ("cannot parse sum from Gradido Node: %s" ++ sumString) "")
      | _, none => throw (.transactionValidationInvalidInputException
          "amount cannot be parsed to a number" "amount" "amount as string")
      | some sum, some amount =>
        if (sum.add amount).cmp (.num 1000) = .gt then
          throw (.transactionValidationInvalidInputException
            "creation more than 1.000 GDD per month not allowed" "amount" "")
        else return .ok ()

/-- What a creation for `user` is sent as. -/
def plan (w : World) (this : JsonTransaction) (keyPair : KeyPair) (user : User)
    (amountString : String) (targetDate : DateTime) : Plan where
  memo := encryptMemo w.lib this.mMemo user.publicKey keyPair.privateKey
  data := .creation user.publicKey amountString targetDate
  route := .within this.mSession.mGroupAlias

/-- The rest of `handle` once the recipient is known. -/
def createFor (w : World) (this : JsonTransaction) (keyPair : KeyPair) (user : User)
    (amountString : String) (targetDate : DateTime) : Act (Server b) Exn Document :=
  let plan := plan w this keyPair user amountString targetDate
  tryCatch
    (checkAndSend w { this with mMemo := plan.memo }
      (checkNode w this user.publicKey amountString targetDate) plan.data plan.route .error)
    fun e => answer (handleSignAndSendTransactionExceptions w.lib e)

def handle (w : World) (request : Request) : Act (Server b) Exn Document :=
  withSharedParameter w request fun this => do
    match request.params.getStringParameter "recipientName",
      request.params.getStringParameter "amount",
      request.params.getStringParameter "targetDate" with
    | .error document, _, _ | _, .error document, _ | _, _, .error document => return document
    | .ok recipientName, .ok amountString, .ok targetDateString =>
      match readTargetDate w targetDateString with
      | .error document => return document
      | .ok targetDate =>
        let recipientUser ← w.loadUser recipientName this.mSession.mGroupId
        match this.mSession.mUserKeyPair with
        | none => throw (.crash "getKeyPair()")
        | some keyPair => createFor w this keyPair recipientUser.val amountString targetDate

/-! ## Its trace -/

section Spec

variable (w : World) (this : JsonTransaction) (request : Request)

/-- The questions with the answers that let a creation pass: the recipient is a human and the sum of
the month stays within 1000. -/
inductive Passed (recipientPublicKey : Bytes) (amountString : String) (targetDate : DateTime) :
    List Effect → Prop
  | intro (typeAnswer sumAnswer : Except Exn Json) (sumString : String) (sum amount : Mpfr)
      (htype : reading w.lib readAddressType typeAnswer =
        .ok (w.lib.getAddressStringFromType .human))
      (hsum : reading w.lib readCreationSum sumAnswer = .ok sumString)
      (hparse : w.lib.mpfrSetStr sumString = some sum)
      (hamount : w.lib.mpfrSetStr amountString = some amount)
      (hle : (sum.add amount).cmp (.num 1000) ≠ .gt) :
      Passed recipientPublicKey amountString targetDate
        [.request "getaddresstype"
            (addressParams (w.lib.binToHex recipientPublicKey) this.mSession.mGroupAlias) typeAnswer,
          .request "getcreationsumformonth" (creationSumParams (w.lib.binToHex recipientPublicKey)
            (w.lib.month targetDate) (w.lib.year targetDate) (w.lib.format this.mCreated)
            this.mSession.mGroupAlias) sumAnswer]

/-- A creation is sent to the recipient that was looked up, once its questions have passed. -/
inductive Prepared : Plan → List Effect → List Effect → Prop
  | intro (recipientName amountString targetDateString : String) (targetDate : DateTime)
      (user : Row User) (keyPair : KeyPair) (checks : List Effect)
      (hname : request.params.getStringParameter "recipientName" = .ok recipientName)
      (hamount : request.params.getStringParameter "amount" = .ok amountString)
      (hdate : request.params.getStringParameter "targetDate" = .ok targetDateString)
      (htarget : readTargetDate w targetDateString = .ok targetDate)
      (hkey : this.mSession.mUserKeyPair = some keyPair)
      (harchive : this.mArchiveTransaction = true → checks = [])
      (hpassed : this.mArchiveTransaction = false →
        Passed w this user.val.publicKey amountString targetDate checks) :
      Prepared (plan w this keyPair user.val amountString targetDate)
        [.loadUser recipientName this.mSession.mGroupId (.ok user)] checks

end Spec

section Emits

variable {w : World} {this : JsonTransaction} {request : Request} {s : Server b}

/-- The questions of a creation, as far as they are asked. -/
theorem emits_checkNode (recipientPublicKey : Bytes) (amountString : String) (targetDate : DateTime) :
    Emits (Server.effects b) (checkNode w this recipientPublicKey amountString targetDate)
      (CheckTrace this (Passed w this recipientPublicKey amountString targetDate)) s := by
  unfold checkNode
  cases harchive : this.mArchiveTransaction with
  | true => exact Emits.pure (.of_archive harchive)
  | false =>
    refine Emits.bind (emits_rpc w _ _ _ s) ?_ ?_
    · rintro addressType out t - ⟨typeAnswer, rfl, htype⟩
      by_cases hhuman : addressType = w.lib.getAddressStringFromType .human
      · subst hhuman
        rw [if_neg (not_not.mpr rfl)]
        refine Emits.bind (emits_rpc w _ _ _ t) ?_ ?_
        · rintro sumString out t' - ⟨sumAnswer, rfl, hsum⟩
          cases hparse : w.lib.mpfrSetStr sumString with
          | none =>
            exact Emits.throw (.of_refusal harchive (by simp [IsQuery])
              (refusesWithError_of_error _) (by simp))
          | some sum =>
            cases hamount : w.lib.mpfrSetStr amountString with
            | none =>
              exact Emits.throw (.of_refusal harchive (by simp [IsQuery])
                (refusesWithError_of_error _) (by simp))
            | some amount =>
              dsimp only
              by_cases hgt : (sum.add amount).cmp (.num 1000) = .gt
              · rw [if_pos hgt]
                exact Emits.throw (.of_refusal harchive (by simp [IsQuery])
                  (refusesWithError_of_error _) (by simp))
              · rw [if_neg hgt]
                exact Emits.pure (.of_passed harchive (by simp [IsQuery])
                  (.intro typeAnswer sumAnswer sumString sum amount htype.symm hsum.symm hparse
                    hamount hgt))
        · rintro e out ⟨sumAnswer, rfl, -⟩
          exact .of_refusal harchive (by simp [IsQuery]) (refusesWithError_of_error e) (by simp)
      · rw [if_pos hhuman]
        split <;>
          exact Emits.pure (.of_refusal harchive (by simp [IsQuery])
            (refusesWithError_of_document rfl) (by simp))
    · rintro e out ⟨typeAnswer, rfl, -⟩
      exact .of_refusal harchive (by simp [IsQuery]) (refusesWithError_of_error e) (by simp)

/-- Once the recipient is known, a creation is asked for and sent. -/
theorem emits_createFor {recipientName amountString targetDateString : String} {targetDate : DateTime}
    {user : Row User} {keyPair : KeyPair}
    (hname : request.params.getStringParameter "recipientName" = .ok recipientName)
    (hamount : request.params.getStringParameter "amount" = .ok amountString)
    (hdate : request.params.getStringParameter "targetDate" = .ok targetDateString)
    (htarget : readTargetDate w targetDateString = .ok targetDate)
    (hkey : this.mSession.mUserKeyPair = some keyPair) :
    Emits (Server.effects b) (createFor w this keyPair user.val amountString targetDate)
      (fun r out => HandlerTrace w this (Prepared w this request) r
        ([.loadUser recipientName this.mSession.mGroupId (.ok user)] ++ out)) s := by
  refine Emits.tryCatch (emits_checkAndSend (plan w this keyPair user.val amountString targetDate)
    (emits_checkNode _ _ _) (by simp [IsLookup]) ?_ fun _ => not_succeeded_error)
    (fun _ _ htrace => htrace) ?_
  · intro checks harchive hpassed
    exact .intro recipientName amountString targetDateString targetDate user keyPair checks hname
      hamount hdate htarget hkey harchive hpassed
  · intro e out t htrace
    refine Emits.answer ?_
    rw [List.append_nil]
    exact htrace.of_error (not_succeeded_handleSignAndSendTransactionExceptions w.lib e)

/-- **Every request to the creation handler has the trace of a transaction handler.** -/
theorem emits_handle (w : World) (request : Request) (s : Server b) :
    Emits (Server.effects b) (handle w request)
      (fun r out => match (exec (readSharedParameter w request) s).1 with
        | .ok (.ok this) => HandlerTrace w this (Prepared w this request) r out
        | _ => out = [] ∧ ¬ Succeeded r) s := by
  refine emits_withSharedParameter fun this t _ _ => ?_
  have hrefuse : ∀ d : Document, d.isError = true → Emits (Server.effects b)
      (pure d : Act (Server b) Exn Document)
      (fun r out => HandlerTrace w this (Prepared w this request) r out) t := fun d hd =>
    Emits.pure (handlerTrace_of_lookups (not_succeeded_of_isError hd) (by simp))
  cases hname : request.params.getStringParameter "recipientName" with
  | error d => exact hrefuse d (request.params.isError_of_string _ d hname)
  | ok recipientName =>
    cases hamount : request.params.getStringParameter "amount" with
    | error d => exact hrefuse d (request.params.isError_of_string _ d hamount)
    | ok amountString =>
      cases hdate : request.params.getStringParameter "targetDate" with
      | error d => exact hrefuse d (request.params.isError_of_string _ d hdate)
      | ok targetDateString =>
        dsimp only
        cases htarget : readTargetDate w targetDateString with
        | error d =>
          refine hrefuse d ?_
          unfold readTargetDate at htarget
          split at htarget
          · cases htarget
            rfl
          · cases htarget
        | ok targetDate =>
          refine Emits.bind (w.emits_loadUser recipientName this.mSession.mGroupId t) ?_ ?_
          · rintro user _ t₁ - ⟨rfl, -⟩
            cases hkey : this.mSession.mUserKeyPair with
            | none =>
              exact Emits.throw (handlerTrace_of_lookups not_succeeded_error (by simp [IsLookup]))
            | some keyPair => exact emits_createFor hname hamount hdate htarget hkey
          · rintro e _ ⟨rfl, -⟩
            exact handlerTrace_of_lookups not_succeeded_error (by simp [IsLookup])

end Emits

end GradidoConnector.JsonCreationTransaction
