import GradidoConnector.HandlerTrace

/-!
# The transfer handler

Model of `JSONInterface/JsonTransferTransaction.cpp`, `handle`. The recipient is looked up by name
in the group of `recipientGroupAlias`, or in the session's group when none is given. The questions
to the Gradido Node answer a `GradidoNodeRPCException` with an error document; what building and
sending throws is thrown on.

`User::load` throws where it finds no row, so the test of its result for a null pointer, with
the answer "unknown recipient user", is never reached and has no branch here.

Result: **`emits_handle`**, every request to the handler has the trace of a transaction handler.
-/

namespace GradidoConnector.JsonTransferTransaction

open GradidoConnector.Base GradidoConnector.Base.Act

open GradidoNodeRPC JsonTransaction

variable {b : Backend}

/-! ## The code -/

/-- The id and the alias of the recipient's group. -/
def recipientGroup (w : World) (session : Session) (recipientGroupAlias : String) :
    Act (Server b) Exn (Except Document (Nat × String)) :=
  if recipientGroupAlias.isEmpty then pure (.ok (session.mGroupId, session.mGroupAlias))
  else
    tryCatch (do
      let group ← w.loadGroup recipientGroupAlias
      return .ok (group.id, recipientGroupAlias))
    fun
    | .rowNotFoundException .. => return .error (.stateError "recipientGroupAlias not found")
    | e => throw e

/-- The questions to the Gradido Node. -/
def checkNode (w : World) (this : JsonTransaction) (request : Request)
    (senderPublicKey recipientPublicKey : Bytes) (recipientGroupAlias amountString : String) :
    Act (Server b) Exn (Except Document Unit) := do
  if this.mArchiveTransaction then return .ok ()
  else
    let addressType ← getAddressType w (w.lib.binToHex recipientPublicKey) recipientGroupAlias
    if addressType = w.lib.getAddressStringFromType .none then
      return .error (.stateError "address isn't registered on blockchain")
    else
      let balanceString ← getAddressBalance w (w.lib.binToHex senderPublicKey)
        (request.params.str "created") this.mSession.mGroupAlias (request.params.str "coinGroupId")
      match w.lib.mpfrSetStr balanceString, w.lib.mpfrSetStr amountString with
      | none, _ => return .error (.stateError "error by requesting Gradido Node")
      | _, none => return .error (.stateError "cannot parse amount to number")
      | some balance, some amount =>
        if amount.cmp balance = .gt then return .error (.stateError "insufficient balance")
        else return .ok ()

/-- Where the transfer goes. -/
def route (groupAlias recipientGroupAlias : String) : Route :=
  if recipientGroupAlias.isEmpty = false ∧ recipientGroupAlias ≠ groupAlias then
    .across groupAlias recipientGroupAlias
  else .within groupAlias

/-- What a transfer from `keyPair` to `user` is sent as. -/
def plan (w : World) (this : JsonTransaction) (request : Request) (keyPair : KeyPair) (user : User)
    (recipientGroupAlias amountString : String) : Plan where
  memo := encryptMemo w.lib this.mMemo user.publicKey keyPair.privateKey
  data := .transfer keyPair.publicKey amountString (request.params.str "coinGroupId") user.publicKey
  route := route this.mSession.mGroupAlias recipientGroupAlias

/-- The rest of `handle` once the recipient is known. -/
def transferTo (w : World) (this : JsonTransaction) (request : Request) (keyPair : KeyPair)
    (user : User) (recipientGroupAlias amountString : String) : Act (Server b) Exn Document :=
  let plan := plan w this request keyPair user recipientGroupAlias amountString
  checkAndSend w { this with mMemo := plan.memo }
    (catchNode (checkNode w this request keyPair.publicKey user.publicKey recipientGroupAlias
      amountString))
    plan.data plan.route .error

def handle (w : World) (request : Request) : Act (Server b) Exn Document :=
  withSharedParameter w request fun this => do
    match request.params.getStringParameter "recipientName" with
    | .error document => return document
    | .ok recipientName =>
      match ← recipientGroup w this.mSession (request.params.str "recipientGroupAlias") with
      | .error document => return document
      | .ok (targetGroupId, recipientGroupAlias) =>
        match request.params.getStringParameter "amount" with
        | .error document => return document
        | .ok amountString =>
          let recipientUser ← w.loadUser recipientName targetGroupId
          match this.mSession.mUserKeyPair with
          | none => throw (.crash "getPublicKey()")
          | some keyPair =>
            transferTo w this request keyPair recipientUser.val recipientGroupAlias amountString

/-! ## Its trace -/

section Spec

variable (w : World) (this : JsonTransaction) (request : Request)

/-- The lookups that found the recipient `user` in the group `groupAlias`. -/
inductive Recipient (name : String) : Row User → String → List Effect → Prop
  | own (user : Row User) (h : (request.params.str "recipientGroupAlias").isEmpty = true) :
      Recipient name user this.mSession.mGroupAlias
        [.loadUser name this.mSession.mGroupId (.ok user)]
  | given (group : Row Group) (user : Row User)
      (h : (request.params.str "recipientGroupAlias").isEmpty = false) :
      Recipient name user (request.params.str "recipientGroupAlias")
        [.loadGroup (request.params.str "recipientGroupAlias") (.ok group),
          .loadUser name group.id (.ok user)]

/-- The questions with the answers that let a transfer pass: the recipient's address is registered
and the sender's balance covers the amount. -/
inductive Passed (senderPublicKey recipientPublicKey : Bytes)
    (recipientGroupAlias amountString : String) : List Effect → Prop
  | intro (typeAnswer balanceAnswer : Except Exn Json) (addressType balanceString : String)
      (balance amount : Mpfr)
      (htype : reading w.lib readAddressType typeAnswer = .ok addressType)
      (hregistered : addressType ≠ w.lib.getAddressStringFromType .none)
      (hbalance : reading w.lib readBalance balanceAnswer = .ok balanceString)
      (hparse : w.lib.mpfrSetStr balanceString = some balance)
      (hamount : w.lib.mpfrSetStr amountString = some amount) (hle : amount.cmp balance ≠ .gt) :
      Passed senderPublicKey recipientPublicKey recipientGroupAlias amountString
        [.request "getaddresstype"
            (addressParams (w.lib.binToHex recipientPublicKey) recipientGroupAlias) typeAnswer,
          .request "getaddressbalance" (balanceParams (w.lib.binToHex senderPublicKey)
            (request.params.str "created") this.mSession.mGroupAlias
            (request.params.str "coinGroupId")) balanceAnswer]

/-- A transfer is sent to the recipient that was looked up, once its questions have passed. -/
inductive Prepared : Plan → List Effect → List Effect → Prop
  | intro (recipientName amountString groupAlias : String) (user : Row User) (keyPair : KeyPair)
      (lookups checks : List Effect)
      (hname : request.params.getStringParameter "recipientName" = .ok recipientName)
      (hamount : request.params.getStringParameter "amount" = .ok amountString)
      (hkey : this.mSession.mUserKeyPair = some keyPair)
      (hrecipient : Recipient this request recipientName user groupAlias lookups)
      (harchive : this.mArchiveTransaction = true → checks = [])
      (hpassed : this.mArchiveTransaction = false →
        Passed w this request keyPair.publicKey user.val.publicKey groupAlias amountString checks) :
      Prepared (plan w this request keyPair user.val groupAlias amountString) lookups checks

end Spec

section Emits

variable {w : World} {this : JsonTransaction} {request : Request} {s : Server b}

/-- The questions of a transfer, as far as they are asked. -/
theorem emits_checkNode (senderPublicKey recipientPublicKey : Bytes)
    (recipientGroupAlias amountString : String) :
    Emits (Server.effects b) (checkNode w this request senderPublicKey recipientPublicKey
      recipientGroupAlias amountString)
      (CheckTrace this (Passed w this request senderPublicKey recipientPublicKey recipientGroupAlias
        amountString)) s := by
  unfold checkNode
  cases harchive : this.mArchiveTransaction with
  | true => exact Emits.pure (.of_archive harchive)
  | false =>
    refine Emits.bind (emits_rpc w _ _ _ s) ?_ ?_
    · rintro addressType out t - ⟨typeAnswer, rfl, htype⟩
      by_cases hnone : addressType = w.lib.getAddressStringFromType .none
      · rw [if_pos hnone]
        exact Emits.pure (.of_refusal harchive (by simp [IsQuery]) (refusesWithError_of_document rfl)
          (by simp))
      · rw [if_neg hnone]
        refine Emits.bind (emits_rpc w _ _ _ t) ?_ ?_
        · rintro balanceString out t' - ⟨balanceAnswer, rfl, hbalance⟩
          cases hparse : w.lib.mpfrSetStr balanceString with
          | none =>
            exact Emits.pure (.of_refusal harchive (by simp [IsQuery])
              (refusesWithError_of_document rfl) (by simp))
          | some balance =>
            cases hamount : w.lib.mpfrSetStr amountString with
            | none =>
              exact Emits.pure (.of_refusal harchive (by simp [IsQuery])
                (refusesWithError_of_document rfl) (by simp))
            | some amount =>
              dsimp only
              by_cases hgt : amount.cmp balance = .gt
              · rw [if_pos hgt]
                exact Emits.pure (.of_refusal harchive (by simp [IsQuery])
                  (refusesWithError_of_document rfl) (by simp))
              · rw [if_neg hgt]
                exact Emits.pure (.of_passed harchive (by simp [IsQuery])
                  (.intro typeAnswer balanceAnswer addressType balanceString balance amount
                    htype.symm hnone hbalance.symm hparse hamount hgt))
        · rintro e out ⟨balanceAnswer, rfl, -⟩
          exact .of_refusal harchive (by simp [IsQuery]) (refusesWithError_of_error e) (by simp)
    · rintro e out ⟨typeAnswer, rfl, -⟩
      exact .of_refusal harchive (by simp [IsQuery]) (refusesWithError_of_error e) (by simp)

/-- What the lookup of a group that is given comes to. -/
inductive GroupLookedUp (w : World) (db : Db b) (trace : List Effect) (groupAlias : String) :
    Except Exn (Except Document (Nat × String)) → List Effect → Prop
  | none (e : Exn) (hgroup : Group.load (w.several trace) groupAlias db = .error e)
      (hnone : groupsLike groupAlias db = []) :
      GroupLookedUp w db trace groupAlias (.ok (.error (.stateError "recipientGroupAlias not found")))
        [.loadGroup groupAlias (.error e)]
  | thrown (e : Exn) (hgroup : Group.load (w.several trace) groupAlias db = .error e)
      (hsome : groupsLike groupAlias db ≠ []) :
      GroupLookedUp w db trace groupAlias (.error e) [.loadGroup groupAlias (.error e)]
  | found (g : Row Group) (hgroup : Group.load (w.several trace) groupAlias db = .ok g) :
      GroupLookedUp w db trace groupAlias (.ok (.ok (g.id, groupAlias)))
        [.loadGroup groupAlias (.ok g)]

theorem emits_recipientGroup_given {session : Session} {groupAlias : String}
    (hgiven : groupAlias.isEmpty = false) :
    Emits (Server.effects b) (recipientGroup w session groupAlias)
      (GroupLookedUp w s.sessions.db s.trace groupAlias) s := by
  unfold recipientGroup
  rw [if_neg (by simp [hgiven])]
  refine Emits.tryCatch (Emits.bind (w.emits_loadGroup groupAlias s) (Q := fun r out => ∃ a,
    Group.load (w.several s.trace) groupAlias s.sessions.db = a ∧
      out = [.loadGroup groupAlias a] ∧ r = a.map fun g => .ok (g.id, groupAlias)) ?_ ?_) ?_ ?_
  · rintro g _ t - ⟨rfl, hg⟩
    exact Emits.pure ⟨.ok g, hg, rfl, rfl⟩
  · rintro e _ ⟨rfl, he⟩
    exact ⟨.error e, he, rfl, rfl⟩
  · rintro found _ ⟨a, ha, rfl, hfound⟩
    cases a with
    | error e => cases hfound
    | ok g =>
      cases hfound
      exact .found g ha
  · rintro e _ t ⟨a, ha, rfl, he⟩
    cases a with
    | ok g => cases he
    | error e' =>
      cases he
      have hthrow : groupsLike groupAlias s.sessions.db ≠ [] → Emits (Server.effects b)
          (throw e : Act (Server b) Exn (Except Document (Nat × String)))
          (fun r out => GroupLookedUp w s.sessions.db s.trace groupAlias r
            ([.loadGroup groupAlias (.error e)] ++ out)) t :=
        fun hsome => Emits.throw (.thrown e ha hsome)
      cases e with
      | rowNotFoundException => exact Emits.pure (.none _ ha (nil_of_groupLoad ha))
      | _ =>
        refine hthrow fun hnil => ?_
        obtain ⟨_, _, _, hnone⟩ := groupLoad_of_nil hnil
        rw [ha] at hnone
        cases hnone

/-- What the lookup of the recipient's group hands on, with its lookups. -/
def GroupFound (session : Session) (recipientGroupAlias : String) (id : Nat) (groupAlias : String)
    (out : List Effect) : Prop :=
  recipientGroupAlias.isEmpty = true ∧ out = [] ∧ id = session.mGroupId ∧
      groupAlias = session.mGroupAlias ∨
    recipientGroupAlias.isEmpty = false ∧ groupAlias = recipientGroupAlias ∧
      ∃ group, out = [.loadGroup recipientGroupAlias (.ok group)] ∧ id = group.id

theorem emits_recipientGroup (w : World) (session : Session) (recipientGroupAlias : String)
    (s : Server b) :
    Emits (Server.effects b) (recipientGroup w session recipientGroupAlias)
      (fun r out => (∀ e ∈ out, IsLookup e) ∧ RefusesWithError r ∧
        ∀ id groupAlias, r = .ok (.ok (id, groupAlias)) →
          GroupFound session recipientGroupAlias id groupAlias out) s := by
  by_cases hempty : recipientGroupAlias.isEmpty = true
  · unfold recipientGroup
    rw [if_pos hempty]
    refine Emits.pure ⟨fun _ h => absurd h List.not_mem_nil, refusesWithError_of_ok _, ?_⟩
    rintro id groupAlias ⟨⟩
    exact Or.inl ⟨hempty, rfl, rfl, rfl⟩
  · have hgiven : recipientGroupAlias.isEmpty = false := by simpa using hempty
    refine Emits.mono (emits_recipientGroup_given hgiven) fun r out hlooked => ?_
    cases hlooked with
    | none => exact ⟨by simp [IsLookup], refusesWithError_of_document rfl, by simp⟩
    | thrown e => exact ⟨by simp [IsLookup], refusesWithError_of_error e, by simp⟩
    | found group =>
      refine ⟨by simp [IsLookup], refusesWithError_of_ok _, ?_⟩
      rintro id groupAlias ⟨⟩
      exact Or.inr ⟨hgiven, rfl, group, rfl, rfl⟩

/-- The lookups of a recipient are those of its group and of the user. -/
theorem recipient_of_groupFound {id : Nat} {name groupAlias : String} {found : List Effect}
    (user : Row User)
    (h : GroupFound this.mSession (request.params.str "recipientGroupAlias") id groupAlias found) :
    Recipient this request name user groupAlias (found ++ [.loadUser name id (.ok user)]) := by
  rcases h with ⟨hempty, rfl, rfl, rfl⟩ | ⟨hgiven, rfl, group, rfl, rfl⟩
  · exact .own user hempty
  · exact .given group user hgiven

/-- Once the recipient is known, a transfer is asked for and sent. -/
theorem emits_transferTo {recipientName amountString groupAlias : String} {user : Row User}
    {keyPair : KeyPair} {lookups : List Effect}
    (hname : request.params.getStringParameter "recipientName" = .ok recipientName)
    (hamount : request.params.getStringParameter "amount" = .ok amountString)
    (hkey : this.mSession.mUserKeyPair = some keyPair)
    (hrecipient : Recipient this request recipientName user groupAlias lookups)
    (hlookups : ∀ e ∈ lookups, IsLookup e) :
    Emits (Server.effects b) (transferTo w this request keyPair user.val groupAlias amountString)
      (fun r out => HandlerTrace w this (Prepared w this request) r (lookups ++ out)) s := by
  refine emits_checkAndSend (plan w this request keyPair user.val groupAlias amountString)
    (emits_catchNode (emits_checkNode _ _ _ _)) hlookups ?_ fun _ => not_succeeded_error
  intro checks harchive hpassed
  exact .intro recipientName amountString groupAlias user keyPair _ checks hname hamount hkey
    hrecipient harchive hpassed

/-- **Every request to the transfer handler has the trace of a transaction handler.** -/
theorem emits_handle (w : World) (request : Request) (s : Server b) :
    Emits (Server.effects b) (handle w request)
      (fun r out => match (exec (readSharedParameter w request) s).1 with
        | .ok (.ok this) => HandlerTrace w this (Prepared w this request) r out
        | _ => out = [] ∧ ¬ Succeeded r) s := by
  refine emits_withSharedParameter fun this t _ _ => ?_
  have hnone : ∀ e ∈ ([] : List Effect), IsLookup e := fun _ h => absurd h List.not_mem_nil
  cases hname : request.params.getStringParameter "recipientName" with
  | error d =>
    have hd := request.params.isError_of_string "recipientName" d hname
    exact Emits.pure (handlerTrace_of_lookups (not_succeeded_of_isError hd) hnone)
  | ok recipientName =>
    refine Emits.bind (emits_recipientGroup w this.mSession _ t) ?_ ?_
    · rintro (d | ⟨targetGroupId, groupAlias⟩) found t₁ - ⟨hfound, hrefuses, hgroup⟩
      · refine Emits.pure ?_
        rw [List.append_nil]
        exact handlerTrace_of_lookups (not_succeeded_of_isError (hrefuses d rfl)) hfound
      · cases hamount : request.params.getStringParameter "amount" with
        | error d =>
          have hd := request.params.isError_of_string "amount" d hamount
          refine Emits.pure ?_
          rw [List.append_nil]
          exact handlerTrace_of_lookups (not_succeeded_of_isError hd) hfound
        | ok amountString =>
          have hlookups : ∀ r, ∀ e ∈ found ++ [.loadUser recipientName targetGroupId r],
              IsLookup e := by
            intro r e he
            rcases List.mem_append.mp he with he | he
            · exact hfound e he
            · rw [List.mem_singleton.mp he]
              trivial
          refine Emits.bind (w.emits_loadUser recipientName targetGroupId t₁) ?_ ?_
          · rintro user _ t₂ - ⟨rfl, -⟩
            cases hkey : this.mSession.mUserKeyPair with
            | none =>
              refine Emits.throw ?_
              rw [List.append_nil]
              exact handlerTrace_of_lookups not_succeeded_error (hlookups _)
            | some keyPair =>
              have hrecipient : Recipient this request recipientName user groupAlias _ :=
                recipient_of_groupFound user (hgroup _ _ rfl)
              simp only [← List.append_assoc]
              exact emits_transferTo hname hamount hkey hrecipient (hlookups _)
          · rintro e _ ⟨rfl, -⟩
            exact handlerTrace_of_lookups not_succeeded_error (hlookups _)
    · rintro e found ⟨hfound, -⟩
      exact handlerTrace_of_lookups not_succeeded_error hfound

end Emits

end GradidoConnector.JsonTransferTransaction
