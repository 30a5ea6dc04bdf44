import GradidoConnector.EffectTrace

/-!
# The phases of a transaction handler

Once a handler has read its parameters and looked up the recipient, two phases are left: it asks the
Gradido Node, and it builds, signs, validates and publishes the transaction. `Arrival` is what a
handler has read by then, and `Reaches` says that a request comes that far.

The handlers guard the phases differently (`guarded`): `JsonCreationTransaction` has one `try` block
around both, the others one block for each.

Results:
* `exec_guarded_of_error`, `exec_guarded_of_refused`, `exec_guarded_of_passed`: how the guarded
  phases run, by how the questions end.
* `Reaches.exec_handle`: from its arrival on a handler is its guarded phases.
* `Reaches.unique`: a request arrives in one way.
* `Reaches.trace`: the lookups, the questions and the messages of a request that arrives.
-/

namespace GradidoConnector

open GradidoConnector.Base GradidoConnector.Base.Act

open JsonTransaction

variable {b : Backend}

/-- What a handler has read when it comes to its phases. -/
inductive Arrival
  | creation (this : JsonTransaction) (keyPair : KeyPair) (user : User) (amountString : String)
      (targetDate : DateTime)
  | transfer (this : JsonTransaction) (keyPair : KeyPair) (user : User)
      (recipientGroupAlias amountString : String)
  | registerAddress (this : JsonTransaction) (keyPair : KeyPair) (addressType : AddressType)
      (currentGroupAlias newGroupAlias : String)

namespace Arrival

variable (w : World) (request : Request)

def handler : Arrival → Handler
  | creation .. => .creation
  | transfer .. => .transfer
  | registerAddress .. => .registerAddress

def this : Arrival → JsonTransaction
  | creation this .. | transfer this .. | registerAddress this .. => this

/-- The questions to the Gradido Node. -/
def check : Arrival → Act (Server b) Exn (Except Document Unit)
  | creation this _ user amountString targetDate =>
    JsonCreationTransaction.checkNode w this user.publicKey amountString targetDate
  | transfer this keyPair user recipientGroupAlias amountString =>
    JsonTransferTransaction.checkNode w this request keyPair.publicKey user.publicKey
      recipientGroupAlias amountString
  | registerAddress this keyPair _ currentGroupAlias newGroupAlias =>
    JsonRegisterAddressTransaction.checkNode w this keyPair.publicKey currentGroupAlias newGroupAlias

def plan : Arrival → Plan
  | creation this keyPair user amountString targetDate =>
    JsonCreationTransaction.plan w this keyPair user amountString targetDate
  | transfer this keyPair user recipientGroupAlias amountString =>
    JsonTransferTransaction.plan w this request keyPair user recipientGroupAlias amountString
  | registerAddress this keyPair addressType currentGroupAlias newGroupAlias =>
    JsonRegisterAddressTransaction.plan this keyPair addressType currentGroupAlias newGroupAlias

/-- Building, signing, validating and publishing. -/
def send (a : Arrival) : Act (Server b) Exn Document :=
  createAndSend w { a.this with mMemo := (a.plan w request).memo } (a.plan w request).data
    (a.plan w request).route

/-- The phases without the `catch` clauses around them, but for those around the second. -/
def phases (a : Arrival) (check : Act (Server b) Exn (Except Document Unit))
    (handler : Exn → Except Exn Document) : Act (Server b) Exn Document := do
  match ← check with
  | .error document => return document
  | .ok () => tryCatch (a.send w request) fun e => answer (handler e)

/-- The phases as the handler guards them. -/
def guarded (a : Arrival) : Act (Server b) Exn Document :=
  match a.handler with
  | .creation =>
    tryCatch (a.phases w request (a.check w request) .error)
      fun e => answer (handleSignAndSendTransactionExceptions w.lib e)
  | .transfer => a.phases w request (catchNode (a.check w request)) .error
  | .registerAddress =>
    a.phases w request (catchNode (a.check w request)) (handleSignAndSendTransactionExceptions w.lib)

end Arrival

/-- The phases of a handler. -/
inductive Phase
  | node
  | send
  deriving DecidableEq

/-- What a handler makes of an exception of this phase. -/
def clause (lib : Library) : Handler → Phase → Exn → Except Exn Document
  | .creation, _, e | .registerAddress, .send, e => handleSignAndSendTransactionExceptions lib e
  | .transfer, .send, e => .error e
  | _, .node, .gradidoNodeRPCException .. => .ok (.stateError "error by requesting Gradido Node")
  | _, .node, e => .error e

/-- What a handler makes of the result of this phase. -/
def report (lib : Library) (h : Handler) (phase : Phase) : Except Exn Document → Except Exn Document
  | .ok d => .ok d
  | .error e => clause lib h phase e

section Guarded

variable {w : World} {request : Request} {a : Arrival} {t t' : Server b}

/-- The clause around the questions to the Gradido Node. -/
def nodeClause : Exn → Except Exn (Except Document Unit)
  | .gradidoNodeRPCException .. => .ok (.error (.stateError "error by requesting Gradido Node"))
  | e => .error e

theorem exec_catchNode {check : Act (Server b) Exn (Except Document Unit)} {e : Exn}
    (h : exec check t = (.error e, t')) : exec (catchNode check) t = (nodeClause e, t') := by
  unfold catchNode
  rw [exec_tryCatch, h]
  cases e <;> rfl

theorem exec_catchNode_of_ok {check : Act (Server b) Exn (Except Document Unit)}
    {r : Except Document Unit} (h : exec check t = (.ok r, t')) :
    exec (catchNode check) t = (.ok r, t') := by
  unfold catchNode
  rw [exec_tryCatch, h]

/-- **The questions throw.** -/
theorem exec_guarded_of_error {e : Exn} (h : exec (a.check w request) t = (.error e, t')) :
    exec (a.guarded w request) t = (clause w.lib a.handler .node e, t') := by
  unfold Arrival.guarded Arrival.phases
  cases hhandler : a.handler with
  | creation =>
    dsimp only
    rw [exec_tryCatch, exec_bind, h]
    exact exec_answer _
  | transfer =>
    dsimp only
    rw [exec_bind, exec_catchNode h]
    cases e <;> rfl
  | registerAddress =>
    dsimp only
    rw [exec_bind, exec_catchNode h]
    cases e <;> rfl

/-- **The questions are answered with a document.** -/
theorem exec_guarded_of_refused {d : Document}
    (h : exec (a.check w request) t = (.ok (.error d), t')) :
    exec (a.guarded w request) t = (.ok d, t') := by
  unfold Arrival.guarded Arrival.phases
  cases hhandler : a.handler with
  | creation =>
    dsimp only
    rw [exec_tryCatch, exec_bind, h]
    rfl
  | transfer | registerAddress =>
    dsimp only
    rw [exec_bind, exec_catchNode_of_ok h]
    rfl

/-- **The questions pass**, and the transaction is built and sent. -/
theorem exec_guarded_of_passed (h : exec (a.check w request) t = (.ok (.ok ()), t')) :
    exec (a.guarded w request) t =
      (report w.lib a.handler .send (exec (a.send w request) t').1, (exec (a.send w request) t').2) := by
  unfold Arrival.guarded Arrival.phases
  cases hhandler : a.handler with
  | creation =>
    dsimp only
    rw [exec_tryCatch, exec_bind, h]
    dsimp only
    rw [exec_tryCatch]
    rcases exec (a.send w request) t' with ⟨_ | _, u⟩
    · exact exec_answer _
    · rfl
  | transfer =>
    dsimp only
    rw [exec_bind, exec_catchNode_of_ok h]
    dsimp only
    rw [exec_tryCatch]
    rcases exec (a.send w request) t' with ⟨_ | _, u⟩ <;> rfl
  | registerAddress =>
    dsimp only
    rw [exec_bind, exec_catchNode_of_ok h]
    dsimp only
    rw [exec_tryCatch]
    rcases exec (a.send w request) t' with ⟨_ | _, u⟩
    · exact exec_answer _
    · rfl

end Guarded

/-- The request comes to the phases of its handler in the state `t`. -/
inductive Reaches (w : World) (request : Request) (s : Server b) : Arrival → Server b → Prop
  | creation (this : JsonTransaction) (keyPair : KeyPair) (user : Row User)
      (recipientName amountString targetDateString : String) (targetDate : DateTime)
      (t₀ t : Server b)
      (hshared : exec (readSharedParameter w request) s = (.ok (.ok this), t₀))
      (hname : request.params.getStringParameter "recipientName" = .ok recipientName)
      (hamount : request.params.getStringParameter "amount" = .ok amountString)
      (hdate : request.params.getStringParameter "targetDate" = .ok targetDateString)
      (htarget : JsonCreationTransaction.readTargetDate w targetDateString = .ok targetDate)
      (huser : exec (w.loadUser recipientName this.mSession.mGroupId) t₀ = (.ok user, t))
      (hkey : this.mSession.mUserKeyPair = some keyPair) :
      Reaches w request s (.creation this keyPair user.val amountString targetDate) t
  | transfer (this : JsonTransaction) (keyPair : KeyPair) (user : Row User)
      (recipientName recipientGroupAlias amountString : String) (targetGroupId : Nat)
      (t₀ t₁ t : Server b)
      (hshared : exec (readSharedParameter w request) s = (.ok (.ok this), t₀))
      (hname : request.params.getStringParameter "recipientName" = .ok recipientName)
      (hgroup : exec (JsonTransferTransaction.recipientGroup w this.mSession
        (request.params.str "recipientGroupAlias")) t₀ =
          (.ok (.ok (targetGroupId, recipientGroupAlias)), t₁))
      (hamount : request.params.getStringParameter "amount" = .ok amountString)
      (huser : exec (w.loadUser recipientName targetGroupId) t₁ = (.ok user, t))
      (hkey : this.mSession.mUserKeyPair = some keyPair) :
      Reaches w request s (.transfer this keyPair user.val recipientGroupAlias amountString) t
  | registerAddress (this : JsonTransaction) (keyPair : KeyPair) (addressTypeString : String)
      (t : Server b)
      (hshared : exec (readSharedParameter w request) s = (.ok (.ok this), t))
      (htype : request.params.getStringParameter "addressType" = .ok addressTypeString)
      (hsub : w.lib.getAddressTypeFromString addressTypeString ≠ .subaccount)
      (hcurrent : JsonRegisterAddressTransaction.AliasAllowed w.lib
        (request.params.str "currentGroupAlias"))
      (hnew : JsonRegisterAddressTransaction.AliasAllowed w.lib (request.params.str "newGroupAlias"))
      (hkey : this.mSession.mUserKeyPair = some keyPair) :
      Reaches w request s (.registerAddress this keyPair
        (w.lib.getAddressTypeFromString addressTypeString) (request.params.str "currentGroupAlias")
        (request.params.str "newGroupAlias")) t

namespace Reaches

variable {w : World} {request : Request} {s t : Server b} {a : Arrival}

/-- **From its arrival on, a handler is its guarded phases.** -/
theorem exec_handle (h : Reaches w request s a t) :
    exec (a.handler.handle w request) s = exec (a.guarded w request) t := by
  cases h with
  | creation this keyPair user recipientName amountString targetDateString targetDate t₀ _ hshared
      hname hamount hdate htarget huser hkey =>
    show exec (JsonCreationTransaction.handle w request) s = _
    unfold JsonCreationTransaction.handle withSharedParameter
    simp only [exec_bind, hshared, hname, hamount, hdate, htarget, huser, hkey]
    rfl
  | transfer this keyPair user recipientName recipientGroupAlias amountString targetGroupId t₀ t₁ _
      hshared hname hgroup hamount huser hkey =>
    show exec (JsonTransferTransaction.handle w request) s = _
    unfold JsonTransferTransaction.handle withSharedParameter
    simp only [exec_bind, hshared, hname, hgroup, hamount, huser, hkey]
    rfl
  | registerAddress this keyPair addressTypeString _ hshared htype hsub hcurrent hnew hkey =>
    show exec (JsonRegisterAddressTransaction.handle w request) s = _
    unfold JsonRegisterAddressTransaction.handle withSharedParameter
    simp only [exec_bind, hshared, htype, if_neg hsub, if_neg (not_not.mpr hcurrent),
      if_neg (not_not.mpr hnew), hkey]
    rfl

/-- **A request arrives in one way.** -/
theorem unique {a' : Arrival} {t' : Server b} (h : Reaches w request s a t)
    (h' : Reaches w request s a' t') (hsame : a.handler = a'.handler) : a = a' ∧ t = t' := by
  cases h with
  | creation this keyPair user recipientName amountString targetDateString targetDate t₀ _ hshared
      hname hamount hdate htarget huser hkey =>
    cases h' with
    | creation _ _ _ _ _ _ _ _ _ hshared' hname' hamount' hdate' htarget' huser' hkey' =>
      cases hshared.symm.trans hshared'
      cases hname.symm.trans hname'
      cases hamount.symm.trans hamount'
      cases hdate.symm.trans hdate'
      cases htarget.symm.trans htarget'
      cases huser.symm.trans huser'
      cases hkey.symm.trans hkey'
      exact ⟨rfl, rfl⟩
    | _ => cases hsame
  | transfer this keyPair user recipientName recipientGroupAlias amountString targetGroupId t₀ t₁ _
      hshared hname hgroup hamount huser hkey =>
    cases h' with
    | transfer _ _ _ _ _ _ _ _ _ _ hshared' hname' hgroup' hamount' huser' hkey' =>
      cases hshared.symm.trans hshared'
      cases hname.symm.trans hname'
      cases hgroup.symm.trans hgroup'
      cases hamount.symm.trans hamount'
      cases huser.symm.trans huser'
      cases hkey.symm.trans hkey'
      exact ⟨rfl, rfl⟩
    | _ => cases hsame
  | registerAddress this keyPair addressTypeString _ hshared htype hsub hcurrent hnew hkey =>
    cases h' with
    | registerAddress _ _ _ _ hshared' htype' _ _ _ hkey' =>
      cases hshared.symm.trans hshared'
      cases htype.symm.trans htype'
      cases hkey.symm.trans hkey'
      exact ⟨rfl, rfl⟩
    | _ => cases hsame

/-- Up to its phases a request only looks up. -/
theorem lookups (h : Reaches w request s a t) :
    ∃ out, t.trace = s.trace ++ out ∧ ∀ e ∈ out, IsLookup e := by
  obtain ⟨shared, hshared', hnone, -⟩ := emits_readSharedParameter w request s
  subst hnone
  cases h with
  | creation this keyPair user recipientName amountString targetDateString targetDate t₀ _ hshared
      hname hamount hdate htarget huser hkey =>
    obtain ⟨_, huser', rfl, -⟩ := w.emits_loadUser recipientName this.mSession.mGroupId t₀
    rw [hshared] at hshared'
    rw [huser] at huser'
    refine ⟨[.loadUser recipientName this.mSession.mGroupId (.ok user)], ?_, by simp [IsLookup]⟩
    rw [huser'.trace, hshared'.trace, List.append_nil]
  | transfer this keyPair user recipientName recipientGroupAlias amountString targetGroupId t₀ t₁ _
      hshared hname hgroup hamount huser hkey =>
    obtain ⟨found, hgroup', hfound, -⟩ := JsonTransferTransaction.emits_recipientGroup w this.mSession
      (request.params.str "recipientGroupAlias") t₀
    obtain ⟨_, huser', rfl, -⟩ := w.emits_loadUser recipientName targetGroupId t₁
    rw [hshared] at hshared'
    rw [hgroup] at hgroup'
    rw [huser] at huser'
    refine ⟨found ++ [.loadUser recipientName targetGroupId (.ok user)], ?_, fun e he => ?_⟩
    · rw [huser'.trace, hgroup'.trace, hshared'.trace, List.append_nil, List.append_assoc]
    · rcases List.mem_append.mp he with he | he
      · exact hfound e he
      · rw [List.mem_singleton.mp he]
        trivial
  | registerAddress this keyPair addressTypeString _ hshared htype hsub hcurrent hnew hkey =>
    rw [hshared] at hshared'
    exact ⟨[], hshared'.trace, by simp⟩

end Reaches

/-- The questions of a handler. -/
theorem emits_check (w : World) (request : Request) (a : Arrival) (t : Server b) :
    Emits (Server.effects b) (a.check w request) (fun _ out => ∀ e ∈ out, IsQuery e) t := by
  cases a with
  | creation => exact (JsonCreationTransaction.emits_checkNode _ _ _).mono fun _ _ h => h.queries
  | transfer => exact (JsonTransferTransaction.emits_checkNode _ _ _ _).mono fun _ _ h => h.queries
  | registerAddress =>
    exact (JsonRegisterAddressTransaction.emits_checkNode _ _ _).mono fun _ _ h => h.queries

/-- What is sent once the questions are answered: nothing, or the transaction of the plan. -/
def SentAfter (w : World) (request : Request) (a : Arrival) :
    Except Exn (Except Document Unit) → List Effect → Prop
  | .ok (.ok ()), sent => ∃ answer, Starts w a.this (a.plan w request) answer sent
  | _, sent => sent = []

/-- **The trace of a request that comes to its phases**: lookups, its questions, and what
it sends. -/
theorem Reaches.trace {w : World} {request : Request} {s t : Server b} {a : Arrival}
    (h : Reaches w request s a t) :
    ∃ found asked sent, (∀ e ∈ found, IsLookup e) ∧ (∀ e ∈ asked, IsQuery e) ∧
      (exec (a.check w request) t).2.trace = t.trace ++ asked ∧
      SentAfter w request a (exec (a.check w request) t).1 sent ∧
      (exec (a.handler.handle w request) s).2.trace = s.trace ++ (found ++ asked ++ sent) := by
  obtain ⟨found, htrace, hlookups⟩ := h.lookups
  obtain ⟨asked, hasked, hqueries⟩ := emits_check w request a t
  rw [h.exec_handle]
  cases hcheck : exec (a.check w request) t with
  | mk r t' =>
  rw [hcheck] at hasked
  have htrace' : t'.trace = s.trace ++ (found ++ asked) := by
    rw [hasked.trace, htrace, List.append_assoc]
  rcases r with e | d | ⟨⟨⟩⟩
  · refine ⟨found, asked, [], hlookups, hqueries, hasked.trace, rfl, ?_⟩
    rw [exec_guarded_of_error hcheck, List.append_nil]
    exact htrace'
  · refine ⟨found, asked, [], hlookups, hqueries, hasked.trace, rfl, ?_⟩
    rw [exec_guarded_of_refused hcheck, List.append_nil]
    exact htrace'
  · obtain ⟨sent, hafter, answer, hstarts, -⟩ := emits_createAndSend w a.this (a.plan w request) t'
    refine ⟨found, asked, sent, hlookups, hqueries, hasked.trace, ⟨answer, hstarts⟩, ?_⟩
    rw [exec_guarded_of_passed hcheck, ← List.append_assoc, ← htrace']
    exact hafter.trace

end GradidoConnector
