import GradidoConnector.EffectTrace

/-!
# The way through a transaction handler

A transaction handler looks its session up once, in `readSharedParameter`, and never again. From
then on it leaves the session manager alone, looks rows up, asks the Gradido Node, builds a
transaction and sends it, and of all this only sending hands messages out. What is to be shown of
all effects of a request is therefore shown of `send`, if it is kept by appending and holds of what
is no message (`Shown`).

`Server.frames` are the effects of `Server.effects` with the whole session manager untouched.

Results:
* `Shown.checkAndSend`: asking, building and sending.
* `Shown.send`: what each leg shows all legs show.
* **`Handler.walk`**: what holds of the effects of `send` holds of those of a request.
-/

namespace GradidoConnector

open GradidoConnector.Base GradidoConnector.Base.Act

open JsonTransaction GradidoNodeRPC

variable {b : Backend}

namespace Server

/-- Effects that leave the session manager as it is. -/
def frames (b : Backend) : Log (Server b) Effect where
  Steps s out t := After s out t ∧ t.sessions = s.sessions
  nil s := ⟨(effects b).nil s, rfl⟩
  append h h' := ⟨(effects b).append h.1 h'.1, h'.2.trans h.2⟩

theorem frames_perform {α : Type} {ask : Server b → Except Exn α} {effect : Except Exn α → Effect}
    {s : Server b} {Q : Except Exn α → List Effect → Prop} (h : Q (ask s) [effect (ask s)]) :
    Emits (frames b) (perform ask effect) Q s := by
  rw [Emits, wp, exec_perform]
  exact ⟨_, ⟨after_log _ s, rfl⟩, h⟩

theorem frames_log {α : Type} {e : Server b → Effect} {a : α} {Q : Except Exn α → List Effect → Prop}
    {s : Server b} (h : Q (.ok a) [e s]) :
    Emits (frames b) (do modify fun s => s.log (e s); return a) Q s :=
  ⟨_, ⟨after_log _ s, rfl⟩, h⟩

end Server

/-- A message with a transaction: to iota, or to the Gradido Node. -/
def IsMessage : Effect → Prop
  | .sendMessage .. => True
  | .request method .. => method = "puttransaction"
  | _ => False

/-- The account a transaction takes from or registers is the one of the key. -/
def OfAccount (publicKey : Bytes) : TransactionData → Prop
  | .creation .. => True
  | .transfer senderPublicKey .. => senderPublicKey = publicKey
  | .registerAddress userPublicKey _ => userPublicKey = publicKey

/-- What may be shown of the effects of a request part by part. -/
structure Shown (P : List Effect → Prop) : Prop extends Additive P where
  other : ∀ e, ¬ IsMessage e → P [e]

theorem shown_all {P : Effect → Prop} (h : ∀ e, ¬ IsMessage e → P e) :
    Shown fun out => ∀ e ∈ out, P e where
  __ := additive_all P
  other e he x hx := by
    rw [List.mem_singleton.mp hx]
    exact h e he

/-- A handler with these members sends what is shown: a transaction of the account of
its session. -/
def SendShows (b : Backend) (w : World) (this : JsonTransaction) (P : List Effect → Prop) : Prop :=
  ∀ memo data route keyPair (t : Server b), this.mSession.mUserKeyPair = some keyPair →
    OfAccount keyPair.publicKey data →
    Emits (Server.frames b) (send w { this with mMemo := memo } data route) (fun _ out => P out) t

/-! ## The parts -/

namespace Shown

variable {P : List Effect → Prop} (hP : Shown P) {w : World} {this : JsonTransaction} {s : Server b}
include hP

/-- Effects without a message are shown. -/
theorem silent : ∀ {out : List Effect}, (∀ e ∈ out, ¬ IsMessage e) → P out
  | [], _ => hP.nil
  | e :: _, h => hP.append (hP.other e (h e List.mem_cons_self))
      (silent fun x hx => h x (List.mem_cons_of_mem e hx))

/-- Asking the Gradido Node hands nothing out. -/
theorem rpc {α : Type} {method : String} {params : List (String × Json)} {read : Json → Except Exn α}
    (hmethod : method ≠ "puttransaction") :
    Emits (Server.frames b) (rpc w method params read) (fun _ out => P out) s := by
  rw [Emits, wp, exec_rpc]
  exact ⟨_, ⟨Server.after_log _ s, rfl⟩, hP.other _ hmethod⟩

theorem loadUser (name : String) (groupId : Nat) :
    Emits (Server.frames b) (w.loadUser name groupId) (fun _ out => P out) s :=
  Server.frames_perform (hP.other _ id)

theorem loadGroup (groupAlias : String) :
    Emits (Server.frames b) (w.loadGroup groupAlias) (fun _ out => P out) s :=
  Server.frames_perform (hP.other _ id)

theorem catchNode {check : Act (Server b) Exn (Except Document Unit)}
    (hcheck : Emits (Server.frames b) check (fun _ out => P out) s) :
    Emits (Server.frames b) (catchNode check) (fun _ out => P out) s := by
  refine hP.tryCatch hcheck fun e t => ?_
  cases e <;> first | exact hP.pure | exact hP.throw

/-- **Asking, building and sending.** -/
theorem checkAndSend {data : TransactionData} {route : Route}
    {check : Act (Server b) Exn (Except Document Unit)} {handler : Exn → Except Exn Document}
    (hcheck : Emits (Server.frames b) check (fun _ out => P out) s)
    (hsend : ∀ t, Emits (Server.frames b) (send w this data route) (fun _ out => P out) t) :
    Emits (Server.frames b) (checkAndSend w this check data route handler) (fun _ out => P out) s := by
  unfold JsonTransaction.checkAndSend
  refine hP.seq hcheck fun passed t => ?_
  cases passed with
  | error document => exact hP.pure
  | ok _ =>
    refine hP.tryCatch ?_ fun _ _ => hP.answer
    exact hP.seq (Server.frames_perform (hP.other _ id)) fun _ t₁ =>
      hP.seq (hsend t₁) fun _ _ => hP.pure

theorem creation_checkNode (recipientPublicKey : Bytes) (amountString : String)
    (targetDate : DateTime) :
    Emits (Server.frames b) (JsonCreationTransaction.checkNode w this recipientPublicKey amountString
      targetDate) (fun _ out => P out) s := by
  unfold JsonCreationTransaction.checkNode
  split
  · exact hP.pure
  · refine hP.seq (hP.rpc (by decide)) fun addressType t => ?_
    split
    · split <;> exact hP.pure
    · refine hP.seq (hP.rpc (by decide)) fun sum t => ?_
      split
      · exact hP.throw
      · exact hP.throw
      · split
        · exact hP.throw
        · exact hP.pure

theorem transfer_checkNode (request : Request) (senderPublicKey recipientPublicKey : Bytes)
    (recipientGroupAlias amountString : String) :
    Emits (Server.frames b) (JsonTransferTransaction.checkNode w this request senderPublicKey
      recipientPublicKey recipientGroupAlias amountString) (fun _ out => P out) s := by
  unfold JsonTransferTransaction.checkNode
  split
  · exact hP.pure
  · refine hP.seq (hP.rpc (by decide)) fun addressType t => ?_
    split
    · exact hP.pure
    · refine hP.seq (hP.rpc (by decide)) fun balance t => ?_
      split
      · exact hP.pure
      · exact hP.pure
      · split <;> exact hP.pure

theorem transfer_recipientGroup (session : Session) (recipientGroupAlias : String) :
    Emits (Server.frames b) (JsonTransferTransaction.recipientGroup w session recipientGroupAlias)
      (fun _ out => P out) s := by
  unfold JsonTransferTransaction.recipientGroup
  split
  · exact hP.pure
  · refine hP.tryCatch (hP.seq (hP.loadGroup _) fun _ _ => hP.pure) fun e t => ?_
    cases e <;> first | exact hP.pure | exact hP.throw

theorem registerAddress_checkNode (userRootPubkey : Bytes) (currentGroupAlias newGroupAlias : String) :
    Emits (Server.frames b) (JsonRegisterAddressTransaction.checkNode w this userRootPubkey
      currentGroupAlias newGroupAlias) (fun _ out => P out) s := by
  unfold JsonRegisterAddressTransaction.checkNode
  split
  · exact hP.pure
  · refine hP.seq (hP.rpc (by decide)) fun txids t => ?_
    split <;> exact hP.pure

theorem signTransaction {session : Session} {transaction : GradidoTransaction} :
    Emits (Server.frames b) (signTransaction w session transaction) (fun _ out => P out) s := by
  unfold JsonTransaction.signTransaction
  split
  · exact hP.throw
  · refine Emits.get_bind ?_
    split
    · exact hP.pure
    · exact hP.pure
    · exact hP.throw

theorem buildLeg {data : TransactionData} {crossGroup : CrossGroup} :
    Emits (Server.frames b) (buildLeg w data crossGroup)
      (fun r out => (∀ t, r = .ok t → t = newTransaction data crossGroup) ∧ P out) s := by
  unfold JsonTransaction.buildLeg
  refine Emits.get_bind (Emits.bind (Emits.answer (Q := fun _ out => out = []) rfl) ?_ ?_)
  · rintro ⟨⟩ _ t - rfl
    exact Emits.pure ⟨fun t h => (Except.ok.inj h).symm, hP.nil⟩
  · rintro e _ rfl
    exact ⟨(fun _ h => by cases h), hP.nil⟩

/-- **All legs**: what each of them shows. -/
theorem send {data : TransactionData} (route : Route)
    (hleg : ∀ crossGroup parent groupAlias (t : Server b), Emits (Server.frames b)
      (signAndSendTransaction w this
        { newTransaction data crossGroup with parentMessageId := parent } groupAlias)
      (fun _ out => P out) t) :
    Emits (Server.frames b) (send w this data route) (fun _ out => P out) s := by
  cases route with
  | within groupAlias => exact hleg .local none groupAlias s
  | across groupAlias otherGroup =>
    refine hP.bind (K := fun r => ∀ t, r = .ok t → t = newTransaction data _) hP.buildLeg
      fun outbound t houtbound => ?_
    obtain rfl := houtbound outbound rfl
    refine hP.seq (hleg _ none groupAlias t) fun lastIotaMessageId t₁ => ?_
    refine hP.bind (K := fun r => ∀ t, r = .ok t → t = newTransaction data _) hP.buildLeg
      fun inbound t₂ hinbound => ?_
    obtain rfl := hinbound inbound rfl
    cases w.lib.hexToBin lastIotaMessageId with
    | none => exact hP.throw
    | some bin => exact hleg _ (some bin) otherGroup t₂

end Shown

/-! ## A request as a whole -/

section Handlers

variable {w : World} {request : Request} {s : Server b} {P : JsonTransaction → List Effect → Prop}

/-- What a request did once it had its session: `out`, and the session manager is the one
the lookup left. -/
structure DoneFor (P : List Effect → Prop) (s t : Server b) (out : List Effect) : Prop where
  frame : (Server.frames b).Steps s out t
  shown : P out

/-- Where the shared parameters are refused nothing more happens; else the rest of the handler runs
from the server the lookup of the session left. -/
theorem doneFor_withSharedParameter {rest : JsonTransaction → Act (Server b) Exn Document}
    (hrest : ∀ this t, Emits (Server.frames b) (rest this) (fun _ out => P this out) t) :
    match (exec (readSharedParameter w request) s).1 with
    | .ok (.ok this) => ∃ out, DoneFor (P this) (exec (readSharedParameter w request) s).2
        (exec (withSharedParameter w request rest) s).2 out
    | _ => (exec (withSharedParameter w request rest) s).2 =
        (exec (readSharedParameter w request) s).2 := by
  unfold withSharedParameter
  rw [exec_bind]
  rcases exec (readSharedParameter w request) s with ⟨e | d | this, t⟩
  · rfl
  · rfl
  · obtain ⟨out, hframe, hown⟩ := hrest this t
    exact ⟨out, hframe, hown⟩

/-- **What holds of the effects of `send` holds of those of a request**, and nothing else of the
server is touched. -/
theorem Handler.walk (hP : ∀ this, Shown (P this)) (hsend : ∀ this, SendShows b w this (P this))
    (h : Handler) (request : Request) (s : Server b) :
    match (exec (readSharedParameter w request) s).1 with
    | .ok (.ok this) => ∃ out, DoneFor (P this) (exec (readSharedParameter w request) s).2
        (exec (h.handle w request) s).2 out
    | _ => (exec (h.handle w request) s).2 = (exec (readSharedParameter w request) s).2 := by
  cases h with
  | creation =>
    refine doneFor_withSharedParameter fun this t => ?_
    have hP := hP this
    split
    · exact hP.pure
    · exact hP.pure
    · exact hP.pure
    · rename_i recipientName amountString targetDateString _ _ _
      cases JsonCreationTransaction.readTargetDate w targetDateString with
      | error document => exact hP.pure
      | ok targetDate =>
        refine hP.seq (hP.loadUser _ _) fun user t₁ => ?_
        cases hkey : this.mSession.mUserKeyPair with
        | none => exact hP.throw
        | some keyPair =>
          refine hP.tryCatch (hP.checkAndSend (hP.creation_checkNode _ _ _) fun t₂ => ?_)
            fun _ _ => hP.answer
          exact hsend this _ _ _ keyPair t₂ hkey trivial
  | transfer =>
    refine doneFor_withSharedParameter fun this t => ?_
    have hP := hP this
    cases request.params.getStringParameter "recipientName" with
    | error document => exact hP.pure
    | ok recipientName =>
      refine hP.seq (hP.transfer_recipientGroup _ _) fun found t₁ => ?_
      cases found with
      | error document => exact hP.pure
      | ok group =>
        cases request.params.getStringParameter "amount" with
        | error document => exact hP.pure
        | ok amountString =>
          refine hP.seq (hP.loadUser _ _) fun user t₂ => ?_
          cases hkey : this.mSession.mUserKeyPair with
          | none => exact hP.throw
          | some keyPair =>
            refine hP.checkAndSend (hP.catchNode (hP.transfer_checkNode _ _ _ _ _)) fun t₃ => ?_
            exact hsend this _ _ _ keyPair t₃ hkey rfl
  | registerAddress =>
    refine doneFor_withSharedParameter fun this t => ?_
    have hP := hP this
    cases request.params.getStringParameter "addressType" with
    | error document => exact hP.pure
    | ok addressTypeString =>
      dsimp only
      split
      · exact hP.pure
      · split
        · exact hP.pure
        · split
          · exact hP.pure
          · cases hkey : this.mSession.mUserKeyPair with
            | none => exact hP.throw
            | some keyPair =>
              refine hP.checkAndSend (hP.catchNode (hP.registerAddress_checkNode _ _ _)) fun t₁ => ?_
              exact hsend this _ _ _ keyPair t₁ hkey rfl

end Handlers

end GradidoConnector
