import GradidoConnector.HandlerWalk

/-!
# What a handler hands out is signed by its session

Every message that a transaction handler hands to iota or to the Gradido Node is a transaction with
one signature, by the key pair of the session that the request's token found; a transfer takes from
that key and a registration registers it (`OwnTransaction`).

Results:
* `ownTransaction_of_sign`: signing a new transaction makes it the session's own.
* `fromSession_send`: all legs of a transaction come from the session.
* **`Handler.fromSession_handle`**: the effects of a request after its lookup all come from its
  session.
-/

namespace GradidoConnector

open GradidoConnector.Base GradidoConnector.Base.Act

open JsonTransaction GradidoNodeRPC

variable {b : Backend}

/-- The message carries the transaction. -/
def Carries (lib : Library) (transaction : GradidoTransaction) : Effect → Prop
  | .sendMessage _ message _ => message = lib.binToHex (lib.getSerialized transaction)
  | .request _ params _ => ∃ transactionNr groupAlias,
    params = putParams (lib.binToBase64 (lib.getSerialized transaction)) transactionNr groupAlias
  | _ => False

/-- The transaction of the key pair: its account, and its signature alone. -/
structure OwnTransaction (w : World) (keyPair : KeyPair) (transaction : GradidoTransaction) : Prop where
  account : OfAccount keyPair.publicKey transaction.body.data
  signed : ∃ trace sign, w.sign trace keyPair (w.lib.bodyBytes transaction.body) = .ok sign ∧
    transaction.signPairs = [(keyPair.publicKey, sign)]

/-- A message comes from the session if it carries a transaction of the session's key pair. -/
def FromSession (w : World) (session : Session) (e : Effect) : Prop :=
  IsMessage e → ∃ keyPair transaction, session.mUserKeyPair = some keyPair ∧
    OwnTransaction w keyPair transaction ∧ Carries w.lib transaction e

/-- Everything but a message comes from any session. -/
theorem shown_fromSession (w : World) (session : Session) :
    Shown fun out => ∀ e ∈ out, FromSession w session e :=
  shown_all fun _ he hmessage => absurd hmessage he

section Emits

variable {w : World} {session : Session} {keyPair : KeyPair} {s : Server b}

/-- Signing a new transaction of the session's account makes it the session's own. -/
theorem ownTransaction_of_sign {transaction : GradidoTransaction}
    (hkey : session.mUserKeyPair = some keyPair)
    (haccount : OfAccount keyPair.publicKey transaction.body.data)
    (hnew : transaction.signPairs = []) :
    Emits (Server.frames b) (signTransaction w session transaction)
      (fun r out => (∀ signed, r = .ok (some signed) → OwnTransaction w keyPair signed) ∧
        ∀ e ∈ out, FromSession w session e) s := by
  have hthrow : ∀ e, Emits (Server.frames b) (throw e : Act (Server b) Exn _)
      (fun r out => (∀ signed, r = .ok (some signed) → OwnTransaction w keyPair signed) ∧
        ∀ e ∈ out, FromSession w session e) s :=
    fun e => Emits.throw ⟨(fun _ h => by cases h), fun _ he => absurd he List.not_mem_nil⟩
  unfold signTransaction
  rw [hkey]
  refine Emits.get_bind ?_
  cases hsign : w.sign s.trace keyPair (w.lib.bodyBytes transaction.body) with
  | ok sign =>
    refine Emits.pure ⟨fun signed h => ?_, fun _ he => absurd he List.not_mem_nil⟩
    cases h
    exact ⟨haccount, s.trace, sign, hsign, by rw [hnew]; rfl⟩
  | error e =>
    cases e with
    | ed25519SignException =>
      exact Emits.pure ⟨(fun _ h => by cases h), fun _ he => absurd he List.not_mem_nil⟩
    | _ => exact hthrow _

/-- Publishing is one effect, which carries the transaction. -/
theorem carries_publish (w : World) (this : JsonTransaction) (transaction : GradidoTransaction)
    (groupAlias : String) (s : Server b) :
    Emits (Server.frames b) (publish w this transaction groupAlias)
      (fun _ out => ∃ e, out = [e] ∧ Carries w.lib transaction e) s := by
  unfold publish
  dsimp only
  cases this.mArchiveTransaction with
  | true =>
    refine Emits.bind (R := fun _ out => ∃ e, out = [e] ∧ Carries w.lib transaction e) ?_ ?_
      fun _ _ h => h
    · unfold putTransaction
      rw [Emits, wp, exec_rpc]
      exact ⟨_, ⟨Server.after_log _ s, rfl⟩, _, rfl, _, _, rfl⟩
    · rintro ⟨⟩ _ t - ⟨e, rfl, hcarries⟩
      exact Emits.pure ⟨e, rfl, hcarries⟩
  | false => exact Server.frames_perform ⟨_, rfl, rfl⟩

/-- An own transaction is published as a message of the session. -/
theorem fromSession_publish {this : JsonTransaction} {transaction : GradidoTransaction}
    (groupAlias : String) (hkey : session.mUserKeyPair = some keyPair)
    (hown : OwnTransaction w keyPair transaction) :
    Emits (Server.frames b) (publish w this transaction groupAlias)
      (fun _ out => ∀ e ∈ out, FromSession w session e) s := by
  refine (carries_publish w this transaction groupAlias s).mono ?_
  rintro _ _ ⟨published, rfl, hcarries⟩ e he -
  rw [List.mem_singleton.mp he]
  exact ⟨keyPair, transaction, hkey, hown, hcarries⟩

theorem fromSession_checkApolloDecay {this : JsonTransaction} {data : TransactionData} :
    Emits (Server.frames b) (checkApolloDecay w this data)
      (fun _ out => ∀ e ∈ out, FromSession w session e) s := by
  unfold checkApolloDecay
  split
  · exact Emits.pure_all
  · unfold validateApolloDecay
    cases decayAddress data with
    | none => exact Emits.pure_all
    | some pubkey =>
      refine Emits.seq_all ((shown_fromSession w session).rpc (by decide)) fun balance t => ?_
      cases w.lib.mpfrSetStr balance with
      | none => exact Emits.throw_all
      | some startBalance =>
        refine Emits.seq_all Emits.answer_all fun endBalance t => ?_
        cases w.lib.mpfrSetStr this.mApolloCreatedDecay with
        | none => exact Emits.throw_all
        | some apolloDecay =>
          dsimp only
          split
          · exact Emits.throw_all
          · exact Emits.pure_all

/-- **One call sends its transaction signed by its session**, whether it returns or throws. -/
theorem fromSession_signAndSendTransaction {this : JsonTransaction} {transaction : GradidoTransaction}
    (groupAlias : String) (hkey : this.mSession.mUserKeyPair = some keyPair)
    (haccount : OfAccount keyPair.publicKey transaction.body.data)
    (hnew : transaction.signPairs = []) :
    Emits (Server.frames b) (signAndSendTransaction w this transaction groupAlias)
      (fun _ out => ∀ e ∈ out, FromSession w this.mSession e) s := by
  unfold signAndSendTransaction
  refine Emits.bind_all
    (K := fun r => ∀ signed, r = .ok (some signed) → OwnTransaction w keyPair signed)
    (ownTransaction_of_sign hkey haccount hnew) fun signed t hsigned => ?_
  cases signed with
  | none => exact Emits.throw_all
  | some transaction =>
    have hown := hsigned transaction rfl
    refine Emits.get_bind (Emits.seq_all Emits.answer_all fun _ t₁ => ?_)
    split
    · exact Emits.throw_all
    · refine Emits.seq_all fromSession_checkApolloDecay fun _ t₂ => ?_
      refine Emits.seq_all (fromSession_publish groupAlias hkey hown) fun id t₃ => ?_
      refine ⟨_, ⟨Server.after_log _ t₃, rfl⟩, fun e he hmessage => ?_⟩
      rw [List.mem_singleton.mp he] at hmessage
      exact hmessage.elim

/-- Every leg of a transaction of the session's account is signed by the session. -/
theorem fromSession_send {this : JsonTransaction} {data : TransactionData} (route : Route)
    (hkey : this.mSession.mUserKeyPair = some keyPair)
    (haccount : OfAccount keyPair.publicKey data) :
    Emits (Server.frames b) (send w this data route)
      (fun _ out => ∀ e ∈ out, FromSession w this.mSession e) s :=
  (shown_fromSession w this.mSession).send route fun _ _ groupAlias _ =>
    fromSession_signAndSendTransaction groupAlias hkey haccount rfl

end Emits

/-- **The effects of a request all come from its session**, and nothing else of it is touched. -/
theorem Handler.fromSession_handle (h : Handler) (w : World) (request : Request) (s : Server b) :
    match (exec (readSharedParameter w request) s).1 with
    | .ok (.ok this) => ∃ out, DoneFor (fun out => ∀ e ∈ out, FromSession w this.mSession e)
        (exec (readSharedParameter w request) s).2 (exec (h.handle w request) s).2 out
    | _ => (exec (h.handle w request) s).2 = (exec (readSharedParameter w request) s).2 :=
  h.walk (P := fun this out => ∀ e ∈ out, FromSession w this.mSession e)
    (fun this => shown_fromSession w this.mSession)
    (fun _ _ _ route _ _ hkey haccount => fromSession_send route hkey haccount) request s

end GradidoConnector
