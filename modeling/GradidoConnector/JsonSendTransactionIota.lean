import GradidoConnector.JsonListTransactions

/-!
# Sending a signed transaction

Model of `JSONInterface/JsonSendTransactionIota.cpp`, `handle`. The body of a transaction, as
`JsonPackTransaction` gives it out, comes back with signatures, is validated and answered with
success. The call of `sendMessage` is commented out in the source, so no message is sent, and the
document has no `iotaMessageId`.

* `getStringParameter` for `groupAlias` leaves it empty where it fails; `apolloTransactionId` is
  read and not used, so it is left out.
* `TransactionLibrary τ` stands for the transactions of the `gradido_blockchain` library, `τ` for
  its `GradidoTransaction`. A null `MemoryBin*` is `none`.

* `Adds` is the loop over the pairs where all of them are added, `Handed` a call of `addSign` in it.

Results:
* `addSigns_cases`: how the loop ends.
* **`handle_cases`**: a request is answered with success exactly if it is `Accepted`; else with an
  error document, or with an exception of the library.
-/

namespace GradidoConnector

open GradidoConnector.Base GradidoConnector.Base.Act

structure TransactionLibrary (τ : Type) where
  lib : Library
  base64ToBinString : String → Bytes
  /-- `TransactionBody::load` and `new GradidoTransaction` -/
  load : Bytes → Except Exn τ
  addSign : τ → Option Bytes → Option Bytes → Except Exn τ
  /-- `validate(TRANSACTION_VALIDATION_SINGLE)` -/
  validate : τ → Except Exn Unit
  getSignCount : τ → Nat
  getMinSignatureCount : τ → Nat

/-- The member `signaturePairs` as `FindMember` finds it, with the members of its elements. -/
inductive SignaturePairs
  | missing
  | other
  | array (pairs : List Params)

structure SendRequest where
  params : Params
  signaturePairs : SignaturePairs

namespace JsonSendTransactionIota

variable {τ : Type}

/-! ## The code -/

/-- The loop over the signature pairs: the transaction with them, or the error document. -/
def addSigns (l : TransactionLibrary τ) : List Params → τ → Except Exn (Except Document τ)
  | [], transaction => .ok (.ok transaction)
  | it :: rest, transaction =>
    match it.getStringParameter "pubkey", it.getStringParameter "signature" with
    | .error paramError, _ | _, .error paramError => .ok (.error paramError)
    | .ok pubkeyHexString, .ok signatureHexString => do
      let pubkeyBin := l.lib.hexToBin pubkeyHexString
      let signatureBin := l.lib.hexToBin signatureHexString
      addSigns l rest (← l.addSign transaction pubkeyBin signatureBin)

/-- What follows the loop. -/
def finish (l : TransactionLibrary τ) (groupAlias : String) (transaction : τ) :
    Except Exn Document := do
  l.validate transaction
  if l.getSignCount transaction < l.getMinSignatureCount transaction then
    return .stateError "missing signatures"
  if !l.lib.isValidGroupAlias groupAlias then
    return .stateError "invalid group alias"
  return .stateSuccess

def handle (l : TransactionLibrary τ) (request : SendRequest) : Except Exn Document :=
  match request.params.getStringParameter "bodyBytesBase64" with
  | .error paramError => return paramError
  | .ok bodyBytesBase64String =>
    match request.signaturePairs with
    | .missing => return .stateError "signaturePairs not found"
    | .other => return .stateError "signaturePairs isn't a array"
    | .array pairs => do
      let transaction ← l.load (l.base64ToBinString bodyBytesBase64String)
      match ← addSigns l pairs transaction with
      | .error paramError => return paramError
      | .ok transaction => finish l (request.params.str "groupAlias") transaction

/-! ## The loop -/

variable {l : TransactionLibrary τ} {request : SendRequest} {pairs : List Params}
variable {transaction transaction' : τ}

/-- All pairs are complete and are added, one after the other. -/
inductive Adds (l : TransactionLibrary τ) : List Params → τ → τ → Prop
  | nil (transaction : τ) : Adds l [] transaction transaction
  | cons {it : Params} {rest : List Params} {transaction added last : τ}
      {pubkeyHexString signatureHexString : String}
      (hpubkey : it.getStringParameter "pubkey" = .ok pubkeyHexString)
      (hsignature : it.getStringParameter "signature" = .ok signatureHexString)
      (hadd : l.addSign transaction (l.lib.hexToBin pubkeyHexString)
        (l.lib.hexToBin signatureHexString) = .ok added)
      (hrest : Adds l rest added last) : Adds l (it :: rest) transaction last

/-- The loop over the pairs calls `addSign` for a transaction, a key and a signature. -/
inductive Handed (l : TransactionLibrary τ) : List Params → τ → τ → Option Bytes → Option Bytes → Prop
  | here {it : Params} {rest : List Params} {transaction : τ}
      {pubkeyHexString signatureHexString : String}
      (hpubkey : it.getStringParameter "pubkey" = .ok pubkeyHexString)
      (hsignature : it.getStringParameter "signature" = .ok signatureHexString) :
      Handed l (it :: rest) transaction transaction (l.lib.hexToBin pubkeyHexString)
        (l.lib.hexToBin signatureHexString)
  | there {it : Params} {rest : List Params} {transaction added last : τ}
      {pubkeyHexString signatureHexString : String} {pubkeyBin signatureBin : Option Bytes}
      (hpubkey : it.getStringParameter "pubkey" = .ok pubkeyHexString)
      (hsignature : it.getStringParameter "signature" = .ok signatureHexString)
      (hadd : l.addSign transaction (l.lib.hexToBin pubkeyHexString)
        (l.lib.hexToBin signatureHexString) = .ok added)
      (hrest : Handed l rest added last pubkeyBin signatureBin) :
      Handed l (it :: rest) transaction last pubkeyBin signatureBin

/-- **How the loop ends**: with all pairs added, at a pair that is not complete, or at one that is
not added. -/
theorem addSigns_cases (l : TransactionLibrary τ) (pairs : List Params) (transaction : τ) :
    (∃ transaction', Adds l pairs transaction transaction' ∧
      addSigns l pairs transaction = .ok (.ok transaction')) ∨
    (∃ d, d.isError = true ∧ addSigns l pairs transaction = .ok (.error d)) ∨
    ∃ last pubkeyBin signatureBin e, Handed l pairs transaction last pubkeyBin signatureBin ∧
      l.addSign last pubkeyBin signatureBin = .error e ∧ addSigns l pairs transaction = .error e := by
  induction pairs generalizing transaction with
  | nil => exact Or.inl ⟨transaction, .nil transaction, rfl⟩
  | cons it rest ih =>
    cases hpubkey : it.getStringParameter "pubkey" with
    | error d =>
      refine Or.inr (Or.inl ⟨d, it.isError_of_string _ _ hpubkey, ?_⟩)
      rw [addSigns, hpubkey]
    | ok pubkeyHexString =>
      cases hsignature : it.getStringParameter "signature" with
      | error d =>
        refine Or.inr (Or.inl ⟨d, it.isError_of_string _ _ hsignature, ?_⟩)
        rw [addSigns, hpubkey, hsignature]
      | ok signatureHexString =>
        have hstep : addSigns l (it :: rest) transaction =
            l.addSign transaction (l.lib.hexToBin pubkeyHexString)
              (l.lib.hexToBin signatureHexString) >>= addSigns l rest := by
          rw [addSigns, hpubkey, hsignature]
        cases hadd : l.addSign transaction (l.lib.hexToBin pubkeyHexString)
            (l.lib.hexToBin signatureHexString) with
        | error e =>
          rw [hadd] at hstep
          exact Or.inr (Or.inr ⟨_, _, _, e, .here hpubkey hsignature, hadd, hstep⟩)
        | ok added =>
          rw [hadd] at hstep
          rcases ih added with ⟨last, hadds, hrest⟩ | ⟨d, hd, hrest⟩ | ⟨last, k, s, e, hhanded, he, hrest⟩
          · exact Or.inl ⟨last, .cons hpubkey hsignature hadd hadds, hstep.trans hrest⟩
          · exact Or.inr (Or.inl ⟨d, hd, hstep.trans hrest⟩)
          · exact Or.inr (Or.inr ⟨last, k, s, e, .there hpubkey hsignature hadd hhanded, he,
              hstep.trans hrest⟩)

/-- The loop adds all pairs in one way. -/
theorem Adds.addSigns_eq (h : Adds l pairs transaction transaction') :
    addSigns l pairs transaction = .ok (.ok transaction') := by
  induction h with
  | nil => rfl
  | cons hpubkey hsignature hadd _ ih =>
    rw [addSigns, hpubkey, hsignature]
    dsimp only
    rw [hadd]
    exact ih

/-! ## A request -/

/-- The request has a body that can be loaded, and a list of signature pairs. -/
structure Loads (l : TransactionLibrary τ) (request : SendRequest) (pairs : List Params)
    (transaction : τ) : Prop where
  pairs : request.signaturePairs = .array pairs
  load : ∃ bodyBytesBase64String,
    request.params.getStringParameter "bodyBytesBase64" = .ok bodyBytesBase64String ∧
      l.load (l.base64ToBinString bodyBytesBase64String) = .ok transaction

/-- All pairs are added, and the transaction is valid, has enough signatures and is for a group. -/
def Accepted (l : TransactionLibrary τ) (request : SendRequest) : Prop :=
  ∃ pairs transaction signed, Loads l request pairs transaction ∧ Adds l pairs transaction signed ∧
    l.validate signed = .ok () ∧ l.getMinSignatureCount signed ≤ l.getSignCount signed ∧
    l.lib.isValidGroupAlias (request.params.str "groupAlias") = true

/-- An exception of the library in the course of a request. -/
inductive Throws (l : TransactionLibrary τ) (request : SendRequest) : Exn → Prop
  | load {bytes : Bytes} {e : Exn} (h : l.load bytes = .error e) : Throws l request e
  | addSign {pairs : List Params} {transaction last : τ} {pubkeyBin signatureBin : Option Bytes} {e : Exn}
      (hloads : Loads l request pairs transaction)
      (hhanded : Handed l pairs transaction last pubkeyBin signatureBin)
      (h : l.addSign last pubkeyBin signatureBin = .error e) : Throws l request e
  | validate {transaction : τ} {e : Exn} (h : l.validate transaction = .error e) : Throws l request e

theorem handle_of_loads (h : Loads l request pairs transaction) :
    handle l request = addSigns l pairs transaction >>= fun
      | .error paramError => pure paramError
      | .ok transaction => finish l (request.params.str "groupAlias") transaction := by
  obtain ⟨hpairs, body, hbody, hload⟩ := h
  rw [handle, hbody, hpairs]
  dsimp only
  rw [hload]
  rfl

/-- Where the loop is not reached the request is refused. -/
theorem handle_of_not_loads (h : ¬ ∃ pairs transaction, Loads l request pairs transaction) :
    (∃ d, d.isError = true ∧ handle l request = .ok d) ∨
      ∃ bytes e, l.load bytes = .error e ∧ handle l request = .error e := by
  unfold handle
  cases hbody : request.params.getStringParameter "bodyBytesBase64" with
  | error d => exact Or.inl ⟨d, request.params.isError_of_string _ _ hbody, rfl⟩
  | ok body =>
    cases hpairs : request.signaturePairs with
    | missing => exact Or.inl ⟨_, rfl, rfl⟩
    | other => exact Or.inl ⟨_, rfl, rfl⟩
    | array pairs =>
      cases hload : l.load (l.base64ToBinString body) with
      | ok transaction => exact absurd ⟨pairs, transaction, hpairs, body, hbody, hload⟩ h
      | error e =>
        refine Or.inr ⟨_, e, hload, ?_⟩
        dsimp only
        rw [hload]
        rfl

theorem Loads.unique {pairs' : List Params} (h : Loads l request pairs transaction)
    (h' : Loads l request pairs' transaction') : pairs = pairs' ∧ transaction = transaction' := by
  obtain ⟨hpairs, body, hbody, hload⟩ := h
  obtain ⟨hpairs', body', hbody', hload'⟩ := h'
  obtain rfl := SignaturePairs.array.inj (hpairs.symm.trans hpairs')
  obtain rfl := Except.ok.inj (hbody.symm.trans hbody')
  exact ⟨rfl, Except.ok.inj (hload.symm.trans hload')⟩

/-- A signed transaction that is valid, has enough signatures and is for a group. -/
def Complete (l : TransactionLibrary τ) (groupAlias : String) (signed : τ) : Prop :=
  l.validate signed = .ok () ∧ l.getMinSignatureCount signed ≤ l.getSignCount signed ∧
    l.lib.isValidGroupAlias groupAlias = true

/-- What is accepted went through the loop. -/
theorem addSigns_of_accepted (hloads : Loads l request pairs transaction)
    (h : Accepted l request) : ∃ signed, addSigns l pairs transaction = .ok (.ok signed) ∧
      Complete l (request.params.str "groupAlias") signed := by
  obtain ⟨pairs', transaction', signed, hloads', hadds, hvalid⟩ := h
  obtain ⟨rfl, rfl⟩ := hloads.unique hloads'
  exact ⟨signed, hadds.addSigns_eq, hvalid⟩

/-- **What follows the loop.** -/
theorem finish_cases (groupAlias : String) (signed : τ) :
    (Complete l groupAlias signed ∧ finish l groupAlias signed = .ok .stateSuccess) ∨
    (¬ Complete l groupAlias signed ∧
      ((∃ d, d.isError = true ∧ finish l groupAlias signed = .ok d) ∨
        ∃ e, l.validate signed = .error e ∧ finish l groupAlias signed = .error e)) := by
  rw [finish, Complete]
  cases hvalid : l.validate signed with
  | error e => exact Or.inr ⟨fun h => (nomatch h.1), Or.inr ⟨e, rfl, rfl⟩⟩
  | ok _ =>
    by_cases hcount : l.getSignCount signed < l.getMinSignatureCount signed
    · refine Or.inr ⟨fun h => absurd h.2.1 (Nat.not_le.mpr hcount),
        Or.inl ⟨.stateError "missing signatures", rfl, ?_⟩⟩
      simp only [bind, Except.bind, if_pos hcount]
      rfl
    · cases halias : l.lib.isValidGroupAlias groupAlias with
      | false =>
        refine Or.inr ⟨fun h => (nomatch h.2.2), Or.inl ⟨.stateError "invalid group alias", rfl, ?_⟩⟩
        simp only [bind, Except.bind, if_neg hcount]
        rfl
      | true =>
        refine Or.inl ⟨⟨rfl, Nat.not_lt.mp hcount, rfl⟩, ?_⟩
        simp only [bind, Except.bind, if_neg hcount]
        rfl

/-- **How a request is answered.** -/
theorem handle_cases (l : TransactionLibrary τ) (request : SendRequest) :
    (Accepted l request ∧ handle l request = .ok .stateSuccess) ∨
    (¬ Accepted l request ∧ ∃ d, d.isError = true ∧ handle l request = .ok d) ∨
    (¬ Accepted l request ∧ ∃ e, Throws l request e ∧ handle l request = .error e) := by
  by_cases hloads : ∃ pairs transaction, Loads l request pairs transaction
  · obtain ⟨pairs, transaction, hloads⟩ := hloads
    have hhandle := handle_of_loads hloads
    rcases addSigns_cases l pairs transaction with
      ⟨signed, hadds, hloop⟩ | ⟨d, hd, hloop⟩ | ⟨last, k, s, e, hhanded, he, hloop⟩
    · rw [hloop] at hhandle
      have haccepted : Accepted l request ↔
          Complete l (request.params.str "groupAlias") signed := by
        constructor
        · intro h
          obtain ⟨signed', hsigned, hvalid⟩ := addSigns_of_accepted hloads h
          obtain rfl := Except.ok.inj (Except.ok.inj (hloop.symm.trans hsigned))
          exact hvalid
        · exact fun hvalid => ⟨pairs, transaction, signed, hloads, hadds, hvalid⟩
      replace hhandle : handle l request =
        finish l (request.params.str "groupAlias") signed := hhandle
      rw [hhandle, haccepted]
      rcases finish_cases (request.params.str "groupAlias") signed with
        hsuccess | ⟨hnot, hrefused | ⟨e, hvalid, hfinish⟩⟩
      · exact Or.inl hsuccess
      · exact Or.inr (Or.inl ⟨hnot, hrefused⟩)
      · exact Or.inr (Or.inr ⟨hnot, e, .validate hvalid, hfinish⟩)
    · rw [hloop] at hhandle
      refine Or.inr (Or.inl ⟨fun h => ?_, d, hd, hhandle⟩)
      obtain ⟨signed, hsigned, -⟩ := addSigns_of_accepted hloads h
      exact nomatch Except.ok.inj (hloop.symm.trans hsigned)
    · rw [hloop] at hhandle
      refine Or.inr (Or.inr ⟨fun h => ?_, e, .addSign hloads hhanded he, hhandle⟩)
      obtain ⟨signed, hsigned, -⟩ := addSigns_of_accepted hloads h
      exact nomatch hloop.symm.trans hsigned
  · have hnot : ¬ Accepted l request :=
      fun ⟨pairs, transaction, _, h, _⟩ => hloads ⟨pairs, transaction, h⟩
    rcases handle_of_not_loads hloads with ⟨d, hd, hhandle⟩ | ⟨bytes, e, he, hhandle⟩
    · exact Or.inr (Or.inl ⟨hnot, d, hd, hhandle⟩)
    · exact Or.inr (Or.inr ⟨hnot, e, .load he, hhandle⟩)

end JsonSendTransactionIota

end GradidoConnector
