import GradidoConnector.HandlerTrace
import GradidoConnector.HexFields

/-!
# Publishing a signed transaction

What `sendTransactionIota` owes to a client that hands in a signed transaction: on success, the id
of the one message that was sent, with the transaction under the index of its group, and no message
else. The test `SendValidTransaction` reads an `iotaMessageId` of 64 digits from the success
document, and the documentation of the call shows one.

`handle` still serializes the transaction and puts the index together, but the call of `sendMessage`
and the member `iotaMessageId` are commented out. On a server it is its answer, without an effect.

Results:
* `succeeded_iff`: `handle` succeeds exactly on what is `Accepted`.
* **`publishes_iff`**: what it owes it does exactly on what is not.
-/

namespace GradidoConnector

open GradidoConnector.Base GradidoConnector.Base.Act

namespace JsonSendTransactionIota

variable {τ : Type} {b : Backend}

/-- `handle` on a server. -/
def handleOn (l : TransactionLibrary τ) (request : SendRequest) : Act (Server b) Exn Document :=
  answer (handle l request)

/-- `sendMessage(binToHex(index), *hex_message)`, answered with an id. -/
def message (l : TransactionLibrary τ) (getSerialized : τ → Bytes) (groupAlias : String) (signed : τ)
    (iotaMessageId : String) : Effect :=
  .sendMessage (l.lib.binToHex (bytesOf (JsonTransaction.iotaIndex groupAlias)))
    (l.lib.binToHex (getSerialized signed)) (.ok iotaMessageId)

/-- An effect that hands a message to iota. -/
def IsMessage : Effect → Prop
  | .sendMessage .. => True
  | _ => False

/-- The request was answered with `r`, and the transaction with the listed signatures was sent
once if that is a success, with its id in the answer, and not at all otherwise. -/
structure Publishes (l : TransactionLibrary τ) (getSerialized : τ → Bytes) (request : SendRequest)
    (s t : Server b) (r : Except Exn Document) : Prop where
  success : JsonTransaction.Succeeded r ↔ Accepted l request
  published : JsonTransaction.Succeeded r →
    ∃ pairs transaction signed iotaMessageId, Loads l request pairs transaction ∧
      Adds l pairs transaction signed ∧
      t.trace = s.trace ++
        [message l getSerialized (request.params.str "groupAlias") signed iotaMessageId] ∧
      r = .ok (JsonTransaction.sentDocument iotaMessageId)
  silent : ¬ JsonTransaction.Succeeded r →
    ∃ out, t.trace = s.trace ++ out ∧ ∀ e ∈ out, ¬ IsMessage e

variable {l : TransactionLibrary τ} {request : SendRequest}

/-- **`handle` succeeds exactly on a complete transaction.** -/
theorem succeeded_iff (l : TransactionLibrary τ) (request : SendRequest) :
    JsonTransaction.Succeeded (handle l request) ↔ Accepted l request := by
  rcases handle_cases l request with
    ⟨hok, hhandle⟩ | ⟨hnot, d, hd, hhandle⟩ | ⟨hnot, e, -, hhandle⟩ <;> rw [hhandle]
  · exact iff_of_true ⟨_, rfl, rfl⟩ hok
  · refine iff_of_false ?_ hnot
    rintro ⟨d', hd', hsuccess⟩
    cases hd'
    cases d with
    | null => cases hsuccess
    | success members => cases hd
    | error what details => cases hsuccess
  · refine iff_of_false ?_ hnot
    rintro ⟨d, hd, -⟩
    cases hd

theorem handle_of_accepted (h : Accepted l request) : handle l request = .ok .stateSuccess := by
  rcases handle_cases l request with ⟨-, hhandle⟩ | ⟨hnot, -⟩ | ⟨hnot, -⟩
  · exact hhandle
  · exact absurd h hnot
  · exact absurd h hnot

/-- A request has no effect on a server, whatever its end. -/
theorem exec_handleOn (l : TransactionLibrary τ) (request : SendRequest) (s : Server b) :
    exec (handleOn l request) s = (handle l request, s) := exec_answer _

/-- **A transaction that is not complete is refused in silence; a complete one is
not sent either.** -/
theorem publishes_iff (l : TransactionLibrary τ) (getSerialized : τ → Bytes) (request : SendRequest)
    (s : Server b) :
    (JsonTransaction.Succeeded (exec (handleOn l request) s).1 ↔ Accepted l request) ∧
    (Publishes l getSerialized request s (exec (handleOn l request) s).2
      (exec (handleOn l request) s).1 ↔ ¬ Accepted l request) := by
  rw [exec_handleOn]
  refine ⟨succeeded_iff l request, fun h haccepted => ?_, fun hnot => ?_⟩
  · obtain ⟨_, _, _, _, -, -, htrace, -⟩ := h.published ((succeeded_iff l request).mpr haccepted)
    have hlength := congrArg List.length htrace
    rw [List.length_append, List.length_singleton] at hlength
    exact absurd hlength (Nat.ne_of_lt (Nat.lt_succ_self _))
  · have hfails : ¬ JsonTransaction.Succeeded (handle l request) :=
      fun h => hnot ((succeeded_iff l request).mp h)
    exact ⟨succeeded_iff l request, fun h => absurd h hfails,
      fun _ => ⟨[], (List.append_nil _).symm, fun _ he => absurd he List.not_mem_nil⟩⟩

/-- A key and a signature, each of the right size. -/
def completePair : Params := .ofMembers
  [("pubkey", String.ofList (List.replicate 64 'a')),
   ("signature", String.ofList (List.replicate 128 'b'))] []

/-- A transaction with one signature. -/
def completeRequest : SendRequest where
  params := .ofMembers [("bodyBytesBase64", "aa"), ("groupAlias", "gdd1")] []
  signaturePairs := .array [completePair]

theorem accepted_completeRequest : Accepted plainTransactions completeRequest := by
  have hpubkey : plainLibrary.hexToBin (String.ofList (List.replicate 64 'a')) =
      some (List.replicate 32 0xaa) := by
    decide +kernel
  have hsignature : plainLibrary.hexToBin (String.ofList (List.replicate 128 'b')) =
      some (List.replicate 64 0xbb) := by
    decide +kernel
  refine ⟨[completePair], [], [(List.replicate 32 0xaa, List.replicate 64 0xbb)],
    ⟨rfl, "aa", rfl, rfl⟩, .cons rfl rfl ?_ (.nil _), ?_, ?_, ?_⟩
  · simp only [plainTransactions, hpubkey, hsignature, List.nil_append]
  · decide
  · decide
  · decide

/-- **A complete transaction is answered with success, without an id, and is not sent.** -/
theorem complete_not_sent :
    Accepted plainTransactions completeRequest ∧
    exec (handleOn plainTransactions completeRequest) aliceServer =
      (.ok .stateSuccess, aliceServer) ∧
    ¬ Publishes plainTransactions (fun signed => signed.flatMap fun pair => pair.1 ++ pair.2)
      completeRequest aliceServer (exec (handleOn plainTransactions completeRequest) aliceServer).2
      (exec (handleOn plainTransactions completeRequest) aliceServer).1 := by
  have hhandle := handle_of_accepted accepted_completeRequest
  refine ⟨accepted_completeRequest, ?_, fun h => ?_⟩
  · rw [exec_handleOn, hhandle]
  · obtain ⟨_, _, _, id, -, -, -, hanswer⟩ := h.published (h.success.mpr accepted_completeRequest)
    rw [exec_handleOn, hhandle] at hanswer
    cases hanswer

end JsonSendTransactionIota

end GradidoConnector
