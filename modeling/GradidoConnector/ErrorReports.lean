import GradidoConnector.Phases

/-!
# Which failures a transaction handler reports

`handleSignAndSendTransactionExceptions` maps eight classes of exceptions to error documents
(`IsMapped`). `JsonCreationTransaction` calls it for everything its phases throw,
`JsonRegisterAddressTransaction` for what building and sending throws, and `JsonTransferTransaction`
not at all: what its second phase throws leaves the handler (`validation_escapes`). Around the
questions to the Gradido Node these two catch a `GradidoNodeRPCException` only, so the
`RequestResponseErrorException` that `handleGradidoNodeRpcException` throws on leaves them, too.

Results:
* `isError_of_mapped`: a mapped exception is answered with an error document.
* `exec_guarded_of_raised`: what a handler makes of an exception of its phases.
* **`reported_iff`**: a handler reports a mapped exception exactly where one of its clauses catches
  it.
-/

namespace GradidoConnector

open GradidoConnector.Base GradidoConnector.Base.Act

open JsonTransaction

variable {b : Backend}

/-- The classes that `handleSignAndSendTransactionExceptions` maps. -/
def IsMapped : Exn → Prop
  | .transactionValidationInvalidSignatureException .. | .transactionValidationInvalidInputException ..
  | .iotaRequestException .. | .requestResponseErrorException .. | .rapidjsonParseErrorException ..
  | .ed25519SignException .. | .gradidoNodeRPCException .. | .apolloDecayException .. => True
  | _ => False

theorem isError_of_mapped {e : Exn} (lib : Library) (h : IsMapped e) :
    ∃ d, handleSignAndSendTransactionExceptions lib e = .ok d ∧ d.isError = true := by
  cases e <;> first | exact ⟨_, rfl, rfl⟩ | exact h.elim

/-- The phase throws `e` in the run of a request that has come to its phases in the state `t`. -/
inductive Raised (w : World) (request : Request) (a : Arrival) (t : Server b) (e : Exn) : Phase → Prop
  | node (t' : Server b) (hcheck : exec (a.check w request) t = (.error e, t')) :
      Raised w request a t e .node
  | send (t' u : Server b) (hcheck : exec (a.check w request) t = (.ok (.ok ()), t'))
      (hsend : exec (a.send w request) t' = (.error e, u)) : Raised w request a t e .send

/-- `handle` returns an error document. -/
def Reported (r : Except Exn Document) : Prop := ∃ d, r = .ok d ∧ d.isError = true

/-- A `catch` clause of the handler answers the exception of this phase. -/
def Caught : Handler → Phase → Exn → Prop
  | .creation, _, _ | .registerAddress, .send, _ => True
  | .transfer, .send, _ => False
  | _, .node, .gradidoNodeRPCException .. => True
  | _, .node, _ => False

theorem not_reported_error {e : Exn} : ¬ Reported (.error e) := by
  rintro ⟨d, h, -⟩
  cases h

section Guarded

variable {w : World} {request : Request} {a : Arrival} {t : Server b} {e : Exn}

/-- **What a handler makes of an exception of its phases.** -/
theorem exec_guarded_of_raised {phase : Phase} (h : Raised w request a t e phase) :
    (exec (a.guarded w request) t).1 = clause w.lib a.handler phase e := by
  cases h with
  | node t' hcheck => rw [exec_guarded_of_error hcheck]
  | send t' u hcheck hsend =>
    rw [exec_guarded_of_passed hcheck, hsend]
    rfl

/-- A mapped exception is answered where a clause catches it. -/
theorem reported_clause_iff {h : Handler} {phase : Phase} (hmapped : IsMapped e) :
    Reported (clause w.lib h phase e) ↔ Caught h phase e := by
  have hall : Reported (handleSignAndSendTransactionExceptions w.lib e) :=
    isError_of_mapped w.lib hmapped
  cases phase with
  | node =>
    cases h with
    | creation => exact iff_of_true hall trivial
    | transfer | registerAddress =>
      cases e <;> first
        | exact iff_of_true ⟨_, rfl, rfl⟩ trivial
        | exact iff_of_false not_reported_error id
  | send =>
    cases h with
    | creation | registerAddress => exact iff_of_true hall trivial
    | transfer => exact iff_of_false not_reported_error id

/-- **A handler reports a mapped exception of its phases exactly where a clause catches it.** -/
theorem reported_iff {s : Server b} {phase : Phase} (hreach : Reaches w request s a t)
    (hraised : Raised w request a t e phase) (hmapped : IsMapped e) :
    Reported (exec (a.handler.handle w request) s).1 ↔ Caught a.handler phase e := by
  rw [hreach.exec_handle, exec_guarded_of_raised hraised]
  exact reported_clause_iff hmapped

end Guarded

/-! ### An archived transaction that is not valid -/

def invalidAmount : Exn :=
  .transactionValidationInvalidInputException "zero or negative amount" "amount" "string"

/-- A world in which no transaction is valid. -/
def strictWorld : World where
  __ := plainWorld
  validate _ _ := .error invalidAmount

/-- An archived transaction of `alice` for herself. -/
def archivedRequest : Request :=
  aliceRequest [("created", "0"), ("recipientName", "alice"), ("amount", "0"), ("targetDate", "0")]
    [("transactionNr", 1)]

/-- A creation is answered with the reason. -/
theorem reported_invalid : ∃ a t, Reaches strictWorld archivedRequest aliceServer a t ∧
    a.handler = .creation ∧ Reported (exec (a.handler.handle strictWorld archivedRequest) aliceServer).1 := by
  have hreach : ∃ a t, Reaches strictWorld archivedRequest aliceServer a t ∧ a.handler = .creation ∧
      Raised strictWorld archivedRequest a t invalidAmount .send :=
    ⟨_, _, .creation _ _ _ "alice" "0" "0" _ _ _ (by rfl) (by rfl) (by rfl) (by rfl) (by rfl)
      (by rfl) (by rfl), rfl, .send _ _ (by rfl) (by rfl)⟩
  obtain ⟨a, t, hreach, hhandler, hraised⟩ := hreach
  refine ⟨a, t, hreach, hhandler, (reported_iff hreach hraised trivial).mpr ?_⟩
  rw [hhandler]
  trivial

/-- From a transfer the exception escapes. -/
theorem validation_escapes : ∃ a t, Reaches strictWorld archivedRequest aliceServer a t ∧
    a.handler = .transfer ∧ Raised strictWorld archivedRequest a t invalidAmount .send ∧
    IsMapped invalidAmount ∧
      ¬ Reported (exec (Handler.transfer.handle strictWorld archivedRequest) aliceServer).1 := by
  refine ⟨_, _, .transfer _ _ _ "alice" _ "0" _ _ _ _ (by rfl) (by rfl) (by rfl) (by rfl) (by rfl)
    (by rfl), rfl, .send _ _ (by rfl) (by rfl), trivial, ?_⟩
  have hescapes : (exec (Handler.transfer.handle strictWorld archivedRequest)
      aliceServer).1.toOption.isNone = true := by decide
  rintro ⟨d, hd, -⟩
  rw [hd] at hescapes
  cases hescapes

end GradidoConnector
