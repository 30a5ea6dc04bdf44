import GradidoConnector.EffectTrace

/-!
# Cross-group transactions that stop half way

A cross-group transaction is two messages, and the id of the outbound one goes into the inbound
one. So the outbound leg has left the server before the inbound leg is built, signed, validated
and sent, and nothing calls it back when one of these fails (`inbound_lost`).

Results:
* **`untouched_or_outboundOnly`**: a request that does not succeed has published and pushed nothing,
  or the outbound leg with its entry and nothing else.
* `inbound_lost`: the second case happens.
-/

namespace GradidoConnector

open GradidoConnector.Base GradidoConnector.Base.Act

open JsonTransaction

variable {b : Backend}

/-- Nothing was published and no pending transaction was added. -/
structure Untouched (w : World) (s t : Server b) (out : List Effect) : Prop where
  published : published w out = []
  pushed : pushed out = []
  pending : t.pending = s.pending

/-- The outbound leg of `plan` was published, its entry was added, and that is all. -/
inductive OutboundOnly (w : World) (this : JsonTransaction) (plan : Plan) (s t : Server b)
    (out : List Effect) : Prop
  | intro (groupAlias otherGroup id : String) (e : Effect) (signPairs : List (Bytes × Bytes))
      (created : DateTime) (hroute : plan.route = .across groupAlias otherGroup)
      (hpublished : published w out = [e])
      (hpub : Publishes w this
        (legTransaction this plan.data ⟨.outbound otherGroup, groupAlias⟩ none signPairs) groupAlias
        (.ok id) e)
      (hpushed : pushed out = [pendingOf this plan.data id created])
      (hpending : t.pending = PendingTransactions.pushNewTransaction
        (.new (pendingOf this plan.data id created)) s.pending) : OutboundOnly w this plan s t out

/-- The request succeeds, or it leaves no trace outside and none in the list. -/
def AllOrNothing (w : World) (h : Handler) (request : Request) (s : Server b) : Prop :=
  Succeeded (exec (h.handle w request) s).1 ∨
    ∃ out, (exec (h.handle w request) s).2.trace = s.trace ++ out ∧
      Untouched w s (exec (h.handle w request) s).2 out

section Legs

variable {w : World} {this : JsonTransaction} {data : TransactionData} {parent : Option String}
  {legs : List Leg} {out : List Effect}

/-- Without an id nothing was published and nothing pushed. -/
theorem nothing_of_journaled (hj : Journaled w this data parent legs [] out) :
    published w out = [] ∧ pushed out = [] := by
  obtain ⟨hlegs, hentries, -⟩ := hj
  refine ⟨?_, List.map_eq_nil_iff.mp hentries⟩
  generalize published w out = es at hlegs
  cases hlegs
  rfl

/-- With one id the first leg was published and its entry pushed. -/
theorem one_of_journaled {leg : Leg} {id : String}
    (hj : Journaled w this data none (leg :: legs) [id] out) :
    (∃ e signPairs, published w out = [e] ∧
      Publishes w this (legTransaction this data leg none signPairs) leg.groupAlias (.ok id) e) ∧
    ∃ created, pushed out = [pendingOf this data id created] := by
  obtain ⟨hlegs, hentries, hfields⟩ := hj
  constructor
  · generalize published w out = es at hlegs
    cases hlegs with
    | next _ _ _ _ _ e rest bin signPairs hparent hpub hrest =>
      cases hrest
      cases bin with
      | none => exact ⟨e, signPairs, rfl, hpub⟩
      | some bin => cases hparent
  · obtain ⟨sent, hsent, hid⟩ := List.map_eq_singleton_iff.mp hentries
    obtain ⟨created, heq⟩ := hfields sent (by rw [hsent]; exact List.mem_cons_self)
    rw [hid] at heq
    exact ⟨created, by rw [hsent, heq]⟩

end Legs

/-- **A request that does not succeed has published and pushed nothing, or the outbound leg of its
plan with its entry and nothing else.** -/
theorem untouched_or_outboundOnly (w : World) (h : Handler) (request : Request) (s : Server b) :
    Succeeded (exec (h.handle w request) s).1 ∨
      ∃ out, (exec (h.handle w request) s).2.trace = s.trace ++ out ∧
        (Untouched w s (exec (h.handle w request) s).2 out ∨
          ∃ this plan, (exec (readSharedParameter w request) s).1 = .ok (.ok this) ∧
            EffectTrace w h request this plan s (exec (h.handle w request) s).2
              (exec (h.handle w request) s).1 out ∧
            OutboundOnly w { this with mMemo := plan.memo } plan s (exec (h.handle w request) s).2
              out) := by
  obtain ⟨out, hafter, hout⟩ := h.emits_handle w request s
  have hrefused : out = [] → Untouched w s (exec (h.handle w request) s).2 out := by
    rintro rfl
    exact ⟨rfl, rfl, hafter.pending⟩
  cases hshared : (exec (readSharedParameter w request) s).1 with
  | error e =>
    rw [hshared] at hout
    exact Or.inr ⟨out, hafter.trace, Or.inl (hrefused hout.1)⟩
  | ok shared =>
    rw [hshared] at hout
    cases shared with
    | error d => exact Or.inr ⟨out, hafter.trace, Or.inl (hrefused hout.1)⟩
    | ok this =>
      obtain ⟨plan, htrace⟩ := handlerTrace_spec hafter hout
      obtain ⟨ids, hj, ⟨hsucceeded, -⟩ | ⟨-, hlength⟩⟩ := htrace.legs
      · exact Or.inl hsucceeded
      refine Or.inr ⟨out, hafter.trace, ?_⟩
      have hjournal := htrace.journal
      match ids, hlength with
      | [], _ =>
        obtain ⟨hpub, hpush⟩ := nothing_of_journaled hj
        rw [hpush] at hjournal
        exact Or.inl ⟨hpub, hpush, hjournal⟩
      | [id], hlength =>
        cases hroute : plan.route with
        | within groupAlias =>
          rw [hroute] at hlength
          exact absurd hlength (Nat.lt_irrefl 1)
        | across groupAlias otherGroup =>
          rw [hroute] at hj
          obtain ⟨⟨e, signPairs, hpub, hpublishes⟩, created, hpush⟩ := one_of_journaled hj
          rw [hpush] at hjournal
          exact Or.inr ⟨this, plan, rfl, htrace, .intro groupAlias otherGroup id e signPairs created hroute
            hpub hpublishes hpush hjournal⟩
      | _ :: _ :: _, hlength =>
        -- no plan has more than two legs
        cases hroute : plan.route <;> rw [hroute] at hlength <;>
          · simp only [Route.legs, localLegs, crossLegs, List.length_cons, List.length_nil] at hlength
            omega

/-! ## An inbound leg that fails -/

/-- A world in which iota does not take the messages of the group `gdd2`. -/
def halfWorld : World :=
  { plainWorld with
    sendMessage := fun trace index message =>
      if index = plainLibrary.binToHex (bytesOf (iotaIndex "gdd2")) then
        .error (.iotaRequestException "timeout")
      else plainWorld.sendMessage trace index message }

/-- `alice` moves from `gdd` to `gdd2`. -/
def moveRequest : Request :=
  aliceRequest [("created", "0"), ("addressType", "HUMAN"), ("currentGroupAlias", "gdd"),
    ("newGroupAlias", "gdd2")] []

/-- **An inbound leg that fails leaves the outbound leg behind**: the request ends in an error
document, with one message at iota and one pending transaction. -/
theorem inbound_lost : ¬ AllOrNothing halfWorld .registerAddress moveRequest aliceServer := by
  have hfailed : (exec (Handler.registerAddress.handle halfWorld moveRequest) aliceServer).1.toOption.any
      Document.isSuccess = false := by decide
  have hpublished : (published halfWorld (exec (Handler.registerAddress.handle halfWorld moveRequest)
      aliceServer).2.trace).length = 1 := by decide
  rintro (⟨d, hd, hs⟩ | ⟨out, htrace, hout⟩)
  · rw [hd] at hfailed
    exact Bool.noConfusion (hs.symm.trans hfailed)
  · have hall : (exec (Handler.registerAddress.handle halfWorld moveRequest) aliceServer).2.trace =
        out := htrace
    rw [hall, hout.published] at hpublished
    exact absurd hpublished (by decide)

end GradidoConnector
