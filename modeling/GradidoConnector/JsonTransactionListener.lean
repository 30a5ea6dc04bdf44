import Mathlib.Data.List.Nodup
import GradidoConnector.Base.Act
import GradidoConnector.PendingTransactions

/-!
# Notifications of the Gradido Node

Model of `JSONInterface/JsonTransactionListener.cpp`, the handler of `/notify`. A body with a
`transactionBase64` and an `error` rejects the entry `messageId`; one with a `transactionBase64`
alone confirms the entry that the decoded Gradido block names; any other body is ignored.

* `Decoder` stands for `DataTypeConverter::base64ToBinString` and for
  `model::gradido::GradidoBlock` with its accessors.
* `verdictOf` is the `updateTransaction` call a body leads to, `addressee` the id a body speaks of,
  whether it reaches the store or not.

A leg is published, its entry is pushed and its notification is handled by different requests
(`JsonTransaction::signAndSendTransaction`, lines 111-147, and the listener), so the three are
separate steps here and a run is any interleaving of them. `Valid` says what a run may be:
published ids are distinct ids of 64 bytes, an entry is pushed once and after its publish, and a
notification speaks of an id that was published before.

Results:
* `handle_updates`: the handler's effect on the store is its `verdictOf`.
* `settled_iff`: an entry is settled exactly when a notification that reaches the store comes
  after its push.
* **`noVerdictLost_iff`**: a run loses no verdict exactly when every message that is notified is
  also notified after its push.
* `verdict_lost`: the shortest run that loses one.
-/

namespace GradidoConnector.JsonTransactionListener

open GradidoConnector.Base GradidoConnector.Base.Act GradidoConnector.PendingTransactions

structure Decoder where
  base64ToBinString : String → Except Exn Bytes
  /-- `getMessageIdHex()` of the block, whose transaction body is unpacked too. -/
  gradidoBlock : Bytes → Except Exn String

variable (dec : Decoder)

/-- `pt->updateTransaction(…)` on the store of this process. -/
def updatePending (iotaMessageId : String) (confirmed : Bool) (errorMessage : String) :
    Act Store Exn Unit := do
  match updateTransaction iotaMessageId confirmed errorMessage (← get) with
  | some st => set st
  | none => throw (.crash "memcmp past the end of an id")

def handle (params : Params) : Act Store Exn Document :=
  let transactionBase64 := params.str "transactionBase64"
  let error := params.str "error"
  let iotaMessageId := params.str "messageId"
  if transactionBase64 ≠ "" then do
    let bin ← answer (dec.base64ToBinString transactionBase64)
    if error ≠ "" then
      updatePending iotaMessageId false error
    else
      let messageIdHex ← answer (dec.gradidoBlock bin)
      updatePending messageIdHex true ""
    return .stateSuccess
  else
    return .stateSuccess

/-- The update a body leads to: the id, the verdict and the message. -/
def verdictOf (params : Params) : Option (String × Bool × String) :=
  if params.str "transactionBase64" = "" then none
  else
    match dec.base64ToBinString (params.str "transactionBase64") with
    | .error _ => none
    | .ok bin =>
      if params.str "error" ≠ "" then some (params.str "messageId", false, params.str "error")
      else
        match dec.gradidoBlock bin with
        | .error _ => none
        | .ok id => some (id, true, "")

/-- The id a body speaks of. -/
def addressee (params : Params) : Option String :=
  if params.str "error" ≠ "" then some (params.str "messageId")
  else (verdictOf dec params).map (·.1)

/-- The body reaches the store with a verdict on `id`. -/
def Delivers (params : Params) (id : String) : Prop := ∃ c m, verdictOf dec params = some (id, c, m)

variable {dec}

theorem addressee_of_delivers {params : Params} {id : String} (h : Delivers dec params id) :
    addressee dec params = some id := by
  obtain ⟨c, m, hv⟩ := h
  unfold addressee
  split
  · rename_i herr
    unfold verdictOf at hv
    split at hv
    · exact absurd hv (by simp)
    · split at hv
      · exact absurd hv (by simp)
      · rw [Option.some.injEq, Prod.mk.injEq] at hv
        exact congrArg some hv.1
  · rw [hv]
    rfl

theorem exec_updatePending (id : String) (c : Bool) (m : String) (st : Store) :
    exec (updatePending id c m) st =
      match updateTransaction id c m st with
      | some st' => (.ok (), st')
      | none => (.error (.crash "memcmp past the end of an id"), st) := by
  unfold updatePending
  rw [exec_bind, exec_get]
  simp only
  cases updateTransaction id c m st <;> rfl

/-- **The handler changes the store by the update its body stands for**, and ends the process when
that update reads past the end of an id. -/
theorem handle_updates (params : Params) (st : Store) :
    (exec (handle dec params) st).2 =
      match verdictOf dec params with
      | none => st
      | some (id, c, m) => (updateTransaction id c m st).getD st := by
  unfold handle verdictOf
  by_cases hb : params.str "transactionBase64" = ""
  · rw [if_neg (not_not.mpr hb), if_pos hb]
    rfl
  · rw [if_pos hb, if_neg hb, exec_bind, exec_answer]
    cases dec.base64ToBinString (params.str "transactionBase64") with
    | error e => rfl
    | ok bin =>
      simp only
      by_cases he : params.str "error" = ""
      · rw [if_neg (not_not.mpr he), if_neg (not_not.mpr he)]
        simp only [exec_bind, exec_answer]
        cases dec.gradidoBlock bin with
        | error e => rfl
        | ok id =>
          simp only [exec_updatePending]
          cases updateTransaction id true "" st <;> rfl
      · rw [if_pos he, if_pos he, exec_bind, exec_updatePending]
        simp only
        cases updateTransaction (params.str "messageId") false (params.str "error") st <;> rfl

/-! ## Interleavings -/

/-- A step of one of the concurrent requests. -/
inductive Step
  | publish (iotaMessageId : String)
  | push (s : Sent)
  | notify (params : Params)

variable (dec)

/-- The call of the store a step makes. -/
def Step.op : Step → Option Op
  | .publish _ => none
  | .push s => some (.push s)
  | .notify params => (verdictOf dec params).map fun v => .update v.1 v.2.1 v.2.2

/-- The store after a step. -/
def Step.apply (st : Store) : Step → Store
  | .publish _ => st
  | .push s => pushNewTransaction (.new s) st
  | .notify params => (exec (handle dec params) st).2

/-- The store after an interleaving, from the empty store. -/
def runSteps (h : List Step) : Store := h.foldl (Step.apply dec) []

/-- The calls of the store in an interleaving. -/
def ops (h : List Step) : List Op := h.filterMap (Step.op dec)

/-- How many entries a part of a run pushes. -/
def pushCount : List Step → Nat
  | [] => 0
  | .push _ :: h => pushCount h + 1
  | _ :: h => pushCount h

/-- What a run may be, given the ids published and pushed before it. -/
def Valid : List String → List String → List Step → Prop
  | _, _, [] => True
  | pub, psh, .publish id :: h => IsId id ∧ id ∉ pub ∧ Valid (id :: pub) psh h
  | pub, psh, .push s :: h =>
    s.iotaMessageId ∈ pub ∧ s.iotaMessageId ∉ psh ∧ Valid pub (s.iotaMessageId :: psh) h
  | pub, psh, .notify params :: h =>
    (∀ id ∈ addressee dec params, id ∈ pub) ∧ Valid pub psh h

/-- **No verdict is lost**: a message whose push and whose notification were both handled, with
fewer than 100 pushes after its own, has an entry, and its entry is settled. -/
def NoVerdictLost (h : List Step) : Prop :=
  ∀ before s later params, h = before ++ .push s :: later →
    pushCount later < maxPendingTransactionsInList → .notify params ∈ h →
    addressee dec params = some s.iotaMessageId →
    (∃ e ∈ runSteps dec h, e.toSent = s) ∧
      ∀ e ∈ runSteps dec h, e.iotaMessageId = s.iotaMessageId → e.state ≠ .sended

variable {dec}

theorem valid_ids {op : Op} : ∀ {h : List Step} {pub psh : List String}, Valid dec pub psh h →
    (∀ id ∈ pub, IsId id) → op ∈ ops dec h → IsId op.id
  | .publish id :: h, pub, psh, hv, hpub, hop => by
    refine valid_ids hv.2.2 (fun i hi => ?_) hop
    rcases List.mem_cons.mp hi with rfl | hi
    · exact hv.1
    · exact hpub i hi
  | .push s :: h, pub, psh, hv, hpub, hop => by
    rcases List.mem_cons.mp hop with rfl | hop
    · exact hpub _ hv.1
    · exact valid_ids hv.2.2 hpub hop
  | .notify params :: h, pub, psh, hv, hpub, hop => by
    rw [ops, List.filterMap_cons, Step.op] at hop
    cases hver : verdictOf dec params with
    | none =>
      rw [hver] at hop
      exact valid_ids hv.2 hpub hop
    | some v =>
      obtain ⟨id, c, m⟩ := v
      rw [hver] at hop
      rcases List.mem_cons.mp hop with rfl | hop
      · exact hpub id (hv.1 id (addressee_of_delivers ⟨c, m, hver⟩))
      · exact valid_ids hv.2 hpub hop

/-- Every message is pushed once. -/
theorem valid_nodup : ∀ {h : List Step} {pub psh : List String}, Valid dec pub psh h →
    ((pushed (ops dec h)).map (·.iotaMessageId)).Nodup ∧
      ∀ id ∈ psh, id ∉ (pushed (ops dec h)).map (·.iotaMessageId)
  | [], _, _, _ => ⟨List.nodup_nil, fun _ _ => List.not_mem_nil⟩
  | .publish id :: h, pub, psh, hv => valid_nodup (h := h) hv.2.2
  | .push s :: h, pub, psh, hv => by
    obtain ⟨hnd, hnot⟩ := valid_nodup (h := h) hv.2.2
    refine ⟨List.nodup_cons.mpr ⟨hnot _ List.mem_cons_self, hnd⟩, fun id hid hmem => ?_⟩
    rcases List.mem_cons.mp hmem with rfl | hmem
    · exact hv.2.1 hid
    · exact hnot id (List.mem_cons_of_mem _ hid) hmem
  | .notify params :: h, pub, psh, hv => by
    have ih := valid_nodup (h := h) hv.2
    rw [ops, List.filterMap_cons, Step.op]
    cases verdictOf dec params with
    | none => exact ih
    | some v => exact ih

theorem ops_append (a b : List Step) : ops dec (a ++ b) = ops dec a ++ ops dec b :=
  List.filterMap_append

theorem length_pushed_ops : ∀ h : List Step, (pushed (ops dec h)).length = pushCount h
  | [] => rfl
  | .publish id :: h => length_pushed_ops h
  | .push s :: h => congrArg (· + 1) (length_pushed_ops h)
  | .notify params :: h => by
    rw [ops, List.filterMap_cons, Step.op, pushCount, ← length_pushed_ops h]
    · cases verdictOf dec params <;> rfl
    · exact fun _ => Step.noConfusion

theorem mem_ops_update {id : String} {c : Bool} {m : String} {h : List Step} :
    .update id c m ∈ ops dec h ↔ ∃ params, .notify params ∈ h ∧
      verdictOf dec params = some (id, c, m) := by
  rw [ops, List.mem_filterMap]
  constructor
  · rintro ⟨st, hst, hop⟩
    cases st with
    | publish id => exact absurd hop (by simp [Step.op])
    | push s => exact absurd hop (by simp [Step.op])
    | notify params =>
      obtain ⟨⟨id', c', m'⟩, hv, heq⟩ := Option.map_eq_some_iff.mp hop
      cases heq
      exact ⟨params, hst, hv⟩
  · rintro ⟨params, hmem, hv⟩
    exact ⟨_, hmem, by rw [Step.op, hv]; rfl⟩

/-- The interleaving does to the store what its calls do one after another. -/
theorem run_ops {h : List Step} (hids : ∀ op ∈ ops dec h, IsId op.id) :
    run (ops dec h) = some (runSteps dec h) := by
  induction h using List.reverseRecOn with
  | nil => rfl
  | append_singleton h s ih =>
    have hsome := run_eq_entries _ hids
    have hprefix : run (ops dec h) = some (runSteps dec h) :=
      ih fun op hop => hids op (by rw [ops_append]; exact List.mem_append_left _ hop)
    have hsteps : runSteps dec (h ++ [s]) = Step.apply dec (runSteps dec h) s := by
      rw [runSteps, List.foldl_concat]
      rfl
    rw [hsteps]
    rw [ops_append] at hsome ⊢
    cases s with
    | publish id => rwa [show ops dec [Step.publish id] = [] from rfl, List.append_nil]
    | push s =>
      rw [show ops dec [Step.push s] = [.push s] from rfl, run_concat, hprefix]
      rfl
    | notify params =>
      rw [Step.apply, handle_updates]
      cases hver : verdictOf dec params with
      | none =>
        have hnil : ops dec [Step.notify params] = [] := by simp [ops, Step.op, hver]
        rwa [hnil, List.append_nil]
      | some v =>
        obtain ⟨id, c, m⟩ := v
        have hone : ops dec [Step.notify params] = [.update id c m] := by simp [ops, Step.op, hver]
        rw [hone, run_concat, hprefix, Option.bind_some, step] at hsome ⊢
        simp only [hsome, Option.getD_some]

/-! ## The gap between publish and push -/

/-- **An entry is settled exactly when a notification that reaches the store comes
after its push.** -/
theorem settled_iff {before later : List Step} {s : Sent}
    (hv : Valid dec [] [] (before ++ .push s :: later))
    (hcap : pushCount later < maxPendingTransactionsInList) :
    ∃ e ∈ runSteps dec (before ++ .push s :: later), e.toSent = s ∧
      (∀ e' ∈ runSteps dec (before ++ .push s :: later),
        e'.iotaMessageId = s.iotaMessageId → e' = e) ∧
      (e.state ≠ .sended ↔ ∃ params, .notify params ∈ later ∧
        Delivers dec params s.iotaMessageId) := by
  have hids : ∀ op ∈ ops dec (before ++ .push s :: later), IsId op.id :=
    fun op => valid_ids hv fun _ h => absurd h List.not_mem_nil
  have hnd := (valid_nodup hv).1
  rw [ops_append, show ops dec (.push s :: later) = .push s :: ops dec later from rfl] at hnd
  have hcap' : (pushed (ops dec later)).length < maxPendingTransactionsInList := by
    rwa [length_pushed_ops]
  obtain ⟨st, hst, hmem, huniq⟩ := entry_of_push hnd (by rwa [ops_append] at hids) hcap'
  have hrun := run_ops hids
  rw [ops_append] at hrun
  cases Option.some.inj (hst.symm.trans hrun)
  refine ⟨_, hmem, rfl, huniq, ?_⟩
  rw [entryOf_settled_iff hnd]
  constructor
  · rintro ⟨c, m, hop⟩
    obtain ⟨params, hparams, hver⟩ := mem_ops_update.mp hop
    exact ⟨params, hparams, c, m, hver⟩
  · rintro ⟨params, hparams, c, m, hver⟩
    exact ⟨c, m, mem_ops_update.mpr ⟨params, hparams, hver⟩⟩

variable (dec) in
/-- Every message that is notified is notified, with a body that reaches the store,
after its push. -/
def NotifiedAfterPush (h : List Step) : Prop :=
  ∀ before s later params, h = before ++ .push s :: later →
    pushCount later < maxPendingTransactionsInList → .notify params ∈ h →
    addressee dec params = some s.iotaMessageId →
    ∃ params', .notify params' ∈ later ∧ Delivers dec params' s.iotaMessageId

/-- **A run loses no verdict exactly when every notified message is notified after its push.** -/
theorem noVerdictLost_iff {h : List Step} (hv : Valid dec [] [] h) :
    NoVerdictLost dec h ↔ NotifiedAfterPush dec h := by
  constructor
  · rintro hkeep before s later params rfl hcap hn ha
    obtain ⟨e, he, rfl, -, hsettled⟩ := settled_iff hv hcap
    exact hsettled.mp ((hkeep before _ later params rfl hcap hn ha).2 e he rfl)
  · rintro hafter before s later params rfl hcap hn ha
    obtain ⟨e, he, hsent, huniq, hsettled⟩ := settled_iff hv hcap
    refine ⟨⟨e, he, hsent⟩, fun e' he' hid => ?_⟩
    rw [huniq e' he' hid]
    exact hsettled.mpr (hafter before s later params rfl hcap hn ha)

/-! ## The two orders of one push and one confirmation -/

def sampleId : String := "0000000000000000000000000000000000000000000000000000000000000001"

/-- A decoder under which every block is the one of `sampleId`. -/
def sampleDecoder : Decoder := ⟨fun s => .ok (bytesOf s), fun _ => .ok sampleId⟩

def sampleSent : Sent := ⟨sampleId, .transfer, 0, "", 0, 0⟩

/-- The body the Gradido Node sends for a confirmed transaction. -/
def confirmation : Params := .ofMembers [("transactionBase64", "AA==")] []

/-- The entry is pushed before the node's answer is handled. -/
def confirmedRun : List Step := [.publish sampleId, .push sampleSent, .notify confirmation]

/-- The node's answer is handled before the entry is pushed. -/
def overtakenRun : List Step := [.publish sampleId, .notify confirmation, .push sampleSent]

theorem noVerdictLost_iff_confirmedRun :
    NoVerdictLost sampleDecoder confirmedRun ↔ NotifiedAfterPush sampleDecoder confirmedRun :=
  noVerdictLost_iff ⟨by decide, by decide, by decide, by decide, by decide, trivial⟩

/-- **A run can lose a verdict**: a confirmation between publish and push leaves no trace. -/
theorem verdict_lost :
    Valid sampleDecoder [] [] overtakenRun ∧ ¬ NoVerdictLost sampleDecoder overtakenRun := by
  refine ⟨⟨by decide, by decide, by decide, by decide, by decide, trivial⟩, fun hkeep => ?_⟩
  have hentry := hkeep [.publish sampleId, .notify confirmation] sampleSent [] confirmation rfl
    (by decide) (by simp [overtakenRun]) (by decide)
  exact hentry.2 (.new sampleSent) List.mem_cons_self rfl rfl

end GradidoConnector.JsonTransactionListener
