import GradidoConnector.JsonTransactionListener

/-!
# What one notification does

The handler of `/notify` for one body on one store of pending transactions, with respect to what a
notification is for (`notified`): a body with an error rejects the newest entry of its message, a
body without one confirms the newest entry of its block, unless that entry is confirmed already.

* The handler looks at the error inside of `if (transactionBase64.size())` and after the text was
  decoded, though a rejection needs neither (`Decodes`).
* `memcmp` compares 64 bytes whatever the length of the ids. Those in the store come from iota or
  are the hexadecimal digits of a hash (`LongId`); the one of a body is not checked (`InBounds`).

Results:
* `forall₂_of_updateTransaction`: an update settles entries or leaves them.
* **`notified_iff`**: a notification does what it is for exactly when it is heard, and one with an
  error confirms nothing.
* **`inBounds_iff`**: on every reachable store the comparisons stay within both ids exactly when the
  id of the body is long enough or there is nothing to compare it with.
-/

namespace GradidoConnector.JsonTransactionListener

open GradidoConnector.Base GradidoConnector.Base.Act GradidoConnector.PendingTransactions

/-! ## What a notification is for -/

section Spec

variable (dec : Decoder) (params : Params) (st : Store)

/-- The message id of the block in the body, if there is one. -/
def blockId : Option String :=
  if params.str "transactionBase64" = "" then none
  else
    match dec.base64ToBinString (params.str "transactionBase64") with
    | .error _ => none
    | .ok bin => (dec.gradidoBlock bin).toOption

/-- The store after the notification. -/
def notified : Store :=
  if params.str "error" ≠ "" then
    modifyNewest (hasId (params.str "messageId")) (settle false (params.str "error")) st
  else
    match blockId dec params with
    | some id => modifyNewest (hasId id) (settle true "") st
    | none => st

/-- The ids in the store and in the body have 64 bytes. -/
structure HasIds : Prop where
  stored : ∀ e ∈ st, IsId e.iotaMessageId
  given : params.str "messageId" ≠ "" → IsId (params.str "messageId")
  block : ∀ id, blockId dec params = some id → IsId id

/-- The body has a `transactionBase64` that is base64. -/
def Decodes : Prop :=
  params.str "transactionBase64" ≠ "" ∧
    ∃ bin, dec.base64ToBinString (params.str "transactionBase64") = .ok bin

/-- The newest entry of the message is confirmed, or rejected with this error already, or
there is none. -/
def Moot : Prop :=
  ∀ e, st.reverse.find? (hasId (params.str "messageId")) = some e →
    e.state = .confirmed ∨ (e.state = .rejected ∧ e.errorMessage = params.str "error")

/-- The notification is a confirmation, or the handler gets as far as its error, or there is nothing
to record. -/
def Heard : Prop := params.str "error" = "" ∨ Decodes dec params ∨ Moot params st

end Spec

/-- The entry is confirmed. -/
def isConfirmed (e : PendingTransaction) : Bool := e.state == .confirmed

section Notified

variable {dec : Decoder} {params : Params} {st : Store} {id m : String} {c : Bool}

theorem settle_eq_self {e : PendingTransaction} {error : String} :
    settle false error e = e ↔
      e.state = .confirmed ∨ (e.state = .rejected ∧ e.errorMessage = error) := by
  obtain ⟨sent, state, errorMessage⟩ := e
  cases state <;> simp [settle, eq_comm]

theorem isConfirmed_settle (error : String) (e : PendingTransaction) :
    isConfirmed (settle false error e) = isConfirmed e := by
  obtain ⟨sent, state, errorMessage⟩ := e
  cases state <;> rfl

theorem forall₂_of_searchAndSettle {l l' : List PendingTransaction}
    (h : searchAndSettle id c m l = some l') :
    List.Forall₂ (fun e e' => e' = e ∨ e' = settle c m e) l l' := by
  induction l generalizing l' with
  | nil =>
    cases h
    exact .nil
  | cons e older ih =>
    have hsame : ∀ l : List PendingTransaction,
        List.Forall₂ (fun e e' => e' = e ∨ e' = settle c m e) l l :=
      fun l => List.forall₂_same.mpr fun _ _ => Or.inl rfl
    rw [searchAndSettle] at h
    split at h
    · cases h
    · cases h
      exact .cons (Or.inr rfl) (hsame older)
    · obtain ⟨rest, hrest, rfl⟩ := Option.map_eq_some_iff.mp h
      exact .cons (Or.inl rfl) (ih hrest)

/-- **An update settles entries or leaves them.** -/
theorem forall₂_of_updateTransaction {st' : Store} (h : updateTransaction id c m st = some st') :
    List.Forall₂ (fun e e' => e' = e ∨ e' = settle c m e) st st' := by
  obtain ⟨l, hl, rfl⟩ := Option.map_eq_some_iff.mp h
  have hall := List.rel_reverse (forall₂_of_searchAndSettle hl)
  rwa [List.reverse_reverse] at hall

/-- What settling does not touch is the same after an update. -/
theorem map_of_updateTransaction {α : Type} {f : PendingTransaction → α} {st' : Store}
    (hf : ∀ e, f (settle c m e) = f e) (h : updateTransaction id c m st = some st') :
    st'.map f = st.map f := by
  have hall := forall₂_of_updateTransaction h
  clear h
  induction hall with
  | nil => rfl
  | cons he _ ih =>
    rw [List.map_cons, List.map_cons, ih]
    rcases he with rfl | rfl
    · rfl
    · rw [hf]

/-- With an error that is read the verdict is a rejection of the entry `messageId`. -/
theorem verdictOf_of_decodes (herror : params.str "error" ≠ "") (h : Decodes dec params) :
    verdictOf dec params = some (params.str "messageId", false, params.str "error") := by
  obtain ⟨hgiven, bin, hbin⟩ := h
  unfold verdictOf
  rw [if_neg hgiven, hbin]
  exact if_pos herror

theorem verdictOf_of_not_decodes (h : ¬ Decodes dec params) : verdictOf dec params = none := by
  unfold verdictOf
  by_cases hempty : params.str "transactionBase64" = ""
  · rw [if_pos hempty]
  · rw [if_neg hempty]
    cases hbin : dec.base64ToBinString (params.str "transactionBase64") with
    | error e => rfl
    | ok bin => exact absurd ⟨hempty, bin, hbin⟩ h

/-- Without an error the verdict is a confirmation of the block. -/
theorem verdictOf_of_no_error (herror : params.str "error" = "") :
    verdictOf dec params = (blockId dec params).map fun id => (id, true, "") := by
  unfold verdictOf blockId
  by_cases hempty : params.str "transactionBase64" = ""
  · rw [if_pos hempty, if_pos hempty]
    rfl
  · rw [if_neg hempty, if_neg hempty]
    cases dec.base64ToBinString (params.str "transactionBase64") with
    | error e => rfl
    | ok bin =>
      dsimp only
      rw [if_neg (not_not.mpr herror)]
      cases dec.gradidoBlock bin <;> rfl

theorem exec_handle_of_verdict (h : verdictOf dec params = some (id, c, m)) :
    exec (handle dec params) st =
      match updateTransaction id c m st with
      | some st' => (.ok .stateSuccess, st')
      | none => (.error (.crash "memcmp past the end of an id"), st) := by
  unfold verdictOf at h
  unfold handle
  by_cases hempty : params.str "transactionBase64" = ""
  · rw [if_pos hempty] at h
    cases h
  · rw [if_neg hempty] at h
    rw [if_pos hempty, exec_bind, exec_answer]
    cases hbin : dec.base64ToBinString (params.str "transactionBase64") with
    | error e =>
      rw [hbin] at h
      cases h
    | ok bin =>
      rw [hbin] at h
      dsimp only at h ⊢
      by_cases herror : params.str "error" ≠ ""
      · rw [if_pos herror] at h ⊢
        cases h
        rw [exec_bind, exec_updatePending]
        cases updateTransaction (params.str "messageId") false (params.str "error") st <;> rfl
      · rw [if_neg herror] at h ⊢
        cases hblock : dec.gradidoBlock bin with
        | error e =>
          rw [hblock] at h
          cases h
        | ok id =>
          rw [hblock] at h
          cases h
          simp only [exec_bind, exec_answer, exec_updatePending]
          cases updateTransaction id true "" st <;> rfl

/-- A notification leaves the ids. -/
theorem map_iotaMessageId_handle :
    (exec (handle dec params) st).2.map (·.iotaMessageId) = st.map (·.iotaMessageId) := by
  rw [handle_updates]
  cases verdictOf dec params with
  | none => rfl
  | some v =>
    obtain ⟨id, c, m⟩ := v
    dsimp only
    cases hu : updateTransaction id c m st with
    | none => rfl
    | some st' =>
      refine map_of_updateTransaction (f := fun e => e.iotaMessageId) (fun e => ?_) hu
      unfold settle
      split <;> rfl

/-- **A notification with an error confirms nothing.** -/
theorem map_isConfirmed_handle (herror : params.str "error" ≠ "") :
    (exec (handle dec params) st).2.map isConfirmed = st.map isConfirmed := by
  rw [handle_updates]
  by_cases hdecodes : Decodes dec params
  · rw [verdictOf_of_decodes herror hdecodes]
    dsimp only
    cases hu : updateTransaction (params.str "messageId") false (params.str "error") st with
    | none => rfl
    | some st' => exact map_of_updateTransaction (isConfirmed_settle _) hu
  · rw [verdictOf_of_not_decodes hdecodes]

/-! ### Comparisons -/

/-- An id of at least 64 bytes. -/
def LongId (s : String) : Prop := 64 ≤ (bytesOf s).length

theorem memcmp64_eq_none {a b : String} : memcmp64 a b = none ↔ ¬ (LongId a ∧ LongId b) := by
  unfold memcmp64 LongId
  split_ifs with h
  · exact iff_of_false (by simp) (not_not.mpr h)
  · exact iff_of_true rfl h

theorem searchAndSettle_eq_none {l : List PendingTransaction}
    (hlong : ∀ e ∈ l, LongId e.iotaMessageId) :
    searchAndSettle id c m l = none ↔ ¬ LongId id ∧ l ≠ [] := by
  induction l with
  | nil => exact iff_of_false (by simp [searchAndSettle]) fun h => h.2 rfl
  | cons e older ih =>
    have he := hlong e List.mem_cons_self
    rw [searchAndSettle]
    by_cases hid : LongId id
    · refine iff_of_false ?_ fun h => h.1 hid
      split
      · rename_i hnone
        exact absurd ⟨he, hid⟩ (memcmp64_eq_none.mp hnone)
      · simp
      · rw [Option.map_eq_none_iff, ih fun x hx => hlong x (List.mem_cons_of_mem _ hx)]
        exact fun h => h.1 hid
    · rw [memcmp64_eq_none.mpr fun h => hid h.2]
      exact iff_of_true rfl ⟨hid, List.cons_ne_nil _ _⟩

/-- **An update reads past the end of an id exactly when its own is too short** and the store
is not empty. -/
theorem updateTransaction_eq_none (hlong : ∀ e ∈ st, LongId e.iotaMessageId) :
    updateTransaction id c m st = none ↔ ¬ LongId id ∧ st ≠ [] := by
  rw [updateTransaction, Option.map_eq_none_iff,
    searchAndSettle_eq_none fun e he => hlong e (List.mem_reverse.mp he), ne_eq,
    List.reverse_eq_nil_iff]

theorem longId_of_isId {s : String} (h : IsId s) : LongId s := Nat.le_of_eq h.symm

/-! ### The store after a notification -/

theorem handle_of_not_decodes (h : ¬ Decodes dec params) :
    (exec (handle dec params) st).2 = st := by
  rw [handle_updates, verdictOf_of_not_decodes h]

/-- **A notification that is read does what it is for.** -/
theorem handle_of_read (hids : HasIds dec params st)
    (h : params.str "error" = "" ∨ Decodes dec params) :
    (exec (handle dec params) st).2 = notified dec params st := by
  rw [handle_updates, notified]
  by_cases herror : params.str "error" = ""
  · rw [if_neg (not_not.mpr herror), verdictOf_of_no_error herror]
    cases hblock : blockId dec params with
    | none => rfl
    | some id =>
      dsimp only [Option.map_some]
      rw [updateTransaction_eq (hids.block id hblock) true "" hids.stored, Option.getD_some]
  · rw [if_pos herror, verdictOf_of_decodes herror (h.resolve_left herror)]
    dsimp only
    by_cases hempty : params.str "messageId" = ""
    · -- no entry has the empty id, and a comparison with it ends the process
      have hnone : ∀ e ∈ st, hasId (params.str "messageId") e = false := by
        intro e he
        have hid := hids.stored e he
        rw [hasId, beq_eq_false_iff_ne, hempty]
        intro heq
        rw [heq] at hid
        exact absurd hid (by decide)
      rw [modifyNewest_of_none hnone]
      by_cases hst : st = []
      · rw [hst]
        rfl
      · have hshort : ¬ LongId (params.str "messageId") := by
          rw [hempty]
          unfold LongId
          decide
        rw [(updateTransaction_eq_none fun e he => longId_of_isId (hids.stored e he)).mpr
          ⟨hshort, hst⟩, Option.getD_none]
    · rw [updateTransaction_eq (hids.given hempty) false _ hids.stored, Option.getD_some]

/-- **A notification does what it is for exactly when it is heard**, and one with an
error confirms nothing. -/
theorem notified_iff (hids : HasIds dec params st) :
    ((exec (handle dec params) st).2 = notified dec params st ↔ Heard dec params st) ∧
      (params.str "error" ≠ "" →
        (exec (handle dec params) st).2.map isConfirmed = st.map isConfirmed) := by
  refine ⟨?_, map_isConfirmed_handle⟩
  by_cases hread : params.str "error" = "" ∨ Decodes dec params
  · exact iff_of_true (handle_of_read hids hread) (hread.imp_right Or.inl)
  · obtain ⟨herror, hdecodes⟩ := not_or.mp hread
    have hmoot : Heard dec params st ↔ Moot params st := by
      unfold Heard
      simp [herror, hdecodes]
    rw [handle_of_not_decodes hdecodes, notified, if_pos herror, eq_comm,
      modifyNewest_eq_self, hmoot]
    exact forall_congr' fun e => forall_congr' fun _ => settle_eq_self

end Notified

/-- A body with an error and no block. -/
def errorOnly : Params := .ofMembers [("error", "insufficient balance"), ("messageId", sampleId)] []

/-- The ids of the body and of one stored entry. -/
theorem hasIds_errorOnly : HasIds sampleDecoder errorOnly [.new sampleSent] := by
  refine ⟨fun e he => ?_, fun _ => by decide, fun id h => by cases h⟩
  rw [List.mem_singleton.mp he]
  decide

/-- The body is not heard, and the entry it is about stays unconfirmed. -/
theorem notified_iff_errorOnly :
    ((exec (handle sampleDecoder errorOnly) [.new sampleSent]).2 =
        notified sampleDecoder errorOnly [.new sampleSent] ↔
      Heard sampleDecoder errorOnly [.new sampleSent]) ∧
    (errorOnly.str "error" ≠ "" →
      (exec (handle sampleDecoder errorOnly) [.new sampleSent]).2.map isConfirmed =
        [.new sampleSent].map isConfirmed) :=
  notified_iff hasIds_errorOnly

/-- **A rejection without a block is not heard**: the entry stays as it was sent. -/
theorem rejection_unheard :
    HasIds sampleDecoder errorOnly [.new sampleSent] ∧
      (exec (handle sampleDecoder errorOnly) [.new sampleSent]).2 = [.new sampleSent] ∧
      notified sampleDecoder errorOnly [.new sampleSent] =
        [⟨sampleSent, .rejected, "insufficient balance"⟩] :=
  ⟨hasIds_errorOnly, by decide, by decide⟩

/-! ## Reachable stores -/

section Reachable

variable {dec : Decoder} {params : Params} {h : List Step}

/-- Updates leave the ids, and pushes add long ones. -/
theorem longId_of_mem_runSteps (hlong : ∀ s, .push s ∈ h → LongId s.iotaMessageId) :
    ∀ e ∈ runSteps dec h, LongId e.iotaMessageId := by
  induction h using List.reverseRecOn with
  | nil => exact fun _ he => absurd he List.not_mem_nil
  | append_singleton h step ih =>
    have hbefore := ih fun s hs => hlong s (List.mem_append_left _ hs)
    rw [runSteps, List.foldl_concat]
    cases step with
    | publish id => exact hbefore
    | push s =>
      intro e he
      rw [Step.apply, pushNewTransaction_eq] at he
      rcases List.mem_append.mp (List.mem_of_mem_drop he) with he | he
      · exact hbefore e he
      · rw [List.mem_singleton.mp he]
        exact hlong s (List.mem_append_right _ List.mem_cons_self)
    | notify params =>
      intro e he
      have hids : (Step.apply dec (runSteps dec h) (.notify params)).map (·.iotaMessageId) =
          (runSteps dec h).map (·.iotaMessageId) := map_iotaMessageId_handle
      obtain ⟨e', he', hid⟩ := List.mem_map.mp (hids ▸ List.mem_map_of_mem he)
      rw [← hid]
      exact hbefore e' he'

/-- Every comparison that the notification makes on this store stays within both ids. -/
def InBounds (dec : Decoder) (params : Params) (st : Store) : Prop :=
  ∀ id c m, verdictOf dec params = some (id, c, m) → updateTransaction id c m st ≠ none

/-- Otherwise the process reads what does not belong to an id. -/
theorem crash_of_not_inBounds {st : Store} (hbounds : ¬ InBounds dec params st) :
    (exec (handle dec params) st).1 = .error (.crash "memcmp past the end of an id") := by
  unfold InBounds at hbounds
  push Not at hbounds
  obtain ⟨id, c, m, hverdict, hnone⟩ := hbounds
  rw [exec_handle_of_verdict hverdict, hnone]

/-- **On every reachable store the comparisons stay within both ids exactly when the id of the body
is long enough** or the store is empty. -/
theorem inBounds_iff (hlong : ∀ s, .push s ∈ h → LongId s.iotaMessageId) :
    InBounds dec params (runSteps dec h) ↔
      ∀ id c m, verdictOf dec params = some (id, c, m) → LongId id ∨ runSteps dec h = [] := by
  refine forall_congr' fun id => forall_congr' fun c => forall_congr' fun m =>
    forall_congr' fun _ => ?_
  rw [ne_eq, updateTransaction_eq_none (longId_of_mem_runSteps hlong), not_and_or, not_not,
    ne_eq, not_not]

end Reachable

/-- A body with an error, a block and a message id of three characters. -/
def shortId : Params :=
  .ofMembers [("transactionBase64", "AA=="), ("error", "testUser1"), ("messageId", "100")] []

theorem inBounds_iff_shortId : InBounds sampleDecoder shortId (runSteps sampleDecoder confirmedRun) ↔
    ∀ id c m, verdictOf sampleDecoder shortId = some (id, c, m) →
      LongId id ∨ runSteps sampleDecoder confirmedRun = [] := by
  refine inBounds_iff fun s hs => ?_
  obtain rfl : s = sampleSent := by simpa [confirmedRun] using hs
  unfold LongId
  decide

/-- **With a short message id `memcmp` reads past its end.** -/
theorem out_of_bounds : (∀ s, .push s ∈ confirmedRun → LongId s.iotaMessageId) ∧
    ¬ InBounds sampleDecoder shortId (runSteps sampleDecoder confirmedRun) := by
  refine ⟨fun s hs => ?_, fun hbounds => ?_⟩
  · obtain rfl : s = sampleSent := by simpa [confirmedRun] using hs
    unfold LongId
    decide
  · exact hbounds "100" false "testUser1" (by decide) (by decide)

end GradidoConnector.JsonTransactionListener
