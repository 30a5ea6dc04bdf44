import Mathlib.Data.List.Nodup
import GradidoConnector.Base.Recent
import GradidoConnector.Basic

/-!
# The list of pending transactions

Model of `model/PendingTransactions.cpp`: `pushNewTransaction` (lines 48-56) appends an entry and
drops the oldest ones while there are more than `MAX_PENDING_TRANSACTIONS_IN_LIST`;
`updateTransaction` (lines 57-68) searches from the newest entry for the id and records the
Gradido Node's verdict there unless the entry is already confirmed.

* `memcmp64` is the comparison `memcmp(a, b, 64) == 0`. It is `none` when one of the two ids is
  shorter than 64 bytes, where `memcmp` would read past its end; `updateTransaction` is `none`
  then.
* `Sent` holds the arguments of `PendingTransaction`'s constructor and the clock reading that
  `Poco::DateTime created` takes; `PendingTransaction.new` is the constructor.
* `run` executes a history of calls from the empty store.

The specification of a history does not mention the store. `entries h` lists what was pushed, each
entry with the `verdict` of the updates that concern it: `concerning id later` are the updates
with its id before the next push of the same id.

Results:
* `updateTransaction_eq`: on ids of 64 bytes, an update modifies the newest entry with the id.
* `entries_concat_push`, `entries_concat_update`: one more call at the end of a history.
* **`store_of_history`**: after any history, the store is the newest 100 `entries`.
-/

namespace GradidoConnector.PendingTransactions

open GradidoConnector.Base

/-- `MAX_PENDING_TRANSACTIONS_IN_LIST` -/
def maxPendingTransactionsInList : Nat := 100

inductive State
  | sended
  | confirmed
  | rejected
  deriving DecidableEq

/-- What the sender fixes about a pending transaction. -/
structure Sent where
  iotaMessageId : String
  transactionType : TransactionType
  created : DateTime
  apolloCreatedDecay : String
  apolloDecayStart : DateTime
  apolloTransactionId : Nat
  deriving DecidableEq

structure PendingTransaction extends Sent where
  state : State
  errorMessage : String
  deriving DecidableEq

/-- The constructor of `PendingTransaction`. -/
def PendingTransaction.new (s : Sent) : PendingTransaction := ⟨s, .sended, ""⟩

/-- `mPendingTransactions`, oldest entry first. -/
abbrev Store := List PendingTransaction

def pushNewTransaction (p : PendingTransaction) (st : Store) : Store :=
  trim maxPendingTransactionsInList (st ++ [p])

/-- `memcmp(a.data(), b.data(), 64) == 0`, `none` when it reads past the end of an id. -/
def memcmp64 (a b : String) : Option Bool :=
  if 64 ≤ (bytesOf a).length ∧ 64 ≤ (bytesOf b).length then
    some ((bytesOf a).take 64 == (bytesOf b).take 64)
  else none

/-- The body of the search loop at the entry with the id. -/
def settle (confirmed : Bool) (errorMessage : String) (e : PendingTransaction) :
    PendingTransaction :=
  if e.state = .confirmed then e
  else { e with state := if confirmed then .confirmed else .rejected, errorMessage }

/-- The search loop of `updateTransaction`, on the entries from the newest. -/
def searchAndSettle (iotaMessageId : String) (confirmed : Bool) (errorMessage : String) :
    List PendingTransaction → Option (List PendingTransaction)
  | [] => some []
  | e :: older =>
    match memcmp64 e.iotaMessageId iotaMessageId with
    | none => none
    | some true => some (settle confirmed errorMessage e :: older)
    | some false => (searchAndSettle iotaMessageId confirmed errorMessage older).map (e :: ·)

def updateTransaction (iotaMessageId : String) (confirmed : Bool) (errorMessage : String)
    (st : Store) : Option Store :=
  (searchAndSettle iotaMessageId confirmed errorMessage st.reverse).map List.reverse

/-- An id of exactly 64 bytes. -/
def IsId (s : String) : Prop := (bytesOf s).length = 64

instance (s : String) : Decidable (IsId s) := by unfold IsId; infer_instance

/-- The entry has the id. -/
def hasId (iotaMessageId : String) (e : PendingTransaction) : Bool :=
  e.iotaMessageId == iotaMessageId

theorem memcmp64_eq {a b : String} (ha : IsId a) (hb : IsId b) : memcmp64 a b = some (a == b) := by
  unfold IsId at ha hb
  rw [memcmp64, if_pos ⟨ha.ge, hb.ge⟩, List.take_of_length_le ha.le, List.take_of_length_le hb.le,
    Option.some.injEq, Bool.eq_iff_iff, beq_iff_eq, beq_iff_eq, bytesOf_inj]

theorem searchAndSettle_eq {iotaMessageId : String} (hid : IsId iotaMessageId) (c : Bool)
    (m : String) : ∀ l : List PendingTransaction, (∀ e ∈ l, IsId e.iotaMessageId) →
      searchAndSettle iotaMessageId c m l = some (modifyFirst (hasId iotaMessageId) (settle c m) l)
  | [], _ => rfl
  | e :: older, h => by
    rw [searchAndSettle, memcmp64_eq (h e List.mem_cons_self) hid, modifyFirst, hasId]
    cases e.iotaMessageId == iotaMessageId with
    | true => rfl
    | false =>
      simp only
      rw [searchAndSettle_eq hid c m older fun x hx => h x (List.mem_cons_of_mem _ hx)]
      rfl

/-- **On ids of 64 bytes an update modifies the newest entry with the id**, and no other. -/
theorem updateTransaction_eq {iotaMessageId : String} (hid : IsId iotaMessageId) (c : Bool)
    (m : String) {st : Store} (hst : ∀ e ∈ st, IsId e.iotaMessageId) :
    updateTransaction iotaMessageId c m st =
      some (modifyNewest (hasId iotaMessageId) (settle c m) st) := by
  rw [updateTransaction, searchAndSettle_eq hid c m _ fun e he => hst e (List.mem_reverse.mp he)]
  rfl

theorem pushNewTransaction_eq (p : PendingTransaction) (st : Store) :
    pushNewTransaction p st = (st ++ [p]).rtake maxPendingTransactionsInList :=
  trim_eq_rtake _ _

/-! ## Histories -/

inductive Op
  | push (s : Sent)
  | update (iotaMessageId : String) (confirmed : Bool) (errorMessage : String)
  deriving DecidableEq

/-- The id a call carries. -/
def Op.id : Op → String
  | .push s => s.iotaMessageId
  | .update id _ _ => id

def step (st : Store) : Op → Option Store
  | .push s => some (pushNewTransaction (.new s) st)
  | .update id confirmed errorMessage => updateTransaction id confirmed errorMessage st

/-- The store after a history of calls from the empty one. -/
def run (h : List Op) : Option Store := h.foldlM step []

/-- What was pushed, in order. -/
def pushed : List Op → List Sent
  | [] => []
  | .push s :: later => s :: pushed later
  | .update .. :: later => pushed later

/-- The updates with this id that come before the next push of it. -/
def concerning (id : String) : List Op → List (Bool × String)
  | [] => []
  | .push s :: later => if s.iotaMessageId = id then [] else concerning id later
  | .update id' confirmed errorMessage :: later =>
    if id' = id then (confirmed, errorMessage) :: concerning id later else concerning id later

/-- The first confirmation decides; without one, the last rejection does. -/
def verdict (us : List (Bool × String)) : State × String :=
  match us.find? fun u => u.1 with
  | some u => (.confirmed, u.2)
  | none =>
    match us.getLast? with
    | some u => (.rejected, u.2)
    | none => (.sended, "")

/-- The entry of a push, given the calls after it. -/
def entryOf (s : Sent) (later : List Op) : PendingTransaction :=
  ⟨s, (verdict (concerning s.iotaMessageId later)).1, (verdict (concerning s.iotaMessageId later)).2⟩

/-- Everything that was pushed, each entry as the updates concerning it decide. -/
def entries : List Op → List PendingTransaction
  | [] => []
  | .push s :: later => entryOf s later :: entries later
  | .update .. :: later => entries later

theorem map_toSent_entries : ∀ h : List Op, (entries h).map (·.toSent) = pushed h
  | [] => rfl
  | .push s :: later => by rw [entries, pushed, List.map_cons, map_toSent_entries later]; rfl
  | .update .. :: later => map_toSent_entries later

theorem exists_push_of_mem_entries {e : PendingTransaction} : ∀ {h : List Op}, e ∈ entries h →
    Op.push e.toSent ∈ h
  | .push s :: later, he => by
    rcases List.mem_cons.mp he with rfl | he
    · exact List.mem_cons_self
    · exact List.mem_cons_of_mem _ (exists_push_of_mem_entries he)
  | .update .. :: later, he => List.mem_cons_of_mem _ (exists_push_of_mem_entries he)

/-- The entries of the last calls are what they would be without the calls before. -/
theorem exists_entries_append (later : List Op) : ∀ h : List Op,
    ∃ older, entries (h ++ later) = older ++ entries later
  | [] => ⟨[], rfl⟩
  | .push s :: h => by
    obtain ⟨older, ho⟩ := exists_entries_append later h
    exact ⟨entryOf s (h ++ later) :: older, by rw [List.cons_append, entries, ho]; rfl⟩
  | .update .. :: h => exists_entries_append later h

/-- Something with this id was pushed. -/
theorem any_hasId_entries (id : String) : ∀ h : List Op,
    (entries h).any (hasId id) = (pushed h).any fun s => s.iotaMessageId == id
  | [] => rfl
  | .push s :: later => by
    rw [entries, pushed, List.any_cons, List.any_cons, any_hasId_entries id later]
    rfl
  | .update .. :: later => any_hasId_entries id later

/-! ## One more call -/

theorem concerning_concat_push (id : String) (s : Sent) : ∀ later : List Op,
    concerning id (later ++ [.push s]) = concerning id later
  | [] => by
    show (if s.iotaMessageId = id then [] else []) = []
    exact ite_self _
  | .push t :: later => by
    rw [List.cons_append, concerning, concerning, concerning_concat_push id s later]
  | .update .. :: later => by
    rw [List.cons_append, concerning, concerning, concerning_concat_push id s later]

/-- An update at the end concerns what has its id and was not pushed again since. -/
theorem concerning_concat_update (id id' : String) (c : Bool) (m : String) : ∀ later : List Op,
    concerning id (later ++ [.update id' c m]) =
      if id' = id ∧ ((pushed later).any fun s => s.iotaMessageId == id) = false
      then concerning id later ++ [(c, m)] else concerning id later
  | [] => by
    show (if id' = id then [(c, m)] else []) = _
    simp [pushed, concerning]
  | .push t :: later => by
    rw [List.cons_append, concerning, concerning, pushed, List.any_cons]
    by_cases ht : t.iotaMessageId = id
    · simp [ht]
    · rw [if_neg ht, if_neg ht, beq_false_of_ne ht, Bool.false_or]
      exact concerning_concat_update id id' c m later
  | .update id'' c' m' :: later => by
    rw [List.cons_append, concerning, concerning, pushed, concerning_concat_update id id' c m later]
    split <;> split <;> rfl

/-- A further update acts on a verdict as it acts on an entry. -/
theorem verdict_concat (us : List (Bool × String)) (c : Bool) (m : String) :
    verdict (us ++ [(c, m)]) =
      if (verdict us).1 = .confirmed then verdict us
      else (if c then .confirmed else .rejected, m) := by
  unfold verdict
  rw [List.find?_append, List.getLast?_concat]
  cases us.find? fun u => u.1 with
  | some u => simp
  | none =>
    cases c with
    | true => cases us.getLast? <;> simp
    | false => cases us.getLast? <;> simp

theorem entryOf_concat_push (s t : Sent) (later : List Op) :
    entryOf s (later ++ [.push t]) = entryOf s later := by
  unfold entryOf
  rw [concerning_concat_push]

theorem entryOf_concat_update (s : Sent) (later : List Op) (id : String) (c : Bool) (m : String) :
    entryOf s (later ++ [.update id c m]) =
      if id = s.iotaMessageId ∧
        ((pushed later).any fun t => t.iotaMessageId == s.iotaMessageId) = false
      then settle c m (entryOf s later) else entryOf s later := by
  unfold entryOf
  rw [concerning_concat_update]
  split
  · rw [verdict_concat, settle]
    split <;> rfl
  · rfl

theorem entries_concat_push (s : Sent) : ∀ h : List Op,
    entries (h ++ [.push s]) = entries h ++ [.new s]
  | [] => rfl
  | .push t :: later => by
    rw [List.cons_append, entries, entries, entryOf_concat_push, entries_concat_push s later,
      List.cons_append]
  | .update .. :: later => entries_concat_push s later

/-- An update at the end settles the newest entry with its id. -/
theorem entries_concat_update (id : String) (c : Bool) (m : String) : ∀ h : List Op,
    entries (h ++ [.update id c m]) = modifyNewest (hasId id) (settle c m) (entries h)
  | [] => rfl
  | .push s :: later => by
    rw [List.cons_append, entries, entries, modifyNewest_cons, entryOf_concat_update,
      entries_concat_update id c m later, any_hasId_entries]
    cases hany : (pushed later).any fun t => t.iotaMessageId == id with
    | true =>
      -- a later push has the id, so this entry is out of reach
      rw [if_neg, if_pos rfl]
      rintro ⟨rfl, hno⟩
      rw [hany] at hno
      exact absurd hno (by decide)
    | false =>
      have hnone : ∀ x ∈ entries later, hasId id x = false := by
        rw [← any_hasId_entries, List.any_eq_false] at hany
        exact fun x hx => Bool.eq_false_iff.mpr (hany x hx)
      rw [modifyNewest_of_none hnone, if_neg Bool.false_ne_true]
      by_cases hid : id = s.iotaMessageId
      · subst hid
        have heq : hasId s.iotaMessageId (entryOf s later) = true := beq_self_eq_true s.iotaMessageId
        rw [if_pos ⟨rfl, hany⟩, if_pos heq]
      · have hne : ¬ hasId id (entryOf s later) = true := fun h => hid (beq_iff_eq.mp h).symm
        rw [if_neg fun h => hid h.1, if_neg hne]
  | .update .. :: later => entries_concat_update id c m later

/-! ## Whole histories -/

theorem run_concat (h : List Op) (op : Op) : run (h ++ [op]) = (run h).bind (step · op) := by
  unfold run
  rw [List.foldlM_append]
  cases h.foldlM step [] with
  | none => rfl
  | some st => exact bind_pure (step st op)

/-- **The store is the newest 100 entries**, each as the updates concerning it decide. -/
theorem run_eq_entries (h : List Op) (hids : ∀ op ∈ h, IsId op.id) :
    run h = some ((entries h).rtake maxPendingTransactionsInList) := by
  induction h using List.reverseRecOn with
  | nil => rfl
  | append_singleton h op ih =>
    have hids' : ∀ op ∈ h, IsId op.id := fun o ho => hids o (List.mem_append_left _ ho)
    rw [run_concat, ih hids', Option.bind_some]
    cases op with
    | push s =>
      rw [step, pushNewTransaction_eq, rtake_concat, entries_concat_push]
    | update id c m =>
      have hstored : ∀ e ∈ (entries h).rtake maxPendingTransactionsInList, IsId e.iotaMessageId :=
        fun e he => hids' _ (exists_push_of_mem_entries (List.mem_of_mem_drop he))
      have hid : IsId id := hids _ (List.mem_append_right _ List.mem_cons_self)
      rw [step, updateTransaction_eq hid c m hstored, entries_concat_update, rtake_modifyNewest]

/-! ## One entry -/

theorem verdict_sended_iff {us : List (Bool × String)} : (verdict us).1 = .sended ↔ us = [] := by
  unfold verdict
  cases hf : us.find? fun u => u.1 with
  | some u =>
    have := List.mem_of_find?_eq_some hf
    simp [List.ne_nil_of_mem this]
  | none =>
    cases hl : us.getLast? with
    | some u => simp [List.ne_nil_of_mem (List.mem_of_getLast? hl)]
    | none => simp [List.getLast?_eq_none_iff.mp hl]

/-- Without another push of the id, every later update with it concerns the entry. -/
theorem concerning_ne_nil {id : String} : ∀ {later : List Op},
    (∀ s ∈ pushed later, s.iotaMessageId ≠ id) →
      (concerning id later ≠ [] ↔ ∃ c m, .update id c m ∈ later)
  | [], _ => by simp [concerning]
  | .push s :: later, h => by
    rw [concerning, if_neg (h s List.mem_cons_self),
      concerning_ne_nil fun t ht => h t (List.mem_cons_of_mem _ ht)]
    simp
  | .update id' c m :: later, h => by
    rw [concerning]
    by_cases hid : id' = id
    · subst hid
      rw [if_pos rfl]
      exact ⟨fun _ => ⟨c, m, List.mem_cons_self⟩, fun _ => List.cons_ne_nil _ _⟩
    · have ih : concerning id later ≠ [] ↔ ∃ c m, .update id c m ∈ later := concerning_ne_nil h
      rw [if_neg hid, ih]
      simp [Ne.symm hid]

section OnePush

variable {before later : List Op} {s : Sent}
  (hnd : ((pushed (before ++ .push s :: later)).map (·.iotaMessageId)).Nodup)
include hnd

theorem ids_nodup_of_pushed :
    ((entries (before ++ .push s :: later)).map (·.iotaMessageId)).Nodup := by
  rwa [← map_toSent_entries, List.map_map] at hnd

/-- When ids are not pushed twice, a push is settled exactly when an update with its id follows. -/
theorem entryOf_settled_iff :
    (entryOf s later).state ≠ .sended ↔ ∃ c m, .update s.iotaMessageId c m ∈ later := by
  have hno : ∀ t ∈ pushed later, t.iotaMessageId ≠ s.iotaMessageId := by
    obtain ⟨older, ho⟩ := exists_entries_append (.push s :: later) before
    have hids := ids_nodup_of_pushed hnd
    rw [ho, entries, List.map_append, List.map_cons] at hids
    have hfresh := (List.nodup_cons.mp (List.nodup_append.mp hids).2.1).1
    rw [← map_toSent_entries]
    intro t ht heq
    obtain ⟨e, he, rfl⟩ := List.mem_map.mp ht
    exact hfresh (List.mem_map.mpr ⟨e, he, heq⟩)
  have hstate : (entryOf s later).state ≠ .sended ↔ concerning s.iotaMessageId later ≠ [] :=
    not_congr verdict_sended_iff
  rw [hstate, concerning_ne_nil hno]

/-- Such a push has its own entry in the store while fewer than 100 pushes follow it. -/
theorem entry_of_push (hids : ∀ op ∈ before ++ .push s :: later, IsId op.id)
    (hcap : (pushed later).length < maxPendingTransactionsInList) :
    ∃ st, run (before ++ .push s :: later) = some st ∧ entryOf s later ∈ st ∧
      ∀ e ∈ st, e.iotaMessageId = s.iotaMessageId → e = entryOf s later := by
  obtain ⟨older, ho⟩ := exists_entries_append (.push s :: later) before
  have hlen : (entries later).length < maxPendingTransactionsInList := by
    rwa [← map_toSent_entries, List.length_map] at hcap
  have hmem : entryOf s later ∈
      (entries (before ++ .push s :: later)).rtake maxPendingTransactionsInList := by
    rw [ho]
    exact mem_rtake_of_lt hlen
  refine ⟨_, run_eq_entries _ hids, hmem, fun e he hid => ?_⟩
  exact List.inj_on_of_nodup_map (ids_nodup_of_pushed hnd) (List.mem_of_mem_drop he)
    (List.mem_of_mem_drop hmem) hid

end OnePush

/-- **What the store holds after any history of calls**: the newest 100 pushed entries in push
order, with everything the sender fixed as pushed; and each entry's state and message are the
verdict of the updates with its id between its push and the next push of that id. -/
theorem store_of_history (h : List Op) (hids : ∀ op ∈ h, IsId op.id) :
    ∃ st, run h = some st ∧
      st.map (·.toSent) = (pushed h).rtake maxPendingTransactionsInList ∧
      st = (entries h).rtake maxPendingTransactionsInList :=
  ⟨_, run_eq_entries h hids, by rw [map_rtake, map_toSent_entries], rfl⟩

/-- An archived transaction that is rejected, sent again under the same content hash, confirmed,
and rejected once more. -/
def resentHistory : List Op :=
  let id := "0000000000000000000000000000000000000000000000000000000000000001"
  let sent : Sent := ⟨id, .transfer, 0, "", 0, 7⟩
  [.push sent, .update id false "balance", .push sent, .update id true "", .update id false "late"]

theorem store_of_history_resent :
    ∃ st, run resentHistory = some st ∧
      st.map (·.toSent) = (pushed resentHistory).rtake maxPendingTransactionsInList ∧
      st = (entries resentHistory).rtake maxPendingTransactionsInList :=
  store_of_history resentHistory (by decide)

example : (entries resentHistory).map (fun e => (e.state, e.errorMessage)) =
    [(.rejected, "balance"), (.confirmed, "")] := by decide

end GradidoConnector.PendingTransactions
