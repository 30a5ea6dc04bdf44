import GradidoConnector.Authorization
import GradidoConnector.Paths

/-!
# The list of pending transactions over a run

A step of the server makes calls of the list: it pushes the entries of the messages it handed out,
or it records the verdict of a notification (`callsOf`). Replayed from the empty list, the calls of
a run give the list of the server, so that `store_of_history` speaks of it: whatever requests come
in between, it is the newest 100 entries, each with the verdict of the notifications after its
message.

The ids are those that iota and the hashes give, and those in the bodies of notifications; with one
that does not have 64 bytes the comparison reads past its end (`HasIds`).

Results:
* `run_callsOf`: the list of the server is the replay of the calls.
* **`listsEntries_of_run`**: what `/listPending` answers in every run.
* **`sentIsListed_of_run`**: the id that a transaction path answers is listed from then on.
-/

namespace GradidoConnector

open GradidoConnector.Base GradidoConnector.Base.Act

open PendingTransactions (Op Store IsId entries listAsJson maxPendingTransactionsInList)

variable {b : Backend} {τ : Type}

namespace PendingTransactions

theorem run_append (h later : List Op) :
    run (h ++ later) = (run h).bind fun st => later.foldlM step st := by
  unfold run
  rw [List.foldlM_append]
  rfl

/-- Pushes one after another. -/
theorem foldlM_push (sents : List Sent) (st : Store) :
    (sents.map Op.push).foldlM step st =
      some (sents.foldl (fun st sent => pushNewTransaction (.new sent) st) st) := by
  induction sents generalizing st with
  | nil => rfl
  | cons sent sents ih => exact ih (pushNewTransaction (.new sent) st)

end PendingTransactions

/-! ## The entry of an answer -/

/-- The type of the transactions a handler sends. -/
def Handler.transactionType : Handler → TransactionType
  | .creation => .creation
  | .transfer => .transfer
  | .registerAddress => .registerAddress

/-- The class of a handler. -/
def Handler.requestHandler : Handler → RequestHandler
  | .creation => .creation
  | .transfer => .transfer
  | .registerAddress => .registerAddress

section Answer

open JsonTransaction

variable {w : World} {this : JsonTransaction} {out : List Effect} {id : String}

/-- **The last entry of a request that sent its legs is the one of the id it answers.** -/
theorem pushed_of_sends {data : TransactionData} {parent : Option String} {legs : List Leg}
    {r : Except Exn String} (h : Sends w this data parent legs r out) (hok : r = .ok id) :
    (parent = some id ∧ out = []) ∨
      ∃ earlier created, pushed out = earlier ++ [pendingOf this data id created] := by
  induction h with
  | done id' =>
    cases hok
    exact Or.inl ⟨rfl, rfl⟩
  | stopped parent leg legs e out hstop => cases hok
  | sent parent leg legs id' r out rest hsent _ ih =>
    right
    rw [pushed_append]
    rcases ih hok with ⟨hid, rfl⟩ | ⟨earlier, created, hpush⟩
    · cases hid
      obtain ⟨-, ⟨created, hpush⟩, -⟩ := legSent_spec hsent
      exact ⟨[], created, by rw [hpush]; rfl⟩
    · exact ⟨pushed out ++ earlier, created, by rw [hpush, List.append_assoc]⟩

/-- What a handler prepares is of its type. -/
theorem Handler.type_of_prepared {h : Handler} {request : Request} {plan : Plan}
    {lookups checks : List Effect} (hprepared : h.Prepared w this request plan lookups checks) :
    plan.data.type = h.transactionType := by
  cases h <;> cases hprepared <;> rfl

theorem sentDocument_inj {id' : String} (h : sentDocument id = sentDocument id') : id = id' := by
  simpa [sentDocument, Document.stateSuccess, Document.addMember] using h

/-- **A handler that answers an id has pushed its entry last.** -/
theorem pushed_of_handlerTrace {h : Handler} {request : Request}
    (htrace : HandlerTrace w this (h.Prepared w this request) (.ok (sentDocument id)) out) :
    ∃ earlier sent, pushed out = earlier ++ [sent] ∧ sent.iotaMessageId = id ∧
      sent.transactionType = h.transactionType := by
  cases htrace with
  | refused _ lookups checks hr => exact absurd ⟨_, rfl, rfl⟩ hr
  | started plan answer _ lookups checks rest hlookups hchecks harchive hprepared hstarts hanswer =>
    cases answer with
    | error e => exact absurd ⟨_, rfl, rfl⟩ hanswer
    | ok id' =>
      obtain rfl := sentDocument_inj (Except.ok.inj hanswer)
      cases hstarts with
      | created _ rest hsends =>
        rcases pushed_of_sends hsends rfl with ⟨hparent, -⟩ | ⟨earlier, created, hpush⟩
        · cases hparent
        · have hpushed : pushed (lookups ++ checks ++ .create plan.data (.ok ()) :: rest) =
              pushed (lookups ++ checks) ++ earlier ++
                [pendingOf { this with mMemo := plan.memo } plan.data id created] := by
            rw [pushed_append, List.append_assoc, ← hpush]
            rfl
          exact ⟨_, _, hpushed, rfl, Handler.type_of_prepared hprepared⟩

end Answer

namespace Connector

/-! ## The calls of a step -/

/-- The effects that the step added to the trace. -/
def emitted (e : Event b) : List Effect :=
  e.after.server.trace.drop e.before.server.trace.length

/-- The verdict of a notification: the id, the verdict and the message. -/
def noticeOf (host : Host τ) (e : Event b) : Option (String × Bool × String) :=
  if e.before.crashed then none
  else
    match e.input with
    | .request r =>
      match host.handlerOf r with
      | .ok .transactionListener => JsonTransactionListener.verdictOf host.decoder r.params
      | _ => none
    | _ => none

/-- The calls of the list a step makes. -/
def callsOf (host : Host τ) (e : Event b) : List Op :=
  (pushed (emitted e)).map .push ++
    (noticeOf host e).toList.map fun v => .update v.1 v.2.1 v.2.2

/-- The calls of the list a run makes. -/
abbrev callsOfRun (host : Host τ) (h : List (Event b)) : List Op := h.flatMap (callsOf host)

/-- The ids of the messages and of the notifications have 64 bytes. -/
def HasIds (host : Host τ) (run : List (Event b)) : Prop := ∀ op ∈ callsOfRun host run, IsId op.id

section Step

variable {host : Host τ} {c : Connector b} {i : Input}

theorem noticeOf_served {r : HttpRequest} {handler : RequestHandler}
    (h : Serves host c i r handler) : noticeOf host (entryOf (step host) c i) =
      if handler = .transactionListener then
        JsonTransactionListener.verdictOf host.decoder r.params else none := by
  unfold noticeOf
  simp only [show (entryOf (step host) c i).before.crashed = false from h.up,
    show (entryOf (step host) c i).input = .request r from h.request, h.handler]
  cases handler <;> rfl

theorem noticeOf_of_not_served (h : ∀ r handler, ¬ Serves host c i r handler) :
    noticeOf host (entryOf (step host) c i) = none := by
  unfold noticeOf
  split
  · rfl
  · rename_i hup
    replace hup : c.crashed = false := Bool.eq_false_iff.mpr hup
    cases i with
    | expire name => rfl
    | wait time => rfl
    | request r =>
      cases hhandler : host.handlerOf r with
      | error e => simp only [entryOf, hhandler]
      | ok handler => exact absurd ⟨hup, rfl, hhandler⟩ (h r handler)

/-- **A step changes the list by its calls.** -/
theorem pending_of_calls {st : Store}
    (h : (callsOf host (entryOf (step host) c i)).foldlM PendingTransactions.step c.server.pending =
      some st) : (step host c i).2.server.pending = st := by
  have hemitted : ∀ out, (step host c i).2.server.trace = c.server.trace ++ out →
      emitted (entryOf (step host) c i) = out := by
    intro out htrace
    show (step host c i).2.server.trace.drop c.server.trace.length = out
    rw [htrace, List.drop_left]
  unfold callsOf at h
  rcases step_cases host c i with ⟨r, handler, hserves, hafter⟩ | ⟨hnot, sessions, -, hafter⟩
  · rw [noticeOf_served hserves] at h
    by_cases hnotify : handler = .transactionListener
    · subst hnotify
      rw [hemitted [] (by rw [hafter]; exact (List.append_nil _).symm), if_pos rfl] at h
      have hpending : (step host c i).2.server.pending =
          (exec (JsonTransactionListener.handle host.decoder r.params) c.server.pending).2 := by
        rw [hafter]
        rfl
      rw [hpending, JsonTransactionListener.handle_updates]
      cases hverdict : JsonTransactionListener.verdictOf host.decoder r.params with
      | none =>
        rw [hverdict] at h
        exact Option.some.inj h
      | some v =>
        obtain ⟨id, confirmed, errorMessage⟩ := v
        rw [hverdict] at h
        have hupdate : PendingTransactions.updateTransaction id confirmed errorMessage
            c.server.pending = some st := by
          rw [← h]
          exact (bind_pure (PendingTransactions.step c.server.pending
            (.update id confirmed errorMessage))).symm
        simp only [hupdate, Option.getD_some]
    · obtain ⟨out, htrace, hpending⟩ := after_handle hnotify host r c.server
      rw [hemitted out (by rw [hafter, htrace]), if_neg hnotify] at h
      simp only [Option.toList_none, List.map_nil, List.append_nil,
        PendingTransactions.foldlM_push, Option.some.injEq] at h
      rw [hafter, hpending, foldl_store, h]
  · rw [noticeOf_of_not_served hnot, hemitted [] (by rw [hafter]; exact (List.append_nil _).symm)] at h
    rw [hafter]
    exact Option.some.inj h

end Step

section Run

variable {host : Host τ} {now : Nat} {db : Db b} {inputs : List Input} {h : List (Event b)} {e : Event b}

/-- **The list of the server is the replay of the calls.** -/
theorem run_callsOf (hids : HasIds host (runs host (start now db) inputs))
    (ho : Occurs (runs host (start now db) inputs) h e) :
    PendingTransactions.run (callsOfRun host h) = some e.before.server.pending := by
  refine occurs_invariant
    (I := fun h (c : Connector b) => HasIds host h ∧
      PendingTransactions.run (callsOfRun host h) = some c.server.pending)
    (C := fun _ d => ∀ op ∈ callsOf host d, IsId op.id) ⟨by simp [HasIds], rfl⟩ ?_ ?_ ho |>.2
  · rintro h c i ⟨hids, hrun⟩ hcalls
    have hids' : HasIds host (h ++ [entryOf (step host) c i]) := by
      intro op hop
      rw [callsOfRun, List.flatMap_append, List.mem_append, List.flatMap_singleton] at hop
      exact hop.elim (hids op) (hcalls op)
    refine ⟨hids', ?_⟩
    have hsome := PendingTransactions.run_eq_entries _ hids'
    rw [callsOfRun, List.flatMap_append, List.flatMap_singleton, PendingTransactions.run_append,
      hrun, Option.bind_some] at hsome ⊢
    rw [hsome]
    exact congrArg some (pending_of_calls hsome).symm
  · intro h' d ho' op hop
    exact hids op (List.mem_flatMap.mpr ⟨d, ho'.mem, hop⟩)

end Run

/-! ## What the list shows -/

/-- The step is answered with the entries. -/
def Lists (host : Host τ) (e : Event b) (st : Store) : Prop :=
  e.output = .answered (Document.stateSuccess.addMember "pendingTransactions"
    (listAsJson host.getTransactionTypeString st))

/-- Every request to `/listPending` is answered with the newest 100 entries of what the requests
before it sent, each as the notifications since decide. -/
def ListsEntries (host : Host τ) (run : List (Event b)) : Prop :=
  ∀ h e r, Occurs run h e → Serves host e.before e.input r .getPendingTransactions →
    Lists host e ((entries (callsOfRun host h)).rtake maxPendingTransactionsInList)

/-- A transaction path that answers an id has pushed an entry for it, and while fewer than 100
entries are pushed afterwards, every answer of `/listPending` has that entry, with the verdict of
the notifications since. -/
def SentIsListed (host : Host τ) (run : List (Event b)) : Prop :=
  ∀ before d between e r r' id, ∀ handler : Handler, Occurs run (before ++ d :: between) e →
    Serves host d.before d.input r handler.requestHandler →
    d.output = .answered (JsonTransaction.sentDocument id) →
    Serves host e.before e.input r' .getPendingTransactions →
    (PendingTransactions.pushed (callsOfRun host between)).length < maxPendingTransactionsInList →
    ∃ sent st, sent.iotaMessageId = id ∧ sent.transactionType = handler.transactionType ∧
      Op.push sent ∈ callsOf host d ∧ PendingTransactions.entryOf sent (callsOfRun host between) ∈ st ∧ Lists host e st

section Step

variable {host : Host τ} {e : Event b} {r : HttpRequest}

/-- `/listPending` is answered with the list of the server. -/
theorem lists_of_serves (hspec : e = entryOf (step host) e.before e.input)
    (hserves : Serves host e.before e.input r .getPendingTransactions) :
    Lists host e e.before.server.pending := by
  rw [Lists, hspec]
  show (step host e.before e.input).1 = _
  rw [hserves.step]
  rfl

theorem handle_requestHandler (h : Handler) (host : Host τ) (r : HttpRequest) :
    handle (b := b) host r h.requestHandler = h.handle host.world r.toRequest := by
  cases h <;> rfl

/-- **A step that answers an id has pushed its entry last.** -/
theorem pushed_of_answer {handler : Handler} {id : String}
    (hspec : e = entryOf (step host) e.before e.input)
    (hserves : Serves host e.before e.input r handler.requestHandler)
    (hanswer : e.output = .answered (JsonTransaction.sentDocument id)) :
    ∃ earlier sent, pushed (emitted e) = earlier ++ [sent] ∧ sent.iotaMessageId = id ∧
      sent.transactionType = handler.transactionType := by
  have hstep := hserves.step
  rw [handle_requestHandler] at hstep
  obtain ⟨out, hafter, hout⟩ := handler.emits_handle host.world r.toRequest e.before.server
  have hemitted : emitted e = out := by
    have htrace : e.after.server.trace = e.before.server.trace ++ out := by
      rw [hspec]
      show (step host e.before e.input).2.server.trace = _
      rw [hstep]
      exact hafter.trace
    rw [emitted, htrace, List.drop_left]
  have hresult : (exec (handler.handle host.world r.toRequest) e.before.server).1 =
      .ok (JsonTransaction.sentDocument id) := by
    rw [hspec] at hanswer
    replace hanswer : (step host e.before e.input).1 = _ := hanswer
    rw [hstep] at hanswer
    cases hr : (exec (handler.handle host.world r.toRequest) e.before.server).1 with
    | ok d =>
      rw [hr] at hanswer
      rw [Output.answered.inj hanswer]
    | error err =>
      rw [hr] at hanswer
      exact Output.noConfusion hanswer
  rw [hemitted]
  rw [hresult] at hout
  split at hout
  · exact pushed_of_handlerTrace hout
  · exact absurd ⟨_, rfl, rfl⟩ hout.2

end Step

section Run

variable {host : Host τ} {now : Nat} {db : Db b} {inputs : List Input}
  (hids : HasIds host (runs host (start now db) inputs))
include hids

/-- The list of the server before a step of a run. -/
theorem pending_eq_entries {h : List (Event b)} {e : Event b}
    (ho : Occurs (runs host (start now db) inputs) h e) : e.before.server.pending =
      (entries (callsOfRun host h)).rtake maxPendingTransactionsInList := by
  have hprefix : HasIds host h := by
    intro op hop
    obtain ⟨later, hrun⟩ := ho
    exact hids op (by rw [callsOfRun, hrun, List.flatMap_append]; exact List.mem_append_left _ hop)
  exact Option.some.inj
    ((run_callsOf hids ho).symm.trans (PendingTransactions.run_eq_entries _ hprefix))

/-- **The answers of `/listPending` in a run.** -/
theorem listsEntries_of_run : ListsEntries host (runs host (start now db) inputs) := by
  intro h e r ho hserves
  rw [← pending_eq_entries hids ho]
  exact lists_of_serves (occurs_spec ho) hserves

/-- **What a transaction path answered is listed.** -/
theorem sentIsListed_of_run : SentIsListed host (runs host (start now db) inputs) := by
  intro before d between e r r' id handler ho hserves hanswer hlist hcap
  obtain ⟨h', hd⟩ := ho.earlier (List.mem_append_right before (List.mem_cons_self (l := between)))
  obtain ⟨earlier, sent, hpush, hid, htype⟩ := pushed_of_answer (occurs_spec hd) hserves hanswer
  -- a transaction path is not notified, so the entry is the last call of its step
  have hcalls : callsOf host d = earlier.map Op.push ++ [.push sent] := by
    have hnotice : noticeOf host d = none := by
      rw [occurs_spec hd, noticeOf_served hserves]
      cases handler <;> rfl
    rw [callsOf, hpush, hnotice, List.map_append]
    exact List.append_nil _
  have hrun : callsOfRun host (before ++ d :: between) =
      (callsOfRun host before ++ earlier.map Op.push) ++ .push sent :: callsOfRun host between := by
    simp only [callsOfRun, List.flatMap_append, List.flatMap_cons, hcalls, List.append_assoc,
      List.singleton_append]
  refine ⟨sent, _, hid, htype, ?_, ?_, lists_of_serves (occurs_spec ho) hlist⟩
  · rw [hcalls]
    exact List.mem_append_right _ (List.mem_singleton.mpr rfl)
  · obtain ⟨older, hentries⟩ := PendingTransactions.exists_entries_append
      (.push sent :: callsOfRun host between) (callsOfRun host before ++ earlier.map Op.push)
    rw [pending_eq_entries hids ho, hrun, hentries]
    refine mem_rtake_of_lt ?_
    rwa [← PendingTransactions.map_toSent_entries, List.length_map] at hcap

end Run

/-! ## Alice looks her registration up -/

/-- A host whose message ids have 64 bytes. -/
def idHost : Host (List (Bytes × Bytes)) where
  __ := plainHost
  world :=
    { plainWorld with sendMessage := fun _ _ _ => .ok JsonTransactionListener.sampleId }

/-- A registration, its confirmation and a look at the list. -/
def aliceLooks : List Input :=
  [.request loginAlice, .request registerAlice,
    .request (postRequest "/notify" "" [("transactionBase64", "AA==")]),
    .request (postRequest "/listPending" "" [])]

theorem hasIds_aliceLooks :
    HasIds idHost (runs (b := plainMysql) idHost (start 0 .empty) aliceLooks) := by
  rw [HasIds]
  decide

theorem listsEntries_aliceLooks :
    ListsEntries idHost (runs (b := plainMysql) idHost (start 0 .empty) aliceLooks) :=
  listsEntries_of_run hasIds_aliceLooks

theorem sentIsListed_aliceLooks :
    (final (step idHost) (start (b := plainMysql) 0 .empty) aliceLooks).server.pending.map (·.state) =
        [.confirmed] ∧
      SentIsListed idHost (runs (b := plainMysql) idHost (start 0 .empty) aliceLooks) :=
  ⟨by decide, sentIsListed_of_run hasIds_aliceLooks⟩

end Connector

end GradidoConnector
