import GradidoConnector.Connector

/-!
# What each path may change

A step of the server changes the tables only for a request to `/login`, the list of pending
transactions only for one to a transaction path or to `/notify`, and talks to the Gradido Node and
to iota only for one to a transaction path or to `/listTransactions`. A path is what the URI begins
with, up to the first character that no path has; what follows it, the method, the body and the
headers do not matter.

Results:
* `db_of_step`, `pending_of_step`, `trace_of_step`: one step.
* **`unchanged_without`**: a run without requests for the paths of a part leaves the part as it was.
-/

namespace GradidoConnector

open GradidoConnector.Base GradidoConnector.Base.Act

open JsonRequestHandlerFactory (For)

variable {b : Backend} {τ : Type}

namespace Connector

/-- The step is a request, and the process serves it with the handler. -/
structure Serves (host : Host τ) (c : Connector b) (i : Input) (r : HttpRequest)
    (handler : RequestHandler) : Prop where
  up : c.crashed = false
  request : i = .request r
  handler : host.handlerOf r = .ok handler

/-- The step is a request for one of the paths. -/
def Reaches (paths : List String) (i : Input) : Prop :=
  ∃ r path, i = .request r ∧ path ∈ paths ∧ For r.uri path

def transactionPaths : List String := ["/creation", "/transfer", "/registerAddress"]

section Step

variable {host : Host τ} {c : Connector b} {i : Input}

/-- A request is served by the handler of its path. -/
theorem Serves.reaches {r : HttpRequest} {handler : RequestHandler} {paths : List String}
    (h : Serves host c i r handler)
    (hpaths : ∃ path ∈ paths, (path, handler) ∈ JsonRequestHandlerFactory.paths) :
    Reaches paths i := by
  obtain ⟨path, hmem, hpath⟩ := hpaths
  exact ⟨r, path, h.request, hmem,
    ((JsonRequestHandlerFactory.createRequestHandler_eq_iff hpath).mp h.handler).1⟩

/-- A served request. -/
theorem Serves.step {r : HttpRequest} {handler : RequestHandler} (h : Serves host c i r handler) :
    step host c i = (ofResult (exec (handle host r handler) c.server).1,
      ⟨(exec (handle host r handler) c.server).2,
        isCrash (exec (handle host r handler) c.server).1⟩) := by
  rw [h.request, step_request h.up, exec_serve h.handler]

/-- Questions push nothing. -/
theorem pending_of_asks {w : World} {request : JsonListTransactions.ListRequest}
    {sessions : SessionManager b} {out : List Effect}
    (h : ∀ e ∈ out, AsksForList w request sessions e) (st : PendingTransactions.Store) :
    out.foldl (fun st e => e.store st) st = st := by
  induction out with
  | nil => rfl
  | cons e out ih =>
    obtain ⟨session, keyPair, a, -, -, rfl⟩ := h e List.mem_cons_self
    exact ih fun x hx => h x (List.mem_cons_of_mem _ hx)

/-- **What a step does**: it serves a request, or touches the sessions alone. -/
theorem step_cases (host : Host τ) (c : Connector b) (i : Input) :
    (∃ r handler, Serves host c i r handler ∧
      (step host c i).2.server = (exec (handle host r handler) c.server).2) ∨
    (∀ r handler, ¬ Serves host c i r handler) ∧
      ∃ sessions, sessions.db = c.server.sessions.db ∧
        (step host c i).2.server = { c.server with sessions } := by
  have hsame : ∃ sessions : SessionManager b, sessions.db = c.server.sessions.db ∧
      c.server = { c.server with sessions } := ⟨c.server.sessions, rfl, rfl⟩
  cases hcrash : c.crashed with
  | true =>
    refine Or.inr ⟨fun r handler h => absurd (h.up.symm.trans hcrash) Bool.false_ne_true, ?_⟩
    simpa [step, hcrash] using hsame
  | false =>
    cases i with
    | expire name =>
      refine Or.inr ⟨fun r handler h => Input.noConfusion h.request,
        (SessionManager.step host.cfg c.server.sessions (.expire name)).2, rfl, ?_⟩
      rw [step, hcrash]
      rfl
    | wait time =>
      refine Or.inr ⟨fun r handler h => Input.noConfusion h.request,
        (SessionManager.step host.cfg c.server.sessions (.wait time)).2, rfl, ?_⟩
      rw [step, hcrash]
      rfl
    | request r =>
      cases hhandler : host.handlerOf r with
      | error e =>
        have hkept : (exec (serve host r) c.server).2 = c.server := by
          rw [serve, exec_bind, exec_answer, hhandler]
        refine Or.inr ⟨fun r' handler h => ?_, by rwa [step_request hcrash, hkept]⟩
        cases h.request
        exact absurd (hhandler.symm.trans h.handler) (by simp)
      | ok handler =>
        have hserves : Serves host c (.request r) r handler := ⟨hcrash, rfl, hhandler⟩
        exact Or.inl ⟨r, handler, hserves, by rw [hserves.step]⟩

/-- **Only `/login` changes the tables.** -/
theorem db_of_step (h : ¬ Reaches ["/login"] i) :
    (step host c i).2.server.sessions.db = c.server.sessions.db := by
  rcases step_cases host c i with ⟨r, handler, hserves, hafter⟩ | ⟨-, sessions, hdb, hafter⟩
  · rw [hafter, sessions_handle]
    cases hcall : callOf host r c.server handler with
    | none => rfl
    | some call =>
      rcases SessionManager.step_db host.cfg c.server.sessions call with hdb | ⟨login, rfl, -, -⟩
      · exact hdb
      · obtain ⟨rfl, -⟩ := callOf_eq_login hcall
        exact absurd (hserves.reaches (by decide)) h
  · rw [hafter]
    exact hdb

/-- Except for `/notify` a request changes the list of pending transactions with its
effects alone. -/
theorem after_handle {handler : RequestHandler} (h : handler ≠ .transactionListener) (host : Host τ)
    (r : HttpRequest) (s : Server b) :
    ∃ out, (exec (handle host r handler) s).2.trace = s.trace ++ out ∧
      (exec (handle host r handler) s).2.pending = out.foldl (fun st e => e.store st) s.pending := by
  have hsilent : ∀ {t : Server b}, t.trace = s.trace → t.pending = s.pending →
      ∃ out, t.trace = s.trace ++ out ∧ t.pending = out.foldl (fun st e => e.store st) s.pending :=
    fun htrace hpending => ⟨[], htrace.trans (List.append_nil _).symm, hpending⟩
  have htransaction : ∀ h : Handler, ∃ out,
      (exec (h.handle host.world r.toRequest) s).2.trace = s.trace ++ out ∧
      (exec (h.handle host.world r.toRequest) s).2.pending =
        out.foldl (fun st e => e.store st) s.pending := by
    intro h
    obtain ⟨out, hafter, -⟩ := h.emits_handle host.world r.toRequest s
    exact ⟨out, hafter.trace, hafter.pending⟩
  cases handler with
  | creation => exact htransaction .creation
  | transfer => exact htransaction .transfer
  | registerAddress => exact htransaction .registerAddress
  | listTransactions =>
    obtain ⟨out, hframe, -⟩ := frames_listTransactions host.world r.toListRequest s
    exact ⟨out, hframe.1.trace, hframe.1.pending⟩
  | transactionListener => exact absurd rfl h
  | openConnection =>
    have hafter : (exec (handle host r .openConnection) s).2 = s := by
      rw [handle, exec_bind, exec_get]
      dsimp only
      rw [exec_answer]
    exact hsilent (congrArg Server.trace hafter) (congrArg Server.pending hafter)
  | packTransaction =>
    rw [handle, exec_answer]
    exact hsilent rfl rfl
  | sendTransactionIota =>
    rw [handle, exec_answer]
    exact hsilent rfl rfl
  | login => exact hsilent rfl rfl
  | getPendingTransactions => exact hsilent rfl rfl
  | unknown => exact hsilent rfl rfl

/-- **Only the transaction paths and `/notify` change the list of pending transactions.** -/
theorem pending_of_step (h : ¬ Reaches ("/notify" :: transactionPaths) i) :
    (step host c i).2.server.pending = c.server.pending := by
  rcases step_cases host c i with ⟨r, handler, hserves, hafter⟩ | ⟨-, sessions, -, hafter⟩
  · rw [hafter]
    cases handler with
    | creation | transfer | registerAddress | transactionListener =>
      exact absurd (hserves.reaches (by decide)) h
    | listTransactions =>
      obtain ⟨out, hframe, hasks⟩ := frames_listTransactions host.world r.toListRequest c.server
      rw [show (exec (handle host r .listTransactions) c.server).2.pending = _ from hframe.1.pending]
      exact pending_of_asks hasks _
    | openConnection => rw [handle, exec_bind, exec_get]; dsimp only; rw [exec_answer]
    | packTransaction => rw [handle, exec_answer]
    | sendTransactionIota => rw [handle, exec_answer]
    | login => rfl
    | getPendingTransactions => rfl
    | unknown => rfl
  · rw [hafter]

/-- **Only the transaction paths and `/listTransactions` talk to the Gradido Node and to iota.** -/
theorem trace_of_step (h : ¬ Reaches ("/listTransactions" :: transactionPaths) i) :
    (step host c i).2.server.trace = c.server.trace := by
  rcases step_cases host c i with ⟨r, handler, hserves, hafter⟩ | ⟨-, sessions, -, hafter⟩
  · rw [hafter]
    cases handler with
    | creation | transfer | registerAddress | listTransactions =>
      exact absurd (hserves.reaches (by decide)) h
    | openConnection => rw [handle, exec_bind, exec_get]; dsimp only; rw [exec_answer]
    | packTransaction => rw [handle, exec_answer]
    | sendTransactionIota => rw [handle, exec_answer]
    | login => rfl
    | transactionListener => rfl
    | getPendingTransactions => rfl
    | unknown => rfl
  · rw [hafter]

end Step

section Run

variable (host : Host τ) (c : Connector b) (inputs : List Input)

/-- What steps for no request to the paths leave as it is, such a run does. -/
theorem final_unchanged {α : Type} (part : Connector b → α) {paths : List String}
    (hstep : ∀ (c : Connector b) i, ¬ Reaches paths i → part (step host c i).2 = part c)
    (h : ∀ i ∈ inputs, ¬ Reaches paths i) : part (final (step host) c inputs) = part c :=
  final_invariant (I := fun _ s => part s = part c) (C := fun _ e => ¬ Reaches paths e.input) rfl
    (fun _ s i hsame hguard => (hstep s i hguard).trans hsame) fun _ _ ho => h _ (input_mem ho)

/-- **A run without requests for the paths of a part leaves the part as it was.** -/
theorem unchanged_without :
    ((∀ i ∈ inputs, ¬ Reaches ["/login"] i) →
      (final (step host) c inputs).server.sessions.db = c.server.sessions.db) ∧
    ((∀ i ∈ inputs, ¬ Reaches ("/notify" :: transactionPaths) i) →
      (final (step host) c inputs).server.pending = c.server.pending) ∧
    ((∀ i ∈ inputs, ¬ Reaches ("/listTransactions" :: transactionPaths) i) →
      (final (step host) c inputs).server.trace = c.server.trace) :=
  ⟨final_unchanged host c inputs (fun c => c.server.sessions.db) fun _ _ => db_of_step,
    final_unchanged host c inputs (fun c => c.server.pending) fun _ _ => pending_of_step,
    final_unchanged host c inputs (fun c => c.server.trace) fun _ _ => trace_of_step⟩

end Run

end Connector

end GradidoConnector
