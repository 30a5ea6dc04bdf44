import GradidoConnector.JsonTransaction

/-!
# The trace of a transaction handler

The three handlers go the same way: read the shared parameters, look up what they need, ask the
Gradido Node unless the transaction is archived, build the transaction and send it. `Route` says
whether it goes within one group or across two, `Plan` what is sent, and `HandlerTrace` is the
shape of the whole trace. What a handler looks up and asks is its own `Prepared`.

Results:
* **`emits_createAndSend`**: building and sending has the trace of the plan's legs.
* `emits_withSharedParameter`: what a handler does once its parameters are read.
-/

namespace GradidoConnector

open GradidoConnector.Base GradidoConnector.Base.Act

namespace JsonTransaction

variable {b : Backend}

/-- Where a transaction goes. -/
inductive Route
  | within (groupAlias : String)
  | across (groupAlias otherGroup : String)
  deriving DecidableEq

def Route.legs : Route → List Leg
  | within groupAlias => localLegs groupAlias
  | across groupAlias otherGroup => crossLegs groupAlias otherGroup

def send (w : World) (this : JsonTransaction) (data : TransactionData) :
    Route → Act (Server b) Exn String
  | .within groupAlias => signAndSendTransaction w this (newTransaction data .local) groupAlias
  | .across groupAlias otherGroup => sendCrossGroup w this data groupAlias otherGroup

/-- Build the transaction, send it and answer with the id of its last message. -/
def createAndSend (w : World) (this : JsonTransaction) (data : TransactionData) (route : Route) :
    Act (Server b) Exn Document := do
  w.createTransaction data
  let iotaMessageId ← send w this data route
  return sentDocument iotaMessageId

/-- The `catch` clause around the questions to the Gradido Node. -/
def catchNode (check : Act (Server b) Exn (Except Document Unit)) :
    Act (Server b) Exn (Except Document Unit) :=
  tryCatch check fun
    | .gradidoNodeRPCException .. => return .error (.stateError "error by requesting Gradido Node")
    | e => throw e

/-- Ask the Gradido Node and, if nothing speaks against it, build and send, with `handler` for what
is thrown then. -/
def checkAndSend (w : World) (this : JsonTransaction) (check : Act (Server b) Exn (Except Document Unit))
    (data : TransactionData) (route : Route) (handler : Exn → Except Exn Document) :
    Act (Server b) Exn Document := do
  match ← check with
  | .error document => return document
  | .ok () => tryCatch (createAndSend w this data route) fun e => answer (handler e)

/-- The rest of a handler, unless the shared parameters are refused. -/
def withSharedParameter (w : World) (request : Request)
    (rest : JsonTransaction → Act (Server b) Exn Document) : Act (Server b) Exn Document := do
  match ← readSharedParameter w request with
  | .error document => return document
  | .ok this => rest this

/-! ## The shape of a trace -/

/-- `handle` returns a success document. -/
def Succeeded (r : Except Exn Document) : Prop := ∃ d, r = .ok d ∧ d.isSuccess

/-- What a handler sends: the encrypted memo, the base transaction and its way. -/
structure Plan where
  memo : String
  data : TransactionData
  route : Route

/-- A lookup in the database. -/
def IsLookup : Effect → Prop
  | .loadGroup .. | .loadUser .. => True
  | _ => False

/-- A question to the Gradido Node. -/
def IsQuery : Effect → Prop
  | .request method .. => method ≠ "puttransaction"
  | _ => False

/-- The document of a handler that sent with the result `answer`. -/
def Answers (answer : Except Exn String) (r : Except Exn Document) : Prop :=
  match answer with
  | .ok id => r = .ok (sentDocument id)
  | .error _ => ¬ Succeeded r

section Spec

variable (w : World) (this : JsonTransaction)

/-- Building the transaction of the plan and sending its legs. -/
inductive Starts (plan : Plan) : Except Exn String → List Effect → Prop
  | notCreated (e : Exn) : Starts plan (.error e) [.create plan.data (.error e)]
  | created (r : Except Exn String) (out : List Effect)
      (h : Sends w { this with mMemo := plan.memo } plan.data none plan.route.legs r out) :
      Starts plan r (.create plan.data (.ok ()) :: out)

/-- The trace of a handler: lookups, questions to the Gradido Node, and if these allow it the
transaction of a plan. An archived transaction is sent without a question. -/
inductive HandlerTrace (Prepared : Plan → List Effect → List Effect → Prop) :
    Except Exn Document → List Effect → Prop
  | refused (r : Except Exn Document) (lookups checks : List Effect) (hr : ¬ Succeeded r)
      (hlookups : ∀ e ∈ lookups, IsLookup e) (hchecks : ∀ e ∈ checks, IsQuery e)
      (harchive : this.mArchiveTransaction = true → checks = []) :
      HandlerTrace Prepared r (lookups ++ checks)
  | started (plan : Plan) (answer : Except Exn String) (r : Except Exn Document)
      (lookups checks rest : List Effect) (hlookups : ∀ e ∈ lookups, IsLookup e)
      (hchecks : ∀ e ∈ checks, IsQuery e) (harchive : this.mArchiveTransaction = true → checks = [])
      (hprepared : Prepared plan lookups checks)
      (hstarts : Starts w this plan answer rest) (hr : Answers answer r) :
      HandlerTrace Prepared r (lookups ++ checks ++ rest)

/-- What the questions of a handler come to: with `.ok (.ok ())` they have all `Passed`. -/
structure CheckTrace (Passed : List Effect → Prop) (r : Except Exn (Except Document Unit))
    (out : List Effect) : Prop where
  queries : ∀ e ∈ out, IsQuery e
  archive : this.mArchiveTransaction = true → out = []
  refuses : RefusesWithError r
  passed : r = .ok (.ok ()) → this.mArchiveTransaction = false → Passed out

end Spec

theorem not_succeeded_error {e : Exn} : ¬ Succeeded (.error e) := by
  rintro ⟨d, h, -⟩
  cases h

theorem not_succeeded_of_isError {d : Document} (h : d.isError = true) : ¬ Succeeded (.ok d) := by
  rintro ⟨d', hd, hs⟩
  cases hd
  cases d <;> simp_all [Document.isError, Document.isSuccess]

theorem not_succeeded_handleSignAndSendTransactionExceptions (lib : Library) (e : Exn) :
    ¬ Succeeded (handleSignAndSendTransactionExceptions lib e) := by
  cases e <;> first | exact not_succeeded_error | exact not_succeeded_of_isError rfl

/-- Once a trace ends in an exception, whatever the handler makes of it but a success may
be the result. -/
theorem HandlerTrace.of_error {w : World} {this : JsonTransaction}
    {Prepared : Plan → List Effect → List Effect → Prop} {e : Exn} {out : List Effect}
    {r : Except Exn Document} (h : HandlerTrace w this Prepared (.error e) out)
    (hr : ¬ Succeeded r) : HandlerTrace w this Prepared r out := by
  cases h with
  | refused _ lookups checks _ hlookups hchecks harchive =>
    exact .refused r lookups checks hr hlookups hchecks harchive
  | started plan answer _ lookups checks rest hlookups hchecks harchive hprepared hstarts hanswer =>
    cases answer with
    | ok id => exact absurd hanswer (by simp [Answers])
    | error e' =>
      exact .started plan (.error e') r lookups checks rest hlookups hchecks harchive hprepared
        hstarts hr

section CheckTrace

variable {this : JsonTransaction} {Passed : List Effect → Prop} {r : Except Exn (Except Document Unit)}
  {out : List Effect}

theorem CheckTrace.of_archive (h : this.mArchiveTransaction = true) :
    CheckTrace this Passed (.ok (.ok ())) [] :=
  ⟨fun _ he => absurd he List.not_mem_nil, fun _ => rfl, refusesWithError_of_ok (),
    fun _ hfalse => absurd (h.symm.trans hfalse) (by decide)⟩

/-- The questions asked so far, when the handler goes no further. -/
theorem CheckTrace.of_refusal (h : this.mArchiveTransaction = false) (hq : ∀ e ∈ out, IsQuery e)
    (hr : RefusesWithError r) (hne : r ≠ .ok (.ok ())) : CheckTrace this Passed r out :=
  ⟨hq, fun htrue => absurd (h.symm.trans htrue) (by decide), hr, fun hok => absurd hok hne⟩

theorem CheckTrace.of_passed (h : this.mArchiveTransaction = false) (hq : ∀ e ∈ out, IsQuery e)
    (hpassed : Passed out) : CheckTrace this Passed (.ok (.ok ())) out :=
  ⟨hq, fun htrue => absurd (h.symm.trans htrue) (by decide), refusesWithError_of_ok (),
    fun _ _ => hpassed⟩

/-- An exception of the questions may be answered with an error document. -/
theorem CheckTrace.of_caught {e : Exn} (h : CheckTrace this Passed (.error e) out)
    (hr : RefusesWithError r) (hne : r ≠ .ok (.ok ())) : CheckTrace this Passed r out :=
  ⟨h.queries, h.archive, hr, fun hok => absurd hok hne⟩

end CheckTrace

/-! ## What the shared parts emit -/

section Emits

variable {w : World} {this : JsonTransaction} {s : Server b}

theorem emits_send (w : World) (this : JsonTransaction) (data : TransactionData) (route : Route)
    (s : Server b) :
    Emits (Server.effects b) (send w this data route) (Sends w this data none route.legs) s := by
  cases route with
  | within groupAlias => exact emits_sendLocal w this data groupAlias s
  | across groupAlias otherGroup => exact emits_sendCrossGroup w this data groupAlias otherGroup s

/-- **Building and sending has the trace of the plan's legs.** -/
theorem emits_createAndSend (w : World) (this : JsonTransaction) (plan : Plan) (s : Server b) :
    Emits (Server.effects b)
      (createAndSend w { this with mMemo := plan.memo } plan.data plan.route)
      (fun r out => ∃ answer, Starts w this plan answer out ∧ match answer with
        | .ok id => r = .ok (sentDocument id)
        | .error e => r = .error e) s := by
  unfold createAndSend
  have hcreate : Emits (Server.effects b) (w.createTransaction plan.data)
      (fun r out => out = [.create plan.data r]) s := Server.emits_perform rfl
  refine Emits.bind hcreate ?_ ?_
  · rintro ⟨⟩ _ t - rfl
    refine Emits.bind (emits_send w _ plan.data plan.route t) ?_ ?_
    · intro id out t' _ hsends
      refine Emits.pure ?_
      rw [List.append_nil]
      exact ⟨.ok id, .created _ _ hsends, rfl⟩
    · intro e out hsends
      exact ⟨.error e, .created _ _ hsends, rfl⟩
  · rintro e _ rfl
    exact ⟨.error e, .notCreated e, rfl⟩

theorem emits_catchNode {Passed : List Effect → Prop}
    {check : Act (Server b) Exn (Except Document Unit)}
    (h : Emits (Server.effects b) check (CheckTrace this Passed) s) :
    Emits (Server.effects b) (catchNode check) (CheckTrace this Passed) s := by
  refine Emits.tryCatch h (fun _ _ htrace => htrace) ?_
  intro e out t htrace
  have hthrow : ∀ e', Emits (Server.effects b) (throw e' : Act (Server b) Exn _)
      (fun r out' => CheckTrace this Passed r (out ++ out')) t := by
    intro e'
    refine Emits.throw ?_
    rw [List.append_nil]
    exact htrace.of_caught (refusesWithError_of_error e') (by simp)
  cases e with
  | gradidoNodeRPCException =>
    refine Emits.pure ?_
    rw [List.append_nil]
    exact htrace.of_caught (refusesWithError_of_document rfl) (by simp)
  | _ => exact hthrow _

/-- **A handler asks before it sends.** -/
theorem emits_checkAndSend {Prepared : Plan → List Effect → List Effect → Prop}
    {Passed : List Effect → Prop} {check : Act (Server b) Exn (Except Document Unit)}
    {lookups : List Effect} {handler : Exn → Except Exn Document} (plan : Plan)
    (hcheck : Emits (Server.effects b) check (CheckTrace this Passed) s)
    (hlookups : ∀ e ∈ lookups, IsLookup e)
    (hprepared : ∀ checks, (this.mArchiveTransaction = true → checks = []) →
      (this.mArchiveTransaction = false → Passed checks) → Prepared plan lookups checks)
    (hhandler : ∀ e, ¬ Succeeded (handler e)) :
    Emits (Server.effects b)
      (checkAndSend w { this with mMemo := plan.memo } check plan.data plan.route handler)
      (fun r out => HandlerTrace w this Prepared r (lookups ++ out)) s := by
  unfold checkAndSend
  refine Emits.bind hcheck ?_ ?_
  · rintro ⟨d⟩ checks t _ htrace
    · refine Emits.pure ?_
      rw [List.append_nil]
      exact .refused _ lookups checks (not_succeeded_of_isError (htrace.refuses d rfl)) hlookups
        htrace.queries htrace.archive
    · have hplan := hprepared checks htrace.archive (htrace.passed rfl)
      refine Emits.tryCatch (emits_createAndSend w this plan t) ?_ ?_
      · rintro document rest ⟨answer, hstarts, hanswer⟩
        rw [← List.append_assoc]
        cases answer with
        | ok id =>
          exact .started plan (.ok id) _ lookups checks rest hlookups htrace.queries htrace.archive
            hplan hstarts hanswer
        | error e => cases hanswer
      · rintro e rest t' ⟨answer, hstarts, hanswer⟩
        refine Emits.answer ?_
        rw [List.append_nil, ← List.append_assoc]
        cases answer with
        | ok id => cases hanswer
        | error e' =>
          exact .started plan (.error e') _ lookups checks rest hlookups htrace.queries htrace.archive
            hplan hstarts (hhandler e)
  · intro e checks htrace
    exact .refused _ lookups checks not_succeeded_error hlookups htrace.queries htrace.archive

/-- A lookup that does not succeed ends the handler. -/
theorem handlerTrace_of_lookups {Prepared : Plan → List Effect → List Effect → Prop}
    {r : Except Exn Document} {lookups : List Effect} (hr : ¬ Succeeded r)
    (hlookups : ∀ e ∈ lookups, IsLookup e) : HandlerTrace w this Prepared r lookups := by
  have htrace : HandlerTrace w this Prepared r (lookups ++ []) :=
    .refused r lookups [] hr hlookups (fun _ h => absurd h List.not_mem_nil) fun _ => rfl
  rwa [List.append_nil] at htrace

/-- What a handler does once its parameters are read. -/
theorem emits_withSharedParameter {request : Request} {rest : JsonTransaction → Act (Server b) Exn Document}
    {Q : JsonTransaction → Except Exn Document → List Effect → Prop}
    (h : ∀ this t, Server.After s [] t → (exec (readSharedParameter w request) s).1 = .ok (.ok this) →
      Emits (Server.effects b) (rest this) (Q this) t) :
    Emits (Server.effects b) (withSharedParameter w request rest)
      (fun r out => match (exec (readSharedParameter w request) s).1 with
        | .ok (.ok this) => Q this r out
        | _ => out = [] ∧ ¬ Succeeded r) s := by
  unfold withSharedParameter
  refine Emits.bind (emits_readSharedParameter w request s).result ?_ ?_
  · rintro shared out t ht ⟨hshared, rfl, herror⟩
    rw [← hshared]
    cases shared with
    | error d => exact Emits.pure ⟨rfl, not_succeeded_of_isError (herror d rfl)⟩
    | ok this => exact h this t ht hshared.symm
  · rintro e out ⟨hshared, rfl, -⟩
    rw [← hshared]
    exact ⟨rfl, not_succeeded_error⟩

end Emits

end JsonTransaction

end GradidoConnector
