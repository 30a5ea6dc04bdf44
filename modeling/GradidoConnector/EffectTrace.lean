import GradidoConnector.JsonCreationTransaction
import GradidoConnector.JsonRegisterAddressTransaction
import GradidoConnector.JsonTransferTransaction
import GradidoConnector.TokenBinding

/-!
# What a transaction request does, in order

Every request to one of the three transaction handlers, with any session and any database and
whatever the Gradido Node, iota, signing and validation answer, leaves a trace of one shape
(`EffectTrace`): its own questions come before anything it publishes, the messages it publishes are
the first legs of its plan, all of them exactly if it succeeds, each the child of the one before,
and the entries it pushes are those of the messages it published.

`published` are the messages of a trace that the other side accepted, `pushed` its new pending
transactions.

Results:
* `sends_spec`: what sending a list of legs publishes and pushes.
* **`effectTrace`**: every request has such a trace, whether its handler returns or throws.
-/

namespace GradidoConnector

open GradidoConnector.Base GradidoConnector.Base.Act

open JsonTransaction GradidoNodeRPC

variable {b : Backend}

/-- The transaction handlers. -/
inductive Handler
  | creation
  | transfer
  | registerAddress
  deriving DecidableEq

namespace Handler

def handle : Handler → World → Request → Act (Server b) Exn Document
  | creation => JsonCreationTransaction.handle
  | transfer => JsonTransferTransaction.handle
  | registerAddress => JsonRegisterAddressTransaction.handle

/-- The plan of a request after these lookups and these questions, all of which succeeded. -/
def Prepared : Handler → World → JsonTransaction → Request → Plan → List Effect → List Effect → Prop
  | creation => JsonCreationTransaction.Prepared
  | transfer => JsonTransferTransaction.Prepared
  | registerAddress => JsonRegisterAddressTransaction.Prepared

theorem emits_handle (h : Handler) (w : World) (request : Request) (s : Server b) :
    Emits (Server.effects b) (h.handle w request)
      (fun r out => match (exec (readSharedParameter w request) s).1 with
        | .ok (.ok this) => HandlerTrace w this (h.Prepared w this request) r out
        | _ => out = [] ∧ ¬ Succeeded r) s := by
  cases h with
  | creation => exact JsonCreationTransaction.emits_handle w request s
  | transfer => exact JsonTransferTransaction.emits_handle w request s
  | registerAddress => exact JsonRegisterAddressTransaction.emits_handle w request s

end Handler

/-! ## Messages and entries of a trace -/

/-- A message that the Gradido Node or iota accepted. -/
def isPublished (w : World) : Effect → Bool
  | .sendMessage _ _ answer => answer.isOk
  | .request method _ answer => method == "puttransaction" && (reading w.lib readPut answer).isOk
  | _ => false

def published (w : World) (out : List Effect) : List Effect := out.filter (isPublished w)

/-- The new pending transactions of a trace. -/
def pushed : List Effect → List PendingTransactions.Sent
  | [] => []
  | .push sent :: out => sent :: pushed out
  | _ :: out => pushed out

/-- A question about a balance, for the decay check of a leg. -/
def IsDecayQuery (w : World) (this : JsonTransaction) (data : TransactionData) (e : Effect) : Prop :=
  ∃ pubkey a, decayAddress data = some pubkey ∧
    e = .request "getaddressbalance" (balanceParams (w.lib.binToHex pubkey)
      (w.lib.format this.mApolloDecayStart) this.mSession.mGroupAlias "") a

/-- `out` publishes the first of the `legs`, in order and with the ids `ids`; each is the child of
the one before, the first of `parent`. -/
inductive LegsPublished (w : World) (this : JsonTransaction) (data : TransactionData) :
    Option String → List Leg → List String → List Effect → Prop
  | none (parent : Option String) (legs : List Leg) : LegsPublished w this data parent legs [] []
  | next (parent : Option String) (leg : Leg) (legs : List Leg) (id : String) (ids : List String)
      (e : Effect) (out : List Effect) (bin : Option Bytes) (signPairs : List (Bytes × Bytes))
      (hparent : parent.map w.lib.hexToBin = bin.map some)
      (hpub : Publishes w this (legTransaction this data leg bin signPairs) leg.groupAlias (.ok id) e)
      (hrest : LegsPublished w this data (some id) legs ids out) :
      LegsPublished w this data parent (leg :: legs) (id :: ids) (e :: out)

section Lists

variable {w : World} {this : JsonTransaction} {data : TransactionData}

theorem published_append (w : World) (a c : List Effect) :
    published w (a ++ c) = published w a ++ published w c := List.filter_append ..

theorem pushed_append : ∀ a c : List Effect, pushed (a ++ c) = pushed a ++ pushed c
  | [], _ => rfl
  | e :: a, c => by
    cases e <;> simp only [List.cons_append, pushed, pushed_append a c]

theorem published_eq_nil_of_lookups {out : List Effect} (h : ∀ e ∈ out, IsLookup e) :
    published w out = [] ∧ pushed out = [] := by
  induction out with
  | nil => exact ⟨rfl, rfl⟩
  | cons e out ih =>
    obtain ⟨hpub, hpush⟩ := ih fun x hx => h x (List.mem_cons_of_mem _ hx)
    have he := h e List.mem_cons_self
    cases e with
    | loadGroup | loadUser => exact ⟨hpub, hpush⟩
    | _ => exact absurd he id

theorem published_eq_nil_of_queries {out : List Effect} (h : ∀ e ∈ out, IsQuery e) :
    published w out = [] ∧ pushed out = [] := by
  induction out with
  | nil => exact ⟨rfl, rfl⟩
  | cons e out ih =>
    obtain ⟨hpub, hpush⟩ := ih fun x hx => h x (List.mem_cons_of_mem _ hx)
    have he := h e List.mem_cons_self
    cases e with
    | request method params answer =>
      refine ⟨?_, hpush⟩
      have hmethod : (method == "puttransaction") = false := beq_eq_false_iff_ne.mpr he
      simp only [published, List.filter_cons, isPublished, hmethod, Bool.false_and]
      exact hpub
    | _ => exact absurd he id

/-- A message is published exactly when its answer gives an id. -/
theorem isPublished_of_publishes {transaction : GradidoTransaction} {groupAlias : String}
    {r : Except Exn String} {e : Effect} (h : Publishes w this transaction groupAlias r e) :
    isPublished w e = r.isOk ∧ pushed [e] = [] ∧ ¬ IsQuery e := by
  unfold Publishes at h
  cases ha : this.mArchiveTransaction with
  | true =>
    rw [ha] at h
    obtain ⟨a, rfl, rfl⟩ := h
    refine ⟨?_, rfl, fun hq => hq rfl⟩
    show (true && (reading w.lib readPut a).isOk) = _
    cases reading w.lib readPut a <;> rfl
  | false =>
    rw [ha] at h
    subst h
    exact ⟨rfl, rfl, id⟩

theorem decayCheck_spec {out : List Effect} (h : DecayCheck w this data out) :
    (∀ e ∈ out, IsQuery e) ∧ ∀ e ∈ out, IsDecayQuery w this data e := by
  rcases h with rfl | ⟨-, pubkey, a, hp, rfl⟩
  · exact ⟨by simp, by simp⟩
  · refine ⟨fun e he => ?_, fun e he => ?_⟩ <;> rw [List.mem_singleton.mp he]
    · simp [IsQuery]
    · exact ⟨pubkey, a, hp, rfl⟩

end Lists

/-! ## What sending publishes and pushes -/

/-- An effect of sending a leg: the question of a decay check, the message, or its entry. -/
inductive SendEffect (w : World) (this : JsonTransaction) (data : TransactionData) (e : Effect) : Prop
  | decay (h : IsDecayQuery w this data e)
  | publish (transaction : GradidoTransaction) (groupAlias : String) (r : Except Exn String)
      (h : Publishes w this transaction groupAlias r e)
  | push (sent : PendingTransactions.Sent) (h : e = .push sent)

/-- What a part of a trace that sends `legs` comes to: messages of the first of them, with the ids
`ids`, and an entry for each message. -/
structure Journaled (w : World) (this : JsonTransaction) (data : TransactionData)
    (parent : Option String) (legs : List Leg) (ids : List String) (out : List Effect) : Prop where
  legs : LegsPublished w this data parent legs ids (published w out)
  entries : (pushed out).map (·.iotaMessageId) = ids
  fields : ∀ sent ∈ pushed out, ∃ created, sent = pendingOf this data sent.iotaMessageId created

/-- All legs were published, or fewer where sending stopped. -/
def Counts (ids : List String) (legs : List Leg) : Except Exn String → Prop
  | .ok _ => ids.length = legs.length
  | .error _ => ids.length < legs.length

section Sends

variable {w : World} {this : JsonTransaction} {data : TransactionData} {out : List Effect}

theorem Journaled.of_nothing {parent : Option String} {legs : List Leg} (hpub : published w out = [])
    (hpush : pushed out = []) : Journaled w this data parent legs [] out := by
  refine ⟨?_, by rw [hpush]; rfl, ?_⟩
  · rw [hpub]
    exact .none parent legs
  · rw [hpush]
    exact fun _ h => absurd h List.not_mem_nil

theorem sendEffect_of_sends {parent : Option String} {legs : List Leg} {r : Except Exn String}
    (h : Sends w this data parent legs r out) : ∀ e ∈ out, SendEffect w this data e := by
  have hdecays : ∀ {decay : List Effect}, DecayCheck w this data decay →
      ∀ e ∈ decay, SendEffect w this data e :=
    fun hdecay e he => .decay ((decayCheck_spec hdecay).2 e he)
  induction h with
  | done id => exact fun _ he => absurd he List.not_mem_nil
  | stopped parent leg legs e out hstop =>
    cases hstop with
    | before _ hdecay => exact hdecays hdecay
    | failed e transaction decay publish hdecay hpublish =>
      intro x hx
      rcases List.mem_append.mp hx with hx | hx
      · exact hdecays hdecay x hx
      · rw [List.mem_singleton.mp hx]
        exact .publish _ _ _ hpublish
  | sent parent leg legs id r out rest hsent _ ih =>
    intro x hx
    rcases List.mem_append.mp hx with hx | hx
    · obtain ⟨bin, signPairs, decay, publish, created, -, hdecay, hpublish⟩ := hsent
      rcases List.mem_append.mp hx with hx | hx
      · exact hdecays hdecay x hx
      · rcases List.mem_cons.mp hx with rfl | hx
        · exact .publish _ _ _ hpublish
        · exact .push _ (List.mem_singleton.mp hx)
    · exact ih x hx

/-- A leg that stopped published nothing and pushed nothing. -/
theorem legStopped_spec {leg : Leg} (h : LegStopped w this data leg out) :
    published w out = [] ∧ pushed out = [] ∧
      ∀ e ∈ out, IsQuery e → IsDecayQuery w this data e := by
  cases h with
  | before _ hdecay =>
    obtain ⟨hqueries, hdecays⟩ := decayCheck_spec hdecay
    obtain ⟨hpub, hpush⟩ := published_eq_nil_of_queries (w := w) hqueries
    exact ⟨hpub, hpush, fun e he _ => hdecays e he⟩
  | failed e transaction decay publish hdecay hpublish =>
    obtain ⟨hqueries, hdecays⟩ := decayCheck_spec hdecay
    obtain ⟨hpub, hpush⟩ := published_eq_nil_of_queries (w := w) hqueries
    obtain ⟨hok, hnone, hnot⟩ := isPublished_of_publishes hpublish
    refine ⟨?_, ?_, fun x hx hq => ?_⟩
    · rw [published_append, hpub, published, List.filter_cons, hok]
      rfl
    · rw [pushed_append, hpush, hnone]
      rfl
    · rcases List.mem_append.mp hx with hx | hx
      · exact hdecays x hx
      · rw [List.mem_singleton.mp hx] at hq
        exact absurd hq hnot

/-- A leg that was sent published one message and pushed its entry. -/
theorem legSent_spec {leg : Leg} {parent : Option String} {id : String}
    (h : LegSent w this data leg parent id out) :
    (∃ e bin signPairs, published w out = [e] ∧ parent.map w.lib.hexToBin = bin.map some ∧
      Publishes w this (legTransaction this data leg bin signPairs) leg.groupAlias (.ok id) e) ∧
    (∃ created, pushed out = [pendingOf this data id created]) ∧
      ∀ e ∈ out, IsQuery e → IsDecayQuery w this data e := by
  obtain ⟨bin, signPairs, decay, publish, created, hparent, hdecay, hpublish⟩ := h
  obtain ⟨hqueries, hdecays⟩ := decayCheck_spec hdecay
  obtain ⟨hpub, hpush⟩ := published_eq_nil_of_queries (w := w) hqueries
  obtain ⟨hok, hnone, hnot⟩ := isPublished_of_publishes hpublish
  refine ⟨⟨publish, bin, signPairs, ?_, hparent, hpublish⟩, ⟨created, ?_⟩, fun x hx hq => ?_⟩
  · rw [published_append, hpub, published, List.filter_cons, hok]
    rfl
  · rw [pushed_append, hpush]
    show pushed ([publish] ++ [_]) = _
    rw [pushed_append, hnone]
    rfl
  · rcases List.mem_append.mp hx with hx | hx
    · exact hdecays x hx
    · rcases List.mem_cons.mp hx with rfl | hx
      · exact absurd hq hnot
      · rw [List.mem_singleton.mp hx] at hq
        exact hq.elim

/-- **Sending legs publishes the first of them**, all when it succeeds and fewer when it stops, and
journals each. -/
theorem sends_spec {parent : Option String} {legs : List Leg} {r : Except Exn String}
    (h : Sends w this data parent legs r out) :
    ∃ ids, Journaled w this data parent legs ids out ∧
      (∀ e ∈ out, IsQuery e → IsDecayQuery w this data e) ∧ Counts ids legs r := by
  induction h with
  | done id => exact ⟨[], .of_nothing rfl rfl, by simp, rfl⟩
  | stopped parent leg legs e out hstop =>
    obtain ⟨hpub, hpush, hqueries⟩ := legStopped_spec hstop
    exact ⟨[], .of_nothing hpub hpush, hqueries, Nat.succ_pos _⟩
  | sent parent leg legs id r out rest hsent _ ih =>
    obtain ⟨⟨e, bin, signPairs, hpub, hparent, hpublish⟩, ⟨created, hpush⟩, hqueries⟩ :=
      legSent_spec hsent
    obtain ⟨ids, hjournal, hrest, hlength⟩ := ih
    refine ⟨id :: ids, ⟨?_, ?_, ?_⟩, fun x hx => ?_, ?_⟩
    · rw [published_append, hpub]
      exact .next parent leg legs id ids e _ bin signPairs hparent hpublish hjournal.legs
    · rw [pushed_append, hpush, List.map_append, hjournal.entries]
      rfl
    · intro sent hsent
      rw [pushed_append, hpush] at hsent
      rcases List.mem_cons.mp hsent with rfl | hsent
      · exact ⟨created, rfl⟩
      · exact hjournal.fields sent hsent
    · rcases List.mem_append.mp hx with hx | hx
      · exact hqueries x hx
      · exact hrest x hx
    · cases r with
      | ok _ => exact congrArg (· + 1) hlength
      | error _ => exact Nat.succ_lt_succ hlength

end Sends

/-! ## The trace of a request -/

/-- The trace `out` of a request that took the server `s` to `t` with the result `r`. -/
structure EffectTrace (w : World) (h : Handler) (request : Request) (this : JsonTransaction)
    (plan : Plan) (s t : Server b) (r : Except Exn Document) (out : List Effect) : Prop where
  /-- Whatever was published was published after the request's lookups and its own questions, and
  these had all succeeded. -/
  checked : published w out ≠ [] → ∃ lookups checks rest, out = lookups ++ checks ++ rest ∧
    published w (lookups ++ checks) = [] ∧ h.Prepared w this request plan lookups checks
  /-- An archived transaction asks nothing but the balance for its decay check. -/
  archived : this.mArchiveTransaction = true →
    ∀ e ∈ out, IsQuery e → IsDecayQuery w this plan.data e
  /-- The messages are those of the plan's first legs, each with its entry; a request that succeeds
  has sent all legs, and one that does not has left out a leg. -/
  legs : ∃ ids,
    Journaled w { this with mMemo := plan.memo } plan.data none plan.route.legs ids out ∧
      (Succeeded r ∧ ids.length = plan.route.legs.length ∨
        ¬ Succeeded r ∧ ids.length < plan.route.legs.length)
  /-- The pending transactions are the old ones and the entries. -/
  journal : t.pending =
    (pushed out).foldl (fun st sent => PendingTransactions.pushNewTransaction (.new sent) st) s.pending

theorem foldl_store : ∀ (out : List Effect) (st : PendingTransactions.Store),
    out.foldl (fun st e => e.store st) st =
      (pushed out).foldl (fun st sent => PendingTransactions.pushNewTransaction (.new sent) st) st
  | [], _ => rfl
  | e :: out, st => by
    cases e <;> exact foldl_store out _

theorem starts_spec {w : World} {this : JsonTransaction} {plan : Plan} {answer : Except Exn String}
    {out : List Effect} (h : Starts w this plan answer out) :
    ∃ ids, Journaled w { this with mMemo := plan.memo } plan.data none plan.route.legs ids out ∧
      (∀ e ∈ out, IsQuery e → IsDecayQuery w this plan.data e) ∧
      Counts ids plan.route.legs answer := by
  cases h with
  | notCreated e =>
    refine ⟨[], .of_nothing rfl rfl, fun x hx hq => ?_, ?_⟩
    · rw [List.mem_singleton.mp hx] at hq
      exact hq.elim
    · cases plan.route <;> exact Nat.succ_pos _
  | created _ out hsends =>
    obtain ⟨ids, hjournal, hqueries, hlength⟩ := sends_spec hsends
    refine ⟨ids, ⟨hjournal.legs, hjournal.entries, hjournal.fields⟩, fun x hx hq => ?_, hlength⟩
    rcases List.mem_cons.mp hx with rfl | hx
    · exact hq.elim
    · exact hqueries x hx hq

/-- What the trace of a handler publishes and pushes is what its plan does. -/
theorem handlerTrace_spec {w : World} {h : Handler} {request : Request} {this : JsonTransaction}
    {s t : Server b} {r : Except Exn Document} {out : List Effect} (hafter : Server.After s out t)
    (htrace : HandlerTrace w this (h.Prepared w this request) r out) :
    ∃ plan, EffectTrace w h request this plan s t r out := by
  have hjournal : t.pending = (pushed out).foldl (fun st sent =>
      PendingTransactions.pushNewTransaction (.new sent) st) s.pending := by
    rw [hafter.pending, foldl_store]
  cases htrace with
  | refused _ lookups checks hr hlookups hchecks harchive =>
    obtain ⟨hpub, hpush⟩ := published_eq_nil_of_lookups (w := w) hlookups
    obtain ⟨hpub', hpush'⟩ := published_eq_nil_of_queries (w := w) hchecks
    have hnone : published w (lookups ++ checks) = [] := by rw [published_append, hpub, hpub']; rfl
    refine ⟨⟨"", .registerAddress [] .none, .within ""⟩, fun hne => absurd hnone hne, ?_,
      ⟨[], ?_, Or.inr ⟨hr, Nat.succ_pos _⟩⟩, hjournal⟩
    · intro ha e he hq
      rw [harchive ha, List.append_nil] at he
      have hlook := hlookups e he
      cases e <;> first | exact hq.elim | exact hlook.elim
    · exact .of_nothing hnone (by rw [pushed_append, hpush, hpush']; rfl)
  | started plan answer _ lookups checks rest hlookups hchecks harchive hprepared hstarts hanswer =>
    obtain ⟨hpub, hpush⟩ := published_eq_nil_of_lookups (w := w) hlookups
    obtain ⟨hpub', hpush'⟩ := published_eq_nil_of_queries (w := w) hchecks
    have hnone : published w (lookups ++ checks) = [] := by rw [published_append, hpub, hpub']; rfl
    have hpushed : pushed (lookups ++ checks ++ rest) = pushed rest := by
      rw [pushed_append, pushed_append, hpush, hpush']
      rfl
    have hpublished : published w (lookups ++ checks ++ rest) = published w rest := by
      rw [published_append, hnone]
      rfl
    obtain ⟨ids, hlegs, hqueries, hcounts⟩ := starts_spec hstarts
    refine ⟨plan, fun _ => ⟨lookups, checks, rest, rfl, hnone, hprepared⟩, ?_,
      ⟨ids, ⟨?_, ?_, ?_⟩, ?_⟩, hjournal⟩
    · intro ha e he hq
      rw [harchive ha, List.append_nil] at he
      rcases List.mem_append.mp he with he | he
      · have hlook := hlookups e he
        cases e <;> first | exact hq.elim | exact hlook.elim
      · exact hqueries e he hq
    · rw [hpublished]
      exact hlegs.legs
    · rw [hpushed]
      exact hlegs.entries
    · rw [hpushed]
      exact hlegs.fields
    · cases answer with
      | ok id => exact Or.inl ⟨⟨_, hanswer, rfl⟩, hcounts⟩
      | error e => exact Or.inr ⟨hanswer, hcounts⟩

/-- **Every request leaves such a trace**, whether its handler returns or throws. -/
theorem effectTrace (w : World) (h : Handler) (request : Request) (s : Server b) :
    ∃ out, (exec (h.handle w request) s).2.trace = s.trace ++ out ∧
      match (exec (readSharedParameter w request) s).1 with
      | .ok (.ok this) =>
        ∃ plan, EffectTrace w h request this plan s (exec (h.handle w request) s).2
          (exec (h.handle w request) s).1 out
      | _ => out = [] ∧ ¬ Succeeded (exec (h.handle w request) s).1 := by
  obtain ⟨out, hafter, hout⟩ := h.emits_handle w request s
  refine ⟨out, hafter.trace, ?_⟩
  cases hshared : (exec (readSharedParameter w request) s).1 with
  | error e =>
    rw [hshared] at hout
    exact hout
  | ok shared =>
    rw [hshared] at hout
    cases shared with
    | error d => exact hout
    | ok this => exact handlerTrace_spec hafter hout

/-! ## A server to run requests on -/

/-- A server on which `alice` is logged in. -/
def aliceServer : Server plainMysql :=
  ⟨final (SessionManager.step plainConfig) SessionManager.freshServer
    [.login (SessionManager.aliceLogin "secret")], [], []⟩

/-- A request of `alice`. -/
def aliceRequest (strings : List (String × String)) (numbers : List (String × Nat)) : Request :=
  ⟨.ofMembers strings numbers, SessionManager.aliceToken, "10.0.0.1"⟩

end GradidoConnector
