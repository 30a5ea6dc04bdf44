import GradidoConnector.Base.Refinement
import GradidoConnector.JsonGetPendingTransactions
import GradidoConnector.JsonLogin
import GradidoConnector.JsonPackTransaction
import GradidoConnector.JsonRequestHandlerFactory
import GradidoConnector.JsonSendTransactionIota
import GradidoConnector.JsonTransactionListener
import GradidoConnector.Signatures

/-!
# The whole server

Every HTTP request goes through the factory to one of the handlers, and all handlers share the
session manager with the database, the list of pending transactions and what the requests before did
(`Server`). `Connector.step` serves one request after the other, in any order; between two requests
time passes and sessions expire.

* `Host` is everything around the server: the libraries, the Gradido Node, iota and the
  configuration.
* `HttpRequest` carries the body once in every form in which a handler reads it.
* An exception that leaves a handler is answered by Poco; a `crash` ends the process, and nothing is
  served from then on.

Results:
* `sessions_handle`: what a request does to the session manager, by its path.
* **`refines_sessions`**: the server, seen through its session manager, is the machine of
  `SessionManager.step`.
-/

namespace GradidoConnector

open GradidoConnector.Base GradidoConnector.Base.Act

open JsonTransaction

variable {b : Backend} {τ : Type}

/-! ## The code -/

/-- What the server talks to and is configured with. -/
structure Host (τ : Type) where
  world : World
  /-- `SealedBoxes::decrypt` with `ServerConfig::g_JwtPrivateKey`. -/
  decrypt : Option Bytes → Except (Option Exn) String
  /-- The public key of `ServerConfig::g_JwtPrivateKey`. -/
  serverPubkey : Bytes
  /-- The 32 bytes at `data()`. -/
  keyAt : Option Bytes → Except Exn Bytes
  keyAt_of_le : ∀ pubkey, 32 ≤ pubkey.length → keyAt (some pubkey) = .ok (pubkey.take 32)
  /-- `KeyPairEd25519::verify` -/
  verify : Bytes → Bytes → Option Bytes → Except Exn Bool
  decoder : JsonTransactionListener.Decoder
  packer : Packer
  transactions : TransactionLibrary τ
  getTransactionTypeString : TransactionType → String
  /-- `Poco::Net::IPAddress(…)` -/
  parseAddress : String → Except Exn Unit

structure HttpRequest where
  uri : String
  method : String
  /-- The header `X-Real-IP`. -/
  realIp : Option String
  clientIp : String
  jwtToken : String
  params : Params
  /-- The members of the body. -/
  members : List (String × Json)
  /-- The member `coinGroupId` of the body. -/
  coinGroupId : Option Json
  /-- The member `signaturePairs` of the body. -/
  signaturePairs : SignaturePairs
  env : LoginEnv

namespace HttpRequest

def toRequest (r : HttpRequest) : Request := ⟨r.params, r.jwtToken, r.clientIp⟩

def toLoginRequest (r : HttpRequest) : LoginRequest := ⟨r.method, r.params, r.clientIp, r.env⟩

def toListRequest (r : HttpRequest) : JsonListTransactions.ListRequest :=
  ⟨r.members, r.jwtToken, r.clientIp⟩

end HttpRequest

namespace Host

/-- `ServerConfig` -/
def cfg (host : Host τ) : Config := host.world.cfg

def toLoginHost (host : Host τ) : LoginHost := ⟨host.world.lib, host.cfg, host.decrypt⟩

def opener (host : Host τ) (now : Nat) : Opener :=
  ⟨host.world.lib, host.cfg, now, host.serverPubkey, host.keyAt, host.keyAt_of_le, host.verify⟩

/-- The handler a request gets. -/
def handlerOf (host : Host τ) (r : HttpRequest) : Except Exn RequestHandler :=
  JsonRequestHandlerFactory.createRequestHandler host.parseAddress r.uri r.realIp

end Host

namespace Connector

/-- `handleRequest` of the handler. -/
def handle (host : Host τ) (r : HttpRequest) : RequestHandler → Act (Server b) Exn Document
  | .packTransaction => answer (JsonPackTransaction.handle host.packer ⟨r.params, r.coinGroupId⟩)
  | .sendTransactionIota =>
    answer (JsonSendTransactionIota.handle host.transactions ⟨r.params, r.signaturePairs⟩)
  | .creation => Handler.creation.handle host.world r.toRequest
  | .transfer => Handler.transfer.handle host.world r.toRequest
  | .registerAddress => Handler.registerAddress.handle host.world r.toRequest
  | .login => Server.onSessions (JsonLogin.handleRequest host.toLoginHost r.toLoginRequest)
  | .openConnection => do
    let s ← get
    answer (JsonOpenConnection.handleRequest (host.opener s.sessions.now) ⟨r.method, r.params⟩)
  | .transactionListener =>
    within (fun s => s.pending) (fun pending s => { s with pending })
      (JsonTransactionListener.handle host.decoder r.params)
  | .listTransactions => JsonListTransactions.handle host.world r.toListRequest
  | .getPendingTransactions => do
    let s ← get
    return JsonGetPendingTransactions.handle host.getTransactionTypeString s.pending
  | .unknown => return JsonUnknown.handle

/-- A request from its arrival to its answer. -/
def serve (host : Host τ) (r : HttpRequest) : Act (Server b) Exn Document := do
  let handler ← answer (host.handlerOf r)
  handle host r handler

end Connector

/-- The server process. -/
structure Connector (b : Backend) where
  server : Server b
  crashed : Bool

namespace Connector

inductive Input
  | request (r : HttpRequest)
  | expire (name : String)
  | wait (time : Nat)

inductive Output
  | answered (d : Document)
  | failed (e : Exn)
  | done
  /-- The process has ended. -/
  | nothing

/-- The exception ends the process. -/
def isCrash : Except Exn Document → Bool
  | .error (.crash _) => true
  | _ => false

def ofResult : Except Exn Document → Output
  | .ok d => .answered d
  | .error e => .failed e

/-- The process with other sessions. -/
def withSessions (c : Connector b) (sessions : SessionManager b) : Connector b :=
  { c with server := { c.server with sessions } }

def step (host : Host τ) (c : Connector b) (i : Input) : Output × Connector b :=
  if c.crashed then (.nothing, c)
  else
    match i with
    | .request r =>
      let result := exec (serve host r) c.server
      (ofResult result.1, ⟨result.2, isCrash result.1⟩)
    | .expire name =>
      (.done, c.withSessions (SessionManager.step host.cfg c.server.sessions (.expire name)).2)
    | .wait time =>
      (.done, c.withSessions (SessionManager.step host.cfg c.server.sessions (.wait time)).2)

/-- The process at its start, on a database. -/
def start (now : Nat) (db : Db b) : Connector b := ⟨⟨SessionManager.start now db, [], []⟩, false⟩

/-- A step of a run with the states around it. -/
abbrev Event (b : Backend) := Entry (Connector b) Input Output

/-- The run of the server on `inputs`. -/
abbrev runs (host : Host τ) (c : Connector b) (inputs : List Input) : List (Event b) :=
  history (step host) c inputs

section Step

variable {host : Host τ} {c : Connector b}

/-- A step of a process that serves. -/
theorem step_request (hup : c.crashed = false) (r : HttpRequest) :
    step host c (.request r) = (ofResult (exec (serve host r) c.server).1,
      ⟨(exec (serve host r) c.server).2, isCrash (exec (serve host r) c.server).1⟩) := by
  rw [step, hup]
  rfl

/-- A request whose handler is known. -/
theorem exec_serve {r : HttpRequest} {handler : RequestHandler} (h : host.handlerOf r = .ok handler)
    (s : Server b) : exec (serve host r) s = exec (handle host r handler) s := by
  rw [serve, exec_bind, exec_answer, h]

end Step

/-! ## The session manager inside -/

/-- The request is read as far as its token. -/
def readsToken (lib : Library) (params : Params) : Bool :=
  match params.getStringParameter "created" with
  | .error _ => false
  | .ok created => (readDates lib 0 created (params.str "apolloDecayStart")).isOk

/-- The call of the session manager that a handler makes for a request. -/
def callOf (host : Host τ) (r : HttpRequest) (s : Server b) : RequestHandler → Option SessionManager.Input
  | .creation | .transfer | .registerAddress =>
    if readsToken host.world.lib r.params then some (.getSession r.jwtToken r.clientIp) else none
  | .listTransactions => some (.getSession r.jwtToken r.clientIp)
  | .login => (JsonLogin.loginOf host.toLoginHost r.toLoginRequest).map .login
  | .openConnection =>
    match JsonOpenConnection.handleRequest (host.opener s.sessions.now) ⟨r.method, r.params⟩ with
    | .ok d => if d.isSuccess then some .openConnection else none
    | .error _ => none
  | _ => none

/-- What a step is for the session manager. -/
def shows (host : Host τ) (c : Connector b) (i : Input) : Option SessionManager.Input :=
  if c.crashed then none
  else
    match i with
    | .request r =>
      match host.handlerOf r with
      | .ok handler => callOf host r c.server handler
      | .error _ => none
    | .expire name => some (.expire name)
    | .wait time => some (.wait time)

section Calls

variable {host : Host τ} {c : Connector b} {i : Input}

/-- Only the handler of `/login` makes a login. -/
theorem callOf_eq_login {r : HttpRequest} {s : Server b} {handler : RequestHandler} {call : Login}
    (h : callOf host r s handler = some (.login call)) :
    handler = .login ∧ JsonLogin.loginOf host.toLoginHost r.toLoginRequest = some call := by
  cases handler with
  | login =>
    obtain ⟨call', hcall, hsame⟩ := Option.map_eq_some_iff.mp h
    cases hsame
    exact ⟨rfl, hcall⟩
  | creation | transfer | registerAddress =>
    simp only [callOf] at h
    split at h <;> simp at h
  | openConnection =>
    simp only [callOf] at h
    split at h
    · split at h <;> simp at h
    · simp at h
  | _ => simp [callOf] at h

/-- A step that shows a call is of a process that serves. -/
theorem up_of_shows {call : SessionManager.Input} (h : shows host c i = some call) :
    c.crashed = false := by
  cases hcrash : c.crashed with
  | true => simp [shows, hcrash] at h
  | false => rfl

/-- **A login of the session manager is a request to `/login`.** -/
theorem login_of_shows {call : Login} (h : shows host c i = some (.login call)) :
    ∃ r, i = .request r ∧ host.handlerOf r = .ok .login ∧
      JsonLogin.loginOf host.toLoginHost r.toLoginRequest = some call := by
  unfold shows at h
  rw [up_of_shows h] at h
  cases i with
  | expire name => simp at h
  | wait time => simp at h
  | request r =>
    refine ⟨r, rfl, ?_⟩
    cases hhandler : host.handlerOf r with
    | error e => simp [hhandler] at h
    | ok handler =>
      simp only [Bool.false_eq_true, if_false, hhandler] at h
      obtain ⟨rfl, hcall⟩ := callOf_eq_login h
      exact ⟨rfl, hcall⟩

end Calls

section Sessions

variable {w : World} {request : Request} {s : Server b}

/-- Whether the dates can be read does not depend on the clock. -/
theorem readDates_isOk (lib : Library) (now now' : DateTime) (created apolloDecayStart : String) :
    (readDates lib now created apolloDecayStart).isOk =
      (readDates lib now' created apolloDecayStart).isOk := by
  unfold readDates
  cases lib.parse created with
  | error what => rfl
  | ok parsed =>
    dsimp only
    split
    · rfl
    · cases lib.parse apolloDecayStart <;> rfl

theorem exec_findSession_after (w : World) (request : Request) (s : Server b) :
    (exec (findSession w request) s).2 = { s with sessions :=
      (exec (SessionManager.getSession w.cfg request.jwtToken request.clientIp) s.sessions).2 } := by
  unfold findSession
  rw [exec_tryCatch, exec_bind, World.getSession, Server.onSessions, exec_within]
  cases (exec (SessionManager.getSession w.cfg request.jwtToken request.clientIp) s.sessions).1 with
  | ok session => rfl
  | error e => cases e <;> rfl

/-- **Reading the parameters is a lookup of the session**, or nothing. -/
theorem exec_readSharedParameter_after (w : World) (request : Request) (s : Server b) :
    (exec (readSharedParameter w request) s).2 =
      if readsToken w.lib request.params then { s with sessions :=
        (exec (SessionManager.getSession w.cfg request.jwtToken request.clientIp) s.sessions).2 }
      else s := by
  unfold readSharedParameter
  dsimp only
  cases hcreated : request.params.getStringParameter "created" with
  | error d =>
    rw [if_neg (by simp [readsToken, hcreated])]
    rfl
  | ok created =>
    have htoken : readsToken w.lib request.params = (readDates w.lib (w.clock s.trace) created
        (request.params.str "apolloDecayStart")).isOk := by
      unfold readsToken
      rw [hcreated]
      exact readDates_isOk ..
    simp only [exec_bind, exec_get]
    cases hdates : readDates w.lib (w.clock s.trace) created
        (request.params.str "apolloDecayStart") with
    | error d =>
      rw [if_neg (by rw [htoken, hdates]; exact Bool.false_ne_true)]
      rfl
    | ok dates =>
      rw [if_pos (by rw [htoken, hdates]; rfl)]
      have hafter := exec_findSession_after w request s
      rw [exec_bind]
      rcases hfound : exec (findSession w request) s with ⟨e | d | session, t⟩ <;>
        rw [hfound] at hafter <;> exact hafter

theorem sessions_handler (h : Handler) (w : World) (request : Request) (s : Server b) :
    (exec (h.handle w request) s).2.sessions =
      if readsToken w.lib request.params then
        (exec (SessionManager.getSession w.cfg request.jwtToken request.clientIp) s.sessions).2
      else s.sessions := by
  have hread := exec_readSharedParameter_after w request s
  have hdone := h.fromSession_handle w request s
  have hsame : (exec (h.handle w request) s).2.sessions =
      (exec (readSharedParameter w request) s).2.sessions := by
    split at hdone
    · obtain ⟨out, hframe, -⟩ := hdone
      exact hframe.2
    · rw [hdone]
  rw [hsame, hread]
  split <;> rfl

/-- The effect asks the Gradido Node for the transactions of the session that the token finds. -/
def AsksForList (w : World) (request : JsonListTransactions.ListRequest) (s : SessionManager b)
    (e : Effect) : Prop :=
  ∃ session keyPair a,
    (exec (SessionManager.getSession w.cfg request.jwtToken request.clientIp) s).1 = .ok session ∧
      session.mUserKeyPair = some keyPair ∧ e = .request "listtransactions"
        (JsonListTransactions.nodeParams w.lib request.params session keyPair) a

/-- Listing transactions looks the session up and asks for its list, and changes nothing else. -/
theorem frames_listTransactions (w : World) (request : JsonListTransactions.ListRequest)
    (s : Server b) :
    ∃ out, (Server.frames b).Steps { s with sessions :=
        (exec (SessionManager.getSession w.cfg request.jwtToken request.clientIp) s.sessions).2 } out
        (exec (JsonListTransactions.handle w request) s).2 ∧
      ∀ e ∈ out, AsksForList w request s.sessions e := by
  unfold JsonListTransactions.handle
  rw [exec_bind, Server.onSessions, exec_within]
  cases hsession : (exec (SessionManager.getSession w.cfg request.jwtToken request.clientIp)
      s.sessions).1 with
  | error e => exact ⟨[], (Server.frames b).nil _, fun _ he => absurd he List.not_mem_nil⟩
  | ok session =>
    dsimp only
    cases hkey : session.mUserKeyPair with
    | none => exact ⟨[], (Server.frames b).nil _, fun _ he => absurd he List.not_mem_nil⟩
    | some keyPair =>
      refine Emits.seq_all (P := AsksForList w request s.sessions) (L := Server.frames b) ?_
        fun found t => ?_
      · refine Emits.tryCatch_all (Emits.seq_all (Server.frames_perform fun e he => ?_) fun _ _ =>
          Emits.pure_all) fun e t => ?_
        · rw [List.mem_singleton.mp he]
          exact ⟨session, keyPair, _, hsession, hkey, rfl⟩
        · split
          · exact Emits.pure_all
          · exact Emits.throw_all
      · cases found with
        | error document => exact Emits.pure_all
        | ok jsonAnswear => exact Emits.get_bind (Emits.seq_all Emits.answer_all fun _ _ => Emits.pure_all)

end Sessions

/-! ## The session manager inside the server -/

section Refinement

variable {host : Host τ} {r : HttpRequest} {s : Server b} {c : Connector b}

/-- **What a request does to the session manager**: the call its handler makes, or nothing. -/
theorem sessions_handle (host : Host τ) (r : HttpRequest) (handler : RequestHandler) (s : Server b) :
    (exec (handle host r handler) s).2.sessions =
      match callOf host r s handler with
      | some call => (SessionManager.step host.cfg s.sessions call).2
      | none => s.sessions := by
  have htransaction : ∀ h : Handler, (exec (h.handle host.world r.toRequest) s).2.sessions =
      match (if readsToken host.world.lib r.params then
        some (SessionManager.Input.getSession r.jwtToken r.clientIp) else none) with
      | some call => (SessionManager.step host.cfg s.sessions call).2
      | none => s.sessions := by
    intro h
    rw [sessions_handler]
    cases hreads : readsToken host.world.lib r.toRequest.params <;>
      simp only [show readsToken host.world.lib r.params = _ from hreads] <;> rfl
  cases handler with
  | creation => exact htransaction .creation
  | transfer => exact htransaction .transfer
  | registerAddress => exact htransaction .registerAddress
  | login =>
    show (exec (JsonLogin.handleRequest host.toLoginHost r.toLoginRequest) s.sessions).2 = _
    rw [JsonLogin.exec_handleRequest, callOf]
    cases JsonLogin.loginOf host.toLoginHost r.toLoginRequest <;> rfl
  | listTransactions =>
    obtain ⟨out, hframe, -⟩ := frames_listTransactions host.world r.toListRequest s
    exact hframe.2
  | openConnection =>
    have hafter : (exec (handle host r .openConnection) s).2 = s := by
      rw [handle, exec_bind, exec_get]
      dsimp only
      rw [exec_answer]
    rw [hafter, callOf]
    cases JsonOpenConnection.handleRequest (host.opener s.sessions.now) ⟨r.method, r.params⟩ with
    | error e => rfl
    | ok d => cases hd : d.isSuccess <;> simp [hd, SessionManager.step]
  | packTransaction =>
    rw [handle, exec_answer]
    rfl
  | sendTransactionIota =>
    rw [handle, exec_answer]
    rfl
  | transactionListener => rfl
  | getPendingTransactions => rfl
  | unknown => rfl

/-- **The server refines the machine of its session manager.** -/
theorem refines_sessions (host : Host τ) :
    Refines (step (b := b) host) (SessionManager.step host.cfg) (fun c => c.server.sessions)
      (shows host) := by
  have hstep : ∀ (c : Connector b) i, (step host c i).2.server.sessions =
      match shows host c i with
      | some call => (SessionManager.step host.cfg c.server.sessions call).2
      | none => c.server.sessions := by
    intro c i
    unfold step shows
    cases hcrash : c.crashed with
    | true => rfl
    | false =>
      cases i with
      | request r =>
        simp only [Bool.false_eq_true, if_false, serve, exec_bind, exec_answer]
        cases host.handlerOf r with
        | error e => rfl
        | ok handler => exact sessions_handle host r handler c.server
      | expire name => rfl
      | wait time => rfl
  refine ⟨fun c i hshows => ?_, fun c i call hshows => ?_⟩ <;> rw [hstep, hshows]

end Refinement

end Connector

end GradidoConnector
