import GradidoConnector.Connector
import GradidoConnector.HexFields

/-!
# Everything done outside goes back to a login

The server looks recipients up, asks the Gradido Node and hands out messages, transactions to iota
or to the Gradido Node. In every run, whatever requests arrive in whatever order and whatever fails,
all this is done for requests to the three transaction paths and to `/listTransactions` alone, whose
token `/login` gave to somebody, and whose ip the owner of that name logged in from (`Entitled`). A
message carries a transaction signed by the key pair of that login and by nobody else, and the
transactions are listed for its key (`DoneWith`).

`Unforgeable` is the assumption on the signer: a token that verifies was signed in an earlier step.

Results:
* `effect_of_handle`: which handlers do anything outside, and for which session.
* `entitled_of_lookup`: who finds a session.
* **`effectsAuthorized_of_unforgeable`**: every effect of a run with unforgeable tokens is
  authorized.
-/

namespace GradidoConnector

open GradidoConnector.Base GradidoConnector.Base.Act

open JsonTransaction

variable {b : Backend} {τ : Type}

/-- A session in the cache was established by a login under its name. -/
theorem SessionManager.cached_of_login {cfg : Config} {now : Nat} {db : Db b}
    {inputs : List SessionManager.Input} {h : List (SessionManager.Event b)}
    {e : SessionManager.Event b} (ho : Occurs (SessionManager.runs cfg (start now db) inputs) h e)
    {name : String} {session : Session} (hc : e.before.Cached name session) :
    ∃ d ∈ h, ∃ call, call.userName = name ∧ Establishes cfg call session d := by
  have hinv := occurs_invariant (C := fun _ _ => True)
    (I := fun h (s : SessionManager b) => ∀ name session, s.Cached name session →
      ∃ d ∈ h, ∃ call, call.userName = name ∧ Establishes cfg call session d) ?_ ?_
    (fun _ _ _ => trivial) ho
  · exact hinv name session hc
  · rintro name session ⟨slot, hs, -⟩
    exact absurd hs (by simp [start])
  · intro h s i hinv _ name session hc
    rcases step_cached hc with hold | ⟨call, hname, hnew⟩
    · obtain ⟨d, hd, hest⟩ := hinv name session hold
      exact ⟨d, List.mem_append_left _ hd, hest⟩
    · exact ⟨_, List.mem_append_right _ List.mem_cons_self, call, hname, hnew⟩

/-- **A session handed out for a token of `login`**: the token was given to a name, and a login of
that name from the same ip established the session. -/
theorem SessionManager.logins_of_getSession {cfg : Config} {now : Nat} {db : Db b}
    {inputs : List SessionManager.Input}
    (hforge : Unforgeable cfg (SessionManager.runs cfg (start now db) inputs))
    {h : List (SessionManager.Event b)} {e : SessionManager.Event b}
    (ho : Occurs (SessionManager.runs cfg (start now db) inputs) h e) {token clientIp : String}
    {session : Session} (hin : e.input = .getSession token clientIp)
    (hout : e.output = .session session) :
    ∃ name, (∃ d ∈ h, ∃ call, d.input = .login call ∧ call.userName = name ∧
        d.output = .token token) ∧
      ∃ d ∈ h, ∃ call, call.userName = name ∧ call.clientIp = clientIp ∧
        Establishes cfg call session d := by
  obtain ⟨p, name, hv, hname, hlive, hip⟩ := session_of_getSession (occurs_spec ho) hin hout
  refine ⟨name, ?_, ?_⟩
  · obtain ⟨d, hd, hdout⟩ := hforge h e token clientIp p ho (Or.inl hin) hv
    rcases claims_of_token ho hd hdout hv with ⟨call, pk, hdin, rfl⟩ | ⟨-, rfl⟩
    · exact ⟨d, hd, call, hdin, Option.some.inj hname, hdout⟩
    · exact absurd hname (by simp [connectionToken])
  · obtain ⟨d, hd, call, hcall, hest⟩ := cached_of_login ho (cached_of_live hlive)
    exact ⟨d, hd, call, hcall, hest.clientIp.symm.trans hip, hest⟩

/-- The classes whose handlers send transactions. -/
def RequestHandler.Sends : RequestHandler → Prop
  | .creation | .transfer | .registerAddress => True
  | _ => False

namespace Connector

/-! ## The messages of one request -/

section Request

variable {host : Host τ} {r : HttpRequest} {s : Server b}

theorem getSession_of_findSession (w : World) (request : Request) {session : Session}
    (h : (exec (findSession w request) s).1 = .ok (.ok session)) :
    (exec (SessionManager.getSession w.cfg request.jwtToken request.clientIp) s.sessions).1 =
      .ok session := by
  rw [findSession, exec_tryCatch, exec_bind, World.getSession, Server.onSessions, exec_within] at h
  cases hget : (exec (SessionManager.getSession w.cfg request.jwtToken request.clientIp)
      s.sessions).1 with
  | ok found =>
    rw [hget] at h
    cases h
    rfl
  | error e =>
    rw [hget] at h
    cases e <;> cases h

/-- A class whose handler sends transactions is one of the three transaction handlers. -/
theorem handle_of_sends {handler : RequestHandler} (h : handler.Sends) (host : Host τ) (r : HttpRequest) :
    ∃ sender : Handler,
      (handle host r handler : Act (Server b) Exn Document) = sender.handle host.world r.toRequest := by
  cases handler with
  | creation => exact ⟨.creation, rfl⟩
  | transfer => exact ⟨.transfer, rfl⟩
  | registerAddress => exact ⟨.registerAddress, rfl⟩
  | _ => exact h.elim

/-- Reading the parameters hands nothing out. -/
theorem trace_readSharedParameter (w : World) (request : Request) (s : Server b) :
    (exec (readSharedParameter w request) s).2.trace = s.trace := by
  rw [exec_readSharedParameter_after]
  split <;> rfl

/-- What a handler does outside with the session of its request. -/
inductive DoneWith (host : Host τ) (r : HttpRequest) (session : Session) : RequestHandler → Effect → Prop
  | sends {handler : RequestHandler} {effect : Effect} (h : handler.Sends)
      (hfrom : FromSession host.world session effect) : DoneWith host r session handler effect
  | lists {keyPair : KeyPair} {a : Except Exn Json} (hkey : session.mUserKeyPair = some keyPair) :
      DoneWith host r session .listTransactions (.request "listtransactions"
        (JsonListTransactions.nodeParams host.world.lib r.members session keyPair) a)

/-- A transaction handler that does anything has found its session. -/
theorem effect_of_sender (sender : Handler) {out : List Effect} {effect : Effect}
    (htrace : (exec (sender.handle host.world r.toRequest) s).2.trace = s.trace ++ out)
    (hmem : effect ∈ out) :
    readsToken host.world.lib r.params = true ∧ ∃ session,
      (exec (SessionManager.getSession host.cfg r.jwtToken r.clientIp) s.sessions).1 = .ok session ∧
        FromSession host.world session effect := by
  have hkept := trace_readSharedParameter host.world r.toRequest s
  have hdone := sender.fromSession_handle host.world r.toRequest s
  split at hdone
  · rename_i this hshared
    obtain ⟨out', hframe, hown⟩ := hdone
    have hout : out' = out := by
      rw [hframe.1.trace, hkept] at htrace
      exact List.append_cancel_left htrace
    obtain ⟨created, dates, session, hcreated, hdates, hfound, rfl⟩ :=
      exec_readSharedParameter_eq_ok.mp (Prod.ext hshared rfl :
        exec (readSharedParameter host.world r.toRequest) s = (.ok (.ok this), _))
    refine ⟨?_, session, ?_, hown effect (hout ▸ hmem)⟩
    · unfold readsToken
      rw [show r.params.getStringParameter "created" = _ from hcreated]
      dsimp only
      rw [readDates_isOk host.world.lib 0 (host.world.clock s.trace)]
      exact congrArg Except.isOk hdates
    · exact getSession_of_findSession host.world r.toRequest (by rw [hfound])
  · rw [hdone, hkept] at htrace
    rw [List.self_eq_append_right.mp htrace] at hmem
    exact absurd hmem List.not_mem_nil

/-- **The effects of a request**: only the transaction paths and `/listTransactions` have any, and
these come from the session that the request's token finds. -/
theorem effect_of_handle {handler : RequestHandler} {out : List Effect} {effect : Effect}
    (htrace : (exec (handle host r handler) s).2.trace = s.trace ++ out) (hmem : effect ∈ out) :
    callOf host r s handler = some (.getSession r.jwtToken r.clientIp) ∧ ∃ session,
      (exec (SessionManager.getSession host.cfg r.jwtToken r.clientIp) s.sessions).1 = .ok session ∧
        DoneWith host r session handler effect := by
  have hsilent : ∀ {t : Server b}, t.trace = s.trace → t.trace = s.trace ++ out → False := by
    intro t hsame hgrown
    rw [hsame] at hgrown
    rw [List.self_eq_append_right.mp hgrown] at hmem
    exact absurd hmem List.not_mem_nil
  cases handler with
  | creation =>
    obtain ⟨hreads, session, hget, hfrom⟩ := effect_of_sender .creation htrace hmem
    exact ⟨if_pos hreads, session, hget, .sends trivial hfrom⟩
  | transfer =>
    obtain ⟨hreads, session, hget, hfrom⟩ := effect_of_sender .transfer htrace hmem
    exact ⟨if_pos hreads, session, hget, .sends trivial hfrom⟩
  | registerAddress =>
    obtain ⟨hreads, session, hget, hfrom⟩ := effect_of_sender .registerAddress htrace hmem
    exact ⟨if_pos hreads, session, hget, .sends trivial hfrom⟩
  | listTransactions =>
    obtain ⟨out', hframe, hasks⟩ := frames_listTransactions host.world r.toListRequest s
    have hout : out' = out := by
      have hgrown := hframe.1.trace
      rw [show (exec (JsonListTransactions.handle host.world r.toListRequest) s).2.trace = _ from
        htrace] at hgrown
      exact (List.append_cancel_left hgrown).symm
    obtain ⟨session, keyPair, a, hget, hkey, rfl⟩ := hasks effect (hout ▸ hmem)
    exact ⟨rfl, session, hget, .lists hkey⟩
  | openConnection =>
    refine (hsilent ?_ htrace).elim
    rw [handle, exec_bind, exec_get]
    dsimp only
    rw [exec_answer]
  | packTransaction => exact (hsilent (by rw [handle, exec_answer]) htrace).elim
  | sendTransactionIota => exact (hsilent (by rw [handle, exec_answer]) htrace).elim
  | login => exact (hsilent rfl htrace).elim
  | transactionListener => exact (hsilent rfl htrace).elim
  | getPendingTransactions => exact (hsilent rfl htrace).elim
  | unknown => exact (hsilent rfl htrace).elim

end Request

/-! ## The steps of a run -/

/-- The step added the effect to the trace. -/
def Emitted (e : Event b) (effect : Effect) : Prop :=
  ∃ out, e.after.server.trace = e.before.server.trace ++ out ∧ effect ∈ out

/-- The step is a request to `/login` that comes to the login `call`. -/
def AsksLogin (host : Host τ) (call : Login) (d : Event b) : Prop :=
  ∃ r, d.input = .request r ∧ host.handlerOf r = .ok .login ∧
    JsonLogin.loginOf host.toLoginHost r.toLoginRequest = some call

/-- The step answered a login under the name with the token. -/
def GaveToken (host : Host τ) (name token : String) (d : Event b) : Prop :=
  ∃ call, AsksLogin host call d ∧ call.userName = name ∧
    d.output = .answered (JsonLogin.tokenDocument token)

/-- The step established the session for the login `call`: it belongs to a stored account of the
name whose password the caller knew. -/
structure Opened (host : Host τ) (call : Login) (session : Session) (d : Event b) : Prop where
  asked : AsksLogin host call d
  account : call.Established host.cfg.crypto d.after.server.sessions.db session

/-- What gives a request the right to a session: `/login` gave its token to a name, and a login of
that name from the ip of the request opened the session. -/
def Entitled (host : Host τ) (h : List (Event b)) (token clientIp : String) (session : Session) : Prop :=
  ∃ name, (∃ d ∈ h, GaveToken host name token d) ∧
    ∃ d ∈ h, ∃ call, call.userName = name ∧ call.clientIp = clientIp ∧ Opened host call session d

/-- Every effect of the run is of a request with the right to a session, and is done
with that session. -/
def EffectsAuthorized (host : Host τ) (run : List (Event b)) : Prop :=
  ∀ h e effect, Occurs run h e → Emitted e effect →
    ∃ r handler session, e.input = .request r ∧ host.handlerOf r = .ok handler ∧
      Entitled host h r.jwtToken r.clientIp session ∧ DoneWith host r session handler effect

/-- What the run is for the session manager. -/
abbrev sessionRun (host : Host τ) (run : List (Event b)) : List (SessionManager.Event b) :=
  project (SessionManager.step host.cfg) (fun c => c.server.sessions) (shows host) run

/-- A token that verifies was signed in an earlier step. -/
def Unforgeable (host : Host τ) (run : List (Event b)) : Prop :=
  SessionManager.Unforgeable host.cfg (sessionRun host run)

section Run

variable {host : Host τ} {c : Connector b} {i : Input}

/-- A login that returned a token is answered with it. -/
theorem output_of_login {d : Event b} {call : Login} {t : String}
    (hspec : d = entryOf (step host) d.before d.input)
    (hshows : shows host d.before d.input = some (.login call))
    (hout : (entryOf (SessionManager.step host.cfg) d.before.server.sessions (.login call)).output =
      .token t) : d.output = .answered (JsonLogin.tokenDocument t) := by
  obtain ⟨r, hin, hhandler, hlogin⟩ := login_of_shows hshows
  have hrun : (exec (SessionManager.login host.cfg call) d.before.server.sessions).1 = .ok t := by
    have hof : SessionManager.ofToken
        (exec (SessionManager.login host.cfg call) d.before.server.sessions).1 = .token t := hout
    cases hr : (exec (SessionManager.login host.cfg call) d.before.server.sessions).1 with
    | ok t' =>
      rw [hr] at hof
      rw [SessionManager.Output.token.inj hof]
    | error e =>
      rw [hr] at hof
      exact SessionManager.Output.noConfusion hof
  have hanswer : (exec (serve host r) d.before.server).1 = .ok (JsonLogin.tokenDocument t) := by
    rw [exec_serve hhandler]
    show (exec (JsonLogin.handleRequest host.toLoginHost r.toLoginRequest)
      d.before.server.sessions).1 = _
    rw [JsonLogin.exec_handleRequest, hlogin]
    exact congrArg JsonLogin.answerOf hrun
  rw [hspec, hin]
  show (step host d.before (.request r)).1 = _
  rw [step_request (up_of_shows hshows), hanswer]
  rfl

end Run

section Authorized

variable {host : Host τ} {now : Nat} {db : Db b} {inputs : List Input} {h : List (Event b)} {e : Event b}

/-- **A step with an effect** is a request that found its session. -/
theorem request_of_effect {effect : Effect} (hspec : e = entryOf (step host) e.before e.input)
    (hemit : Emitted e effect) :
    ∃ r handler session, e.input = .request r ∧ host.handlerOf r = .ok handler ∧
      shows host e.before e.input = some (.getSession r.jwtToken r.clientIp) ∧
      (exec (SessionManager.getSession host.cfg r.jwtToken r.clientIp) e.before.server.sessions).1 =
        .ok session ∧ DoneWith host r session handler effect := by
  obtain ⟨out, htrace, hmem⟩ := hemit
  have hsilent : e.after.server.trace ≠ e.before.server.trace := by
    intro hsame
    rw [hsame] at htrace
    rw [List.self_eq_append_right.mp htrace] at hmem
    exact absurd hmem List.not_mem_nil
  have hafter : e.after = (step host e.before e.input).2 := congrArg Entry.after hspec
  cases hcrash : e.before.crashed with
  | true => simp [hafter, step, hcrash] at hsilent
  | false =>
    cases hin : e.input with
    | expire name => simp [hafter, step, hcrash, hin, withSessions] at hsilent
    | wait time => simp [hafter, step, hcrash, hin, withSessions] at hsilent
    | request r =>
      rw [hin, step_request hcrash] at hafter
      cases hhandler : host.handlerOf r with
      | error err =>
        have hsame : (exec (serve host r) e.before.server).2 = e.before.server := by
          rw [serve, exec_bind, exec_answer, hhandler]
        rw [hafter, hsame] at hsilent
        exact absurd rfl hsilent
      | ok handler =>
        rw [hafter, exec_serve hhandler] at htrace
        obtain ⟨hcall, session, hsession, hdone⟩ := effect_of_handle htrace hmem
        refine ⟨r, handler, session, rfl, hhandler, ?_, hsession, hdone⟩
        simp only [shows, hcrash, Bool.false_eq_true, if_false, hhandler, hcall]

/-- What a run shows is a run of the session manager. -/
theorem sessionRun_eq (host : Host τ) (now : Nat) (db : Db b) (inputs : List Input) :
    ∃ calls, sessionRun host (runs host (start now db) inputs) =
      SessionManager.runs host.cfg (SessionManager.start now db) calls :=
  ⟨_, ((refines_sessions host).project_history (start now db) inputs).1⟩

/-- A step of the session manager that is a login was a request to `/login`. -/
theorem asksLogin_of_project (hspec : ∀ d ∈ h, d = entryOf (step host) d.before d.input)
    {d' : SessionManager.Event b} (hd' : d' ∈ sessionRun host h) {call : Login}
    (hin : d'.input = .login call) :
    ∃ d ∈ h, AsksLogin host call d ∧ d'.before = d.before.server.sessions ∧
      d'.after = d.after.server.sessions ∧
      ∀ t, d'.output = .token t → d.output = .answered (JsonLogin.tokenDocument t) := by
  obtain ⟨d, hd, j, hshows, rfl⟩ := mem_project.mp hd'
  obtain rfl : j = .login call := hin
  refine ⟨d, hd, ?_, rfl, ?_, fun t hout => output_of_login (hspec d hd) hshows hout⟩
  · exact login_of_shows hshows
  · have hafter : d.after = (step host d.before d.input).2 := congrArg Entry.after (hspec d hd)
    rw [hafter]
    exact ((refines_sessions host).shown _ _ _ hshows).symm

/-- **Who finds a session**: a lookup that found one was entitled to it. -/
theorem entitled_of_lookup {token clientIp : String} {session : Session}
    (hforge : Unforgeable host (runs host (start now db) inputs))
    (ho : Occurs (runs host (start now db) inputs) h e)
    (hshows : shows host e.before e.input = some (.getSession token clientIp))
    (hsession : (exec (SessionManager.getSession host.cfg token clientIp) e.before.server.sessions).1 =
      .ok session) : Entitled host h token clientIp session := by
  have hspec : ∀ d ∈ h, d = entryOf (step host) d.before d.input := by
    intro d hd
    obtain ⟨h', ho'⟩ := ho.earlier hd
    exact occurs_spec ho'
  -- the lookup of the session, as a step of the session manager's run
  obtain ⟨calls, hcalls⟩ := sessionRun_eq host now db inputs
  have hlookup := occurs_project (SessionManager.step host.cfg)
    (fun c : Connector b => c.server.sessions) ho hshows
  rw [show project _ _ _ (runs host (start now db) inputs) = _ from hcalls] at hlookup
  rw [Unforgeable, hcalls] at hforge
  obtain ⟨name, ⟨d, hd, call, hdin, hname, hdout⟩, d', hd', call', hname', hip, hest⟩ :=
    SessionManager.logins_of_getSession hforge hlookup rfl (congrArg SessionManager.ofSession hsession)
  refine ⟨name, ?_, ?_⟩
  · obtain ⟨g, hg, hasks, -, -, hanswer⟩ := asksLogin_of_project hspec hd hdin
    exact ⟨g, hg, call, hasks, hname, hanswer _ hdout⟩
  · obtain ⟨g, hg, hasks, hbefore, hafter, -⟩ := asksLogin_of_project hspec hd' hest.1
    refine ⟨g, hg, call', hname', hip, hasks, ?_⟩
    obtain ⟨-, -, n, hexec⟩ := hest
    have hout := Login.outcome host.cfg.crypto call' d'.before.db
    rw [hexec] at hout
    rw [← hafter]
    exact hout.established

/-- **Every effect of a run with unforgeable tokens is authorized.** -/
theorem effectsAuthorized_of_unforgeable (host : Host τ) (now : Nat) (db : Db b)
    (inputs : List Input) (hforge : Unforgeable host (runs host (start now db) inputs)) :
    EffectsAuthorized host (runs host (start now db) inputs) := by
  intro h e effect ho hemit
  obtain ⟨r, handler, session, hin, hhandler, hshows, hsession, hdone⟩ :=
    request_of_effect (occurs_spec ho) hemit
  exact ⟨r, handler, session, hin, hhandler, entitled_of_lookup hforge ho hshows hsession, hdone⟩

end Authorized

/-! ## Alice registers her address -/

/-- A host in which nobody fails; a password is sealed as its own bytes. -/
def plainHost : Host (List (Bytes × Bytes)) where
  world := plainWorld
  decrypt := JsonLogin.plainLoginHost.decrypt
  serverPubkey := plainOpener.serverPubkey
  keyAt := plainOpener.keyAt
  keyAt_of_le := plainOpener.keyAt_of_le
  verify := plainOpener.verify
  decoder := JsonTransactionListener.sampleDecoder
  packer := plainPacker
  transactions := plainTransactions
  getTransactionTypeString _ := "transaction"
  parseAddress _ := .ok ()

/-- A request from the ip of `alice`. -/
def postRequest (uri jwtToken : String) (strings : List (String × String)) : HttpRequest :=
  ⟨uri, "POST", none, "10.0.0.1", jwtToken, .ofMembers strings [], [], none, .missing,
    quietEnv "passphrase"⟩

def loginAlice : HttpRequest := postRequest "/login" ""
  [("name", "alice"), ("password", plainLibrary.binToHex (bytesOf "secret")), ("groupAlias", "gdd")]

def registerAlice : HttpRequest := postRequest "/registerAddress?a=b" SessionManager.aliceToken
  [("created", "31536000"), ("addressType", "HUMAN")]

/-- A login and a registration with its token. -/
def aliceRegisters : List Input := [.request loginAlice, .request registerAlice]

/-- What it is for the session manager. -/
theorem sessionRun_aliceRegisters :
    sessionRun plainHost (runs (b := plainMysql) plainHost (start 0 .empty) aliceRegisters) =
      SessionManager.runs plainConfig SessionManager.freshServer
        [.login (SessionManager.aliceLogin "secret"),
          .getSession SessionManager.aliceToken "10.0.0.1"] := by rfl

theorem unforgeable_aliceRegisters :
    Unforgeable plainHost (runs (b := plainMysql) plainHost (start 0 .empty) aliceRegisters) := by
  rw [Unforgeable, sessionRun_aliceRegisters]
  intro h e token clientIp p ho hask _
  rcases occurs_cons.mp ho with ⟨rfl, rfl⟩ | ⟨h₁, rfl, ho₁⟩
  · rcases hask with hin | ⟨_, hin⟩ <;> exact SessionManager.Input.noConfusion hin
  rcases occurs_cons.mp ho₁ with ⟨rfl, rfl⟩ | ⟨h₂, rfl, ho₂⟩
  · rcases hask with hin | ⟨_, hin⟩
    · cases hin
      exact ⟨_, List.mem_cons_self, by decide⟩
    · exact SessionManager.Input.noConfusion hin
  · exact absurd ho₂ occurs_nil

/-- The registration is sent, and authorized. -/
theorem effectsAuthorized_aliceRegisters :
    (final (step plainHost) (start (b := plainMysql) 0 .empty) aliceRegisters).server.pending.length = 1 ∧
      EffectsAuthorized plainHost
        (runs (b := plainMysql) plainHost (start 0 .empty) aliceRegisters) :=
  ⟨by decide, effectsAuthorized_of_unforgeable plainHost 0 .empty aliceRegisters
    unforgeable_aliceRegisters⟩

end Connector

end GradidoConnector
