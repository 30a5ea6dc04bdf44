import GradidoConnector.Authorization
import GradidoConnector.SessionLease

/-!
# How long a session lives

A token finds a session exactly if somebody logged in under its name from the ip that asks, and the
session was kept since: it was not taken out of the cache, and between two requests under the name
less than `session.duration_seconds` passed. What requests under other names do, and requests that
do not get as far as a token, does not matter; and there is no logout. A login under the name while
the session is kept renews it like any other request, whatever its password.

Results:
* `slot_step`: what a step of the server is for the entry of a name.
* `opens_iff`: the requests that put a session into the cache.
* **`foundWhileKept_of_run`**: in every run a token finds a session exactly while it is kept.
-/

namespace GradidoConnector

open GradidoConnector.Base GradidoConnector.Base.Act

variable {b : Backend} {τ : Type}

namespace Connector

/-- What a step of the server is for the cached session of the name. -/
def useOf (host : Host τ) (name : String) (e : Event b) : Use Session :=
  match shows host e.before e.input with
  | some call => SessionManager.useOf host.cfg name
      (entryOf (SessionManager.step host.cfg) e.before.server.sessions call)
  | none => .other

/-- The step put the session into the cache: a request to `/login` under the name, when no session
was kept under it. -/
def Opens (host : Host τ) (name : String) (session : Session) (d : Event b) : Prop :=
  ∃ call, AsksLogin host call d ∧ call.userName = name ∧ d.before.crashed = false ∧
    d.before.server.sessions.live host.cfg name = none ∧
    ∃ n, (call.exec host.cfg.crypto d.before.server.sessions.db).1 = .ok (n, session)

/-- The session was opened under the name, and kept since. -/
def KeptOpen (host : Host τ) (name : String) (session : Session) (h : List (Event b)) : Prop :=
  ∃ before d after, h = before ++ d :: after ∧ Opens host name session d ∧
    Kept host.cfg.validDuration 0 (after.map (useOf host name))

/-- At every time of the run a token finds, for an ip, exactly the session that was opened from
there under its name and kept since. -/
def FoundWhileKept (host : Host τ) (run : List (Event b)) : Prop :=
  ∀ h e token clientIp session, Occurs run h e →
    ((exec (SessionManager.getSession host.cfg token clientIp) e.before.server.sessions).1 =
        .ok session ↔
      session.mClientIp = clientIp ∧ ∃ name, SessionManager.tokenName host.cfg token = some name ∧
        KeptOpen host name session h)

section Run

variable {host : Host τ} {name : String} {session : Session}

/-- A request to `/login` shows its login while the process serves. -/
theorem shows_login {c : Connector b} {i : Input} {call : Login} :
    shows host c i = some (.login call) ↔ c.crashed = false ∧ ∃ r, i = .request r ∧
      host.handlerOf r = .ok .login ∧
        JsonLogin.loginOf host.toLoginHost r.toLoginRequest = some call := by
  constructor
  · exact fun h => ⟨up_of_shows h, login_of_shows h⟩
  · rintro ⟨hup, r, rfl, hhandler, hlogin⟩
    simp [shows, hup, hhandler, callOf, hlogin]

/-- **The requests that put a session into the cache.** -/
theorem opens_iff {d : Event b} : useOf host name d = .put session ↔ Opens host name session d := by
  unfold useOf
  constructor
  · intro h
    cases hshows : shows host d.before d.input with
    | none => simp [hshows] at h
    | some call =>
      rw [hshows] at h
      obtain ⟨login, rfl, hname, hlive, hexec⟩ := SessionManager.opens_iff.mp h
      obtain ⟨hup, hasks⟩ := shows_login.mp hshows
      exact ⟨login, hasks, hname, hup, hlive, hexec⟩
  · rintro ⟨call, hasks, hname, hup, hlive, hexec⟩
    rw [shows_login.mpr ⟨hup, hasks⟩]
    exact SessionManager.opens_iff.mpr ⟨call, rfl, hname, hlive, hexec⟩

theorem slot_step (host : Host τ) (name : String) (c : Connector b) (i : Input) :
    SessionManager.slotOf name (step host c i).2.server.sessions =
      useStep host.cfg.validDuration (SessionManager.slotOf name c.server.sessions)
        (useOf host name (entryOf (step host) c i)) := by
  have href := refines_sessions (b := b) host
  unfold useOf
  simp only [entryOf]
  cases hshows : shows host c i with
  | none =>
    rw [href.silent c i hshows]
    rfl
  | some call =>
    rw [href.shown c i call hshows]
    exact SessionManager.slot_step host.cfg name c.server.sessions call

/-- **The live session of a name is the one that was opened and kept.** -/
theorem live_iff_keptOpen (now : Nat) (db : Db b) (inputs : List Input) :
    (final (step host) (start now db) inputs).server.sessions.live host.cfg name = some session ↔
      KeptOpen host name session (runs host (start now db) inputs) := by
  have hslot := final_eq_foldl (fun c : Connector b => SessionManager.slotOf name
    c.server.sessions) (slot_step host name) (start now db) inputs
  simp only [KeptOpen, ← opens_iff]
  rw [← leased_map_iff, ← foundAfter_iff_leased now, foundAfter]
  rw [show (now, none) = SessionManager.slotOf name (start now db).server.sessions from rfl]
  rw [← hslot]
  rfl

/-- **In every run a token finds a session exactly while it is kept.** -/
theorem foundWhileKept_of_run (host : Host τ) (now : Nat) (db : Db b) (inputs : List Input) :
    FoundWhileKept host (runs host (start now db) inputs) := by
  intro h e token clientIp session ho
  obtain ⟨is₁, i, is₂, -, rfl, rfl⟩ := occurs_prefix ho
  rw [SessionManager.getSession_eq_ok]
  refine and_congr_right fun _ => exists_congr fun name => and_congr_right fun _ => ?_
  exact live_iff_keptOpen now db is₁

end Run

end Connector

end GradidoConnector
