import GradidoConnector.SessionLease
import GradidoConnector.TokenBinding

/-!
# How long a token is accepted

`login` writes an `exp` claim into its token, and `Poco::JWT::Signer::verify` leaves reading it to
the caller; `getSession` does not read it. What ends a token is the expiry of the cached session of
its name, and every access renews that. So a token is accepted for as long as the session is kept
busy (`expired_token_accepted`), against what `exp` promises.

Results:
* `getSession_of_live`: `getSession` answers whenever the token verifies and the session of its
  name is live and of the asking ip.
* **`noExpiredToken_iff`**: a run accepts no token past its lifetime exactly when every call with
  such a token comes at a time when no session of that name, opened from the asking ip, was kept.
-/

namespace GradidoConnector

open GradidoConnector.Base GradidoConnector.Base.Act

namespace SessionManager

variable {b : Backend} (cfg : Config)

/-- The step asks for a session with a token that `call` got more than `validDuration` ago. -/
def AsksExpired (h : List (Event b)) (e : Event b) (call : Login) (clientIp : String) : Prop :=
  ∃ token, e.input = .getSession token clientIp ∧
    ∃ d ∈ h, d.input = .login call ∧ d.output = .token token ∧
      d.before.now + cfg.validDuration < e.before.now

/-- No token is accepted later than `validDuration` after it was minted. -/
def NoExpiredToken (run : List (Event b)) : Prop :=
  ∀ h e call clientIp, Occurs run h e → AsksExpired cfg h e call clientIp →
    ∀ session, e.output ≠ .session session

/-- At a call with such a token no session was kept that was opened under its name from
the asking ip. -/
def ExpiredNotKept (run : List (Event b)) : Prop :=
  ∀ h e call clientIp, Occurs run h e → AsksExpired cfg h e call clientIp →
    ∀ session, KeptOpen cfg call.userName session h → session.mClientIp ≠ clientIp

variable {cfg}

/-- **`getSession` looks at the name and the ip only**: it answers whenever they find a session. -/
theorem getSession_of_live {s : SessionManager b} {token clientIp name : String} {p : Payload}
    {session : Session} (hv : cfg.signer.verify token = .ok p) (hname : p.name = some name)
    (hlive : s.live cfg name = some session) (hip : session.mClientIp = clientIp) :
    (exec (getSession cfg token clientIp) s).1 = .ok session := by
  rw [getSession, exec_tryCatch, exec_bind, exec_answer, hv]
  simp only [hname, exec_sessionOf, hlive]
  rw [if_neg (not_not.mpr hip)]

/-- A token that a login of the run got has the name of the login. -/
theorem tokenName_of_output {s : SessionManager b} {inputs : List Input} {h : List (Event b)}
    {e d : Event b} {call : Login} {token : String} (ho : Occurs (runs cfg s inputs) h e) (hd : d ∈ h)
    (hin : d.input = .login call) (hout : d.output = .token token) :
    ∃ p, cfg.signer.verify token = .ok p ∧ p.name = some call.userName := by
  obtain ⟨h', ho'⟩ := ho.earlier hd
  rcases minted_kind (occurs_spec ho') hout with ⟨call', pk, hin', rfl⟩ | ⟨hin', -⟩
  · cases hin.symm.trans hin'
    exact ⟨_, cfg.signer.verify_sign _, rfl⟩
  · exact absurd (hin.symm.trans hin') (by simp)

/-- **A run accepts no token past its lifetime exactly when such a token never meets a session that
was kept.** -/
theorem noExpiredToken_iff (cfg : Config) (now : Nat) (db : Db b) (inputs : List Input) :
    NoExpiredToken cfg (runs cfg (start now db) inputs) ↔
      ExpiredNotKept cfg (runs cfg (start now db) inputs) := by
  have hkept : ∀ {h : List (Event b)} {e : Event b}, Occurs (runs cfg (start now db) inputs) h e →
      ∀ name session, e.before.live cfg name = some session ↔ KeptOpen cfg name session h := by
    intro h e ho name session
    obtain ⟨before, i, later, -, rfl, rfl⟩ := occurs_prefix ho
    exact live_iff_keptOpen now db before
  constructor
  · rintro hno h e call clientIp ho ⟨token, hin, d, hd, hdin, hdout, hlate⟩ session hopen hip
    obtain ⟨p, hv, hname⟩ := tokenName_of_output ho hd hdin hdout
    refine hno h e call clientIp ho ⟨token, hin, d, hd, hdin, hdout, hlate⟩ session ?_
    have hspec := occurs_spec ho
    rw [hin] at hspec
    rw [hspec]
    have hlive := (hkept ho call.userName session).mpr hopen
    exact congrArg ofSession (getSession_of_live hv hname hlive hip)
  · rintro hnone h e call clientIp ho ⟨token, hin, d, hd, hdin, hdout, hlate⟩ session hout
    obtain ⟨p, hv, hname⟩ := tokenName_of_output ho hd hdin hdout
    obtain ⟨p', name, hv', hname', hlive, hip⟩ := session_of_getSession (occurs_spec ho) hin hout
    rw [← Except.ok.inj (hv.symm.trans hv'), hname, Option.some.injEq] at hname'
    subst hname'
    have hopen := (hkept ho call.userName session).mp hlive
    exact hnone h e call clientIp ho ⟨token, hin, d, hd, hdin, hdout, hlate⟩ session hopen hip

/-- `alice` logs in and uses her token after 20 ms and after 40 ms; it is valid for 25 ms. -/
def aliceStaysBusy : List Input :=
  [.login (aliceLogin "secret"), .wait 20, .getSession aliceToken "10.0.0.1", .wait 20,
    .getSession aliceToken "10.0.0.1"]

/-- **A token can be accepted after its lifetime**, when the session was used in between. -/
theorem expired_token_accepted :
    ¬ NoExpiredToken plainConfig (runs plainConfig freshServer aliceStaysBusy) := by
  intro hno
  let run : List (Event plainMysql) := runs plainConfig freshServer aliceStaysBusy
  let first : Event plainMysql := entryOf (step plainConfig) freshServer (.login (aliceLogin "secret"))
  let last : Event plainMysql := entryOf (step plainConfig)
    (final (step plainConfig) freshServer (aliceStaysBusy.take 4)) (.getSession aliceToken "10.0.0.1")
  have hexpired : AsksExpired plainConfig (run.take 4) last (aliceLogin "secret") "10.0.0.1" :=
    ⟨aliceToken, rfl, first, List.mem_cons_self, rfl, by decide, by decide⟩
  exact hno (run.take 4) last (aliceLogin "secret") "10.0.0.1" ⟨[], rfl⟩ hexpired
    ⟨"gdd", 1, "10.0.0.1", some (plainCrypto.createKey "alice" "secret"),
      some (plainCrypto.ofPassphrase "passphrase")⟩ (by decide)

end SessionManager

end GradidoConnector
