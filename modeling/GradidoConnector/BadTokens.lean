import GradidoConnector.EffectTrace
import GradidoConnector.JsonListTransactions
import GradidoConnector.TokenLifetime

/-!
# What a bad token is answered with

`getSession` turns a `SignatureVerificationException` into a `JwtTokenException` and lets every
other exception of `Signer::verify` pass, as it does with that of a missing `name` claim.
`readSharedParameter` catches the exceptions of this repository's own classes (`Refusal`) and
`JsonListTransactions::handle` none. So a token that is no JWT, one of another algorithm and one
without a name make both throw, and any token that opens no session makes the second one throw.

`Readable` says that a token gets as far as the lookup of its name, or fails by its signature alone;
`Opens` that it finds a session.

Results:
* `getSession_of_readable`, `getSession_of_not_readable`: what `getSession` throws.
* **`badTokens_iff`**: exactly when either caller answers.
-/

namespace GradidoConnector

open GradidoConnector.Base GradidoConnector.Base.Act

open JsonTransaction

variable {b : Backend}

/-- `Signer::verify` throws exceptions of Poco only. -/
def ThrowsPoco (signer : Signer) : Prop :=
  ∀ token e, signer.verify token = .error e →
    ∃ what, e = .signatureVerificationException what ∨ e = .pocoException what

/-- The token verifies and has a name, or it has a wrong signature. -/
def Readable (signer : Signer) (token : String) : Prop :=
  (∃ what, signer.verify token = .error (.signatureVerificationException what)) ∨
    ∃ p name, signer.verify token = .ok p ∧ p.name = some name

/-- The token verifies, and the session of its name is live and was opened from the ip. -/
def Opens (cfg : Config) (s : SessionManager b) (token clientIp : String) : Prop :=
  ∃ p name session, cfg.signer.verify token = .ok p ∧ p.name = some name ∧
    s.live cfg name = some session ∧ session.mClientIp = clientIp

/-- The classes `readSharedParameter` catches. -/
def Refusal : Exn → Prop
  | .jwtTokenException .. => True
  | .loginException .. => True
  | .sessionException .. => True
  | _ => False

/-- `readSharedParameter` finds the session of the request or refuses with an error document. -/
def SharedAnswers (w : World) (request : Request) (s : Server b) : Prop :=
  ∃ a, (exec (readSharedParameter w request) s).1 = .ok a ∧ ∀ d, a = .error d → d.isError = true

/-- `JsonListTransactions::handle` finds the session of the request or returns an error document. -/
def ListAnswers (w : World) (request : JsonListTransactions.ListRequest) (s : Server b) : Prop :=
  (∃ session, (exec (SessionManager.getSession w.cfg request.jwtToken request.clientIp)
    s.sessions).1 = .ok session) ∨
  ∃ d, (exec (JsonListTransactions.handle w request) s).1 = .ok d ∧ d.isError = true

/-- A decay start is given that cannot be parsed: the request is refused before its token
is read. -/
def DecayStartRefused (lib : Library) (params : Params) : Prop :=
  params.str "apolloDecayStart" ≠ "" ∧ ∃ what, lib.parse (params.str "apolloDecayStart") = .error what

section GetSession

variable {cfg : Config} {s : SessionManager b} {token clientIp : String}

theorem getSession_eq_ok {session : Session} :
    (exec (SessionManager.getSession cfg token clientIp) s).1 = .ok session ↔
      ∃ p name, cfg.signer.verify token = .ok p ∧ p.name = some name ∧
        s.live cfg name = some session ∧ session.mClientIp = clientIp := by
  constructor
  · exact SessionManager.of_getSession
  · rintro ⟨p, name, hv, hn, hlive, hip⟩
    exact SessionManager.getSession_of_live hv hn hlive hip

/-- What `getSession` throws for a readable token is caught by `readSharedParameter`. -/
theorem getSession_of_readable (h : Readable cfg.signer token) {e : Exn}
    (he : (exec (SessionManager.getSession cfg token clientIp) s).1 = .error e) : Refusal e := by
  rw [SessionManager.getSession, exec_tryCatch, exec_bind, exec_answer] at he
  rcases h with ⟨what, hv⟩ | ⟨p, name, hv, hn⟩
  · rw [hv] at he
    cases he
    trivial
  · simp only [hv, hn] at he
    rw [← exec_tryCatch (x := SessionManager.sessionOf cfg name clientIp),
      SessionManager.exec_tryCatch_sessionOf, SessionManager.exec_sessionOf] at he
    dsimp only at he
    split at he
    · cases he
      trivial
    · split at he
      · cases he
        trivial
      · cases he

/-- For any other token `getSession` throws an exception of Poco. -/
theorem getSession_of_not_readable (hpoco : ThrowsPoco cfg.signer)
    (h : ¬ Readable cfg.signer token) :
    ∃ what, (exec (SessionManager.getSession cfg token clientIp) s).1 = .error (.pocoException what) := by
  rw [SessionManager.getSession, exec_tryCatch, exec_bind, exec_answer]
  cases hv : cfg.signer.verify token with
  | error e =>
    obtain ⟨what, rfl | rfl⟩ := hpoco token e hv
    · exact absurd (Or.inl ⟨what, hv⟩) h
    · exact ⟨what, rfl⟩
  | ok p =>
    cases hn : p.name with
    | some name => exact absurd (Or.inr ⟨p, name, hv, hn⟩) h
    | none =>
      simp only [hn]
      exact ⟨_, rfl⟩

end GetSession

section Answers

variable {w : World} {request : Request} {s : Server b}

theorem exec_findSession_of_ok {session : Session}
    (h : (exec (w.getSession request) s).1 = .ok session) :
    (exec (findSession w request) s).1 = .ok (.ok session) := by
  rw [findSession, exec_tryCatch, exec_bind]
  rcases hr : exec (w.getSession request) s with ⟨r, t⟩
  rw [hr] at h
  obtain rfl : r = .ok session := h
  rfl

/-- `findSession` answers what it catches. -/
theorem exec_findSession_of_refusal {e : Exn} (h : (exec (w.getSession request) s).1 = .error e)
    (he : Refusal e) : ∃ d, (exec (findSession w request) s).1 = .ok (.error d) := by
  rw [findSession, exec_tryCatch, exec_bind]
  rcases hr : exec (w.getSession request) s with ⟨r, t⟩
  rw [hr] at h
  obtain rfl : r = .error e := h
  cases e <;> first | exact ⟨_, rfl⟩ | exact he.elim

theorem exec_findSession_of_poco {what : String}
    (h : (exec (w.getSession request) s).1 = .error (.pocoException what)) :
    (exec (findSession w request) s).1 = .error (.pocoException what) := by
  rw [findSession, exec_tryCatch, exec_bind]
  rcases hr : exec (w.getSession request) s with ⟨r, t⟩
  rw [hr] at h
  obtain rfl : r = .error (.pocoException what) := h
  rfl

/-- Every document `readSharedParameter` ends with reports an error, so it answers where it
does not throw. -/
theorem sharedAnswers_iff :
    SharedAnswers w request s ↔ ∃ a, (exec (readSharedParameter w request) s).1 = .ok a := by
  obtain ⟨out, -, -, hrefuses⟩ := emits_readSharedParameter w request s
  constructor
  · rintro ⟨a, ha, -⟩
    exact ⟨a, ha⟩
  · rintro ⟨a, ha⟩
    refine ⟨a, ha, ?_⟩
    rintro d rfl
    exact hrefuses d ha

variable {created : String} {date : DateTime × Int}

/-- After the dates, `readSharedParameter` answers where `findSession` does. -/
theorem sharedAnswers_iff_findSession
    (hcreated : request.params.getStringParameter "created" = .ok created)
    (hparse : w.lib.parse created = .ok date) (hstart : ¬ DecayStartRefused w.lib request.params) :
    SharedAnswers w request s ↔ ∃ a, (exec (findSession w request) s).1 = .ok a := by
  have hdates : ∃ dates, readDates w.lib (w.clock s.trace) created
      (request.params.str "apolloDecayStart") = .ok dates := by
    unfold readDates
    rw [hparse]
    dsimp only
    by_cases hempty : (request.params.str "apolloDecayStart").isEmpty = true
    · rw [if_pos hempty]
      exact ⟨_, rfl⟩
    · rw [if_neg hempty]
      cases hstarted : w.lib.parse (request.params.str "apolloDecayStart") with
      | ok start => exact ⟨_, rfl⟩
      | error what =>
        refine absurd ⟨fun h => hempty ?_, what, hstarted⟩ hstart
        rw [h]
        rfl
  obtain ⟨dates, hdates⟩ := hdates
  rw [sharedAnswers_iff, readSharedParameter]
  simp only [hcreated, exec_bind, exec_get, hdates]
  rcases exec (findSession w request) s with ⟨e | d | session, t⟩
  · exact iff_of_false nofun nofun
  · exact iff_of_true ⟨_, rfl⟩ ⟨_, rfl⟩
  · exact iff_of_true ⟨_, rfl⟩ ⟨_, rfl⟩

/-- A decay start that cannot be parsed is answered whatever the token. -/
theorem sharedAnswers_of_decayStart
    (hcreated : request.params.getStringParameter "created" = .ok created)
    (hparse : w.lib.parse created = .ok date) (hstart : DecayStartRefused w.lib request.params) :
    SharedAnswers w request s := by
  obtain ⟨hgiven, what, hwhat⟩ := hstart
  have hnonempty : (request.params.str "apolloDecayStart").isEmpty = false := by
    rw [← Bool.not_eq_true, String.isEmpty_iff]
    exact hgiven
  have hdates : readDates w.lib (w.clock s.trace) created (request.params.str "apolloDecayStart") =
      .error (.error "cannot parse apollo decay start" (.text what)) := by
    rw [readDates, hparse]
    simp [hnonempty, hwhat]
  rw [sharedAnswers_iff, readSharedParameter]
  simp only [hcreated, exec_bind, exec_get, hdates]
  exact ⟨_, rfl⟩

end Answers

/-- **Exactly when a token is answered.** `readSharedParameter` answers a token that is readable, or
whose request has a decay start that cannot be parsed; `JsonListTransactions::handle` answers one
that opens a session. -/
theorem badTokens_iff (w : World) (hpoco : ThrowsPoco w.cfg.signer) (s : Server b) (params : Params)
    (members : List (String × Json)) (jwtToken clientIp created : String) (date : DateTime × Int)
    (hcreated : params.getStringParameter "created" = .ok created)
    (hparse : w.lib.parse created = .ok date) :
    (SharedAnswers w ⟨params, jwtToken, clientIp⟩ s ↔
      DecayStartRefused w.lib params ∨ Readable w.cfg.signer jwtToken) ∧
    (ListAnswers w ⟨members, jwtToken, clientIp⟩ s ↔ Opens w.cfg s.sessions jwtToken clientIp) := by
  have hshared : (exec (w.getSession ⟨params, jwtToken, clientIp⟩) s).1 =
      (exec (SessionManager.getSession w.cfg jwtToken clientIp) s.sessions).1 := rfl
  constructor
  · by_cases hstart : DecayStartRefused w.lib params
    · exact iff_of_true (sharedAnswers_of_decayStart hcreated hparse hstart) (Or.inl hstart)
    · rw [sharedAnswers_iff_findSession hcreated hparse hstart, or_iff_right hstart]
      constructor
      · rintro ⟨a, ha⟩
        by_contra hnot
        obtain ⟨what, hthrown⟩ : ∃ what, (exec (w.getSession ⟨params, jwtToken, clientIp⟩) s).1 =
            .error (.pocoException what) := getSession_of_not_readable hpoco hnot
        rw [exec_findSession_of_poco hthrown] at ha
        cases ha
      · intro hreadable
        cases hr : (exec (SessionManager.getSession w.cfg jwtToken clientIp) s.sessions).1 with
        | ok session => exact ⟨_, exec_findSession_of_ok (hshared.trans hr)⟩
        | error e =>
          obtain ⟨d, hd⟩ := exec_findSession_of_refusal (hshared.trans hr)
            (getSession_of_readable hreadable hr)
          exact ⟨_, hd⟩
  · constructor
    · rintro (⟨session, hsession⟩ | ⟨d, hd, -⟩)
      · obtain ⟨p, name, hv, hn, hlive, hip⟩ := getSession_eq_ok.mp hsession
        exact ⟨p, name, session, hv, hn, hlive, hip⟩
      · cases hr : (exec (SessionManager.getSession w.cfg jwtToken clientIp) s.sessions).1 with
        | error e =>
          have hthrown : (exec (JsonListTransactions.handle w ⟨members, jwtToken, clientIp⟩) s).1 =
              .error e := JsonListTransactions.exec_handle_of_error hr
          rw [hthrown] at hd
          cases hd
        | ok session =>
          obtain ⟨p, name, hv, hn, hlive, hip⟩ := getSession_eq_ok.mp hr
          exact ⟨p, name, session, hv, hn, hlive, hip⟩
    · rintro ⟨p, name, session, hv, hn, hlive, hip⟩
      exact Or.inl ⟨session, getSession_eq_ok.mpr ⟨p, name, hv, hn, hlive, hip⟩⟩

/-! ## A token without a name -/

theorem throwsPoco_plainSigner : ThrowsPoco plainSigner := by
  intro token e h
  replace h : PlainSigner.verify token = .error e := h
  unfold PlainSigner.verify at h
  split at h
  · cases h
  · cases h
    exact ⟨_, Or.inl rfl⟩

/-- The body of a request of 1 January 1970. -/
def datedParams : Params := .ofMembers [("created", "0")] []

theorem badTokens_iff_alice :
    (SharedAnswers plainWorld ⟨datedParams, SessionManager.aliceToken, "10.0.0.1"⟩ aliceServer ↔
      DecayStartRefused plainLibrary datedParams ∨ Readable plainSigner SessionManager.aliceToken) ∧
    (ListAnswers plainWorld ⟨[], SessionManager.aliceToken, "10.0.0.1"⟩ aliceServer ↔
      Opens plainConfig aliceServer.sessions SessionManager.aliceToken "10.0.0.1") :=
  badTokens_iff plainWorld throwsPoco_plainSigner aliceServer datedParams [] _ _ "0" (0, 0) rfl rfl

/-- The token `JsonOpenConnection` hands out at the start of the server. -/
def connectionToken : String := plainSigner.sign (SessionManager.connectionToken plainConfig 0)

/-- **A token of an open connection, which has no name, is answered by neither.** -/
theorem connectionToken_throws :
    (exec (readSharedParameter plainWorld ⟨datedParams, connectionToken, "10.0.0.1"⟩)
      aliceServer).1.toOption.isNone = true ∧
    (exec (JsonListTransactions.handle plainWorld ⟨[], connectionToken, "10.0.0.1"⟩)
      aliceServer).1.toOption.isNone = true ∧
    ¬ SharedAnswers plainWorld ⟨datedParams, connectionToken, "10.0.0.1"⟩ aliceServer ∧
    ¬ ListAnswers plainWorld ⟨[], connectionToken, "10.0.0.1"⟩ aliceServer := by
  have hshared : (exec (readSharedParameter plainWorld ⟨datedParams, connectionToken, "10.0.0.1"⟩)
      aliceServer).1.toOption.isNone = true := by decide
  have hlist : (exec (JsonListTransactions.handle plainWorld ⟨[], connectionToken, "10.0.0.1"⟩)
      aliceServer).1.toOption.isNone = true := by decide
  have hsession : (exec (SessionManager.getSession plainConfig connectionToken "10.0.0.1")
      aliceServer.sessions).1.toOption.isNone = true := by decide
  refine ⟨hshared, hlist, ?_, ?_⟩
  · rintro ⟨a, ha, -⟩
    rw [ha] at hshared
    cases hshared
  · rintro (⟨session, hs⟩ | ⟨d, hd, -⟩)
    · have hs' : (exec (SessionManager.getSession plainConfig connectionToken "10.0.0.1")
          aliceServer.sessions).1 = .ok session := hs
      rw [hs'] at hsession
      cases hsession
    · rw [hd] at hlist
      cases hlist

end GradidoConnector
