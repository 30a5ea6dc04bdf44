import GradidoConnector.Base.Lease
import GradidoConnector.SessionManager

/-!
# What keeps a session in the cache

The cache holds a session under a name exactly if a login under the name put it there, and it was
kept since: it was not taken out, and between two calls under the name less than `validDuration`
passed. A login under the name while the session is kept renews it like any other call, whatever its
password.

Results:
* `slot_step`: what a call of the session manager is for the entry of a name.
* `opens_iff`: the calls that put a session into the cache.
* **`live_iff_keptOpen`**: in every run the live session of a name is the one that was opened and
  kept.
-/

namespace GradidoConnector

open GradidoConnector.Base GradidoConnector.Base.Act

variable {b : Backend}

namespace SessionManager

/-- The name in a token that verifies. -/
def tokenName (cfg : Config) (token : String) : Option String :=
  match cfg.signer.verify token with
  | .ok p => p.name
  | .error _ => none

/-- The name the other overload was given, if the token is one of `openConnection`. -/
def connectionName (cfg : Config) (token username : String) : Option String :=
  match cfg.signer.verify token with
  | .ok p => if p.subject = "openConnection" then some username else none
  | .error _ => none

/-- What a call is for the cached session of the name. -/
def useOf (cfg : Config) (name : String) (e : Event b) : Use Session :=
  match e.input with
  | .login call =>
    if call.userName = name then
      match e.before.live cfg name, (call.exec cfg.crypto e.before.db).1 with
      | none, .ok (_, session) => .put session
      | _, _ => .access
    else .other
  | .getSession token _ => if tokenName cfg token = some name then .access else .other
  | .getSessionFor token username _ =>
    if connectionName cfg token username = some name then .access else .other
  | .openConnection => .other
  | .expire name' => if name' = name then .remove else .other
  | .wait time => .wait time

/-- The clock and the entry of the name. -/
def slotOf (name : String) (s : SessionManager b) : Nat × Option (Slot Session) :=
  (s.now, s.mActiveSessions name)

section Step

variable {cfg : Config} {s : SessionManager b} {name name' clientIp token : String}

/-- An access of a name uses the entry of that name alone. -/
theorem slotOf_touched : slotOf name (s.touched cfg name') =
    useStep cfg.validDuration (slotOf name s) (if name' = name then .access else .other) := by
  by_cases h : name' = name
  · subst h
    rw [if_pos rfl]
    exact congrArg (Prod.mk s.now) ExpireCache.touch_self
  · rw [if_neg h]
    exact congrArg (Prod.mk s.now) (ExpireCache.touch_of_ne (Ne.symm h))

/-- A lookup with a named token looks for the session of the name. -/
theorem exec_getSession_of_name (h : tokenName cfg token = some name) (clientIp : String)
    (s : SessionManager b) :
    exec (getSession cfg token clientIp) s = exec (sessionOf cfg name clientIp) s := by
  unfold tokenName at h
  rw [getSession, exec_tryCatch, exec_bind, exec_answer]
  cases hv : cfg.signer.verify token with
  | error e => simp [hv] at h
  | ok p =>
    rw [hv] at h
    simp only [show p.name = some name from h]
    exact exec_tryCatch.symm.trans (exec_tryCatch_sessionOf token)

/-- Any other lookup fails and touches nothing. -/
theorem exec_getSession_of_none (h : tokenName cfg token = none) (clientIp : String)
    (s : SessionManager b) : ∃ e, exec (getSession cfg token clientIp) s = (.error e, s) := by
  rcases getSession_cases cfg s token clientIp with ⟨p, name, hv, hname, -⟩ | herror
  · simp [tokenName, hv, hname] at h
  · exact herror

/-- The other overload looks for the session of the name it was given. -/
theorem exec_getSessionFor_of_name {username : String}
    (h : connectionName cfg token username = some name) (clientIp : String) (s : SessionManager b) :
    exec (getSessionFor cfg token username clientIp) s = exec (sessionOf cfg name clientIp) s := by
  unfold connectionName at h
  rw [getSessionFor, exec_tryCatch, exec_bind, exec_answer]
  cases hv : cfg.signer.verify token with
  | error e => simp [hv] at h
  | ok p =>
    rw [hv] at h
    obtain ⟨hsub, hname⟩ := Option.ite_none_right_eq_some.mp h
    obtain rfl := Option.some.inj hname
    simp only [if_neg (not_not.mpr hsub)]
    exact exec_tryCatch.symm.trans (exec_tryCatch_sessionOf token)

/-- Without a token of `openConnection` it fails and touches nothing. -/
theorem exec_getSessionFor_of_none {username : String} (h : connectionName cfg token username = none)
    (clientIp : String) (s : SessionManager b) :
    ∃ e, exec (getSessionFor cfg token username clientIp) s = (.error e, s) := by
  rcases getSessionFor_cases cfg s token username clientIp with ⟨p, hv, hsub, -⟩ | herror
  · simp [connectionName, hv, hsub] at h
  · exact herror

/-- **A lookup finds the live session of the name in its token**, for the ip it was opened from. -/
theorem getSession_eq_ok {session : Session} :
    (exec (getSession cfg token clientIp) s).1 = .ok session ↔
      session.mClientIp = clientIp ∧ ∃ name, tokenName cfg token = some name ∧
        s.live cfg name = some session := by
  cases hname : tokenName cfg token with
  | none =>
    obtain ⟨e, he⟩ := exec_getSession_of_none hname clientIp s
    rw [he]
    simp
  | some name =>
    rw [exec_getSession_of_name hname, sessionOf_eq_ok, and_comm]
    simp

/-- **What a call is for the entry of a name.** -/
theorem slot_step (cfg : Config) (name : String) (s : SessionManager b) (i : Input) :
    slotOf name (step cfg s i).2 =
      useStep cfg.validDuration (slotOf name s) (useOf cfg name (entryOf (step cfg) s i)) := by
  cases i with
  | login call =>
    show slotOf name (exec (login cfg call) s).2 = useStep _ _ (if call.userName = name then
      (match s.live cfg name, (call.exec cfg.crypto s.db).1 with
        | none, .ok (_, session) => .put session
        | _, _ => .access) else .other)
    have haccess : slotOf name (s.touched cfg call.userName) = _ := slotOf_touched
    cases hlive : s.live cfg call.userName with
    | some found =>
      rw [login_of_live hlive, haccess]
      split
      · rename_i h
        rw [← h, hlive]
      · rfl
    | none =>
      rcases hexec : call.exec cfg.crypto s.db with ⟨e | ⟨n, new⟩, db'⟩
      · rw [login_of_error hlive hexec]
        show slotOf name (s.touched cfg call.userName) = _
        rw [haccess]
        split
        · rename_i h
          rw [← h, hlive]
        · rfl
      · obtain ⟨t, hlogin, -⟩ := login_of_new hlive hexec
        rw [hlogin]
        by_cases h : call.userName = name
        · subst h
          rw [if_pos rfl, hlive]
          exact congrArg (Prod.mk s.now) (ExpireCache.add_self new)
        · rw [if_neg h]
          rw [if_neg h] at haccess
          exact (congrArg (Prod.mk s.now) (ExpireCache.add_of_ne new (Ne.symm h))).trans haccess
  | getSession token clientIp =>
    show slotOf name (exec (getSession cfg token clientIp) s).2 = useStep _ _ (if _ then _ else _)
    cases hname : tokenName cfg token with
    | none =>
      obtain ⟨e, he⟩ := exec_getSession_of_none hname clientIp s
      rw [he, if_neg (by simp)]
      rfl
    | some name' =>
      rw [exec_getSession_of_name hname, exec_sessionOf]
      simp only [Option.some.injEq]
      exact slotOf_touched
  | getSessionFor token username clientIp =>
    show slotOf name (exec (getSessionFor cfg token username clientIp) s).2 =
      useStep _ _ (if _ then _ else _)
    cases hname : connectionName cfg token username with
    | none =>
      obtain ⟨e, he⟩ := exec_getSessionFor_of_none hname clientIp s
      rw [he, if_neg (by simp)]
      rfl
    | some name' =>
      rw [exec_getSessionFor_of_name hname, exec_sessionOf]
      simp only [Option.some.injEq]
      exact slotOf_touched
  | openConnection => rfl
  | expire name' =>
    show slotOf name _ = useStep _ _ (if _ then _ else _)
    by_cases h : name' = name
    · subst h
      rw [if_pos rfl]
      exact congrArg (Prod.mk s.now) (Function.update_self ..)
    · rw [if_neg h]
      exact congrArg (Prod.mk s.now) (Function.update_of_ne (Ne.symm h) ..)
  | wait time => rfl

/-- The step put the session into the cache: a login under the name, when no session was
kept under it. -/
def Opens (cfg : Config) (name : String) (session : Session) (e : Event b) : Prop :=
  ∃ call, e.input = .login call ∧ call.userName = name ∧ e.before.live cfg name = none ∧
    ∃ n, (call.exec cfg.crypto e.before.db).1 = .ok (n, session)

/-- **A call that puts a session into the cache** is a login that finds none and whose account is
found or created. -/
theorem opens_iff {e : Event b} {session : Session} :
    useOf cfg name e = .put session ↔ Opens cfg name session e := by
  unfold useOf Opens
  cases e.input with
  | login call =>
    by_cases hname : call.userName = name
    · cases hlive : e.before.live cfg name with
      | some found => simp [hname]
      | none =>
        cases hexec : (call.exec cfg.crypto e.before.db).1 with
        | error err => simp [hname, hexec]
        | ok r => simp [hname, hexec, Prod.ext_iff]
    · simp [hname]
  | getSession token clientIp => by_cases h : tokenName cfg token = some name <;> simp [h]
  | getSessionFor token username clientIp =>
    by_cases h : connectionName cfg token username = some name <;> simp [h]
  | openConnection => simp
  | expire name' => by_cases h : name' = name <;> simp [h]
  | wait time => simp

end Step

/-! ## What keeps a session in the cache -/

/-- The session was opened under the name, and kept since. -/
def KeptOpen (cfg : Config) (name : String) (session : Session) (h : List (Event b)) : Prop :=
  ∃ before d after, h = before ++ d :: after ∧ Opens cfg name session d ∧
    Kept cfg.validDuration 0 (after.map (useOf cfg name))

/-- **The live session of a name is the one that was opened and kept.** -/
theorem live_iff_keptOpen {cfg : Config} {name : String} {session : Session} (now : Nat) (db : Db b)
    (inputs : List Input) :
    (final (step cfg) (start now db) inputs).live cfg name = some session ↔
      KeptOpen cfg name session (runs cfg (start now db) inputs) := by
  have hslot := final_eq_foldl (fun s : SessionManager b => slotOf name s) (slot_step cfg name)
    (start now db) inputs
  simp only [KeptOpen, ← opens_iff]
  rw [← leased_map_iff, ← foundAfter_iff_leased now, foundAfter]
  rw [show (now, none) = slotOf name (start now db) from rfl]
  rw [← hslot]
  rfl

end SessionManager

end GradidoConnector
