import GradidoConnector.Authorization

/-!
# The decay a request claims is checked before each message

A request may come with the decay that the community server worked out (`apolloCreatedDecay`). Right
before each message of such a request the Gradido Node was asked for the balance of the account at
the start of the decay, and its answer, decayed to the date of the transaction, lost what the
request claims, up to 0.00001; a claim that is not a number passes as little as one that differs too
much. Only the registration of an address has no balance to ask for.

Results:
* `lt_of_abs_cmp`: what the comparison of the deviation accepts.
* `passed_of_check`: a check that returns has asked and passed.
* `decayGuarded_send`: each leg is checked for itself, and goes out right after its check.
* **`decaysChecked_of_run`**: in every run every message of a request with a decay was checked.
-/

namespace GradidoConnector

open GradidoConnector.Base GradidoConnector.Base.Act

open JsonTransaction GradidoNodeRPC

variable {b : Backend} {τ : Type}

/-- Only a number is less than a number in absolute value. -/
theorem Base.Mpfr.lt_of_abs_cmp {x : Mpfr} {q : ℚ} (h : x.abs.cmp (.num q) = .lt) :
    ∃ d, x = .num d ∧ |d| < q := by
  cases x with
  | nan => exact Ordering.noConfusion h
  | inf negative => exact Ordering.noConfusion h
  | num d => exact ⟨d, rfl, compare_lt_iff_lt.mp h⟩

/-- The request `q` asked for the balance at the start of the decay, and by its answer the account
lost the decay that was given, up to 0.00001. -/
inductive DecayPassed (w : World) (this : JsonTransaction) (pubkey : Bytes) : Effect → Prop
  | intro (answer : Except Exn Json) (startBalanceString : String)
      (startBalance balance apolloDecay : Mpfr) (deviation : ℚ)
      (hanswer : reading w.lib readBalance answer = .ok startBalanceString)
      (hstart : w.lib.mpfrSetStr startBalanceString = some startBalance)
      (hdecay : w.lib.calculateDecay startBalance this.mApolloDecayStart this.mCreated = .ok balance)
      (hgiven : w.lib.mpfrSetStr this.mApolloCreatedDecay = some apolloDecay)
      (hdeviation : apolloDecay.sub (startBalance.sub balance) = .num deviation)
      (hsmall : |deviation| < 5902958103587057 / 590295810358705651712) :
      DecayPassed w this pubkey (.request "getaddressbalance" (balanceParams (w.lib.binToHex pubkey)
        (w.lib.format this.mApolloDecayStart) this.mSession.mGroupAlias "") answer)

/-- A message that may follow: it carries a transaction, and where this has an account the last
effect before it was a check that passed. -/
def FollowsCheck (w : World) (this : JsonTransaction) (before : List Effect) (e : Effect) : Prop :=
  IsMessage e → ∃ transaction, Carries w.lib transaction e ∧
    ∀ pubkey, decayAddress transaction.body.data = some pubkey →
      ∃ q, before.getLast? = some q ∧ DecayPassed w this pubkey q

/-- With a decay each message follows its check. -/
def DecayGuarded (w : World) (this : JsonTransaction) (out : List Effect) : Prop :=
  this.mApolloCreatedDecay ≠ "" → Preceded (FollowsCheck w this) out

section Emits

variable {w : World} {this : JsonTransaction} {data : TransactionData} {s : Server b}

theorem additive_followsCheck (w : World) (this : JsonTransaction) :
    Additive (Preceded (FollowsCheck w this)) := by
  refine additive_preceded fun first before e h hmessage => ?_
  obtain ⟨transaction, hcarries, hpassed⟩ := h hmessage
  refine ⟨transaction, hcarries, fun pubkey hpubkey => ?_⟩
  obtain ⟨q, hq, hcheck⟩ := hpassed pubkey hpubkey
  exact ⟨q, by rw [List.getLast?_append, hq]; rfl, hcheck⟩

/-- What is no message needs no check. -/
theorem shown_decayGuarded (w : World) (this : JsonTransaction) : Shown (DecayGuarded w this) where
  nil _ := (additive_followsCheck w this).nil
  append ha hb hgiven := (additive_followsCheck w this).append (ha hgiven) (hb hgiven)
  other e he _ before x after hsplit hmessage := by
    have hmem : x ∈ [e] := hsplit ▸ List.mem_append_right _ List.mem_cons_self
    rw [List.mem_singleton.mp hmem] at hmessage
    exact absurd hmessage he

/-- What is known of a check once it is over: it asked at most, and where there was a decay to check
and it returned, the decay passed. -/
structure Checked (w : World) (this : JsonTransaction) (data : TransactionData) (r : Except Exn Unit)
    (out : List Effect) : Prop where
  silent : ∀ e ∈ out, ¬ IsMessage e
  passed : this.mApolloCreatedDecay ≠ "" → r = .ok () → ∀ pubkey, decayAddress data = some pubkey →
    ∃ q, out = [q] ∧ DecayPassed w this pubkey q

/-- **A check that returns has asked and passed.** -/
theorem checked_validateApolloDecay (w : World) (this : JsonTransaction) (data : TransactionData)
    (s : Server b) :
    Emits (Server.frames b) (validateApolloDecay w this data) (Checked w this data) s := by
  unfold validateApolloDecay
  cases hdata : decayAddress data with
  | none =>
    refine Emits.pure ⟨fun _ he => absurd he List.not_mem_nil, fun _ _ pubkey hpubkey => ?_⟩
    exact absurd (hdata.symm.trans hpubkey) (by simp)
  | some pubkey =>
    have hsilent : ∀ (params : List (String × Json)) (a : Except Exn Json),
        ∀ e ∈ [Effect.request "getaddressbalance" params a], ¬ IsMessage e := by
      intro params a e he hmessage
      rw [List.mem_singleton.mp he] at hmessage
      exact absurd hmessage (by decide : "getaddressbalance" ≠ "puttransaction")
    have hfail : ∀ (params : List (String × Json)) (a : Except Exn Json) (e : Exn),
        Checked w this data (.error e) [.request "getaddressbalance" params a] :=
      fun params a e => ⟨hsilent params a, fun _ h => by cases h⟩
    refine Emits.bind (R := fun r out => ∃ a, out = [.request "getaddressbalance" (balanceParams
      (w.lib.binToHex pubkey) (w.lib.format this.mApolloDecayStart) this.mSession.mGroupAlias "") a] ∧
      r = reading w.lib readBalance a) ?_ ?_ ?_
    · unfold getAddressBalance
      rw [Emits, wp, exec_rpc]
      exact ⟨_, ⟨Server.after_log _ s, rfl⟩, _, rfl, rfl⟩
    · rintro startBalanceString _ t - ⟨a, rfl, hanswer⟩
      -- what follows the request computes only
      refine Emits.mono (R := fun r out => out = [] ∧ Checked w this data r [.request
        "getaddressbalance" (balanceParams (w.lib.binToHex pubkey)
          (w.lib.format this.mApolloDecayStart) this.mSession.mGroupAlias "") a]) ?_ fun r out h => by
        rw [h.1, List.append_nil]
        exact h.2
      cases hstart : w.lib.mpfrSetStr startBalanceString with
      | none => exact Emits.throw ⟨rfl, hfail _ _ _⟩
      | some startBalance =>
        refine Emits.bind (Emits.answer (Q := fun r out => out = [] ∧
          w.lib.calculateDecay startBalance this.mApolloDecayStart this.mCreated = r) ⟨rfl, rfl⟩)
          ?_ fun e out h => ⟨h.1, hfail _ _ e⟩
        rintro balance _ t₁ - ⟨rfl, hdecay⟩
        cases hgiven : w.lib.mpfrSetStr this.mApolloCreatedDecay with
        | none => exact Emits.throw ⟨rfl, hfail _ _ _⟩
        | some apolloDecay =>
          dsimp only
          split
          · exact Emits.throw ⟨rfl, hfail _ _ _⟩
          · rename_i hcmp
            obtain ⟨deviation, hdeviation, hsmall⟩ := Mpfr.lt_of_abs_cmp (not_not.mp hcmp)
            refine Emits.pure ⟨rfl, hsilent _ _, fun _ _ key hkey => ?_⟩
            obtain rfl := Option.some.inj (hdata.symm.trans hkey)
            exact ⟨_, rfl, .intro a startBalanceString startBalance balance apolloDecay deviation
              hanswer.symm hstart hdecay hgiven hdeviation hsmall⟩
    · rintro e _ ⟨a, rfl, -⟩
      exact hfail _ _ e

theorem checked_checkApolloDecay (w : World) (this : JsonTransaction) (data : TransactionData)
    (s : Server b) : Emits (Server.frames b) (checkApolloDecay w this data) (Checked w this data) s := by
  unfold checkApolloDecay
  split
  · rename_i hempty
    exact Emits.pure ⟨fun _ he => absurd he List.not_mem_nil,
      fun hgiven => absurd (String.isEmpty_iff.mp hempty) hgiven⟩
  · exact checked_validateApolloDecay w this data s

/-- A message right after the check of its transaction is guarded. -/
theorem decayGuarded_of_checked {checked : List Effect} {transaction : GradidoTransaction} {e : Effect}
    (h : Checked w this transaction.body.data (.ok ()) checked) (hcarries : Carries w.lib transaction e) :
    DecayGuarded w this (checked ++ [e]) := by
  intro hgiven before x after hsplit hmessage
  have hend : before = checked ∧ x = e := by
    rcases List.append_eq_append_iff.mp hsplit with ⟨rest, rfl, hrest⟩ | ⟨rest, rfl, hrest⟩
    · cases rest with
      | nil =>
        cases hrest
        exact ⟨List.append_nil _, rfl⟩
      | cons y rest => simp at hrest
    · cases rest with
      | nil =>
        cases hrest
        exact ⟨(List.append_nil _).symm, rfl⟩
      | cons y rest =>
        cases hrest
        exact absurd hmessage (h.silent x (List.mem_append_right _ List.mem_cons_self))
  obtain ⟨rfl, rfl⟩ := hend
  refine ⟨transaction, hcarries, fun pubkey hpubkey => ?_⟩
  obtain ⟨q, rfl, hpassed⟩ := h.passed hgiven rfl pubkey hpubkey
  exact ⟨q, rfl, hpassed⟩

/-- **One call sends its transaction right after its check**, or not at all. -/
theorem decayGuarded_signAndSendTransaction (w : World) (this : JsonTransaction)
    (transaction : GradidoTransaction) (groupAlias : String) (s : Server b) :
    Emits (Server.frames b) (signAndSendTransaction w this transaction groupAlias)
      (fun _ out => DecayGuarded w this out) s := by
  have hP := shown_decayGuarded w this
  unfold signAndSendTransaction
  refine hP.seq hP.signTransaction fun signed t => ?_
  cases signed with
  | none => exact hP.throw
  | some transaction =>
    refine Emits.get_bind (hP.seq hP.answer fun _ t₁ => ?_)
    split
    · exact hP.throw
    · refine Emits.bind (checked_checkApolloDecay w this transaction.body.data t₁)
        (fun _ checked t₂ _ hchecked => ?_) fun e out h => ?_
      · refine Emits.bind (carries_publish w this transaction groupAlias t₂) ?_ ?_
        · rintro iotaMessageId _ t₃ - ⟨e, rfl, hcarries⟩
          refine Server.frames_log ?_
          rw [← List.append_assoc]
          exact hP.append (decayGuarded_of_checked hchecked hcarries) (hP.other _ id)
        · rintro _ _ ⟨e, rfl, hcarries⟩
          exact decayGuarded_of_checked hchecked hcarries
      · exact hP.silent h.silent

/-- **Each leg is checked for itself.** -/
theorem decayGuarded_send (w : World) (this : JsonTransaction) (data : TransactionData) (route : Route)
    (s : Server b) :
    Emits (Server.frames b) (send w this data route) (fun _ out => DecayGuarded w this out) s :=
  (shown_decayGuarded w this).send route fun _ _ groupAlias t =>
    decayGuarded_signAndSendTransaction w this _ groupAlias t

end Emits

/-- A check does not depend on the memo, which a handler encrypts after the parameters were read. -/
theorem decayGuarded_of_memo {w : World} {this : JsonTransaction} {memo : String} {out : List Effect}
    (h : DecayGuarded w { this with mMemo := memo } out) : DecayGuarded w this out := by
  intro hgiven before e after hsplit hmessage
  obtain ⟨transaction, hcarries, hpassed⟩ := h hgiven before e after hsplit hmessage
  refine ⟨transaction, hcarries, fun pubkey hpubkey => ?_⟩
  obtain ⟨q, hq, ⟨answer, text, startBalance, balance, decay, deviation, h₁, h₂, h₃, h₄, h₅, h₆⟩⟩ :=
    hpassed pubkey hpubkey
  exact ⟨_, hq, .intro answer text startBalance balance decay deviation h₁ h₂ h₃ h₄ h₅ h₆⟩

/-- The messages of a transaction handler follow their checks. -/
theorem Handler.decayGuarded_handle (h : Handler) (w : World) (request : Request) (s : Server b) :
    match (exec (readSharedParameter w request) s).1 with
    | .ok (.ok this) => ∃ out, DoneFor (DecayGuarded w this)
        (exec (readSharedParameter w request) s).2 (exec (h.handle w request) s).2 out
    | _ => (exec (h.handle w request) s).2 = (exec (readSharedParameter w request) s).2 :=
  h.walk (P := DecayGuarded w) (shown_decayGuarded w)
    (fun this memo data route _ t _ _ => (decayGuarded_send w { this with mMemo := memo } data route
      t).mono fun _ _ => decayGuarded_of_memo) request s

namespace Connector

/-- In every step of the run that serves a request with a decay, each message follows its check. -/
def DecaysChecked (host : Host τ) (run : List (Event b)) : Prop :=
  ∀ h e r before effect after, Occurs run h e → e.input = .request r →
    r.params.str "apolloCreatedDecay" ≠ "" →
    e.after.server.trace = e.before.server.trace ++ (before ++ effect :: after) → IsMessage effect →
    ∃ this, (exec (readSharedParameter host.world r.toRequest) e.before.server).1 = .ok (.ok this) ∧
      FollowsCheck host.world this before effect

/-- **In every run every message of a request with a decay was checked.** -/
theorem decaysChecked_of_run (host : Host τ) (c : Connector b) (inputs : List Input) :
    DecaysChecked host (runs host c inputs) := by
  intro h e r before effect after ho hin hgiven htrace hmessage
  have hspec := occurs_spec ho
  obtain ⟨r', handler, session, hin', hhandler, hshows, -, hwith⟩ :=
    request_of_effect hspec ⟨_, htrace, List.mem_append_right _ List.mem_cons_self⟩
  obtain rfl : r = r' := Input.request.inj (hin.symm.trans hin')
  have hsends : handler.Sends := by
    cases hwith with
    | sends hsends => exact hsends
    | lists => exact absurd hmessage (by decide : "listtransactions" ≠ "puttransaction")
  -- the step is the run of a transaction handler
  obtain ⟨sender, hsender⟩ := handle_of_sends hsends host r (b := b)
  have hafter : e.after = (step host e.before e.input).2 := congrArg Entry.after hspec
  rw [hin] at hafter hshows
  rw [hafter, step_request (up_of_shows hshows), exec_serve hhandler, hsender] at htrace
  have hkept := trace_readSharedParameter host.world r.toRequest e.before.server
  have hdone := sender.decayGuarded_handle host.world r.toRequest e.before.server
  split at hdone
  · rename_i this hshared
    obtain ⟨out, hframe, hguarded⟩ := hdone
    have hout : out = before ++ effect :: after := by
      rw [hframe.1.trace, hkept] at htrace
      exact List.append_cancel_left htrace
    refine ⟨this, hshared, hguarded ?_ before effect after hout⟩
    obtain ⟨created, dates, session, -, -, -, rfl⟩ := exec_readSharedParameter_eq_ok.mp
      (Prod.ext hshared rfl : exec (readSharedParameter host.world r.toRequest) e.before.server =
        (.ok (.ok this), _))
    exact hgiven
  · rw [hdone, hkept] at htrace
    simp at htrace

end Connector

end GradidoConnector
