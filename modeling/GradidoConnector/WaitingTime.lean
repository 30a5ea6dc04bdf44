import GradidoConnector.Base.Refinement
import GradidoConnector.PasswordEncryptionRateLimiter

/-!
# How long a call waits for a slot

The threads of `PasswordEncryptionRateLimiter` with a clock: a sleep takes 200 ms at least, and
after it a call throws once its `timeout` says more than 100 seconds. The phases, the choices and
the locked sections are those of `next`; the clock only says when a sleeping call may go on.

* `expired` is the test `timeout.seconds() > 100`, by the milliseconds since the call began.
  `Profiler` is not in the repository; whether it counts whole seconds or not, the test holds from
  101 seconds on.

Results:
* `refines_next`: without the clock the threads are those of `next`.
* `waits_move`: what a move of a call does to the number of its moves.
* **`calls_end`**: under every schedule no call makes more than 1011 moves, and none is ever stuck.
-/

namespace GradidoConnector

open GradidoConnector.Base

namespace PasswordEncryptionRateLimiter

/-- A call with its times. -/
structure Waiting where
  phase : Phase
  /-- When `timeout` was made. -/
  started : Nat
  /-- When the sleep began. -/
  since : Nat

/-- Time passes, or a thread moves. -/
inductive Timed
  | tick (time : Nat)
  | move (i : Choice)

/-- Whether the clock lets the call move so. -/
def allowed (expired : Nat → Bool) (now : Nat) (w : Waiting) : Choice → Bool
  | .retry => decide (w.since + 200 ≤ now) && !expired (now - w.started)
  | .timeout => decide (w.since + 200 ≤ now) && expired (now - w.started)
  | _ => true

/-- The call in its next phase. -/
def stamp (now : Nat) (w : Waiting) : Phase → Waiting
  | .checking username =>
    match w.phase with
    | .sleeping _ => ⟨.checking username, w.started, w.since⟩
    | _ => ⟨.checking username, now, now⟩
  | .sleeping username => ⟨.sleeping username, w.started, now⟩
  | p => ⟨p, w.started, w.since⟩

/-- One step of a thread on the clock and `mRunningEncryptions`. -/
def timedNext (expired : Nat → Bool) (processorCount : Nat) :
    Timed → Nat × Finset String → Waiting → Option ((Nat × Finset String) × Waiting)
  | .tick time, (now, running), w => some ((now + time, running), w)
  | .move i, (now, running), w =>
    if allowed expired now w i then
      (next processorCount i running w.phase).map fun (running', p) => ((now, running'), stamp now w p)
    else none

variable {T : Type}

abbrev TimedState (T : Type) := Threads T (Nat × Finset String) Waiting

abbrev TimedEvent (T : Type) := Entry (TimedState T) (T × Timed) Bool

/-- One step of a schedule. -/
abbrev timedStep [DecidableEq T] (expired : Nat → Bool) (processorCount : Nat) :
    TimedState T → T × Timed → Bool × TimedState T :=
  Threads.step fun _ => timedNext expired processorCount

/-- No call has been made. -/
def timedStart (now : Nat) : TimedState T := ⟨(now, ∅), fun _ => ⟨.idle, now, now⟩⟩

/-- The threads without their clock. -/
def untimed (c : TimedState T) : State T := ⟨c.shared.2, fun t => (c.phase t).phase⟩

/-- The number of moves of a call after one more. -/
def countMove (n : Nat) : Choice → Nat
  | .call _ => 0
  | _ => n + 1

/-- The number of moves of the last call of a thread after a step. -/
def countStep [DecidableEq T] (t : T) (n : Nat) (e : TimedEvent T) : Nat :=
  match e.input, e.output with
  | (u, .move i), true => if u = t then countMove n i else n
  | _, _ => n

/-- How many moves the thread has made in its last call. -/
def movesOf [DecidableEq T] (t : T) (h : List (TimedEvent T)) : Nat := h.foldl (countStep t) 0

@[simp] theorem stamp_phase (now : Nat) (w : Waiting) (p : Phase) : (stamp now w p).phase = p := by
  cases p <;> simp only [stamp]
  cases w.phase <;> rfl

section Refinement

variable [DecidableEq T] {expired : Nat → Bool} {processorCount : Nat}

/-- The move a timed step is. -/
def shownMove (expired : Nat → Bool) (c : TimedState T) : T × Timed → Option (T × Choice)
  | (t, .move i) => if allowed expired c.shared.1 (c.phase t) i then some (t, i) else none
  | (_, .tick _) => none

omit [DecidableEq T] in
theorem untimed_ext {c : TimedState T} {d : State T} (hshared : c.shared.2 = d.shared)
    (hphase : ∀ t, (c.phase t).phase = d.phase t) : untimed c = d := by
  cases d
  simp only [untimed, Threads.mk.injEq]
  exact ⟨hshared, funext hphase⟩

theorem untimed_moved (c : TimedState T) (t : T) (s : Nat × Finset String) (w : Waiting) :
    untimed (c.moved t s w) = (untimed c).moved t s.2 w.phase := by
  refine untimed_ext rfl fun u => ?_
  by_cases hu : u = t
  · subst hu
    rw [Threads.moved_phase_self, Threads.moved_phase_self]
  · rw [Threads.moved_phase_of_ne hu, Threads.moved_phase_of_ne hu]
    rfl

omit [DecidableEq T] in
theorem timedNext_move {i : Choice} {shared : Nat × Finset String} {w : Waiting}
    (h : allowed expired shared.1 w i = true) :
    timedNext expired processorCount (.move i) shared w =
      (next processorCount i shared.2 w.phase).map fun r =>
        ((shared.1, r.1), stamp shared.1 w r.2) := by
  rw [timedNext, if_pos h]

omit [DecidableEq T] in
theorem timedNext_eq_some {i : Choice} {shared : Nat × Finset String} {w : Waiting}
    {moved : (Nat × Finset String) × Waiting} :
    timedNext expired processorCount (.move i) shared w = some moved ↔
      allowed expired shared.1 w i = true ∧ ∃ r, next processorCount i shared.2 w.phase = some r ∧
        moved = ((shared.1, r.1), stamp shared.1 w r.2) := by
  rw [timedNext]
  by_cases h : allowed expired shared.1 w i = true
  · rw [if_pos h, Option.map_eq_some_iff, and_iff_right h]
    exact exists_congr fun r => and_congr_right fun _ => eq_comm
  · simp [h]

/-- **Without the clock the threads are those of `next`.** -/
theorem refines_next (expired : Nat → Bool) (processorCount : Nat) :
    Refines (timedStep (T := T) expired processorCount) (Threads.step fun _ => next processorCount)
      untimed (shownMove expired) := by
  constructor
  · rintro c ⟨t, time | i⟩ hshows
    · refine untimed_ext rfl fun u => ?_
      by_cases hu : u = t
      · subst hu
        exact congrArg Waiting.phase Threads.moved_phase_self
      · exact congrArg Waiting.phase (Threads.moved_phase_of_ne hu)
    · have hnot : allowed expired c.shared.1 (c.phase t) i = false := by
        simpa [shownMove] using hshows
      simp [Threads.step, timedNext, hnot]
  · rintro c ⟨t, time | i⟩ j hshows
    · cases hshows
    · simp only [shownMove, Option.ite_none_right_eq_some, Option.some.injEq] at hshows
      obtain ⟨hallowed, rfl⟩ := hshows
      rcases hnext : next processorCount i (untimed c).shared ((untimed c).phase t) with _ | ⟨running, p⟩
      · have htimed : timedNext expired processorCount (.move i) c.shared (c.phase t) = none := by
          rw [timedNext_move hallowed]
          exact congrArg (Option.map _) hnext
        simp only [Threads.step, htimed, hnext]
      · have htimed : timedNext expired processorCount (.move i) c.shared (c.phase t) =
            some ((c.shared.1, running), stamp c.shared.1 (c.phase t) p) := by
          rw [timedNext_move hallowed]
          exact congrArg (Option.map _) hnext
        simp only [Threads.step, htimed, hnext, untimed_moved, stamp_phase]

end Refinement

/-! ## The number of moves -/

/-- What a call in this phase has done after `n` moves: it checked every 200 ms. -/
def Waits (now n : Nat) (w : Waiting) : Prop :=
  match w.phase with
  | .idle => n = 0
  | .checking _ => ∃ k, n = 2 * k ∧ k ≤ 504 ∧ w.started + 200 * k ≤ now
  | .sleeping _ => ∃ k, n = 2 * k + 1 ∧ k ≤ 504 ∧ w.started + 200 * k ≤ w.since ∧ w.since ≤ now
  | .encrypting _ => n ≤ 1009
  | .encrypted _ => n ≤ 1010
  | .returned | .threw _ => n ≤ 1011

section Moves

variable {expired : Nat → Bool} {processorCount now now' n : Nat} {w : Waiting}

theorem Waits.le (h : Waits now n w) : n ≤ 1011 := by
  unfold Waits at h
  split at h <;> omega

/-- Time may pass. -/
theorem Waits.later (h : Waits now n w) (hnow : now ≤ now') : Waits now' n w := by
  obtain ⟨phase, started, since⟩ := w
  cases phase with
  | checking username =>
    obtain ⟨k, hn, hk, htime⟩ := h
    exact ⟨k, hn, hk, Nat.le_trans htime hnow⟩
  | sleeping username =>
    obtain ⟨k, hn, hk, htime, hsince⟩ := h
    exact ⟨k, hn, hk, htime, Nat.le_trans hsince hnow⟩
  | _ => exact h

/-- **What a move of a call does to the number of its moves.** -/
theorem waits_move (hexpired : ∀ ms, 101000 ≤ ms → expired ms = true) {i : Choice}
    {running running' : Finset String} {p : Phase} (h : Waits now n w)
    (hallowed : allowed expired now w i = true)
    (hnext : next processorCount i running w.phase = some (running', p)) :
    Waits now (countMove n i) (stamp now w p) := by
  obtain ⟨phase, started, since⟩ := w
  unfold next at hnext
  dsimp only at hnext
  split at hnext
  case h_1 | h_2 | h_3 =>
    cases hnext
    exact ⟨0, rfl, by omega, Nat.le_refl _⟩
  case h_4 username =>
    obtain ⟨k, rfl, hk, htime⟩ := h
    have htaken : Waits now (countMove (2 * k) .checkAndInsert)
        (stamp now ⟨.checking username, started, since⟩ (.encrypting username)) := by
      show 2 * k + 1 ≤ 1009
      omega
    have hsleeps : Waits now (countMove (2 * k) .checkAndInsert)
        (stamp now ⟨.checking username, started, since⟩ (.sleeping username)) :=
      ⟨k, rfl, hk, htime, Nat.le_refl _⟩
    split at hnext
    · split at hnext <;> cases hnext
      · exact htaken
      · exact hsleeps
    · cases hnext
      exact hsleeps
  case h_5 | h_6 | h_7 =>
    cases hnext
    replace h : n ≤ _ := h
    show n + 1 ≤ _
    omega
  case h_8 username =>
    -- a retry: the sleep is over, and the time is not up
    cases hnext
    obtain ⟨k, rfl, hk, htime, hsince⟩ := h
    simp only [allowed, Bool.and_eq_true, decide_eq_true_eq, Bool.not_eq_true'] at hallowed
    obtain ⟨hslept, hexp⟩ := hallowed
    dsimp only at htime hsince
    have helapsed : now - started < 101000 := by
      by_contra hlong
      rw [hexpired _ (Nat.le_of_not_lt hlong)] at hexp
      exact Bool.noConfusion hexp
    exact ⟨k + 1, by simp only [countMove]; omega, by omega, by simp only [stamp]; omega⟩
  case h_9 username =>
    cases hnext
    obtain ⟨k, rfl, hk, -, -⟩ := h
    show 2 * k + 1 + 1 ≤ 1011
    omega
  case h_10 => cases hnext

/-- A call in flight may move, at the latest after 200 ms; `createKey` is taken to return. -/
theorem exists_move (expired : Nat → Bool) (processorCount : Nat) {running : Finset String}
    (h : Waits now n w) (hflight : ¬ w.phase.Ended) :
    ∃ i, (timedNext expired processorCount (.move i) (now + 200, running) w).isSome := by
  obtain ⟨phase, started, since⟩ := w
  cases phase with
  | idle | returned | threw => exact absurd trivial hflight
  | checking username =>
    refine ⟨.checkAndInsert, ?_⟩
    rw [timedNext_move rfl, Option.isSome_map]
    simp only [next]
    split
    · split <;> rfl
    · rfl
  | encrypting username => exact ⟨.createKeyReturns, rfl⟩
  | encrypted username => exact ⟨.erase, rfl⟩
  | sleeping username =>
    obtain ⟨k, -, -, -, hsince⟩ := h
    have hslept : since + 200 ≤ now + 200 := Nat.add_le_add_right hsince 200
    cases hexp : expired (now + 200 - started) with
    | true => exact ⟨.timeout, by simp [timedNext, allowed, next, hexp, hslept]⟩
    | false => exact ⟨.retry, by simp [timedNext, allowed, next, hexp, hslept]⟩

end Moves

/-! ## A schedule as a whole -/

/-- No call of the thread is too long or stuck: it has made few moves, and while it is in flight it
may make another at the latest after 200 ms. -/
structure CallEnds [DecidableEq T] (expired : Nat → Bool) (processorCount : Nat)
    (h : List (TimedEvent T)) (c : TimedState T) (t : T) : Prop where
  moves : movesOf t h ≤ 1011
  goesOn : ¬ (c.phase t).phase.Ended → ∃ i,
    (timedNext expired processorCount (.move i) (c.shared.1 + 200, c.shared.2) (c.phase t)).isSome

section Schedule

variable [DecidableEq T] {expired : Nat → Bool} {processorCount : Nat} {c : TimedState T}

theorem movesOf_concat (t : T) (h : List (TimedEvent T)) (e : TimedEvent T) :
    movesOf t (h ++ [e]) = countStep t (movesOf t h) e := by
  rw [movesOf, List.foldl_append]
  rfl

/-- **A step keeps what every call has done so far.** -/
theorem waits_step (hexpired : ∀ ms, 101000 ≤ ms → expired ms = true) {h : List (TimedEvent T)}
    (hwaits : ∀ t, Waits c.shared.1 (movesOf t h) (c.phase t)) (m : T × Timed) (t : T) :
    Waits (entryOf (timedStep expired processorCount) c m).after.shared.1
      (movesOf t (h ++ [entryOf (timedStep expired processorCount) c m]))
      ((entryOf (timedStep expired processorCount) c m).after.phase t) := by
  obtain ⟨u, time | i⟩ := m
  · have hstep : timedStep expired processorCount c (u, .tick time) =
        (true, c.moved u (c.shared.1 + time, c.shared.2) (c.phase u)) := rfl
    have hsame : (c.moved u (c.shared.1 + time, c.shared.2) (c.phase u)).phase t = c.phase t := by
      by_cases htu : t = u
      · rw [htu, Threads.moved_phase_self]
      · rw [Threads.moved_phase_of_ne htu]
    rw [movesOf_concat, entryOf, hstep]
    dsimp only
    rw [hsame]
    exact (hwaits t).later (Nat.le_add_right ..)
  · rw [movesOf_concat]
    cases hnext : timedNext expired processorCount (.move i) c.shared (c.phase u) with
    | none =>
      have hstep : timedStep expired processorCount c (u, .move i) =
          (false, c) := by
        simp only [Threads.step, hnext]
      rw [entryOf, hstep]
      exact hwaits t
    | some moved =>
      obtain ⟨shared, w⟩ := moved
      rw [Threads.step_of_next hnext]
      obtain ⟨hallowed, r, hr, hmoved⟩ := timedNext_eq_some.mp hnext
      cases hmoved
      by_cases htu : t = u
      · subst htu
        rw [Threads.moved_phase_self]
        simp only [countStep, if_true]
        exact waits_move hexpired (hwaits t) hallowed hr
      · rw [Threads.moved_phase_of_ne htu]
        simp only [countStep, if_neg (Ne.symm htu)]
        exact hwaits t

/-- **Under every schedule every call ends after few moves of its own**, and the slots are as
without the clock. -/
theorem calls_end (hexpired : ∀ ms, 101000 ≤ ms → expired ms = true) (processorCount now : Nat)
    (schedule : List (T × Timed)) :
    (∀ t, CallEnds expired processorCount
      (history (timedStep expired processorCount) (timedStart now) schedule)
      (final (timedStep expired processorCount) (timedStart now) schedule) t) ∧
    Bounded processorCount
      (untimed (final (timedStep expired processorCount) (timedStart now) schedule)) := by
  have hwaits : ∀ t, Waits
      (final (timedStep expired processorCount) (timedStart now) schedule).shared.1
      (movesOf t (history (timedStep expired processorCount) (timedStart now) schedule))
      ((final (timedStep expired processorCount) (timedStart now) schedule).phase t) :=
    final_invariant (I := fun h (c : TimedState T) => ∀ t, Waits c.shared.1 (movesOf t h) (c.phase t))
      (C := fun _ _ => True) (fun _ => rfl)
      (fun h c m hw _ => waits_step hexpired hw m) fun _ _ _ => trivial
  refine ⟨fun t => ⟨(hwaits t).le, exists_move expired processorCount (hwaits t)⟩, ?_⟩
  rw [((refines_next expired processorCount).project_history (timedStart now) schedule).2]
  refine Slots.bounded (Threads.final_threads (C := fun _ _ => True) ?_ (slots_start processorCount)
    fun _ _ _ => trivial)
  exact fun c t i running p hc _ h => hc.keep h

end Schedule

/-- Two calls for one name: while the first encrypts, the second checks twice and gives up. -/
def aliceTwice : List (Bool × Timed) :=
  [(true, .move (.call "alice")), (false, .move (.call "alice")), (true, .move .checkAndInsert),
    (false, .move .checkAndInsert), (false, .tick 200), (false, .move .retry),
    (false, .move .checkAndInsert), (true, .tick 101000), (false, .move .timeout)]

theorem calls_end_aliceTwice :
    movesOf false (history (timedStep (fun ms => decide (100000 < ms)) 8) (timedStart 0) aliceTwice) =
        4 ∧
      (∀ t, CallEnds (fun ms => decide (100000 < ms)) 8
        (history (timedStep (fun ms => decide (100000 < ms)) 8) (timedStart 0) aliceTwice)
        (final (timedStep (fun ms => decide (100000 < ms)) 8) (timedStart 0) aliceTwice) t) ∧
      Bounded 8
        (untimed (final (timedStep (fun ms => decide (100000 < ms)) 8) (timedStart 0) aliceTwice)) :=
  ⟨by decide, calls_end (fun ms hms => decide_eq_true (by omega)) 8 0 aliceTwice⟩

end PasswordEncryptionRateLimiter

end GradidoConnector
