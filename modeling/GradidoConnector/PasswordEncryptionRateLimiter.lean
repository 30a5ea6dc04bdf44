import GradidoConnector.Base.Threads
import GradidoConnector.Basic
import Mathlib.Data.Finset.Card

/-!
# `PasswordEncryptionRateLimiter`

Model of `PasswordEncryptionRateLimiter.cpp`, lines 22-50. Any number of threads call
`waitForFreeSlotAndRunEncryption`; each locked section, `createKey` returning or throwing, a retry
after the sleep and the timeout are steps of their own. The shared state is `mRunningEncryptions`.

The slot is freed after `createKey` returns only: when it throws, its name stays in the set for
ever, and with it the slot (`Choice.createKeyThrows`).

Results:
* `next_cases`: what a step does to the slots.
* `Slots.keep`: every step of a thread keeps each slot that is in use to one call.
* **`encryptions_bounded`**: under every schedule at most `processorCount` threads run `createKey`,
  and no two of them for one name.
* **`released_iff`**: the set holds the names of running calls only, at every step of a run, exactly
  when no `createKey` of the run throws.
-/

namespace GradidoConnector

open GradidoConnector.Base

namespace PasswordEncryptionRateLimiter

/-- Where a thread is in `waitForFreeSlotAndRunEncryption`. -/
inductive Phase
  | idle
  /-- Before the lock of `checkForFreeSlotAndRunEncryption`. -/
  | checking (username : String)
  /-- In `createKey`. -/
  | encrypting (username : String)
  /-- Before the second lock. -/
  | encrypted (username : String)
  /-- In `Poco::Thread::sleep`. -/
  | sleeping (username : String)
  | returned
  | threw (e : Exn)
  deriving DecidableEq

/-- What a thread may do next. -/
inductive Choice
  | call (username : String)
  | checkAndInsert
  | createKeyReturns
  | createKeyThrows (e : Exn)
  | erase
  | retry
  | timeout

/-- One step of a thread on `mRunningEncryptions`. -/
def next (processorCount : Nat) : Choice → Finset String → Phase → Option (Finset String × Phase)
  | .call username, running, .idle => some (running, .checking username)
  | .call username, running, .returned => some (running, .checking username)
  | .call username, running, .threw _ => some (running, .checking username)
  | .checkAndInsert, running, .checking username =>
    if running.card < processorCount then
      if username ∉ running then some (insert username running, .encrypting username)
      else some (running, .sleeping username)
    else some (running, .sleeping username)
  | .createKeyReturns, running, .encrypting username => some (running, .encrypted username)
  | .createKeyThrows e, running, .encrypting _ => some (running, .threw e)
  | .erase, running, .encrypted username => some (running.erase username, .returned)
  | .retry, running, .sleeping username => some (running, .checking username)
  | .timeout, running, .sleeping _ =>
    some (running,
      .threw (.passwordEncryptionRateLimitException "cannot get free cpu core for encryption"))
  | _, _, _ => none

/-- The thread has a slot for the name. -/
def Phase.Holds (p : Phase) (username : String) : Prop :=
  p = .encrypting username ∨ p = .encrypted username

/-- No call of the thread is in flight. -/
def Phase.Ended : Phase → Prop
  | .idle | .returned | .threw _ => True
  | _ => False

variable {T : Type}

/-- The threads, with the set of running encryptions. -/
abbrev State (T : Type) := Threads T (Finset String) Phase

/-- No call has been made. -/
def start : State T := ⟨∅, fun _ => .idle⟩

/-- At most `processorCount` threads run `createKey`, and no two for one name. -/
def Bounded (processorCount : Nat) (c : State T) : Prop :=
  (∀ threads : Finset T, (∀ t ∈ threads, ∃ username, c.phase t = .encrypting username) →
    threads.card ≤ processorCount) ∧
  ∀ t u username, c.phase t = .encrypting username → c.phase u = .encrypting username → t = u

/-- Every slot in use is in the set, belongs to one thread, and the set is small enough. -/
structure Slots (processorCount : Nat) (c : State T) : Prop where
  mem : ∀ t username, (c.phase t).Holds username → username ∈ c.shared
  one : ∀ t u username, (c.phase t).Holds username → (c.phase u).Holds username → t = u
  card : c.shared.card ≤ processorCount

section Step

variable {processorCount : Nat} {i : Choice} {running running' : Finset String} {p p' : Phase}

theorem Phase.not_holds_of_ended {username : String} (h : p.Ended) : ¬ p.Holds username := by
  rintro (rfl | rfl) <;> exact h

/-- **What a step does to the slots**: it takes a free one, gives back the one of its own call,
throws and leaves one behind, or changes none. -/
theorem next_cases (h : next processorCount i running p = some (running', p')) :
    (∃ username, p = .checking username ∧ username ∉ running ∧ running.card < processorCount ∧
      running' = insert username running ∧ p' = .encrypting username) ∨
    (∃ username, p = .encrypted username ∧ running' = running.erase username ∧ p' = .returned) ∨
    (∃ username e, p = .encrypting username ∧ i = .createKeyThrows e ∧ running' = running ∧
      p' = .threw e) ∨
    (running' = running ∧ ∀ username, p'.Holds username ↔ p.Holds username) := by
  have hsame : (∀ username, ¬ p.Holds username) → (∀ username, ¬ p'.Holds username) →
      running' = running → running' = running ∧ ∀ username, p'.Holds username ↔ p.Holds username :=
    fun hp hp' hrunning => ⟨hrunning, fun username => iff_of_false (hp' username) (hp username)⟩
  unfold next at h
  split at h
  -- the locked check
  case h_4 username =>
    have hchecking : ∀ u, ¬ (Phase.checking username).Holds u := by rintro u (h | h) <;> cases h
    have hsleeping : ∀ u, ¬ (Phase.sleeping username).Holds u := by rintro u (h | h) <;> cases h
    by_cases hcard : running.card < processorCount
    · rw [if_pos hcard] at h
      by_cases hname : username ∉ running
      · rw [if_pos hname] at h
        cases h
        exact Or.inl ⟨username, rfl, hname, hcard, rfl, rfl⟩
      · rw [if_neg hname] at h
        cases h
        exact Or.inr (Or.inr (Or.inr (hsame hchecking hsleeping rfl)))
    · rw [if_neg hcard] at h
      cases h
      exact Or.inr (Or.inr (Or.inr (hsame hchecking hsleeping rfl)))
  -- `createKey` returns: the slot stays with the call
  case h_5 username =>
    cases h
    refine Or.inr (Or.inr (Or.inr ⟨rfl, fun u => ?_⟩))
    constructor <;> rintro (h | h) <;> cases h
    · exact Or.inl rfl
    · exact Or.inr rfl
  case h_6 e username =>
    cases h
    exact Or.inr (Or.inr (Or.inl ⟨username, e, rfl, rfl, rfl, rfl⟩))
  case h_7 username =>
    cases h
    exact Or.inr (Or.inl ⟨username, rfl, rfl, rfl⟩)
  all_goals
    cases h
  all_goals
    refine Or.inr (Or.inr (Or.inr (hsame ?_ ?_ rfl))) <;> rintro u (h | h) <;> cases h

end Step

variable {processorCount : Nat}

/-- The threads in `createKey` have different names in the set. -/
theorem Slots.bounded {c : State T} (hc : Slots processorCount c) : Bounded processorCount c := by
  refine ⟨fun threads hthreads => ?_, fun t u username ht hu =>
    hc.one t u username (Or.inl ht) (Or.inl hu)⟩
  choose! name hname using hthreads
  have hcard : threads.card ≤ c.shared.card := by
    refine Finset.card_le_card_of_injOn name (fun t ht => ?_) fun t ht u hu heq => ?_
    · exact hc.mem t (name t) (Or.inl (hname t ht))
    · exact hc.one t u (name t) (Or.inl (hname t ht)) (Or.inl (heq ▸ hname u hu))
  exact Nat.le_trans hcard hc.card

variable [DecidableEq T]

section Keep

variable {c : State T} {t u : T} {running : Finset String} {p : Phase} {name username : String}

/-- After a move a slot is held by the thread that moved, or as before by another. -/
theorem holds_moved (h : ((c.moved t running p).phase u).Holds username) :
    (u = t ∧ p.Holds username) ∨ (u ≠ t ∧ (c.phase u).Holds username) := by
  by_cases hut : u = t
  · subst hut
    rw [Threads.moved_phase_self] at h
    exact Or.inl ⟨rfl, h⟩
  · rw [Threads.moved_phase_of_ne hut] at h
    exact Or.inr ⟨hut, h⟩

/-- A free slot is taken: no other call has the name. -/
theorem Slots.take (hc : Slots processorCount c) (hfree : name ∉ c.shared)
    (hcard : c.shared.card < processorCount) :
    Slots processorCount (c.moved t (insert name c.shared) (.encrypting name)) := by
  have hnew : ∀ {u username},
      ((c.moved t (insert name c.shared) (.encrypting name)).phase u).Holds username →
      (u = t ∧ username = name) ∨ (u ≠ t ∧ (c.phase u).Holds username) := by
    intro u username hu
    rcases holds_moved hu with ⟨hut, hself⟩ | hother
    · rcases hself with hself | hself <;> cases hself
      exact Or.inl ⟨hut, rfl⟩
    · exact Or.inr hother
  refine ⟨fun u username hu => ?_, fun u v username hu hv => ?_, ?_⟩
  · rcases hnew hu with ⟨-, rfl⟩ | ⟨-, hold⟩
    · exact Finset.mem_insert_self ..
    · exact Finset.mem_insert_of_mem (hc.mem u username hold)
  · rcases hnew hu with ⟨rfl, rfl⟩ | ⟨-, hold⟩ <;> rcases hnew hv with ⟨rfl, hname⟩ | ⟨-, hold'⟩
    · rfl
    · exact absurd (hc.mem v _ hold') hfree
    · exact absurd (hc.mem u _ hold) (hname ▸ hfree)
    · exact hc.one u v username hold hold'
  · rw [Threads.moved_shared, Finset.card_insert_of_notMem hfree]
    exact hcard

/-- The slot of a call is freed: every other name in use is still there. -/
theorem Slots.free (hc : Slots processorCount c) (hphase : c.phase t = .encrypted name) :
    Slots processorCount (c.moved t (c.shared.erase name) .returned) := by
  have hold : ∀ {u username}, ((c.moved t (c.shared.erase name) .returned).phase u).Holds username →
      u ≠ t ∧ (c.phase u).Holds username := by
    intro u username hu
    rcases holds_moved hu with ⟨-, hself⟩ | hother
    · rcases hself with hself | hself <;> cases hself
    · exact hother
  refine ⟨fun u username hu => ?_, fun u v username hu hv => ?_, ?_⟩
  · obtain ⟨hut, hu'⟩ := hold hu
    refine Finset.mem_erase.mpr ⟨?_, hc.mem u username hu'⟩
    rintro rfl
    exact hut (hc.one u t _ hu' (Or.inr hphase))
  · exact hc.one u v username (hold hu).2 (hold hv).2
  · exact Nat.le_trans (Finset.card_le_card (Finset.erase_subset ..)) hc.card

/-- A step that takes no slot and frees none. -/
theorem Slots.same (hc : Slots processorCount c)
    (hkeeps : ∀ username, p.Holds username → (c.phase t).Holds username) :
    Slots processorCount (c.moved t c.shared p) := by
  have hold : ∀ {u username}, ((c.moved t c.shared p).phase u).Holds username →
      (c.phase u).Holds username := by
    intro u username hu
    rcases holds_moved hu with ⟨rfl, hself⟩ | ⟨-, hother⟩
    · exact hkeeps username hself
    · exact hother
  exact ⟨fun u username hu => hc.mem u username (hold hu),
    fun u v username hu hv => hc.one u v username (hold hu) (hold hv), hc.card⟩

/-- **Every step keeps each slot in use to one call**, and the set small enough. -/
theorem Slots.keep (hc : Slots processorCount c) {i : Choice}
    (h : next processorCount i c.shared (c.phase t) = some (running, p)) :
    Slots processorCount (c.moved t running p) := by
  rcases next_cases h with ⟨name, -, hfree, hcard, rfl, rfl⟩ | ⟨name, hphase, rfl, rfl⟩ |
    ⟨name, e, -, -, rfl, rfl⟩ | ⟨rfl, hkeeps⟩
  · exact hc.take hfree hcard
  · exact hc.free hphase
  · exact hc.same fun username hh => absurd hh (Phase.not_holds_of_ended trivial)
  · exact hc.same fun username => (hkeeps username).mp

end Keep

omit [DecidableEq T] in
theorem slots_start (processorCount : Nat) : Slots processorCount (start : State T) := by
  have hidle : ∀ t username, ¬ ((start : State T).phase t).Holds username := by
    intro t username h
    rcases h with h | h <;> cases h
  exact ⟨fun t username h => absurd h (hidle t username),
    fun t u username h => absurd h (hidle t username), Nat.zero_le _⟩

/-- **Under every schedule at most `processorCount` threads run `createKey`, and no two of them for
one name.** -/
theorem encryptions_bounded (processorCount : Nat) (schedule : List (T × Choice)) :
    Bounded processorCount
      (final (Threads.step fun _ => next processorCount) (start : State T) schedule) := by
  refine Slots.bounded (Threads.final_threads (C := fun _ _ => True) ?_ (slots_start processorCount)
    fun _ _ _ => trivial)
  exact fun c t i running p hc _ h => hc.keep h

/-! ## Which slots come back -/

/-- A name is in the set only as long as a call that inserted it runs. -/
structure Released (processorCount : Nat) (c : State T) : Prop where
  held : ∀ username ∈ c.shared, ∃ t, (c.phase t).Holds username
  empty : (∀ t, (c.phase t).Ended) → c.shared = ∅
  /-- When no call is in flight every user gets a slot at once. -/
  free : (∀ t, (c.phase t).Ended) → 0 < processorCount → ∀ username,
    next processorCount .checkAndInsert c.shared (.checking username) =
      some ({username}, .encrypting username)

/-- A `createKey` that runs throws. -/
def Throws (c : State T) (m : T × Choice) : Prop :=
  ∃ username e, c.phase m.1 = .encrypting username ∧ m.2 = .createKeyThrows e

section Released

variable {c : State T} {t : T} {running : Finset String} {p : Phase} {username : String}

omit [DecidableEq T] in
theorem released_of_held (h : ∀ username ∈ c.shared, ∃ t, (c.phase t).Holds username) :
    Released processorCount c := by
  have hempty : (∀ t, (c.phase t).Ended) → c.shared = ∅ := by
    intro hended
    refine Finset.eq_empty_of_forall_notMem fun username hmem => ?_
    obtain ⟨t, hholds⟩ := h username hmem
    exact Phase.not_holds_of_ended (hended t) hholds
  refine ⟨h, hempty, fun hended hpos username => ?_⟩
  rw [hempty hended, next, Finset.card_empty, if_pos hpos, if_pos (Finset.notMem_empty username)]
  rfl

/-- **A step that is not a throw of `createKey` leaves no slot behind.** -/
theorem Released.keep (hc : Released processorCount c) {i : Choice} (hthrows : ¬ Throws c (t, i))
    (h : next processorCount i c.shared (c.phase t) = some (running, p)) :
    Released processorCount (c.moved t running p) := by
  refine released_of_held fun username hmem => ?_
  rw [Threads.moved_shared] at hmem
  -- whoever held the name before holds it still, unless it is `t` that gives it back
  have hstays : username ∈ c.shared → ((c.phase t).Holds username → p.Holds username) →
      ∃ u, ((c.moved t running p).phase u).Holds username := by
    intro hbefore hself
    obtain ⟨u, hu⟩ := hc.held username hbefore
    refine ⟨u, ?_⟩
    by_cases hut : u = t
    · subst hut
      rw [Threads.moved_phase_self]
      exact hself hu
    · rw [Threads.moved_phase_of_ne hut]
      exact hu
  rcases next_cases h with ⟨name, hphase, -, -, rfl, rfl⟩ | ⟨name, hphase, rfl, rfl⟩ |
    ⟨name, e, hphase, rfl, rfl, rfl⟩ | ⟨rfl, hkeeps⟩
  · rcases Finset.mem_insert.mp hmem with rfl | hbefore
    · exact ⟨t, by rw [Threads.moved_phase_self]; exact Or.inl rfl⟩
    · refine hstays hbefore fun hself => ?_
      rw [hphase] at hself
      rcases hself with hself | hself <;> cases hself
  · obtain ⟨hne, hbefore⟩ := Finset.mem_erase.mp hmem
    refine hstays hbefore fun hself => ?_
    rw [hphase] at hself
    rcases hself with hself | hself <;> cases hself
    exact absurd rfl hne
  · exact absurd ⟨name, e, hphase, rfl⟩ hthrows
  · exact hstays hmem (hkeeps username).mpr

/-- **A `createKey` that throws leaves its slot behind**: the name stays, and no call has it. -/
theorem Slots.not_released_of_throws (hc : Slots processorCount c) {i : Choice} (h : Throws c (t, i)) :
    ¬ Released processorCount (entryOf (Threads.step fun _ => next processorCount) c (t, i)).after := by
  obtain ⟨name, e, hphase, rfl⟩ := h
  have hnext : next processorCount (.createKeyThrows e) c.shared (c.phase t) =
      some (c.shared, .threw e) := by
    rw [hphase]
    rfl
  have hafter : (entryOf (Threads.step fun _ => next processorCount) c
      (t, .createKeyThrows e)).after = c.moved t c.shared (.threw e) := by
    rw [Threads.step_of_next (by exact hnext)]
  rw [hafter]
  intro hreleased
  obtain ⟨u, hu⟩ := hreleased.held name (hc.mem t name (Or.inl hphase))
  rcases holds_moved hu with ⟨-, hself⟩ | ⟨hut, hold⟩
  · exact Phase.not_holds_of_ended (p := .threw e) trivial hself
  · exact hut (hc.one u t name hold (Or.inl hphase))

end Released

omit [DecidableEq T] in
theorem released_start (processorCount : Nat) : Released processorCount (start : State T) :=
  released_of_held fun _ h => absurd h (Finset.notMem_empty _)

/-- **Slots come back at every step of a run exactly when no `createKey` of it throws.** -/
theorem released_iff (processorCount : Nat) (schedule : List (T × Choice)) :
    (∀ h e, Occurs (history (Threads.step fun _ => next processorCount) (start : State T) schedule) h e →
      Released processorCount e.after) ↔
    ∀ h e, Occurs (history (Threads.step fun _ => next processorCount) (start : State T) schedule) h e →
      ¬ Throws e.before e.input := by
  constructor
  · intro hreleased h e ho hthrows
    have hslots : Slots processorCount e.before := (Threads.occurs_threads (C := fun _ _ => True)
      (fun c t i running p hc _ hnext => hc.keep hnext) (slots_start processorCount)
      (fun _ _ _ => trivial) ho).1
    have hafter := hreleased h e ho
    rw [occurs_spec ho] at hafter
    exact hslots.not_released_of_throws hthrows hafter
  · intro hnone h e ho
    exact (Threads.occurs_threads (C := fun c m => ¬ Throws c m)
      (fun c t i running p hc hthrows hnext => hc.keep hthrows hnext)
      (released_start processorCount) hnone ho).2

/-- **After a `createKey` that threw the user is locked out**, with no call in flight. -/
theorem slot_leaked : ∃ schedule : List (Unit × Choice), ∃ username,
    let c := final (Threads.step fun _ => next 8) (start : State Unit) schedule
    (∀ t, (c.phase t).Ended) ∧ c.shared = {username} ∧
      next 8 .checkAndInsert c.shared (.checking username) = some (c.shared, .sleeping username) :=
  ⟨[((), .call "alice"), ((), .checkAndInsert), ((), .createKeyThrows (.stdException "bad alloc"))],
    "alice", fun _ => trivial, rfl, rfl⟩

end PasswordEncryptionRateLimiter

end GradidoConnector
