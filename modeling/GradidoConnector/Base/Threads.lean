import GradidoConnector.Base.Machine
import Mathlib.Logic.Function.Basic

/-!
# Threads over a shared state

Any number of threads, each with a local state of its own, over one shared state. `next` is one
atomic step of a thread: from the shared state and its local state, by a choice `ι` for what the
program does not decide, or `none` where the thread has no such step. A schedule says which thread
moves next and by which choice, and the threads under a schedule are a machine (`Base.Machine`); a
choice that is not enabled leaves everything as it is.

Results:
* `step_cases`: what a step of a schedule does.
* **`final_threads`**, **`occurs_threads`**: what holds at the start and is kept by every enabled
  step that meets a guard holds at every step, and at the end, of every schedule whose steps all
  meet it.
-/

namespace GradidoConnector.Base

variable {T σ τ ι : Type}

structure Threads (T σ τ : Type) where
  shared : σ
  phase : T → τ

namespace Threads

variable [DecidableEq T]

/-- The threads after `t` has moved to the shared state `s` and its local state `p`. -/
def moved (c : Threads T σ τ) (t : T) (s : σ) (p : τ) : Threads T σ τ :=
  ⟨s, Function.update c.phase t p⟩

/-- One step of a schedule, and whether it was enabled. -/
def step (next : T → ι → σ → τ → Option (σ × τ)) (c : Threads T σ τ) (m : T × ι) :
    Bool × Threads T σ τ :=
  match next m.1 m.2 c.shared (c.phase m.1) with
  | some (s, p) => (true, c.moved m.1 s p)
  | none => (false, c)

variable {next : T → ι → σ → τ → Option (σ × τ)} {c : Threads T σ τ} {t u : T} {i : ι} {s : σ} {p : τ}

@[simp] theorem moved_shared : (c.moved t s p).shared = s := rfl

@[simp] theorem moved_phase_self : (c.moved t s p).phase t = p := Function.update_self ..

theorem moved_phase_of_ne (h : u ≠ t) : (c.moved t s p).phase u = c.phase u :=
  Function.update_of_ne h ..

theorem step_of_next (h : next t i c.shared (c.phase t) = some (s, p)) :
    entryOf (step next) c (t, i) = ⟨c, (t, i), true, c.moved t s p⟩ := by
  rw [entryOf, step, h]

/-- A step moves its thread, or does nothing. -/
theorem step_cases (next : T → ι → σ → τ → Option (σ × τ)) (c : Threads T σ τ) (t : T) (i : ι) :
    (∃ s p, next t i c.shared (c.phase t) = some (s, p) ∧
      (entryOf (step next) c (t, i)).after = c.moved t s p) ∨
    (next t i c.shared (c.phase t) = none ∧ (entryOf (step next) c (t, i)).after = c) := by
  cases h : next t i c.shared (c.phase t) with
  | some sp => exact Or.inl ⟨sp.1, sp.2, rfl, by rw [step_of_next h]⟩
  | none =>
    refine Or.inr ⟨rfl, ?_⟩
    rw [entryOf, step, h]

variable {I : Threads T σ τ → Prop} {C : Threads T σ τ → T × ι → Prop}

section Keep

variable (keep : ∀ c t i s p, I c → C c (t, i) → next t i c.shared (c.phase t) = some (s, p) →
  I (c.moved t s p))
include keep

/-- A step keeps what every enabled step keeps. -/
theorem after_threads (h : I c) {m : T × ι} (hguard : C c m) : I (entryOf (step next) c m).after := by
  obtain ⟨t, i⟩ := m
  rcases step_cases next c t i with ⟨s, p, hnext, hafter⟩ | ⟨-, hafter⟩ <;> rw [hafter]
  · exact keep c t i s p h hguard hnext
  · exact h

variable {schedule : List (T × ι)} (h0 : I c)
  (hC : ∀ h e, Occurs (history (step next) c schedule) h e → C e.before e.input)
include h0 hC

/-- **The invariant rule for schedules.** -/
theorem final_threads : I (final (step next) c schedule) :=
  final_invariant (I := fun _ => I) (C := fun _ e => C e.before e.input) h0
    (fun _ _ _ hd hguard => after_threads keep hd hguard) hC

/-- The invariant rule at every step. -/
theorem occurs_threads {h : List (Entry (Threads T σ τ) (T × ι) Bool)}
    {e : Entry (Threads T σ τ) (T × ι) Bool} (ho : Occurs (history (step next) c schedule) h e) :
    I e.before ∧ I e.after := by
  have hbefore : I e.before :=
    occurs_invariant (I := fun _ => I) (C := fun _ e => C e.before e.input) h0
      (fun _ _ _ hd hguard => after_threads keep hd hguard) hC ho
  refine ⟨hbefore, ?_⟩
  rw [occurs_spec ho]
  exact after_threads keep hbefore (hC h e ho)

end Keep

end Threads

end GradidoConnector.Base
