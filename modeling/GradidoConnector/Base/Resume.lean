import Mathlib.Data.List.Basic
import Mathlib.Logic.Relation

/-!
# Jobs that can be started over

A job takes a state through the states after each of its statements (`Job`). Cut off after a
statement, it leaves one of these states behind. On the states that satisfy `P` it is `Resumable`
when it stays within `P` and a run from where it was cut off ends where the first run would have
ended.

A job `Keeps` another one when, started where the other has nothing left to do, it leaves it so
after each of its statements.

Results:
* `Resumable.seq`: two resumable jobs in sequence, the second keeping the first, are resumable.
* **`resumable_all`**: the same for a list of jobs each of which keeps those before it.
* `Resumable.guarded`: a job that is resumable where a check succeeds, behind that check.
* **`Resumable.run_of_retries`**: no number of cut-off runs changes where a run ends.
-/

namespace GradidoConnector.Base

/-- What a run does: the states after its statements, in their order. -/
abbrev Job (σ : Type) := σ → List σ

namespace Job

variable {σ : Type}

/-- The state a run ends in. -/
def run (t : Job σ) (s : σ) : σ := (t s).getLastD s

/-- One job after another. -/
def seq (t u : Job σ) : Job σ := fun s => t s ++ u (t.run s)

/-- A list of jobs, one after another. -/
def all : List (Job σ) → Job σ
  | [] => fun _ => []
  | t :: ts => seq t (all ts)

/-- A job that is left out where the check `p` fails. -/
def guarded (p : σ → Bool) (t : Job σ) : Job σ := fun s => if p s then t s else []

/-- From `P`, a run stays in `P`, and one from where it was cut off ends where it would
have ended. -/
structure Resumable (P : σ → Prop) (t : Job σ) : Prop where
  stays : ∀ s, P s → ∀ cut ∈ t s, P cut
  again : ∀ s, P s → ∀ cut ∈ t s, t.run cut = t.run s

/-- Where `t` has nothing left to do, no statement of `u` gives it something to do. -/
def Keeps (P : σ → Prop) (u t : Job σ) : Prop :=
  ∀ s, P s → t.run s = s → ∀ cut ∈ u s, t.run cut = cut

/-- The states that any number of cut-off runs may leave. -/
def Retries (t : Job σ) : σ → σ → Prop := Relation.ReflTransGen fun s cut => cut ∈ t s

variable {P : σ → Prop} {t u : Job σ} {p : σ → Bool} {s : σ}

theorem run_of_nil (h : t s = []) : t.run s = s := by rw [run, h]; rfl

theorem run_eq (t : Job σ) (s : σ) : t.run s = (t s).getLast?.getD s := List.getLastD_eq_getLast?

theorem run_mem_or_eq (t : Job σ) (s : σ) : t.run s ∈ t s ∨ t.run s = s := by
  unfold run
  cases h : t s with
  | nil => exact Or.inr rfl
  | cons a l =>
    left
    rw [List.getLastD_cons]
    exact List.getLastD_mem_cons

theorem run_seq (t u : Job σ) (s : σ) : (t.seq u).run s = u.run (t.run s) := by
  rw [run_eq (t.seq u), seq, List.getLast?_append, Option.getD_or, ← run_eq t, ← run_eq u]

theorem guarded_of_pos (h : p s = true) : guarded p t s = t s := if_pos h

theorem guarded_of_neg (h : ¬ p s = true) : guarded p t s = [] := if_neg h

namespace Resumable

theorem run_stays (h : Resumable P t) (hs : P s) : P (t.run s) := by
  rcases run_mem_or_eq t s with hmem | heq
  · exact h.stays s hs _ hmem
  · rwa [heq]

/-- A run leaves nothing to do. -/
theorem run_run (h : Resumable P t) (hs : P s) : t.run (t.run s) = t.run s := by
  rcases run_mem_or_eq t s with hmem | heq
  · exact h.again s hs _ hmem
  · rw [heq, heq]

end Resumable

namespace Keeps

theorem run (h : Keeps P u t) (hs : P s) (hdone : t.run s = s) : t.run (u.run s) = u.run s := by
  rcases run_mem_or_eq u s with hmem | heq
  · exact h s hs hdone _ hmem
  · rw [heq, hdone]

theorem seq {v : Job σ} (hstays : Resumable P u) (hu : Keeps P u t) (hv : Keeps P v t) :
    Keeps P (u.seq v) t := by
  intro s hs hdone cut hcut
  rcases List.mem_append.mp hcut with hcut | hcut
  · exact hu s hs hdone cut hcut
  · exact hv _ (hstays.run_stays hs) (hu.run hs hdone) cut hcut

theorem all {us : List (Job σ)} (hstays : ∀ u ∈ us, Resumable P u) (h : ∀ u ∈ us, Keeps P u t) :
    Keeps P (all us) t := by
  induction us with
  | nil => exact fun _ _ _ _ hcut => absurd hcut List.not_mem_nil
  | cons u us ih =>
    rw [List.forall_mem_cons] at hstays h
    exact seq hstays.1 h.1 (ih hstays.2 h.2)

theorem guarded (h : Keeps (fun s => p s = true) u t) : Keeps (fun _ => True) (guarded p u) t := by
  intro s _ hdone cut hcut
  by_cases hp : p s = true
  · rw [guarded_of_pos hp] at hcut
    exact h s hp hdone cut hcut
  · rw [guarded_of_neg hp] at hcut
    exact absurd hcut List.not_mem_nil

end Keeps

/-- **Sequencing.** A cut in the second job leaves the first one done. -/
theorem Resumable.seq (ht : Resumable P t) (hu : Resumable P u) (hkeeps : Keeps P u t) :
    Resumable P (t.seq u) where
  stays s hs cut hcut := by
    rcases List.mem_append.mp hcut with hcut | hcut
    · exact ht.stays s hs cut hcut
    · exact hu.stays _ (ht.run_stays hs) cut hcut
  again s hs cut hcut := by
    rw [run_seq, run_seq]
    rcases List.mem_append.mp hcut with hcut | hcut
    · rw [ht.again s hs cut hcut]
    · have hmid := ht.run_stays hs
      rw [hkeeps _ hmid (ht.run_run hs) cut hcut, hu.again _ hmid cut hcut]

/-- **A list of resumable jobs**, each keeping those before it, is resumable. -/
theorem resumable_all {ts : List (Job σ)} (h : ∀ t ∈ ts, Resumable P t)
    (hkeeps : ts.Pairwise fun t u => Keeps P u t) : Resumable P (all ts) := by
  induction ts with
  | nil => exact ⟨fun _ _ _ hcut => absurd hcut List.not_mem_nil,
      fun _ _ _ hcut => absurd hcut List.not_mem_nil⟩
  | cons t ts ih =>
    rw [List.forall_mem_cons] at h
    rw [List.pairwise_cons] at hkeeps
    exact h.1.seq (ih h.2 hkeeps.2) (Keeps.all h.2 hkeeps.1)

/-- What is resumable where a check succeeds is resumable everywhere behind the check. -/
theorem Resumable.guarded (h : Resumable (fun s => p s = true) t) :
    Resumable (fun _ => True) (guarded p t) where
  stays _ _ _ _ := trivial
  again s _ cut hcut := by
    by_cases hp : p s = true
    · rw [guarded_of_pos hp] at hcut
      rw [run, run, guarded_of_pos (h.stays s hp cut hcut), guarded_of_pos hp]
      exact h.again s hp cut hcut
    · rw [guarded_of_neg hp] at hcut
      exact absurd hcut List.not_mem_nil

/-- **Any number of cut-off runs** before it leave a run's end as it was. -/
theorem Resumable.run_of_retries {cut : σ} (h : Resumable P t) (hs : P s) (hcut : Retries t s cut) :
    P cut ∧ t.run cut = t.run s := by
  induction hcut with
  | refl => exact ⟨hs, rfl⟩
  | tail _ hlast ih => exact ⟨h.stays _ ih.1 _ hlast, (h.again _ ih.1 _ hlast).trans ih.2⟩

end Job

end GradidoConnector.Base
