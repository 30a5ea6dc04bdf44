import Mathlib.Data.List.Basic

/-!
# Runs of a deterministic machine

A machine takes an input in a state and answers with an output and the next state. A run is a
list of inputs; `history` records each step with the state before it, its input, its output and
the state after it. A property of a run speaks of an entry of the history and of the entries
before it (`Occurs`).

Results:
* `occurs_spec`: every entry of a history is the machine's step on the recorded state and input.
* **`occurs_invariant`**: an invariant of the history so far and the state, kept by every step
  that meets a guard, holds before every entry of a run whose entries all meet the guard.
* `final_invariant`: the same for the state at the end of the run.
-/

namespace GradidoConnector.Base

variable {σ ι ο : Type}

/-- One step of a run, with the states around it. -/
structure Entry (σ ι ο : Type) where
  before : σ
  input : ι
  output : ο
  after : σ

/-- The entry of the step on `i` from `s`. -/
def entryOf (step : σ → ι → ο × σ) (s : σ) (i : ι) : Entry σ ι ο :=
  ⟨s, i, (step s i).1, (step s i).2⟩

/-- The run on the inputs `is` from `s`, step by step. -/
def history (step : σ → ι → ο × σ) : σ → List ι → List (Entry σ ι ο)
  | _, [] => []
  | s, i :: is => entryOf step s i :: history step (entryOf step s i).after is

/-- The state a run ends in. -/
def final (step : σ → ι → ο × σ) : σ → List ι → σ
  | s, [] => s
  | s, i :: is => final step (entryOf step s i).after is

/-- `e` is an entry of the run, with the entries `h` before it. -/
def Occurs (run h : List (Entry σ ι ο)) (e : Entry σ ι ο) : Prop :=
  ∃ later, run = h ++ e :: later

variable {step : σ → ι → ο × σ}

theorem occurs_nil {h : List (Entry σ ι ο)} {e : Entry σ ι ο} : ¬ Occurs [] h e := by
  rintro ⟨later, hl⟩
  exact absurd hl (by simp)

theorem occurs_cons {d : Entry σ ι ο} {run h : List (Entry σ ι ο)} {e : Entry σ ι ο} :
    Occurs (d :: run) h e ↔ (h = [] ∧ e = d) ∨ ∃ h', h = d :: h' ∧ Occurs run h' e := by
  constructor
  · rintro ⟨later, hl⟩
    cases h with
    | nil =>
      rw [List.nil_append, List.cons.injEq] at hl
      exact Or.inl ⟨rfl, hl.1.symm⟩
    | cons c h' =>
      rw [List.cons_append, List.cons.injEq] at hl
      exact Or.inr ⟨h', by rw [hl.1], later, hl.2⟩
  · rintro (⟨rfl, rfl⟩ | ⟨h', rfl, later, rfl⟩)
    · exact ⟨run, rfl⟩
    · exact ⟨later, rfl⟩

/-- An entry before `e` is itself an entry of the run. -/
theorem Occurs.earlier {run h : List (Entry σ ι ο)} {e d : Entry σ ι ο} (ho : Occurs run h e)
    (hd : d ∈ h) : ∃ h', Occurs run h' d := by
  obtain ⟨later, rfl⟩ := ho
  obtain ⟨a, b, rfl⟩ := List.append_of_mem hd
  exact ⟨a, b ++ e :: later, by simp⟩

theorem Occurs.mem {run h : List (Entry σ ι ο)} {e : Entry σ ι ο} (ho : Occurs run h e) :
    e ∈ run := by
  obtain ⟨later, rfl⟩ := ho
  exact List.mem_append_right _ List.mem_cons_self

/-- The entries before an entry are the run on a prefix of the inputs. -/
theorem occurs_prefix {s : σ} {is : List ι} {h : List (Entry σ ι ο)} {e : Entry σ ι ο}
    (ho : Occurs (history step s is) h e) :
    ∃ is₁ i is₂, is = is₁ ++ i :: is₂ ∧ h = history step s is₁ ∧
      e = entryOf step (final step s is₁) i := by
  induction is generalizing s h with
  | nil => exact absurd ho occurs_nil
  | cons i is ih =>
    rcases occurs_cons.mp ho with ⟨rfl, rfl⟩ | ⟨h', rfl, ho'⟩
    · exact ⟨[], i, is, rfl, rfl, rfl⟩
    · obtain ⟨is₁, j, is₂, rfl, rfl, rfl⟩ := ih ho'
      exact ⟨i :: is₁, j, is₂, rfl, rfl, rfl⟩

/-- Every entry is a step of the machine. -/
theorem occurs_spec {s : σ} {is : List ι} {h : List (Entry σ ι ο)} {e : Entry σ ι ο}
    (ho : Occurs (history step s is) h e) : e = entryOf step e.before e.input := by
  obtain ⟨is₁, i, is₂, -, -, rfl⟩ := occurs_prefix ho
  rfl

theorem input_mem {s : σ} {is : List ι} {h : List (Entry σ ι ο)} {e : Entry σ ι ο}
    (ho : Occurs (history step s is) h e) : e.input ∈ is := by
  obtain ⟨is₁, i, is₂, rfl, -, rfl⟩ := occurs_prefix ho
  exact List.mem_append_right _ List.mem_cons_self

/-- One more input at the end of a run. -/
theorem history_concat (s : σ) (is : List ι) (i : ι) :
    history step s (is ++ [i]) = history step s is ++ [entryOf step (final step s is) i] := by
  induction is generalizing s with
  | nil => rfl
  | cons j is ih =>
    rw [List.cons_append, history, ih, history, final, List.cons_append]

theorem final_concat (s : σ) (is : List ι) (i : ι) :
    final step s (is ++ [i]) = (step (final step s is) i).2 := by
  induction is generalizing s with
  | nil => rfl
  | cons j is ih =>
    rw [List.cons_append, final, ih, final]

/-- A history has an entry for each input, in their order. -/
theorem map_input_history (s : σ) (is : List ι) : (history step s is).map Entry.input = is := by
  induction is generalizing s with
  | nil => rfl
  | cons i is ih =>
    rw [history, List.map_cons, ih]
    rfl

/-! ## Invariants -/

variable {I : List (Entry σ ι ο) → σ → Prop} {C : List (Entry σ ι ο) → Entry σ ι ο → Prop}

private theorem occurs_invariant_from
    (keep : ∀ h s i, I h s → C h (entryOf step s i) →
      I (h ++ [entryOf step s i]) (entryOf step s i).after) :
    ∀ (is : List ι) (s : σ) (h₀ : List (Entry σ ι ο)), I h₀ s →
      (∀ h e, Occurs (history step s is) h e → C (h₀ ++ h) e) →
      (∀ h e, Occurs (history step s is) h e → I (h₀ ++ h) e.before) ∧
        I (h₀ ++ history step s is) (final step s is)
  | [], s, h₀, h0, _ => ⟨fun h e ho => absurd ho occurs_nil, by rw [history, List.append_nil]; exact h0⟩
  | i :: is, s, h₀, h0, hC => by
    have hfirst : C h₀ (entryOf step s i) := by
      have := hC [] (entryOf step s i) (occurs_cons.mpr (Or.inl ⟨rfl, rfl⟩))
      rwa [List.append_nil] at this
    have hrest := occurs_invariant_from keep is (entryOf step s i).after (h₀ ++ [entryOf step s i])
      (keep h₀ s i h0 hfirst) fun h e ho => by
        rw [List.append_assoc]
        exact hC _ e (occurs_cons.mpr (Or.inr ⟨h, rfl, ho⟩))
    simp only [List.append_assoc, List.singleton_append] at hrest
    refine ⟨fun h e ho => ?_, hrest.2⟩
    rcases occurs_cons.mp ho with ⟨rfl, rfl⟩ | ⟨h', rfl, ho'⟩
    · rw [List.append_nil]; exact h0
    · exact hrest.1 h' e ho'

/-- **The invariant rule.** What holds at the start and is kept by every step meeting the guard
`C` holds before every entry of a run whose entries all meet it. -/
theorem occurs_invariant {s : σ} {is : List ι} (h0 : I [] s)
    (keep : ∀ h t i, I h t → C h (entryOf step t i) →
      I (h ++ [entryOf step t i]) (entryOf step t i).after)
    (hC : ∀ h e, Occurs (history step s is) h e → C h e) {h : List (Entry σ ι ο)}
    {e : Entry σ ι ο} (ho : Occurs (history step s is) h e) : I h e.before :=
  (occurs_invariant_from keep is s [] h0 hC).1 h e ho

/-- The invariant rule at the end of the run. -/
theorem final_invariant {s : σ} {is : List ι} (h0 : I [] s)
    (keep : ∀ h t i, I h t → C h (entryOf step t i) →
      I (h ++ [entryOf step t i]) (entryOf step t i).after)
    (hC : ∀ h e, Occurs (history step s is) h e → C h e) :
    I (history step s is) (final step s is) :=
  (occurs_invariant_from keep is s [] h0 hC).2

end GradidoConnector.Base
