import GradidoConnector.Base.Machine
import Mathlib.Data.List.Nodup

/-!
# Sequential orders of concurrent calls

The calls of `T` are a machine of their own: `run` executes one of them as a whole. Concurrent calls
are linearized when they have answered, and left a state, as the same calls do one after another in
some order. `Logged` is what a simulation carries along: an order of the calls that have taken
effect, in which a call answers what it is going to answer.

Results:
* `outputs_of_logged`: an order in which each call is logged once has the logged answers.
* **`linearized_of_logged`**: when all calls are logged with their answers they are linearized.
-/

namespace GradidoConnector.Base

variable {σ T ρ : Type} (run : σ → T → ρ × σ) (s : σ)

/-- In `order`, one after another from `s`, the call `t` answers `r`. -/
def Logged (order : List T) (t : T) (r : ρ) : Prop :=
  ∃ e ∈ history run s order, e.input = t ∧ e.output = r

/-- The answers `answer` and the state `d` are those of the calls in some sequential order, the
state up to `same`. -/
def Linearized (same : σ → σ → Prop) (answer : T → ρ) (d : σ) : Prop :=
  ∃ order : List T, order.Nodup ∧ (∀ t, t ∈ order) ∧
    (history run s order).map Entry.output = order.map answer ∧ same (final run s order) d

variable {run s} {order : List T} {t : T} {r : ρ}

theorem Logged.mem (h : Logged run s order t r) : t ∈ order := by
  obtain ⟨e, he, rfl, -⟩ := h
  have hinputs : (history run s order).map Entry.input = order := map_input_history s order
  exact hinputs ▸ List.mem_map_of_mem he

/-- What is logged stays logged. -/
theorem Logged.concat (h : Logged run s order t r) (u : T) : Logged run s (order ++ [u]) t r := by
  obtain ⟨e, he, ht, hr⟩ := h
  refine ⟨e, ?_, ht, hr⟩
  rw [history_concat]
  exact List.mem_append_left _ he

theorem logged_concat (run : σ → T → ρ × σ) (s : σ) (order : List T) (t : T) :
    Logged run s (order ++ [t]) t (run (final run s order) t).1 := by
  refine ⟨entryOf run (final run s order) t, ?_, rfl, rfl⟩
  rw [history_concat]
  exact List.mem_append_right _ List.mem_cons_self

/-- **An order in which each call is logged once has the logged answers.** -/
theorem outputs_of_logged {answer : T → ρ} (hnodup : order.Nodup)
    (h : ∀ t ∈ order, Logged run s order t (answer t)) :
    (history run s order).map Entry.output = order.map answer := by
  have hinputs : (history run s order).map Entry.input = order := map_input_history s order
  have hinj : ((history run s order).map Entry.input).Nodup := by rwa [hinputs]
  have houtput : ∀ e ∈ history run s order, e.output = answer e.input := by
    intro e he
    have hmem : e.input ∈ order := hinputs ▸ List.mem_map_of_mem he
    obtain ⟨d, hd, hinput, hout⟩ := h e.input hmem
    rwa [List.inj_on_of_nodup_map hinj hd he hinput] at hout
  calc (history run s order).map Entry.output
      = (history run s order).map (answer ∘ Entry.input) := List.map_congr_left houtput
    _ = ((history run s order).map Entry.input).map answer := (List.map_map ..).symm
    _ = order.map answer := by rw [hinputs]

/-- **Calls that are all logged with their answers are linearized.** -/
theorem linearized_of_logged {same : σ → σ → Prop} {answer : T → ρ} {d : σ} (hnodup : order.Nodup)
    (h : ∀ t, Logged run s order t (answer t)) (hsame : same (final run s order) d) :
    Linearized run s same answer d :=
  ⟨order, hnodup, fun t => (h t).mem, outputs_of_logged hnodup fun t _ => h t, hsame⟩

end GradidoConnector.Base
