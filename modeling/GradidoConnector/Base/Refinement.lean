import GradidoConnector.Base.Machine

/-!
# One machine inside another

A machine refines another one along `abs` where each of its steps, seen through `abs`, is a step of
the other machine or none at all; `shows` says which (`Refines`). What a history shows is its
`project`ion.

Results:
* **`Refines.project_history`**: the projection of a run is a run of the other machine.
* `occurs_project`: an entry that shows occurs there too, after what is shown of the entries before
  it.
* **`Refines.invariant`**: what holds after every run of the other machine holds, of what is shown,
  before every entry of a run.
-/

namespace GradidoConnector.Base

variable {σ ι ο σ' ι' ο' : Type}

/-- Each step is, seen through `abs`, the step it shows, or none. -/
structure Refines (step : σ → ι → ο × σ) (step' : σ' → ι' → ο' × σ') (abs : σ → σ')
    (shows : σ → ι → Option ι') : Prop where
  silent : ∀ s i, shows s i = none → abs (step s i).2 = abs s
  shown : ∀ s i j, shows s i = some j → abs (step s i).2 = (step' (abs s) j).2

/-- The entry a step shows. -/
def shownEntry (step' : σ' → ι' → ο' × σ') (abs : σ → σ') (shows : σ → ι → Option ι')
    (e : Entry σ ι ο) : Option (Entry σ' ι' ο') :=
  (shows e.before e.input).map (entryOf step' (abs e.before))

/-- What a history shows. -/
def project (step' : σ' → ι' → ο' × σ') (abs : σ → σ') (shows : σ → ι → Option ι')
    (h : List (Entry σ ι ο)) : List (Entry σ' ι' ο') :=
  h.filterMap (shownEntry step' abs shows)

/-- The inputs a history shows. -/
def shownInputs (shows : σ → ι → Option ι') (h : List (Entry σ ι ο)) : List ι' :=
  h.filterMap fun e => shows e.before e.input

variable {step : σ → ι → ο × σ} {step' : σ' → ι' → ο' × σ'} {abs : σ → σ'}
  {shows : σ → ι → Option ι'} {run h : List (Entry σ ι ο)} {e : Entry σ ι ο}

theorem mem_project {d' : Entry σ' ι' ο'} :
    d' ∈ project step' abs shows h ↔
      ∃ d ∈ h, ∃ j, shows d.before d.input = some j ∧ d' = entryOf step' (abs d.before) j := by
  simp only [project, List.mem_filterMap, shownEntry, Option.map_eq_some_iff]
  exact exists_congr fun d => and_congr_right fun _ => exists_congr fun j =>
    and_congr_right fun _ => eq_comm

/-- **An entry that shows occurs in the projection.** -/
theorem occurs_project (step' : σ' → ι' → ο' × σ') (abs : σ → σ') (ho : Occurs run h e) {j : ι'}
    (hj : shows e.before e.input = some j) :
    Occurs (project step' abs shows run) (project step' abs shows h)
      (entryOf step' (abs e.before) j) := by
  obtain ⟨later, rfl⟩ := ho
  have hshown : shownEntry step' abs shows e = some (entryOf step' (abs e.before) j) := by
    rw [shownEntry, hj, Option.map_some]
  refine ⟨project step' abs shows later, ?_⟩
  rw [project, List.filterMap_append, List.filterMap_cons_some hshown, project, project]

namespace Refines

/-- One step and the rest of the run. -/
theorem shown_cons (href : Refines step step' abs shows) (s : σ) (i : ι) (is : List ι) :
    (project step' abs shows (history step s (i :: is)) =
        match shows s i with
        | some j => entryOf step' (abs s) j ::
            project step' abs shows (history step (step s i).2 is)
        | none => project step' abs shows (history step (step s i).2 is)) ∧
      abs (step s i).2 = match shows s i with
        | some j => (step' (abs s) j).2
        | none => abs s := by
  rw [project, history, List.filterMap_cons, shownEntry, project]
  cases hj : shows s i with
  | none => exact ⟨by rw [entryOf, hj]; rfl, href.silent s i hj⟩
  | some j => exact ⟨by rw [entryOf, hj]; rfl, href.shown s i j hj⟩

/-- **The projection of a run is a run**, on the inputs it shows, and the states they end in
correspond. -/
theorem project_history (href : Refines step step' abs shows) (s : σ) (is : List ι) :
    project step' abs shows (history step s is) =
        history step' (abs s) (shownInputs shows (history step s is)) ∧
      abs (final step s is) = final step' (abs s) (shownInputs shows (history step s is)) := by
  induction is generalizing s with
  | nil => exact ⟨rfl, rfl⟩
  | cons i is ih =>
    obtain ⟨hproj, hafter⟩ := href.shown_cons s i is
    obtain ⟨hrest, hfinal⟩ := ih (step s i).2
    rw [hproj, final, shownInputs, history, List.filterMap_cons]
    cases hj : shows s i with
    | none =>
      rw [hj] at hafter
      rw [hafter] at hrest hfinal
      simp only [entryOf, hj]
      exact ⟨hrest, hfinal⟩
    | some j =>
      rw [hj] at hafter
      rw [hafter] at hrest hfinal
      simp only [entryOf, hj, history, final]
      exact ⟨congrArg _ hrest, hfinal⟩

/-- **The invariant rule**: what holds after every run of the other machine holds before every entry
of a run, of what the entries before it show. -/
theorem invariant (href : Refines step step' abs shows) {I : List (Entry σ' ι' ο') → σ' → Prop}
    {s : σ} (hI : ∀ is, I (history step' (abs s) is) (final step' (abs s) is)) {is : List ι}
    (ho : Occurs (history step s is) h e) : I (project step' abs shows h) (abs e.before) := by
  obtain ⟨is₁, i, is₂, -, rfl, rfl⟩ := occurs_prefix ho
  obtain ⟨hproj, hfinal⟩ := href.project_history s is₁
  rw [hproj]
  exact hfinal ▸ hI _

end Refines

end GradidoConnector.Base
