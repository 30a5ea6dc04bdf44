import GradidoConnector.Base.ExpireCache
import GradidoConnector.Base.Machine

/-!
# How long an entry of the cache lives

One entry of an `ExpireCache`, seen through what happens to it (`Use`): it is put, accessed and
removed, and time passes. `Kept` says of what happened since the entry was put that it was not
removed or replaced and that no `timeout` passed without an access.

Results:
* **`foundAfter_iff_leased`**: an access finds exactly what was put and kept since.
* `final_eq_foldl`: an entry of a machine whose steps use it so.
-/

namespace GradidoConnector.Base

variable {α : Type} {timeout : Nat}

/-- What may happen to an entry. -/
inductive Use (α : Type)
  | put (v : α)
  | access
  | remove
  | wait (time : Nat)
  | other

/-- The value an access at `now` finds in an entry. -/
def found (timeout now : Nat) (slot : Option (Slot α)) : Option α :=
  match slot with
  | some s => if now < s.lastAccess + timeout then some s.value else none
  | none => none

/-- The clock and the entry after a use. -/
def useStep (timeout : Nat) : Nat × Option (Slot α) → Use α → Nat × Option (Slot α)
  | (now, _), .put v => (now, some ⟨v, now⟩)
  | (now, slot), .access => (now, (found timeout now slot).map fun v => ⟨v, now⟩)
  | (now, _), .remove => (now, none)
  | (now, slot), .wait time => (now + time, slot)
  | (now, slot), .other => (now, slot)

/-- An entry that was last accessed `idle` ago is never removed, replaced or left alone
for too long. -/
def Kept (timeout : Nat) : Nat → List (Use α) → Prop
  | idle, [] => idle < timeout
  | _, .put _ :: _ => False
  | idle, .access :: us => idle < timeout ∧ Kept timeout 0 us
  | _, .remove :: _ => False
  | idle, .wait time :: us => Kept timeout (idle + time) us
  | idle, .other :: us => Kept timeout idle us

/-- The value was put at some time, and kept since. -/
def Leased (timeout : Nat) (v : α) (us : List (Use α)) : Prop :=
  ∃ before after, us = before ++ .put v :: after ∧ Kept timeout 0 after

theorem not_leased_nil {v : α} : ¬ Leased timeout v [] := by
  rintro ⟨before, after, h, -⟩
  exact absurd h (by simp)

theorem leased_cons {v : α} {u : Use α} {us : List (Use α)} :
    Leased timeout v (u :: us) ↔ (u = .put v ∧ Kept timeout 0 us) ∨ Leased timeout v us := by
  constructor
  · rintro ⟨before, after, h, hkept⟩
    cases before with
    | nil =>
      cases h
      exact Or.inl ⟨rfl, hkept⟩
    | cons x before =>
      cases h
      exact Or.inr ⟨before, after, rfl, hkept⟩
  · rintro (⟨rfl, hkept⟩ | ⟨before, after, rfl, hkept⟩)
    · exact ⟨[], us, rfl, hkept⟩
    · exact ⟨u :: before, after, rfl, hkept⟩

/-- A lease among the uses that a history comes to. -/
theorem leased_map_iff {ε : Type} {useOf : ε → Use α} {v : α} {h : List ε} :
    Leased timeout v (h.map useOf) ↔ ∃ before d after, h = before ++ d :: after ∧ useOf d = .put v ∧
      Kept timeout 0 (after.map useOf) := by
  constructor
  · rintro ⟨before, after, hsplit, hkept⟩
    obtain ⟨h₁, h₂, rfl, rfl, hrest⟩ := List.map_eq_append_iff.mp hsplit
    obtain ⟨d, h₃, rfl, hput, rfl⟩ := List.map_eq_cons_iff.mp hrest
    exact ⟨h₁, d, h₃, rfl, hput, hkept⟩
  · rintro ⟨before, d, after, rfl, hput, hkept⟩
    refine ⟨before.map useOf, after.map useOf, ?_, hkept⟩
    rw [List.map_append, List.map_cons, hput]

/-- A use other than a put leases nothing. -/
theorem leased_cons_of_ne {v : α} {u : Use α} {us : List (Use α)} (h : ∀ w, u ≠ .put w) :
    Leased timeout v (u :: us) ↔ Leased timeout v us := by
  rw [leased_cons]
  exact or_iff_right fun hput => h v hput.1

/-- An entry is found if it was accessed less than `timeout` ago. -/
theorem found_some {last idle : Nat} {v : α} :
    found timeout (last + idle) (some ⟨v, last⟩) = if idle < timeout then some v else none := by
  unfold found
  simp only [Nat.add_lt_add_iff_left]

/-- What an access finds after some uses. -/
def foundAfter (timeout : Nat) (s : Nat × Option (Slot α)) (us : List (Use α)) : Option α :=
  let t := us.foldl (useStep timeout) s
  found timeout t.1 t.2

theorem foundAfter_cons {s : Nat × Option (Slot α)} {u : Use α} {us : List (Use α)} :
    foundAfter timeout s (u :: us) = foundAfter timeout (useStep timeout s u) us := rfl

/-- The uses of an empty entry, and of one that was accessed `idle` ago. -/
private theorem foundAfter_iff (v : α) (us : List (Use α)) :
    (∀ now, foundAfter timeout (now, none) us = some v ↔ Leased timeout v us) ∧
    ∀ last idle u, foundAfter timeout (last + idle, some ⟨u, last⟩) us = some v ↔
      (u = v ∧ Kept timeout idle us) ∨ Leased timeout v us := by
  induction us with
  | nil =>
    refine ⟨fun now => ⟨(fun h => by cases h), fun h => absurd h not_leased_nil⟩, ?_⟩
    intro last idle u
    rw [show foundAfter timeout (last + idle, some ⟨u, last⟩) [] = _ from found_some]
    simp [Kept, not_leased_nil, and_comm]
  | cons use us ih =>
    obtain ⟨hnone, hsome⟩ := ih
    have hput : ∀ now w, foundAfter timeout (now, some ⟨w, now⟩) us = some v ↔
        Leased timeout v (.put w :: us) := by
      intro now w
      rw [leased_cons, Use.put.injEq]
      exact hsome now 0 w
    refine ⟨fun now => ?_, fun last idle u => ?_⟩
    · rw [foundAfter_cons]
      cases use with
      | put w => exact hput now w
      | access | remove | wait | other =>
        rw [leased_cons_of_ne (by simp)]
        exact hnone _
    · rw [foundAfter_cons]
      cases use with
      | put w =>
        rw [Kept, and_false, false_or]
        exact hput (last + idle) w
      | access =>
        rw [leased_cons_of_ne (by simp), useStep, found_some]
        by_cases hidle : idle < timeout
        · rw [if_pos hidle, Kept, and_iff_right hidle]
          exact hsome (last + idle) 0 u
        · rw [if_neg hidle, Kept, or_iff_right fun h => hidle h.2.1]
          exact hnone _
      | remove =>
        rw [leased_cons_of_ne (by simp), Kept, and_false, false_or]
        exact hnone _
      | wait time =>
        rw [leased_cons_of_ne (by simp), Kept, useStep, Nat.add_assoc]
        exact hsome last (idle + time) u
      | other =>
        rw [leased_cons_of_ne (by simp)]
        exact hsome last idle u

/-- **An access finds exactly what was put and kept since.** -/
theorem foundAfter_iff_leased (now : Nat) {us : List (Use α)} {v : α} :
    foundAfter timeout (now, none) us = some v ↔ Leased timeout v us :=
  (foundAfter_iff v us).1 now

/-- **An entry of a machine**: if each step uses it as `useOf` says, so does a run. -/
theorem final_eq_foldl {σ ι ο : Type} {step : σ → ι → ο × σ} (slot : σ → Nat × Option (Slot α))
    {useOf : Entry σ ι ο → Use α}
    (hstep : ∀ s i, slot (step s i).2 = useStep timeout (slot s) (useOf (entryOf step s i)))
    (s : σ) (is : List ι) :
    slot (final step s is) = ((history step s is).map useOf).foldl (useStep timeout) (slot s) := by
  induction is generalizing s with
  | nil => rfl
  | cons i is ih =>
    rw [final, history, List.map_cons, List.foldl_cons, ← hstep]
    exact ih _

end GradidoConnector.Base
