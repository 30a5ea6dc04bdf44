import Mathlib.Data.List.DropRight

/-!
# Journals that keep their newest entries

A bounded journal is a list in order of arrival. An arrival goes to the end and the oldest
entries leave while there are too many (`trim`). An update searches from the newest entry and
changes the first match only (`modifyNewest`).

Results:
* `trim_eq_rtake`: the eviction loop keeps exactly the newest `n` entries.
* `rtake_concat`: an arrival after an eviction evicts as if nothing had been evicted before.
* `modifyNewest_cons`: the newest match is in the tail if the tail has one.
* `modifyNewest_eq_self`: when an update changes nothing.
* **`rtake_modifyNewest`**: updating commutes with keeping the newest entries.
-/

namespace GradidoConnector.Base

variable {α : Type}

/-- `while (size > n) pop_front` -/
def trim (n : Nat) : List α → List α
  | [] => []
  | x :: l => if n < (x :: l).length then trim n l else x :: l

/-- Change the first match. -/
def modifyFirst (p : α → Bool) (f : α → α) : List α → List α
  | [] => []
  | x :: l => if p x then f x :: l else x :: modifyFirst p f l

/-- Change the last match, searching from the end. -/
def modifyNewest (p : α → Bool) (f : α → α) (l : List α) : List α :=
  (modifyFirst p f l.reverse).reverse

theorem trim_eq_rtake (n : Nat) : ∀ l : List α, trim n l = l.rtake n
  | [] => (List.rtake_nil n).symm
  | x :: l => by
    rw [trim]
    split
    · rename_i h
      rw [trim_eq_rtake n l, List.rtake, List.rtake, List.length_cons,
        Nat.succ_sub (Nat.lt_succ_iff.mp h), List.drop_succ_cons]
    · rename_i h
      rw [List.rtake, Nat.sub_eq_zero_of_le (Nat.le_of_not_lt h), List.drop_zero]

/-- Evicting after every arrival keeps the newest entries of all arrivals. -/
theorem rtake_concat (n : Nat) (l : List α) (x : α) :
    (l.rtake n ++ [x]).rtake n = (l ++ [x]).rtake n := by
  cases n with
  | zero => simp
  | succ n =>
    rw [List.rtake_concat_succ, List.rtake_concat_succ, List.rtake_eq_reverse_take_reverse,
      List.rtake_eq_reverse_take_reverse, List.rtake_eq_reverse_take_reverse,
      List.reverse_reverse, List.take_take, Nat.min_eq_left (Nat.le_succ n)]

theorem map_rtake {β : Type} (f : α → β) (n : Nat) (l : List α) :
    (l.rtake n).map f = (l.map f).rtake n := by
  rw [List.rtake, List.rtake, List.map_drop, List.length_map]

/-- An entry with fewer than `n` entries after it is kept. -/
theorem mem_rtake_of_lt {n : Nat} {a b : List α} {x : α} (h : b.length < n) :
    x ∈ (a ++ x :: b).rtake n := by
  rw [List.rtake_eq_reverse_take_reverse, List.mem_reverse, List.reverse_append,
    List.reverse_cons, List.append_assoc, List.take_append, List.length_reverse]
  refine List.mem_append_right _ ?_
  obtain ⟨k, hk⟩ := Nat.exists_eq_succ_of_ne_zero (Nat.sub_ne_zero_of_lt h)
  rw [hk]
  exact List.mem_cons_self

variable {p : α → Bool} {f : α → α}

theorem modifyFirst_of_none : ∀ l : List α, (∀ x ∈ l, p x = false) → modifyFirst p f l = l
  | [], _ => rfl
  | x :: l, h => by
    rw [modifyFirst, h x List.mem_cons_self, if_neg Bool.false_ne_true,
      modifyFirst_of_none l fun y hy => h y (List.mem_cons_of_mem _ hy)]

theorem modifyFirst_append (l m : List α) :
    modifyFirst p f (l ++ m) =
      if l.any p then modifyFirst p f l ++ m else l ++ modifyFirst p f m := by
  induction l with
  | nil => rfl
  | cons x l ih =>
    rw [List.cons_append, modifyFirst, modifyFirst, List.any_cons]
    by_cases hx : p x = true
    · simp [hx]
    · rw [if_neg hx, if_neg hx, ih, Bool.eq_false_iff.mpr hx, Bool.false_or]
      split <;> rfl

theorem modifyFirst_take (n : Nat) (l : List α) :
    modifyFirst p f (l.take n) = (modifyFirst p f l).take n := by
  induction l generalizing n with
  | nil => simp [modifyFirst]
  | cons x l ih =>
    cases n with
    | zero => rfl
    | succ n =>
      rw [List.take_succ_cons, modifyFirst, modifyFirst]
      split
      · rw [List.take_succ_cons]
      · rw [List.take_succ_cons, ih]

/-- The newest match is in the tail if the tail has one. -/
theorem modifyNewest_cons (x : α) (l : List α) :
    modifyNewest p f (x :: l) =
      if l.any p then x :: modifyNewest p f l else (if p x then f x else x) :: l := by
  rw [modifyNewest, List.reverse_cons, modifyFirst_append, List.any_reverse]
  split
  · rw [List.reverse_append, List.reverse_singleton, List.singleton_append, modifyNewest]
  · rw [List.reverse_append, List.reverse_reverse, modifyFirst]
    split <;> rfl

/-- An update that finds no match changes nothing. -/
theorem modifyNewest_of_none {l : List α} (h : ∀ x ∈ l, p x = false) :
    modifyNewest p f l = l := by
  rw [modifyNewest, modifyFirst_of_none _ fun x hx => h x (List.mem_reverse.mp hx),
    List.reverse_reverse]

theorem modifyFirst_eq_self {l : List α} :
    modifyFirst p f l = l ↔ ∀ x, l.find? p = some x → f x = x := by
  induction l with
  | nil => exact iff_of_true rfl fun _ h => by cases h
  | cons y l ih =>
    rw [modifyFirst, List.find?_cons]
    by_cases hy : p y = true
    · rw [if_pos hy, hy]
      simp
    · rw [if_neg hy, Bool.eq_false_iff.mpr hy, List.cons.injEq, ih]
      exact and_iff_right rfl

/-- An update changes nothing exactly where the newest match is as it would be after it. -/
theorem modifyNewest_eq_self {l : List α} :
    modifyNewest p f l = l ↔ ∀ x, l.reverse.find? p = some x → f x = x := by
  rw [← modifyFirst_eq_self, modifyNewest, ← List.reverse_inj, List.reverse_reverse]

/-- **An update commutes with keeping the newest entries**, whether the match is kept or not. -/
theorem rtake_modifyNewest (n : Nat) (l : List α) :
    (modifyNewest p f l).rtake n = modifyNewest p f (l.rtake n) := by
  rw [modifyNewest, modifyNewest, List.rtake_eq_reverse_take_reverse, List.reverse_reverse,
    List.rtake_eq_reverse_take_reverse, List.reverse_reverse, modifyFirst_take]

end GradidoConnector.Base
