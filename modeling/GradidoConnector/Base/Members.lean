import Mathlib.Data.List.Nodup
import Mathlib.Data.List.Perm.Basic

/-!
# The members of a JSON object

A list of names with values, in the order in which they stand, as a parser that does not look for
duplicates leaves it. A name is looked up from the front; `remove` puts the last member into the
place of the removed one, as a vector without order does.

As a collection without order, a list of members can be taken `without` a name, or with a value
assigned to it (`assign`): then the name has that one member.

Results:
* `remove_perm`: removing takes out the first member of the name and keeps all others.
* **`remove_perm_without_iff`**, **`replace_perm_assign_iff`**, **`write_perm_assign_iff`**: where
  the operations on the first member of a name are operations on the collection.
* `lookup_perm`: where no name occurs twice the order does not matter for a lookup.
* **`lookup_replace`**, **`lookup_replace_of_ne`**: removing a name and adding it with a value
  changes what is found under that name and nothing else.
-/

namespace GradidoConnector.Base

abbrev Members (α : Type) := List (String × α)

namespace Members

variable {α : Type}

/-- The members without the first one of the name; the last member takes its place. -/
def remove (name : String) : Members α → Members α
  | [] => []
  | m :: rest =>
    if m.1 == name then
      match rest.getLast? with
      | some last => last :: rest.dropLast
      | none => []
    else m :: remove name rest

/-- The members with another value under the first member of the name. -/
def write (name : String) (a : α) : Members α → Members α
  | [] => []
  | m :: rest => if m.1 == name then (name, a) :: rest else m :: write name a rest

/-- The names. -/
def names (l : Members α) : List String := l.map Prod.fst

/-- How often the name occurs. -/
def count (name : String) (l : Members α) : Nat := l.countP fun m => m.1 == name

/-- The members of the other names. -/
def without (name : String) (l : Members α) : Members α := l.filter fun m => m.1 != name

/-- The members with the value as the only one under the name. -/
def assign (name : String) (a : α) (l : Members α) : Members α := without name l ++ [(name, a)]

variable {name other : String} {a : α} {l l' : Members α}

/-- **Removing takes out the first member of the name** and keeps all others. -/
theorem remove_perm (name : String) (l : Members α) :
    (remove name l).Perm (l.eraseP fun m => m.1 == name) := by
  induction l with
  | nil => exact List.Perm.refl _
  | cons m rest ih =>
    unfold remove
    by_cases h : (m.1 == name) = true
    · rw [if_pos h, List.eraseP_cons_of_pos (p := fun m : String × α => m.1 == name) h]
      cases hlast : rest.getLast? with
      | none => rw [List.getLast?_eq_none_iff.mp hlast]
      | some last =>
        calc (last :: rest.dropLast).Perm (rest.dropLast ++ [last]) :=
              (List.perm_append_singleton ..).symm
          _ = rest := List.dropLast_append_getLast? last hlast
    · rw [if_neg h, List.eraseP_cons_of_neg (p := fun m : String × α => m.1 == name) h]
      exact ih.cons m

/-! ## Collections of members -/

theorem names_write (name : String) (a : α) (l : Members α) : names (write name a l) = names l := by
  induction l with
  | nil => rfl
  | cons m rest ih =>
    unfold write
    by_cases h : (m.1 == name) = true
    · rw [if_pos h, names, names, List.map_cons, List.map_cons, beq_iff_eq.mp h]
    · rw [if_neg h]
      exact congrArg (m.1 :: ·) ih

theorem mem_of_lookup (h : l.lookup name = some a) : (name, a) ∈ l := by
  obtain ⟨front, back, rfl, -⟩ := List.lookup_eq_some_iff.mp h
  exact List.mem_append_right _ List.mem_cons_self

theorem count_pos_of_lookup (h : l.lookup name = some a) : 0 < count name l :=
  List.countP_pos_iff.mpr ⟨_, mem_of_lookup h, beq_self_eq_true name⟩

theorem count_eq (name : String) (l : Members α) : count name l = (names l).count name := by
  rw [names, List.count, List.countP_map]
  rfl

theorem count_perm (name : String) (h : l.Perm l') : count name l = count name l' := h.countP_eq _

theorem without_perm (name : String) (h : l.Perm l') : (without name l).Perm (without name l') :=
  h.filter _

theorem assign_perm (h : l.Perm l') : (assign name a l).Perm (assign name a l') :=
  (without_perm name h).append_right _

@[simp] theorem count_append : count name (l ++ l') = count name l + count name l' :=
  List.countP_append

@[simp] theorem count_single_self : count name [(name, a)] = 1 := by simp [count]

theorem count_single_of_ne (h : other ≠ name) : count name [(other, a)] = 0 := by simp [count, h]

@[simp] theorem count_without_self : count name (without name l) = 0 := by
  simp [count, without, List.countP_eq_zero]

theorem count_without_of_ne (h : other ≠ name) : count name (without other l) = count name l := by
  rw [count, without, List.countP_filter, count]
  refine List.countP_congr fun m _ => ?_
  by_cases hm : m.1 = name
  · simp [hm, Ne.symm h]
  · simp [hm]

theorem count_cons_self (a : α) (l : Members α) : count name ((name, a) :: l) = count name l + 1 :=
  List.countP_cons_of_pos (beq_self_eq_true name)

theorem count_cons_of_ne (h : other ≠ name) (a : α) (l : Members α) :
    count name ((other, a) :: l) = count name l := List.countP_cons_of_neg (by simpa using h)

theorem count_assign_of_ne (h : other ≠ name) (a : α) (l : Members α) :
    count name (assign other a l) = count name l := by
  rw [assign, count_append, count_without_of_ne h, count_single_of_ne h, Nat.add_zero]

theorem count_write (name other : String) (a : α) (l : Members α) :
    count name (write other a l) = count name l := by
  rw [count_eq, count_eq, names_write]

theorem count_remove_self : count name (remove name l) = count name l - 1 := by
  rw [count_perm name (remove_perm name l)]
  induction l with
  | nil => rfl
  | cons m rest ih =>
    obtain ⟨n, x⟩ := m
    by_cases hn : n = name
    · subst hn
      rw [List.eraseP_cons_of_pos (by simp), count_cons_self, Nat.add_sub_cancel]
    · rw [List.eraseP_cons_of_neg (by simpa using hn), count_cons_of_ne hn, count_cons_of_ne hn, ih]

theorem count_remove_of_ne (h : other ≠ name) : count name (remove other l) = count name l := by
  rw [count_perm name (remove_perm other l)]
  induction l with
  | nil => rfl
  | cons m rest ih =>
    obtain ⟨n, x⟩ := m
    by_cases hn : n = other
    · subst hn
      rw [List.eraseP_cons_of_pos (by simp), count_cons_of_ne h]
    · rw [List.eraseP_cons_of_neg (by simpa using hn)]
      simp only [count, List.countP_cons] at ih ⊢
      rw [ih]

/-- What does not occur is not taken away. -/
theorem without_of_count_eq_zero (h : count name l = 0) : without name l = l := by
  rw [count, List.countP_eq_zero] at h
  exact List.filter_eq_self.mpr fun m hm => by simpa [bne] using h m hm

/-- **Removing a name** leaves the members of the others exactly where it occurs once at most. -/
theorem remove_perm_without_iff : (remove name l).Perm (without name l) ↔ count name l ≤ 1 := by
  constructor
  · intro h
    have hcount := count_perm name h
    rw [count_remove_self, count_without_self] at hcount
    omega
  · intro h
    refine (remove_perm name l).trans (List.Perm.of_eq ?_)
    induction l with
    | nil => rfl
    | cons m rest ih =>
      obtain ⟨n, x⟩ := m
      by_cases hn : n = name
      · subst hn
        rw [count_cons_self] at h
        rw [List.eraseP_cons_of_pos (by simp), without,
          List.filter_cons_of_neg (by simp)]
        exact (without_of_count_eq_zero (by omega)).symm
      · rw [count_cons_of_ne hn] at h
        rw [List.eraseP_cons_of_neg (by simpa using hn), ih h, without, without,
          List.filter_cons_of_pos (by simpa using hn)]

/-- **Removing a name and adding it with a value** assigns that value exactly where the name occurs
once at most. -/
theorem replace_perm_assign_iff {a' : α} :
    (remove name l ++ [(name, a)]).Perm (assign name a' l) ↔ count name l ≤ 1 ∧ a = a' := by
  constructor
  · intro h
    have hcount := count_perm name h
    rw [assign, count_append, count_append, count_remove_self, count_without_self,
      count_single_self, count_single_self] at hcount
    have honce : count name l ≤ 1 := by omega
    refine ⟨honce, ?_⟩
    have hsame := (remove_perm_without_iff.mpr honce).symm.append_right [(name, a)] |>.trans h
    have hpair := List.perm_singleton.mp ((List.perm_append_left_iff _).mp hsame)
    simpa using hpair
  · rintro ⟨honce, rfl⟩
    exact (remove_perm_without_iff.mpr honce).append_right _

/-- Writing under a name that is there, as a collection. -/
theorem write_perm {x : α} (h : l.lookup name = some x) :
    (write name a l).Perm (remove name l ++ [(name, a)]) := by
  refine List.Perm.trans ?_ ((remove_perm name l).symm.append_right _)
  induction l with
  | nil => cases h
  | cons m rest ih =>
    obtain ⟨n, y⟩ := m
    unfold write
    by_cases hn : n = name
    · subst hn
      rw [if_pos (beq_self_eq_true n), List.eraseP_cons_of_pos (by simp)]
      exact (List.perm_append_singleton ..).symm
    · rw [List.lookup_cons, beq_false_of_ne (Ne.symm hn)] at h
      rw [if_neg (by simpa using hn), List.eraseP_cons_of_neg (by simpa using hn)]
      exact (ih h).cons _

/-- **Writing under a name** that is there assigns the value exactly where it occurs once. -/
theorem write_perm_assign_iff {x a' : α} (h : l.lookup name = some x) :
    (write name a l).Perm (assign name a' l) ↔ count name l ≤ 1 ∧ a = a' := by
  rw [← replace_perm_assign_iff]
  exact ⟨(write_perm h).symm.trans, (write_perm h).trans⟩

theorem filter_without_of_ne (h : other ≠ name) :
    (without other l).filter (fun m => m.1 == name) = l.filter fun m => m.1 == name := by
  rw [without, List.filter_filter]
  refine List.filter_congr fun m _ => ?_
  by_cases hm : m.1 = name
  · simp [hm, Ne.symm h]
  · simp [hm]

@[simp] theorem without_assign (name : String) (a : α) (l : Members α) :
    without name (assign name a l) = without name l := by simp [without, assign]

theorem without_assign_of_ne (h : other ≠ name) (a : α) (l : Members α) :
    without name (assign other a l) = assign other a (without name l) := by
  simp [without, assign, h, Bool.and_comm]

theorem without_write_of_ne (h : other ≠ name) (a : α) (l : Members α) :
    without name (write other a l) = write other a (without name l) := by
  induction l with
  | nil => rfl
  | cons m rest ih =>
    obtain ⟨n, x⟩ := m
    simp only [without] at ih ⊢
    by_cases hn : n = name
    · subst hn
      rw [write, if_neg (by simpa using Ne.symm h), List.filter_cons_of_neg (by simp),
        List.filter_cons_of_neg (by simp), ih]
    · rw [List.filter_cons_of_pos (by simpa using hn), write, write]
      split
      · rw [List.filter_cons_of_pos (by simpa using h)]
      · rw [List.filter_cons_of_pos (by simpa using hn), ih]

theorem without_remove_perm (name : String) (l : Members α) :
    (without name (remove name l)).Perm (without name l) := by
  refine (without_perm _ (remove_perm name l)).trans (List.Perm.of_eq ?_)
  induction l with
  | nil => rfl
  | cons m rest ih =>
    obtain ⟨n, x⟩ := m
    simp only [without] at ih ⊢
    by_cases hn : n = name
    · subst hn
      rw [List.eraseP_cons_of_pos (by simp), List.filter_cons_of_neg (by simp)]
    · rw [List.eraseP_cons_of_neg (by simpa using hn), List.filter_cons_of_pos (by simpa using hn),
        List.filter_cons_of_pos (by simpa using hn), ih]

/-- Replacing under a name changes none of the other members. -/
theorem without_replace_perm (name : String) (a : α) (l : Members α) :
    (without name (remove name l ++ [(name, a)])).Perm (without name l) := by
  have hsingle : without name [(name, a)] = [] := by simp [without]
  rw [without, List.filter_append, ← without, ← without, hsingle, List.append_nil]
  exact without_remove_perm name l

theorem lookup_without_of_ne (h : other ≠ name) : (without name l).lookup other = l.lookup other := by
  induction l with
  | nil => rfl
  | cons m rest ih =>
    obtain ⟨n, x⟩ := m
    simp only [without] at ih ⊢
    by_cases hn : n = name
    · subst hn
      rw [List.filter_cons_of_neg (by simp), ih, List.lookup_cons, beq_false_of_ne h]
    · rw [List.filter_cons_of_pos (by simpa using hn), List.lookup_cons, List.lookup_cons, ih]

/-- The value that is there can be written. -/
theorem write_of_lookup (h : l.lookup name = some a) : write name a l = l := by
  induction l with
  | nil => rfl
  | cons m rest ih =>
    obtain ⟨n, y⟩ := m
    unfold write
    by_cases hn : n = name
    · subst hn
      rw [List.lookup_cons_self, Option.some.injEq] at h
      rw [if_pos (beq_self_eq_true n), h]
    · rw [List.lookup_cons, beq_false_of_ne (Ne.symm hn)] at h
      rw [if_neg (by simpa using hn), ih h]

/-- Replacing a value gives the same members only if it is that value. -/
theorem eq_of_replace_perm {x : α} (h : l.lookup name = some x)
    (hperm : (remove name l ++ [(name, a)]).Perm l) : a = x := by
  have hself := write_perm (a := x) h
  rw [write_of_lookup h] at hself
  have hpair := (List.perm_append_left_iff _).mp (hperm.trans hself)
  simpa using List.perm_singleton.mp hpair

/-- A value is assigned already where it is the only one under the name. -/
theorem perm_assign_iff :
    l.Perm (assign name a l) ↔ (l.filter fun m => m.1 == name) = [(name, a)] := by
  have hsplit : l.Perm (without name l ++ l.filter fun m => m.1 == name) :=
    (List.filter_append_perm (fun m => m.1 == name) l).symm.trans List.perm_append_comm
  constructor
  · intro h
    exact List.perm_singleton.mp ((List.perm_append_left_iff _).mp (hsplit.symm.trans h))
  · intro h
    rwa [h] at hsplit

/-! ## Looking a name up -/

/-- Where no name occurs twice, a lookup finds exactly what is there. -/
theorem lookup_eq_some (hl : (names l).Nodup) : l.lookup name = some a ↔ (name, a) ∈ l := by
  induction l with
  | nil => simp
  | cons m rest ih =>
    obtain ⟨n, x⟩ := m
    rw [names, List.map_cons, List.nodup_cons] at hl
    rw [List.lookup_cons, List.mem_cons, Prod.mk.injEq]
    by_cases hn : name = n
    · subst hn
      rw [beq_self_eq_true, Option.some.injEq]
      have habsent : (name, a) ∉ rest := fun h => hl.1 (List.mem_map.mpr ⟨(name, a), h, rfl⟩)
      constructor
      · rintro rfl
        exact Or.inl ⟨rfl, rfl⟩
      · rintro (⟨-, rfl⟩ | hmem)
        · rfl
        · exact absurd hmem habsent
    · rw [beq_false_of_ne hn]
      constructor
      · exact fun h => Or.inr ((ih hl.2).mp h)
      · rintro (⟨rfl, -⟩ | hmem)
        · exact absurd rfl hn
        · exact (ih hl.2).mpr hmem

/-- Where no name occurs twice the order does not matter for a lookup. -/
theorem lookup_perm (hl : (names l).Nodup) (h : l.Perm l') : l.lookup name = l'.lookup name := by
  have hl' : (names l').Nodup := (h.map Prod.fst).nodup_iff.mp hl
  refine Option.ext fun a => ?_
  rw [lookup_eq_some hl, lookup_eq_some hl', h.mem_iff]

/-- Where no name occurs twice, removing a name leaves the members of the others. -/
theorem remove_perm_of_nodup (hl : (names l).Nodup) : (remove name l).Perm (without name l) := by
  rw [remove_perm_without_iff, count_eq]
  exact List.nodup_iff_count_le_one.mp hl name

theorem nodup_remove (hl : (names l).Nodup) : (names (remove name l)).Nodup := by
  refine ((remove_perm_of_nodup hl).map Prod.fst).nodup_iff.mpr ?_
  exact hl.sublist (List.filter_sublist.map Prod.fst)

theorem lookup_remove_self (hl : (names l).Nodup) : (remove name l).lookup name = none := by
  rw [lookup_perm (nodup_remove hl) (remove_perm_of_nodup hl), List.lookup_eq_none_iff]
  intro m hm
  rw [without, List.mem_filter, bne_iff_ne] at hm
  exact bne_iff_ne.mpr (Ne.symm hm.2)

theorem lookup_remove_of_ne (hl : (names l).Nodup) (h : other ≠ name) :
    (remove name l).lookup other = l.lookup other := by
  rw [lookup_perm (nodup_remove hl) (remove_perm_of_nodup hl), lookup_without_of_ne h]

/-- **Removing a name and adding it with a value** puts that value under the name. -/
theorem lookup_replace (hl : (names l).Nodup) :
    (remove name l ++ [(name, a)]).lookup name = some a := by
  rw [List.lookup_append, lookup_remove_self hl, Option.none_or, List.lookup_cons_self]

/-- It changes nothing under the other names. -/
theorem lookup_replace_of_ne (hl : (names l).Nodup) (h : other ≠ name) :
    (remove name l ++ [(name, a)]).lookup other = l.lookup other := by
  rw [List.lookup_append, lookup_remove_of_ne hl h, List.lookup_cons, beq_false_of_ne h,
    List.lookup_nil, Option.or_none]

theorem lookup_write_of_ne (h : other ≠ name) : (write name a l).lookup other = l.lookup other := by
  induction l with
  | nil => rfl
  | cons m rest ih =>
    obtain ⟨n, x⟩ := m
    unfold write
    by_cases hn : n = name
    · subst hn
      rw [if_pos (beq_self_eq_true n), List.lookup_cons, List.lookup_cons, beq_false_of_ne h]
    · rw [if_neg (by simpa using hn), List.lookup_cons, List.lookup_cons, ih]

theorem lookup_write_self {x : α} (h : l.lookup name = some x) :
    (write name a l).lookup name = some a := by
  induction l with
  | nil => cases h
  | cons m rest ih =>
    obtain ⟨n, y⟩ := m
    unfold write
    by_cases hn : n = name
    · subst hn
      rw [if_pos (beq_self_eq_true n), List.lookup_cons_self]
    · rw [List.lookup_cons, beq_false_of_ne (Ne.symm hn)] at h
      rw [if_neg (by simpa using hn), List.lookup_cons, beq_false_of_ne (Ne.symm hn)]
      exact ih h

end Members

end GradidoConnector.Base
