import Mathlib.Data.List.Basic
import Mathlib.Data.List.Nodup

/-!
# Tables with an AUTO_INCREMENT key and a uniqueness constraint

A table keeps its rows in insertion order. `clash r r'` says that the row contents `r` and `r'`
violate the table's UNIQUE key together; a table without one has `clash = fun _ _ => false`.
The fields of `Table` are what the constraints enforce, so a table that breaks them cannot be
built. Rows are never changed or removed.

Results:
* `mem_insert`: an insert adds exactly the new row, under a fresh id.
* `insert_eq_none`: an insert is refused exactly when the new contents clash with a stored row.
* `select_eq_singleton`: a select whose rows are all one row.
-/

namespace GradidoConnector.Base

variable {ρ : Type} {clash : ρ → ρ → Bool}

/-- A stored row: its primary key and its contents. -/
structure Row (ρ : Type) where
  id : Nat
  val : ρ
  deriving DecidableEq

/-- A table under its constraints. `next` is the AUTO_INCREMENT counter. -/
structure Table (ρ : Type) (clash : ρ → ρ → Bool) where
  rows : List (Row ρ)
  next : Nat
  ids_lt : ∀ r ∈ rows, r.id < next
  ids_nodup : (rows.map Row.id).Nodup
  no_clash : rows.Pairwise fun a b => clash a.val b.val = false

namespace Table

/-- A fresh table; the first id is 1. -/
def empty : Table ρ clash := ⟨[], 1, by simp, by simp, List.Pairwise.nil⟩

/-- Some stored row clashes with `v`. -/
def clashes (t : Table ρ clash) (v : ρ) : Bool := t.rows.any fun r => clash r.val v

/-- `INSERT`: the table with the new row, refused on a clash. -/
def insert (t : Table ρ clash) (v : ρ) : Option (Table ρ clash) :=
  if h : t.clashes v = true then none
  else some
    { rows := t.rows ++ [⟨t.next, v⟩]
      next := t.next + 1
      ids_lt := by
        intro r hr
        rcases List.mem_append.mp hr with hr | hr
        · exact Nat.lt_succ_of_lt (t.ids_lt r hr)
        · rw [List.mem_singleton.mp hr]
          exact Nat.lt_succ_self _
      ids_nodup := by
        rw [List.map_append, List.map_singleton, List.nodup_append]
        refine ⟨t.ids_nodup, by simp, ?_⟩
        intro a ha b hb
        obtain ⟨r, hr, rfl⟩ := List.mem_map.mp ha
        rw [List.mem_singleton.mp hb]
        exact Nat.ne_of_lt (t.ids_lt r hr)
      no_clash := by
        rw [List.pairwise_append]
        refine ⟨t.no_clash, List.pairwise_singleton _ _, fun a ha b hb => ?_⟩
        rw [List.mem_singleton.mp hb]
        by_contra hc
        exact h (List.any_eq_true.mpr ⟨a, ha, by simpa using hc⟩) }

/-- `SELECT … WHERE p`, in insertion order. -/
def select (t : Table ρ clash) (p : ρ → Bool) : List (Row ρ) := t.rows.filter fun r => p r.val

theorem insert_eq_none {t : Table ρ clash} {v : ρ} : t.insert v = none ↔ t.clashes v = true := by
  unfold insert
  split <;> simp [*]

theorem insert_rows {t t' : Table ρ clash} {v : ρ} (h : t.insert v = some t') :
    t'.rows = t.rows ++ [⟨t.next, v⟩] ∧ t'.next = t.next + 1 := by
  unfold insert at h
  split at h
  · exact absurd h (by simp)
  · cases h
    exact ⟨rfl, rfl⟩

/-- An insert adds exactly the new row. -/
theorem mem_insert {t t' : Table ρ clash} {v : ρ} (h : t.insert v = some t') {r : Row ρ} :
    r ∈ t'.rows ↔ r ∈ t.rows ∨ r = ⟨t.next, v⟩ := by
  rw [(insert_rows h).1, List.mem_append, List.mem_singleton]

theorem mem_select {t : Table ρ clash} {p : ρ → Bool} {r : Row ρ} :
    r ∈ t.select p ↔ r ∈ t.rows ∧ p r.val = true := List.mem_filter

theorem nodup_select (t : Table ρ clash) (p : ρ → Bool) : (t.select p).Nodup :=
  (List.Nodup.of_map _ t.ids_nodup).filter _

/-- A select whose rows are all one row. -/
theorem select_eq_singleton {t : Table ρ clash} {p : ρ → Bool} {r : Row ρ} (hr : r ∈ t.select p)
    (h : ∀ r' ∈ t.select p, r' = r) : t.select p = [r] := by
  refine List.perm_singleton.mp ((List.perm_ext_iff_of_nodup (t.nodup_select p)
    (List.nodup_singleton r)).mpr fun r' => ?_)
  rw [List.mem_singleton]
  exact ⟨h r', fun heq => heq ▸ hr⟩

/-- Two stored rows with one id are one row. -/
theorem eq_of_id {t : Table ρ clash} {a b : Row ρ} (ha : a ∈ t.rows) (hb : b ∈ t.rows)
    (h : a.id = b.id) : a = b := List.inj_on_of_nodup_map t.ids_nodup ha hb h

/-- What clashes with no stored row can be inserted. -/
theorem exists_insert {t : Table ρ clash} {v : ρ} (h : ∀ r ∈ t.rows, clash r.val v = false) :
    ∃ t', t.insert v = some t' := by
  cases hi : t.insert v with
  | some t' => exact ⟨t', rfl⟩
  | none =>
    rw [insert_eq_none, clashes, List.any_eq_true] at hi
    obtain ⟨r, hr, hclash⟩ := hi
    rw [h r hr] at hclash
    exact absurd hclash (by simp)

/-- Two stored rows that clash, either way round, are one row. -/
theorem eq_of_clash {t : Table ρ clash} {a b : Row ρ} (ha : a ∈ t.rows) (hb : b ∈ t.rows)
    (hab : clash a.val b.val = true) (hba : clash b.val a.val = true) : a = b := by
  obtain ⟨i, hi, rfl⟩ := List.getElem_of_mem ha
  obtain ⟨j, hj, rfl⟩ := List.getElem_of_mem hb
  have hp := List.pairwise_iff_getElem.mp t.no_clash
  rcases Nat.lt_trichotomy i j with hij | rfl | hji
  · rw [hp i j hi hj hij] at hab
    exact absurd hab (by simp)
  · rfl
  · rw [hp j i hj hi hji] at hba
    exact absurd hba (by simp)

end Table

end GradidoConnector.Base
