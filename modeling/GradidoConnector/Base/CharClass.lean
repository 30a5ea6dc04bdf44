import Mathlib.Computability.RegularExpressions

/-!
# Character classes in regular expressions

The pieces of usual regular expression syntax that Mathlib's `RegularExpression` leaves to be
spelled out: a class of characters (`oneOf`), a range in a class (`range`) and a text (`literal`).

Results:
* `mem_pow_oneOf`: `n` characters of a class, the language of `[cs]{n}`.
* **`mem_star_pow_oneOf`**: the language of `(?:[cs]{n})*` are the texts over the class whose length
  is a multiple of `n`.
-/

namespace GradidoConnector.Base.CharClass

open RegularExpression

variable {α : Type} {cs w : List α} {n : Nat}

/-- `[cs]` -/
def oneOf (cs : List α) : RegularExpression α := cs.foldr (fun c r => char c + r) 0

/-- A text that is matched as it is. -/
def literal (l : List α) : RegularExpression α := l.foldr (fun c r => char c * r) 1

/-- The characters from `lo` to `hi`. -/
def range (lo hi : Char) : List Char :=
  (List.range (hi.toNat + 1 - lo.toNat)).map fun i => Char.ofNat (lo.toNat + i)

/-- What holds of all ASCII characters, one by one. -/
theorem of_ascii (P : Char → Prop) (h : ∀ n < 128, P (Char.ofNat n)) {c : Char}
    (hc : c.toNat < 128) : P c := by
  have hP := h c.toNat hc
  rwa [Char.ofNat_toNat] at hP

theorem mem_oneOf : w ∈ (oneOf cs).matches' ↔ ∃ c ∈ cs, w = [c] := by
  induction cs with
  | nil => exact iff_of_false (Language.notMem_zero w) (by simp)
  | cons c cs ih =>
    rw [oneOf, List.foldr_cons, matches'_add, Language.mem_add, ← oneOf, ih]
    simp only [List.mem_cons, exists_eq_or_imp]
    exact Iff.rfl

theorem mem_literal {l : List α} : w ∈ (literal l).matches' ↔ w = l := by
  induction l generalizing w with
  | nil => exact Language.mem_one w
  | cons c l ih =>
    rw [literal, List.foldr_cons, matches'_mul, Language.mem_mul, ← literal]
    constructor
    · rintro ⟨a, rfl, b, hb, rfl⟩
      rw [ih.mp hb, List.singleton_append]
    · rintro rfl
      exact ⟨[c], rfl, l, ih.mpr rfl, rfl⟩

/-- **`[cs]{n}`** -/
theorem mem_pow_oneOf : w ∈ (oneOf cs ^ n).matches' ↔ w.length = n ∧ ∀ c ∈ w, c ∈ cs := by
  induction n generalizing w with
  | zero =>
    rw [matches'_pow, pow_zero, Language.mem_one, List.length_eq_zero_iff]
    exact ⟨fun h => ⟨h, by simp [h]⟩, fun h => h.1⟩
  | succ n ih =>
    rw [matches'_pow, pow_succ', Language.mem_mul, ← matches'_pow]
    constructor
    · rintro ⟨a, ha, b, hb, rfl⟩
      obtain ⟨c, hc, rfl⟩ := mem_oneOf.mp ha
      obtain ⟨hlen, hall⟩ := ih.mp hb
      rw [List.singleton_append, List.length_cons, hlen, List.forall_mem_cons]
      exact ⟨rfl, hc, hall⟩
    · rintro ⟨hlen, hall⟩
      obtain ⟨c, b, rfl⟩ := List.exists_cons_of_length_eq_add_one hlen
      rw [List.forall_mem_cons] at hall
      rw [List.length_cons, Nat.add_right_cancel_iff] at hlen
      exact ⟨[c], mem_oneOf.mpr ⟨c, hall.1, rfl⟩, b, ih.mpr ⟨hlen, hall.2⟩, rfl⟩

/-- **`(?:[cs]{n})*`** -/
theorem mem_star_pow_oneOf :
    w ∈ (star (oneOf cs ^ n)).matches' ↔ n ∣ w.length ∧ ∀ c ∈ w, c ∈ cs := by
  rw [matches'_star, Language.mem_kstar]
  constructor
  · rintro ⟨blocks, rfl, hblocks⟩
    induction blocks with
    | nil => exact ⟨Nat.dvd_zero n, by simp⟩
    | cons block blocks ih =>
      rw [List.forall_mem_cons] at hblocks
      obtain ⟨hlen, hall⟩ := mem_pow_oneOf.mp hblocks.1
      obtain ⟨hdvd, hrest⟩ := ih hblocks.2
      rw [List.flatten_cons, List.length_append, hlen, List.forall_mem_append]
      exact ⟨Nat.dvd_add (Nat.dvd_refl n) hdvd, hall, hrest⟩
  · rintro ⟨⟨k, hk⟩, hall⟩
    induction k generalizing w with
    | zero =>
      rw [Nat.mul_zero, List.length_eq_zero_iff] at hk
      exact ⟨[], hk, by simp⟩
    | succ k ih =>
      -- the first `n` characters are a block
      have hfirst : (w.take n).length = n := by
        rw [List.length_take, hk, Nat.mul_succ]
        exact Nat.min_eq_left (Nat.le_add_left n _)
      have hlast : (w.drop n).length = n * k := by
        rw [List.length_drop, hk, Nat.mul_succ, Nat.add_sub_cancel]
      obtain ⟨blocks, hflat, hblocks⟩ := ih (fun c hc => hall c (List.mem_of_mem_drop hc)) hlast
      refine ⟨w.take n :: blocks, ?_, ?_⟩
      · rw [List.flatten_cons, ← hflat, List.take_append_drop]
      · rw [List.forall_mem_cons]
        exact ⟨mem_pow_oneOf.mpr ⟨hfirst, fun c hc => hall c (List.mem_of_mem_take hc)⟩, hblocks⟩

end GradidoConnector.Base.CharClass
