import Mathlib.Algebra.Order.Field.Rat

/-!
# MPFR numbers

The values of an MPFR variable: not-a-number, the two infinities and the finite values. A finite
value is a rational number, and the operations are the exact ones: the precision is taken to be
enough for what is computed.

As in MPFR, a comparison with not-a-number says "equal".
-/

namespace GradidoConnector.Base

inductive Mpfr
  | nan
  | inf (negative : Bool)
  | num (q : ℚ)
  deriving DecidableEq

namespace Mpfr

/-- `mpfr_add` -/
def add : Mpfr → Mpfr → Mpfr
  | num p, num q => num (p + q)
  | inf s, inf t => if s = t then inf s else nan
  | inf s, num _ => inf s
  | num _, inf t => inf t
  | nan, _ => nan
  | _, nan => nan

/-- `mpfr_neg` -/
def neg : Mpfr → Mpfr
  | num q => num (-q)
  | inf s => inf !s
  | nan => nan

/-- `mpfr_sub` -/
def sub (a b : Mpfr) : Mpfr := add a (neg b)

/-- `mpfr_abs` -/
def abs : Mpfr → Mpfr
  | num q => num |q|
  | inf _ => inf false
  | nan => nan

/-- `mpfr_cmp`, whose sign says how `a` compares with `b`. -/
def cmp : Mpfr → Mpfr → Ordering
  | num p, num q => compare p q
  | inf s, inf t => compare t s
  | inf s, num _ => if s then .lt else .gt
  | num _, inf t => if t then .gt else .lt
  | nan, _ => .eq
  | _, nan => .eq

/-- The order of the extended rational numbers; not-a-number is below and above nothing. -/
def le : Mpfr → Mpfr → Prop
  | num p, num q => p ≤ q
  | inf s, inf t => s = true ∨ t = false
  | inf s, num _ => s = true
  | num _, inf t => t = false
  | nan, _ => False
  | _, nan => False

theorem not_nan_le {a : Mpfr} : ¬ le nan a := by
  cases a <;> exact id

/-- On numbers a comparison tells the order. -/
theorem cmp_ne_gt_iff {a c : Mpfr} (ha : a ≠ nan) (hc : c ≠ nan) : cmp a c ≠ .gt ↔ le a c := by
  cases a with
  | nan => exact absurd rfl ha
  | inf s =>
    cases c with
    | nan => exact absurd rfl hc
    | inf t => cases s <;> cases t <;> simp [cmp, le, compare]
    | num q => cases s <;> simp [cmp, le]
  | num p =>
    cases c with
    | nan => exact absurd rfl hc
    | inf t => cases t <;> simp [cmp, le]
    | num q => exact compare_gt_iff_gt.not.trans not_lt

/-- **A comparison lets not-a-number pass.** -/
theorem cmp_eq_of_nan {a c : Mpfr} (h : a = nan ∨ c = nan) : cmp a c = .eq := by
  rcases h with rfl | rfl
  · cases c <;> rfl
  · cases a <;> rfl

/-- A sum is a number if its terms are and are not opposite infinities. -/
theorem ne_nan_of_add {a c : Mpfr} (h : add a c ≠ nan) : a ≠ nan ∧ c ≠ nan := by
  constructor
  · rintro rfl
    cases c <;> exact h rfl
  · rintro rfl
    cases a <;> exact h rfl

end Mpfr

end GradidoConnector.Base
