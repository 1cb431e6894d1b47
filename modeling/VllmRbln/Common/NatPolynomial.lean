import Mathlib.Algebra.Polynomial.Eval.Degree
import Mathlib.Algebra.Order.BigOperators.Group.Finset
import Mathlib.Tactic.Ring

/-! Polynomials with natural coefficients. They are convex, so two points of the
chord through the origin already put all of them on it. -/
namespace VllmRbln.NatPolynomial

open Polynomial

variable {p : ℕ[X]} {h : ℕ}

/-- Only the constant term can be less at a power of `h` than at `h`. -/
theorem coeff_mul_le (hZero : p.coeff 0 = 0) (i : ℕ) :
    p.coeff i * h ≤ p.coeff i * h ^ i := by
  cases i with
  | zero => simp [hZero]
  | succ i =>
      apply Nat.mul_le_mul_left
      exact Nat.le_self_pow (Nat.succ_ne_zero i) h

theorem coeff_eq_zero_of_mul_eq (hTwo : 2 ≤ h) {i : ℕ} (hHigh : 2 ≤ i)
    (hSame : p.coeff i * h = p.coeff i * h ^ i) : p.coeff i = 0 := by
  by_contra hCoeff
  have hPower : h = h ^ i := Nat.eq_of_mul_eq_mul_left (Nat.pos_of_ne_zero hCoeff) hSame
  have hLess : h ^ 1 < h ^ i := Nat.pow_lt_pow_right (by omega) (by omega)
  rw [pow_one] at hLess
  omega

/-- A polynomial through the origin that meets at some `h ≥ 2` the chord through its value at
one is that chord. -/
theorem eval_eq_mul_of_chord (hZero : p.eval 0 = 0) (hTwo : 2 ≤ h)
    (hChord : p.eval h = h * p.eval 1) (n : ℕ) : p.eval n = n * p.eval 1 := by
  have hConstant : p.coeff 0 = 0 := by rw [coeff_zero_eq_eval_zero, hZero]
  have hTerms : ∀ i ∈ Finset.range (p.natDegree + 1),
      p.coeff i * h = p.coeff i * h ^ i := by
    apply (Finset.sum_eq_sum_iff_of_le fun i _ => coeff_mul_le hConstant i).1
    rw [← Finset.sum_mul, ← eval_eq_sum_range, hChord, eval_eq_sum_range, Nat.mul_comm]
    simp only [one_pow, mul_one]
  rw [eval_eq_sum_range, eval_eq_sum_range, Finset.mul_sum]
  apply Finset.sum_congr rfl
  intro i hMem
  match i with
  | 0 => simp [hConstant]
  | 1 => ring
  | i + 2 =>
      rw [coeff_eq_zero_of_mul_eq hTwo (by omega) (hTerms _ hMem)]
      simp

/-- The value of a polynomial with natural coefficients that vanishes at one vanishes. -/
theorem eval_eq_zero_of_eval_one (hOne : p.eval 1 = 0) (n : ℕ) : p.eval n = 0 := by
  rw [eval_eq_sum_range] at hOne ⊢
  apply Finset.sum_eq_zero
  intro i hMem
  have hCoeff := Finset.sum_eq_zero_iff.1 hOne i hMem
  simp only [one_pow, mul_one] at hCoeff
  rw [hCoeff, Nat.zero_mul]

end VllmRbln.NatPolynomial
