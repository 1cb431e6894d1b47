import Mathlib.Data.List.Basic
import Mathlib.Order.Lattice

/-! The largest and the smallest entry of a list, folded from a first value. -/
namespace VllmRbln.Extremes

theorem le_foldl_max (values : List Nat) (start : Nat) :
    start ≤ values.foldl max start ∧ ∀ value ∈ values, value ≤ values.foldl max start := by
  induction values generalizing start with
  | nil => simp
  | cons head tail ih =>
      obtain ⟨hStart, hTail⟩ := ih (max start head)
      refine ⟨by simp only [List.foldl_cons]; omega, ?_⟩
      intro value hMem
      rcases List.mem_cons.mp hMem with rfl | hMem
      · simp only [List.foldl_cons]; omega
      · exact hTail value hMem

theorem foldl_max_le {values : List Nat} {start bound : Nat} (hStart : start ≤ bound)
    (hValues : ∀ value ∈ values, value ≤ bound) : values.foldl max start ≤ bound := by
  induction values generalizing start with
  | nil => exact hStart
  | cons head tail ih =>
      simp only [List.mem_cons, forall_eq_or_imp] at hValues
      exact ih (max_le hStart hValues.1) hValues.2

theorem foldl_min_le (values : List Nat) (start : Nat) :
    values.foldl min start ≤ start ∧ ∀ value ∈ values, values.foldl min start ≤ value := by
  induction values generalizing start with
  | nil => simp
  | cons head tail ih =>
      obtain ⟨hStart, hTail⟩ := ih (min start head)
      refine ⟨by simp only [List.foldl_cons]; omega, ?_⟩
      intro value hMem
      rcases List.mem_cons.mp hMem with rfl | hMem
      · simp only [List.foldl_cons]; omega
      · exact hTail value hMem

theorem le_foldl_min {bound first : Nat} {rest : List Nat} (hFirst : bound ≤ first)
    (hRest : ∀ x ∈ rest, bound ≤ x) : bound ≤ rest.foldl min first := by
  induction rest generalizing first with
  | nil => exact hFirst
  | cons head rest ih =>
      apply ih (le_min hFirst (hRest head List.mem_cons_self))
      exact fun x hMem => hRest x (List.mem_cons_of_mem _ hMem)

end VllmRbln.Extremes
