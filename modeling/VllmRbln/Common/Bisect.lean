import Mathlib.Data.List.Perm.Basic
import Mathlib.Order.Basic
import Mathlib.Order.Lattice

/-! Binary search in a sorted list, and inserting where it points. -/
namespace VllmRbln.Bisect

variable {α : Type*}

/-- The search between `lo` and `hi` for the first entry that is not `before`. -/
def search (before : α → Bool) (xs : List α) : Nat → Nat → Nat → Nat
  | 0, lo, _ => lo
  | fuel + 1, lo, hi =>
      if lo < hi then
        let mid := (lo + hi) / 2
        match xs[mid]? with
        | none => lo
        | some x => if before x then search before xs fuel (mid + 1) hi else search before xs fuel lo mid
      else lo

/-- `r` splits the list into entries that are `before` and entries that are not. -/
def Splits (before : α → Bool) (xs : List α) (lo hi : Nat) : Prop :=
  (∀ i x, i < lo → xs[i]? = some x → before x = true) ∧
    ∀ i x, hi ≤ i → xs[i]? = some x → before x = false

theorem search_splits {before : α → Bool} {xs : List α}
    (hSorted : xs.Pairwise fun a b => before b = true → before a = true) {fuel lo hi : Nat}
    (hFuel : hi - lo ≤ fuel) (hLe : lo ≤ hi) (hHi : hi ≤ xs.length)
    (hSplits : Splits before xs lo hi) :
    search before xs fuel lo hi ≤ xs.length ∧
      Splits before xs (search before xs fuel lo hi) (search before xs fuel lo hi) := by
  induction fuel generalizing lo hi with
  | zero =>
      have hSame : hi = lo := by omega
      subst hSame
      exact ⟨hHi, hSplits⟩
  | succ fuel ih =>
      rw [search]
      split
      · rename_i hLess
        have hMid : (lo + hi) / 2 < xs.length := by omega
        simp only [List.getElem?_eq_getElem hMid]
        split
        · rename_i hBefore
          apply ih (by omega) (by omega) hHi
          refine ⟨fun i x hIndex hGet => ?_, hSplits.2⟩
          obtain ⟨hBound, rfl⟩ := List.getElem?_eq_some_iff.1 hGet
          rcases Nat.lt_or_ge i ((lo + hi) / 2) with hLt | hGe
          · exact List.pairwise_iff_getElem.1 hSorted i _ hBound hMid hLt hBefore
          · have hEq : i = (lo + hi) / 2 := by omega
            subst hEq
            exact hBefore
        · rename_i hAfter
          apply ih (by omega) (by omega) (by omega)
          refine ⟨hSplits.1, fun i x hIndex hGet => ?_⟩
          obtain ⟨hBound, rfl⟩ := List.getElem?_eq_some_iff.1 hGet
          rw [← Bool.not_eq_true]
          intro hBefore
          rcases Nat.lt_or_ge ((lo + hi) / 2) i with hLt | hGe
          · exact hAfter (List.pairwise_iff_getElem.1 hSorted _ i hMid hBound hLt hBefore)
          · have hEq : i = (lo + hi) / 2 := by omega
            subst hEq
            exact hAfter hBefore
      · have hSame : hi = lo := by omega
        subst hSame
        exact ⟨hHi, hSplits⟩

theorem search_whole {before : α → Bool} {xs : List α}
    (hSorted : xs.Pairwise fun a b => before b = true → before a = true) :
    Splits before xs (search before xs xs.length 0 xs.length)
      (search before xs xs.length 0 xs.length) := by
  apply (search_splits hSorted (Nat.sub_le _ _) (Nat.zero_le _) (Nat.le_refl _) _).2
  refine ⟨fun i x hIndex => absurd hIndex (Nat.not_lt_zero i), fun i x hIndex hGet => ?_⟩
  rw [List.getElem?_eq_none hIndex] at hGet
  cases hGet

section Order

variable [LinearOrder α]

/-- `bisect.bisect_left`. -/
def bisectLeft (xs : List α) (x : α) : Nat := search (· < x) xs xs.length 0 xs.length

/-- `bisect.bisect_right`. -/
def bisectRight (xs : List α) (x : α) : Nat := search (· ≤ x) xs xs.length 0 xs.length

/-- `bisect.insort`. -/
def insort (xs : List α) (x : α) : List α :=
  xs.take (bisectRight xs x) ++ x :: xs.drop (bisectRight xs x)

/-- In a sorted list the entry it points to is large enough. -/
theorem le_of_bisectLeft {xs : List α} (hSorted : xs.Pairwise (· ≤ ·)) {x found : α}
    (hFound : xs[bisectLeft xs x]? = some found) : x ≤ found := by
  have hBefore : xs.Pairwise fun a b => decide (b < x) = true → decide (a < x) = true :=
    hSorted.imp fun hLe hLess => decide_eq_true (lt_of_le_of_lt hLe (of_decide_eq_true hLess))
  have hNot := (search_whole hBefore).2 _ found (Nat.le_refl _) hFound
  exact not_lt.1 (of_decide_eq_false hNot)

theorem insort_perm (xs : List α) (x : α) : (insort xs x).Perm (x :: xs) := by
  have hMiddle : (xs.take (bisectRight xs x) ++ x :: xs.drop (bisectRight xs x)).Perm
      (x :: (xs.take (bisectRight xs x) ++ xs.drop (bisectRight xs x))) := List.perm_middle
  rwa [List.take_append_drop] at hMiddle

/-- Inserting keeps a list sorted. -/
theorem insort_sorted {xs : List α} (hSorted : xs.Pairwise (· ≤ ·)) (x : α) :
    (insort xs x).Pairwise (· ≤ ·) := by
  have hBefore : xs.Pairwise fun a b => decide (b ≤ x) = true → decide (a ≤ x) = true :=
    hSorted.imp fun hLe hLess => decide_eq_true (le_trans hLe (of_decide_eq_true hLess))
  obtain ⟨hFirst, hLast⟩ : Splits (fun a => decide (a ≤ x)) xs (bisectRight xs x)
      (bisectRight xs x) := search_whole hBefore
  have hTaken : ∀ a ∈ xs.take (bisectRight xs x), a ≤ x := by
    intro a hMem
    obtain ⟨i, hIndex, rfl⟩ := List.getElem_of_mem hMem
    rw [List.length_take] at hIndex
    rw [List.getElem_take]
    exact of_decide_eq_true (hFirst i _ (by omega) (List.getElem?_eq_getElem (by omega)))
  have hDropped : ∀ b ∈ xs.drop (bisectRight xs x), x ≤ b := by
    intro b hMem
    obtain ⟨i, hIndex, rfl⟩ := List.getElem_of_mem hMem
    rw [List.length_drop] at hIndex
    rw [List.getElem_drop]
    have hNot := hLast (bisectRight xs x + i) _ (Nat.le_add_right _ _)
      (List.getElem?_eq_getElem (by omega))
    exact (not_le.1 (of_decide_eq_false hNot)).le
  rw [insort, List.pairwise_append, List.pairwise_cons]
  refine ⟨hSorted.sublist (List.take_sublist _ _),
    ⟨hDropped, hSorted.sublist (List.drop_sublist _ _)⟩, fun a hA b hB => ?_⟩
  rcases List.mem_cons.1 hB with rfl | hB
  · exact hTaken a hA
  · exact (hTaken a hA).trans (hDropped b hB)

end Order

end VllmRbln.Bisect
