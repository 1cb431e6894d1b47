import Mathlib.Data.List.Nodup
import Mathlib.Data.List.Perm.Subperm
import Mathlib.Data.List.Range

/-! The lowest number below a bound that is not taken: fewer takers than numbers leave one. -/
namespace VllmRbln.Vacant

variable {α : Type*} [DecidableEq α]

/-- The first `i < n` whose image is not in `taken`. -/
def lowest (image : Nat → α) (n : Nat) (taken : List α) : Option Nat :=
  (List.range n).find? fun i => image i ∉ taken

variable {image : Nat → α} {n i : Nat} {taken : List α}

theorem lowest_lt (hLowest : lowest image n taken = some i) : i < n :=
  List.mem_range.1 (List.mem_of_find?_eq_some hLowest)

theorem lowest_not_mem (hLowest : lowest image n taken = some i) : image i ∉ taken := by
  have hHolds := List.find?_some hLowest
  exact of_decide_eq_true hHolds

theorem lowest_of_not_mem (hBound : i < n) (hFree : image i ∉ taken) :
    ∃ j, lowest image n taken = some j := by
  apply Option.isSome_iff_exists.1
  apply List.find?_isSome.2
  exact ⟨i, List.mem_range.2 hBound, decide_eq_true hFree⟩

omit [DecidableEq α] in
theorem exists_not_mem (hInjective : Function.Injective image) (hShort : taken.length < n) :
    ∃ i < n, image i ∉ taken := by
  by_contra hAll
  have hSubset : (List.range n).map image ⊆ taken := by
    intro value hMem
    obtain ⟨i, hRange, rfl⟩ := List.mem_map.1 hMem
    by_contra hFree
    exact hAll ⟨i, List.mem_range.1 hRange, hFree⟩
  have hNodup : ((List.range n).map image).Nodup :=
    List.Nodup.map hInjective List.nodup_range
  have hLength := (List.subperm_of_subset hNodup hSubset).length_le
  rw [List.length_map, List.length_range] at hLength
  omega

/-- Fewer takers than numbers. -/
theorem lowest_of_length_lt (hInjective : Function.Injective image) (hShort : taken.length < n) :
    ∃ j, lowest image n taken = some j := by
  obtain ⟨i, hBound, hFree⟩ := exists_not_mem hInjective hShort
  exact lowest_of_not_mem hBound hFree

end VllmRbln.Vacant
