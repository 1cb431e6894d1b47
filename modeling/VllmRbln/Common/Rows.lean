import Mathlib.Algebra.BigOperators.Group.Finset.Basic
import Mathlib.Data.List.Basic

/-! Row-major tensors as lists of rows: equal slots laid out one after the
other, padding to a common length, and the gather and reduce-scatter
collectives over a group of ranks. -/
namespace VllmRbln.Rows

variable {α : Type}

/-- `F.pad` with `value` behind the last row, up to `maxPad` rows. -/
def padTo (value : α) (maxPad : Nat) (rows : List α) : List α :=
  rows ++ List.replicate (maxPad - rows.length) value

theorem padTo_length {value : α} {maxPad : Nat} {rows : List α} (hFit : rows.length ≤ maxPad) :
    (padTo value maxPad rows).length = maxPad := by
  simp only [padTo, List.length_append, List.length_replicate]
  omega

theorem padTo_getElem? {value : α} {maxPad i : Nat} {rows : List α} (hRow : i < rows.length) :
    (padTo value maxPad rows)[i]? = rows[i]? := by
  simp [padTo, List.getElem?_append_left hRow]

/-- The slots of a gather have one length, so slot `r` starts at `r * width`. -/
theorem drop_flatten {width : Nat} :
    ∀ {slots : List (List α)} (r : Nat), (∀ slot ∈ slots, slot.length = width) →
      slots.flatten.drop (r * width) = (slots.drop r).flatten
  | [], r, _ => by simp
  | slot :: slots, 0, _ => by simp
  | slot :: slots, r + 1, hWidth => by
      have hHead : slot.length = width := hWidth slot (by simp)
      have hShift : (r + 1) * width = slot.length + r * width := by
        rw [hHead, Nat.succ_mul, Nat.add_comm]
      rw [List.flatten_cons, hShift, ← List.drop_drop, List.drop_left, List.drop_succ_cons]
      exact drop_flatten r fun rest hRest => hWidth rest (List.mem_cons_of_mem _ hRest)

theorem flatten_length {width : Nat} {slots : List (List α)}
    (hWidth : ∀ slot ∈ slots, slot.length = width) :
    slots.flatten.length = slots.length * width := by
  induction slots with
  | nil => simp
  | cons slot slots ih =>
      have hRest := ih fun rest hRest => hWidth rest (List.mem_cons_of_mem _ hRest)
      have hHead : slot.length = width := hWidth slot (by simp)
      rw [List.flatten_cons, List.length_append, hRest, hHead, List.length_cons, Nat.succ_mul,
        Nat.add_comm]

/-- Row `i` of slot `r` is row `r * width + i` of the gathered tensor. -/
theorem flatten_getElem? {width r i : Nat} {slots : List (List α)} {slot : List α}
    (hWidth : ∀ slot ∈ slots, slot.length = width) (hSlot : slots[r]? = some slot)
    (hRow : i < width) : slots.flatten[r * width + i]? = slot[i]? := by
  have hMem : slot ∈ slots := List.mem_of_getElem? hSlot
  have hDrop : slots.drop r = slot :: slots.drop (r + 1) := by
    obtain ⟨hBound, hEq⟩ := List.getElem?_eq_some_iff.1 hSlot
    rw [List.drop_eq_getElem_cons hBound, hEq]
  rw [← List.getElem?_drop, drop_flatten r hWidth, hDrop, List.flatten_cons,
    List.getElem?_append_left (by rw [hWidth slot hMem]; exact hRow)]

/-- `all_gather` along the rows: the ranks' tensors in rank order. -/
def allGather (slots : List (List α)) : List α :=
  slots.flatten

/-- `reduce_scatter` along the rows: the tensors of all ranks are summed and rank `r`
keeps the `r`-th of the equal parts. -/
def reduceScatter [AddCommMonoid α] (contribs : List (List α)) (total r : Nat) : List α :=
  let part := total / contribs.length
  (List.range part).map fun i =>
    ∑ q ∈ Finset.range contribs.length, (contribs.getD q []).getD (r * part + i) 0

theorem reduceScatter_length [AddCommMonoid α] (contribs : List (List α)) (total r : Nat) :
    (reduceScatter contribs total r).length = total / contribs.length := by
  simp [reduceScatter]

end VllmRbln.Rows
