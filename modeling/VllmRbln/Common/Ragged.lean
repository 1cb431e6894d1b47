import Mathlib.Algebra.Ring.Nat
import Mathlib.Data.List.Basic
import Mathlib.Data.List.GetD
import Mathlib.Data.List.Nodup

/-! Ragged batches in flat arrays: one run of slots for each row, found by the running totals of
the rows' lengths. -/
namespace VllmRbln.Ragged

variable {α β γ ρ : Type*}

/-- Running totals, from `base` on. -/
def cumsumFrom (base : Nat) : List Nat → List Nat
  | [] => []
  | count :: counts => (base + count) :: cumsumFrom (base + count) counts

/-- `np.cumsum`. -/
def cumsum (counts : List Nat) : List Nat := cumsumFrom 0 counts

/-- `np.repeat`: each value as often as its count says. -/
def repeatEach (values : List α) (counts : List Nat) : List α :=
  (List.zipWith (fun value count => List.replicate count value) values counts).flatten

@[simp] theorem length_cumsumFrom (base : Nat) (counts : List Nat) :
    (cumsumFrom base counts).length = counts.length := by
  induction counts generalizing base with
  | nil => rfl
  | cons count counts ih => rw [cumsumFrom, List.length_cons, ih, List.length_cons]

theorem getLastD_cumsumFrom (base : Nat) (counts : List Nat) :
    (cumsumFrom base counts).getLastD base = base + counts.sum := by
  induction counts generalizing base with
  | nil => rfl
  | cons count counts ih =>
      rw [cumsumFrom, List.getLastD_cons, ih, List.sum_cons, Nat.add_assoc]

/-- Rows of one length end at its multiples. -/
theorem cumsumFrom_const (base width : Nat) (rows : List ρ) :
    cumsumFrom (base * width) (rows.map fun _ => width) =
      (rows.zipIdx base).map fun row => (row.2 + 1) * width := by
  induction rows generalizing base with
  | nil => rfl
  | cons row rows ih =>
      have hNext : base * width + width = (base + 1) * width := (Nat.succ_mul base width).symm
      rw [List.map_cons, cumsumFrom, hNext, ih, List.zipIdx_cons, List.map_cons]

/-- A value for each row, repeated for the row's slots. -/
theorem repeatEach_map (value : ρ → α) (count : ρ → Nat) (rows : List ρ) :
    repeatEach (rows.map value) (rows.map count) =
      rows.flatMap fun row => List.replicate (count row) (value row) := by
  unfold repeatEach
  induction rows with
  | nil => rfl
  | cons row rows ih =>
      rw [List.map_cons, List.map_cons, List.zipWith_cons_cons, List.flatten_cons, ih,
        List.flatMap_cons]

/-- Arrays laid out alike combine row by row. -/
theorem zipWith_flatMap (combine : α → β → γ) {left : ρ → List α} {right : ρ → List β}
    {rows : List ρ} (hSame : ∀ row ∈ rows, (left row).length = (right row).length) :
    List.zipWith combine (rows.flatMap left) (rows.flatMap right) =
      rows.flatMap fun row => List.zipWith combine (left row) (right row) := by
  induction rows with
  | nil => rfl
  | cons row rows ih =>
      have hRest := ih fun other hMem => hSame other (List.mem_cons_of_mem _ hMem)
      rw [List.flatMap_cons, List.flatMap_cons, List.flatMap_cons,
        List.zipWith_append (hSame row List.mem_cons_self), hRest]

/-- Arrays laid out alike that are equal are so row by row. -/
theorem eq_of_flatMap_eq {left right : ρ → List α} {rows : List ρ}
    (hSame : ∀ row ∈ rows, (left row).length = (right row).length)
    (hEq : rows.flatMap left = rows.flatMap right) : ∀ row ∈ rows, left row = right row := by
  induction rows with
  | nil =>
      intro row hMem
      cases hMem
  | cons row rows ih =>
      rw [List.flatMap_cons, List.flatMap_cons] at hEq
      obtain ⟨hHead, hTail⟩ := List.append_inj hEq (hSame row List.mem_cons_self)
      intro other hMem
      rcases List.mem_cons.1 hMem with rfl | hRest
      · exact hHead
      · exact ih (fun entry hEntry => hSame entry (List.mem_cons_of_mem _ hEntry)) hTail other hRest

theorem length_flatMap_of_count (count : ρ → Nat) {f : ρ → List α} {rows : List ρ}
    (hCount : ∀ row ∈ rows, (f row).length = count row) :
    (rows.flatMap f).length = (rows.map count).sum := by
  rw [List.length_flatMap]
  exact congrArg List.sum (List.map_congr_left hCount)

/-! ### The slots of a row -/

section Slots

variable (width start count : ρ → Nat)

/-- The flat indices of the slots `start .. start + count` of each row, where row after row takes
`width` slots from `base` on. -/
def slotsFrom (base : Nat) : List ρ → List Nat
  | [] => []
  | row :: rows =>
      (List.range (count row)).map (base + start row + ·) ++ slotsFrom (base + width row) rows

variable {width start count}

variable (width start count) in
/-- Reading the slots gives the rows' own entries. -/
theorem getElem?_slotsFrom (block : ρ → List α) (rows : List ρ) (before after : List α)
    (hWidth : ∀ row ∈ rows, (block row).length = width row)
    (hInside : ∀ row ∈ rows, start row + count row ≤ width row) :
    (slotsFrom width start count before.length rows).map
        (fun slot => (before ++ rows.flatMap block ++ after)[slot]?) =
      rows.flatMap fun row => (((block row).drop (start row)).take (count row)).map some := by
  induction rows generalizing before with
  | nil => rfl
  | cons row rows ih =>
      have hHead := hWidth row List.mem_cons_self
      have hFits := hInside row List.mem_cons_self
      have hSplit : before ++ (row :: rows).flatMap block ++ after =
          (before ++ block row) ++ rows.flatMap block ++ after := by
        simp only [List.flatMap_cons, List.append_assoc]
      have hNext : before.length + width row = (before ++ block row).length := by
        rw [List.length_append, hHead]
      rw [slotsFrom, List.map_append, List.map_map, hSplit, hNext,
        ih (before ++ block row) (fun other hMem => hWidth other (List.mem_cons_of_mem _ hMem))
          (fun other hMem => hInside other (List.mem_cons_of_mem _ hMem)), List.flatMap_cons]
      congr 1
      apply List.ext_getElem?
      intro j
      by_cases hSlot : j < count row
      · have hAt : before.length + start row + j < (before ++ block row).length := by
          rw [List.length_append, hHead]
          omega
        have hBefore : before.length ≤ before.length + start row + j := by omega
        have hOffset : before.length + start row + j - before.length = start row + j := by omega
        rw [List.getElem?_map, List.getElem?_range hSlot, List.getElem?_map,
          List.getElem?_take_of_lt hSlot, List.getElem?_drop, Option.map_some, Function.comp_apply,
          List.append_assoc, List.getElem?_append_left hAt, List.getElem?_append_right hBefore,
          hOffset, List.getElem?_eq_getElem (by rw [hHead]; omega)]
        rfl
      · have hLeft : ((List.range (count row)).map
            ((fun slot => ((before ++ block row) ++ rows.flatMap block ++ after)[slot]?) ∘
              (before.length + start row + ·))).length ≤ j := by
          simpa using hSlot
        have hRight : ((((block row).drop (start row)).take (count row)).map some).length ≤ j := by
          simp only [List.length_map, List.length_take]
          omega
        rw [List.getElem?_eq_none hLeft, List.getElem?_eq_none hRight]

variable (width start count) in
/-- A first slot computed from the running totals, repeated and added to the batched range. -/
theorem zipWith_repeatEach_cumsumFrom (first : Nat → ρ → Int) (rows : List ρ) (base : Nat)
    (hFirst : ∀ base, ∀ row ∈ rows, first (base + width row) row = (base + start row : Nat)) :
    List.zipWith (· + ·)
        (repeatEach (List.zipWith first (cumsumFrom base (rows.map width)) rows) (rows.map count))
        ((rows.flatMap fun row => List.range (count row)).map Nat.cast) =
      (slotsFrom width start count base rows).map Nat.cast := by
  unfold repeatEach
  induction rows generalizing base with
  | nil => rfl
  | cons row rows ih =>
      have hRest := ih (base + width row)
        (fun base other hMem => hFirst base other (List.mem_cons_of_mem _ hMem))
      have hHead : (List.replicate (count row) ((base + start row : Nat) : Int)).length =
          ((List.range (count row)).map (Nat.cast : Nat → Int)).length := by
        rw [List.length_replicate, List.length_map, List.length_range]
      simp only [List.map_cons, cumsumFrom, List.zipWith_cons_cons, List.flatten_cons,
        List.flatMap_cons, List.map_append, slotsFrom]
      rw [hFirst base row List.mem_cons_self, List.zipWith_append hHead, hRest]
      congr 1
      apply List.ext_getElem
      · simp
      · intro j hLeft hRight
        simp [List.getElem_zipWith]

variable (width start count) in
/-- One slot for each row, computed from the running totals. -/
theorem zipWith_cumsumFrom_single (first : Nat → ρ → Int) (rows : List ρ) (base : Nat)
    (hOne : ∀ row ∈ rows, count row = 1)
    (hFirst : ∀ base, ∀ row ∈ rows, first (base + width row) row = (base + start row : Nat)) :
    List.zipWith first (cumsumFrom base (rows.map width)) rows =
      (slotsFrom width start count base rows).map Nat.cast := by
  induction rows generalizing base with
  | nil => rfl
  | cons row rows ih =>
      have hRest := ih (base + width row)
        (fun other hMem => hOne other (List.mem_cons_of_mem _ hMem))
        (fun base other hMem => hFirst base other (List.mem_cons_of_mem _ hMem))
      rw [List.map_cons, cumsumFrom, List.zipWith_cons_cons, hFirst base row List.mem_cons_self,
        hRest, slotsFrom, hOne row List.mem_cons_self]
      rfl

theorem map_succ_slotsFrom (base : Nat) (rows : List ρ) :
    (slotsFrom width start count base rows).map (· + 1) =
      slotsFrom width (fun row => start row + 1) count base rows := by
  induction rows generalizing base with
  | nil => rfl
  | cons row rows ih =>
      rw [slotsFrom, slotsFrom, List.map_append, ih, List.map_map]
      congr 1
      apply List.map_congr_left
      intro slot _
      show base + start row + slot + 1 = base + (start row + 1) + slot
      omega

theorem base_le_of_mem_slotsFrom {base slot : Nat} {rows : List ρ}
    (hMem : slot ∈ slotsFrom width start count base rows) : base ≤ slot := by
  induction rows generalizing base with
  | nil => cases hMem
  | cons row rows ih =>
      rcases List.mem_append.1 hMem with hHead | hTail
      · obtain ⟨j, -, rfl⟩ := List.mem_map.1 hHead
        omega
      · have hNext := ih hTail
        omega

/-- No slot is listed twice. -/
theorem nodup_slotsFrom {base : Nat} {rows : List ρ}
    (hInside : ∀ row ∈ rows, start row + count row ≤ width row) :
    (slotsFrom width start count base rows).Nodup := by
  induction rows generalizing base with
  | nil => exact List.nodup_nil
  | cons row rows ih =>
      have hFits := hInside row List.mem_cons_self
      rw [slotsFrom, List.nodup_append]
      refine ⟨?_, ih fun other hMem => hInside other (List.mem_cons_of_mem _ hMem), ?_⟩
      · apply List.Nodup.map _ List.nodup_range
        intro first second hSame
        exact Nat.add_left_cancel hSame
      · intro slot hHead other hTail hSame
        obtain ⟨j, hRange, rfl⟩ := List.mem_map.1 hHead
        have hNext := base_le_of_mem_slotsFrom hTail
        have hLt := List.mem_range.1 hRange
        omega

theorem slotsFrom_map {σ : Type*} (f : σ → ρ) (base : Nat) (rows : List σ) :
    slotsFrom width start count base (rows.map f) =
      slotsFrom (fun row => width (f row)) (fun row => start (f row)) (fun row => count (f row))
        base rows := by
  induction rows generalizing base with
  | nil => rfl
  | cons row rows ih => rw [List.map_cons, slotsFrom, slotsFrom, ih]

variable (start) in
/-- One slot for each row of windows of one width. -/
theorem slotsFrom_const (windowWidth base : Nat) (rows : List ρ) :
    slotsFrom (fun _ => windowWidth) start (fun _ => 1) (base * windowWidth) rows =
      (rows.zipIdx base).map fun entry => entry.2 * windowWidth + start entry.1 := by
  induction rows generalizing base with
  | nil => rfl
  | cons row rows ih =>
      have hNext : base * windowWidth + windowWidth = (base + 1) * windowWidth :=
        (Nat.succ_mul base windowWidth).symm
      rw [slotsFrom, hNext, ih, List.zipIdx_cons, List.map_cons]
      rfl

theorem length_slotsFrom (base : Nat) (rows : List ρ) :
    (slotsFrom width start count base rows).length = (rows.map count).sum := by
  induction rows generalizing base with
  | nil => rfl
  | cons row rows ih =>
      rw [slotsFrom, List.length_append, ih, List.length_map, List.length_range, List.map_cons,
        List.sum_cons]

end Slots

theorem zipWith_zipWith_right (combine : β → ρ → γ) (inner : α → ρ → β) (values : List α)
    (rows : List ρ) :
    List.zipWith combine (List.zipWith inner values rows) rows =
      List.zipWith (fun value row => combine (inner value row) row) values rows := by
  induction values generalizing rows with
  | nil => rfl
  | cons value values ih =>
      cases rows with
      | nil => rfl
      | cons row rows => simp only [List.zipWith_cons_cons, ih]

theorem zipWith_ignoring (f : α → γ) {values : List α} {rows : List ρ}
    (hLength : values.length = rows.length) :
    List.zipWith (fun value _ => f value) values rows = values.map f := by
  induction values generalizing rows with
  | nil => rfl
  | cons value values ih =>
      cases rows with
      | nil => cases hLength
      | cons row rows =>
          rw [List.zipWith_cons_cons, ih (Nat.succ.inj hLength), List.map_cons]

/-- A stretch of a tabulated list. -/
theorem take_drop_map_range {length offset count : Nat} (f : Nat → α)
    (hInside : offset + count ≤ length) :
    (((List.range length).map f).drop offset).take count =
      (List.range count).map fun j => f (offset + j) := by
  apply List.ext_getElem
  · simp only [List.length_take, List.length_drop, List.length_map, List.length_range]
    omega
  · intro j _ _
    simp only [List.getElem_take, List.getElem_drop, List.getElem_map, List.getElem_range]

/-- The batched range: the totals' offsets repeated, subtracted from one long range. -/
theorem batched_range (base : Nat) (counts : List Nat) :
    List.zipWith (· - ·) ((List.range' base counts.sum).map (Nat.cast : Nat → Int))
        (repeatEach (List.zipWith (fun total count : Nat => (total : Int) - count)
          (cumsumFrom base counts) counts) counts) =
      (counts.flatMap List.range).map Nat.cast := by
  unfold repeatEach
  induction counts generalizing base with
  | nil => rfl
  | cons count counts ih =>
      have hOffset : ((base + count : Nat) : Int) - (count : Nat) = base := by omega
      have hHead : ((List.range' base count).map (Nat.cast : Nat → Int)).length =
          (List.replicate count (base : Int)).length := by
        rw [List.length_map, List.length_range', List.length_replicate]
      simp only [List.sum_cons, cumsumFrom, List.zipWith_cons_cons, List.flatten_cons,
        List.flatMap_cons, List.map_append, hOffset]
      rw [← List.range'_append_1, List.map_append, List.zipWith_append hHead, ih]
      congr 1
      apply List.ext_getElem
      · simp
      · intro j hLeft hRight
        simp only [List.getElem_zipWith, List.getElem_map, List.getElem_range', Nat.one_mul,
          List.getElem_replicate, List.getElem_range]
        omega

end VllmRbln.Ragged
