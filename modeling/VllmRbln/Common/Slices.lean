import Mathlib.Data.List.TakeWhile
import VllmRbln.Common.Ragged

/-! Rows of different lengths packed one behind the other: where each starts, what a slice reads
and what a loop that writes slice after slice leaves. -/
namespace VllmRbln.Slices

open Ragged

variable {α β ρ : Type*}

/-- `xs[start:start + count]`. -/
def slice (xs : List α) (start count : Nat) : List α := (xs.drop start).take count

/-- `xs[start:start + len(values)] = values`. -/
def assign (xs : List α) (start : Nat) (values : List α) : List α :=
  xs.take start ++ values ++ xs.drop (start + values.length)

/-- Where each row starts: the running totals moved on by one row. -/
def startsFrom (base : Nat) (totals : List Nat) : List Nat := (base :: totals).take totals.length

/-- `start[1:] = totals[:-1]` on zeros. -/
def startsOf (totals : List Nat) : List Nat := startsFrom 0 totals

theorem startsFrom_cumsumFrom (base count : Nat) (counts : List Nat) :
    startsFrom base (cumsumFrom base (count :: counts)) =
      base :: startsFrom (base + count) (cumsumFrom (base + count) counts) := by
  rw [cumsumFrom, startsFrom, List.length_cons, List.take_succ_cons, startsFrom]

/-- The totals less the starts are the counts again. -/
theorem lengths_cumsumFrom (base : Nat) (counts : List Nat) :
    List.zipWith (· - ·) (cumsumFrom base counts) (startsFrom base (cumsumFrom base counts)) =
      counts := by
  induction counts generalizing base with
  | nil => rfl
  | cons count counts ih =>
      rw [startsFrom_cumsumFrom, cumsumFrom, List.zipWith_cons_cons, ih]
      congr 1
      omega

theorem getElem?_startsFrom (base : Nat) (counts : List Nat) {r : Nat} (hRow : r < counts.length) :
    (startsFrom base (cumsumFrom base counts))[r]? = some (base + (counts.take r).sum) := by
  induction counts generalizing base r with
  | nil => cases hRow
  | cons count counts ih =>
      rw [startsFrom_cumsumFrom]
      cases r with
      | zero => simp
      | succ r =>
          rw [List.getElem?_cons_succ, ih (base + count) (Nat.lt_of_succ_lt_succ hRow)]
          rw [List.take_succ_cons, List.sum_cons, Nat.add_assoc]

theorem getElem?_cumsumFrom (base : Nat) (counts : List Nat) {r : Nat} (hRow : r < counts.length) :
    (cumsumFrom base counts)[r]? = some (base + (counts.take (r + 1)).sum) := by
  induction counts generalizing base r with
  | nil => cases hRow
  | cons count counts ih =>
      cases r with
      | zero => simp [cumsumFrom]
      | succ r =>
          rw [cumsumFrom, List.getElem?_cons_succ, ih (base + count) (Nat.lt_of_succ_lt_succ hRow),
            List.take_succ_cons, List.sum_cons, Nat.add_assoc]

section Packed

variable {rows : List ρ} {row : ρ} {r : Nat} (count : ρ → Nat)

/-- The number of entries in front of row `r`. -/
def offset (rows : List ρ) (r : Nat) : Nat := ((rows.take r).map count).sum

theorem lt_of_row (hRow : rows[r]? = some row) : r < rows.length :=
  (List.getElem?_eq_some_iff.1 hRow).1

theorem getD_startsOf (hRow : rows[r]? = some row) :
    (startsOf (cumsum (rows.map count))).getD r 0 = offset count rows r := by
  have hLt := lt_of_row hRow
  have hStart := getElem?_startsFrom 0 (rows.map count) (by rwa [List.length_map])
  rw [List.getD_eq_getElem?_getD, startsOf, cumsum, hStart, Option.getD_some, Nat.zero_add, offset,
    List.map_take]

theorem getD_lengths (hRow : rows[r]? = some row) :
    (List.zipWith (· - ·) (cumsum (rows.map count)) (startsOf (cumsum (rows.map count)))).getD r 0 =
      count row := by
  rw [startsOf, cumsum, lengths_cumsumFrom, List.getD_eq_getElem?_getD, List.getElem?_map, hRow,
    Option.map_some, Option.getD_some]

theorem offset_succ (hRow : rows[r]? = some row) :
    offset count rows (r + 1) = offset count rows r + count row := by
  rw [offset, List.take_add_one, hRow, List.map_append, List.sum_append]
  simp [offset]

/-- The totals in terms of the rows: each ends where it starts, moved on by its own length. -/
theorem cumsum_eq_zipIdx (rows : List ρ) :
    cumsum (rows.map count) =
      rows.zipIdx.map fun entry => offset count rows entry.2 + count entry.1 := by
  apply List.ext_getElem?
  intro r
  rw [List.getElem?_map, List.getElem?_zipIdx]
  cases hRow : rows[r]? with
  | none =>
      rw [List.getElem?_eq_none]
      · rfl
      · rw [cumsum, length_cumsumFrom, List.length_map]
        exact List.getElem?_eq_none_iff.1 hRow
  | some row =>
      have hLt := lt_of_row hRow
      have hEnd : ((rows.take (r + 1)).map count).sum = offset count rows r + count row :=
        offset_succ count hRow
      rw [cumsum, getElem?_cumsumFrom 0 _ (by rwa [List.length_map]), Nat.zero_add, ← List.map_take,
        hEnd]
      simp

theorem dropLast_cumsum_eq_zipIdx (rows : List ρ) :
    (0 :: cumsum (rows.map count)).dropLast =
      rows.zipIdx.map fun entry => offset count rows entry.2 := by
  have hLength : (cumsum (rows.map count)).length = rows.length := by
    rw [cumsum, length_cumsumFrom, List.length_map]
  rw [List.dropLast_eq_take, List.length_cons, Nat.add_sub_cancel]
  apply List.ext_getElem?
  intro r
  rw [List.getElem?_map, List.getElem?_zipIdx]
  cases hRow : rows[r]? with
  | none =>
      have hLe := List.getElem?_eq_none_iff.1 hRow
      rw [List.getElem?_take_eq_none (by omega)]
      rfl
  | some row =>
      have hLt := lt_of_row hRow
      have hStart := getElem?_startsFrom 0 (rows.map count) (by rwa [List.length_map])
      rw [startsFrom] at hStart
      rw [cumsum, hStart, Nat.zero_add, ← List.map_take]
      simp [offset]

variable {count} {block : ρ → List α}

theorem length_take_flatMap (hWidth : ∀ row ∈ rows, (block row).length = count row) (r : Nat) :
    ((rows.take r).flatMap block).length = offset count rows r := by
  apply length_flatMap_of_count
  intro row hMem
  exact hWidth row (List.mem_of_mem_take hMem)

/-- A row's slice of the packed entries is the row's own. -/
theorem slice_flatMap (hWidth : ∀ row ∈ rows, (block row).length = count row)
    (hRow : rows[r]? = some row) :
    slice (rows.flatMap block) (offset count rows r) (count row) = block row := by
  have hLength := length_take_flatMap hWidth r
  have hSplit : rows.flatMap block =
      (rows.take r).flatMap block ++ (block row ++ (rows.drop (r + 1)).flatMap block) := by
    obtain ⟨hLt, hGet⟩ := List.getElem?_eq_some_iff.1 hRow
    conv_lhs => rw [← List.take_append_drop r rows, List.drop_eq_getElem_cons hLt, hGet]
    rw [List.flatMap_append, List.flatMap_cons]
  rw [slice, hSplit, ← hLength, List.drop_left, ← hWidth row (List.mem_of_getElem? hRow),
    List.take_left]

theorem slice_take {xs : List α} {start k n : Nat} (hk : k ≤ n) :
    slice xs start k = (slice xs start n).take k := by
  rw [slice, slice, List.take_take, Nat.min_eq_left hk]

theorem getElem?_flatMap_row (hWidth : ∀ row ∈ rows, (block row).length = count row)
    (hRow : rows[r]? = some row) {k : Nat} (hk : k < count row) :
    (rows.flatMap block)[offset count rows r + k]? = (block row)[k]? := by
  rw [← slice_flatMap hWidth hRow, slice, List.getElem?_take_of_lt hk, List.getElem?_drop]

theorem slice_append {xs : List α} {start n : Nat} (hInside : start + n ≤ xs.length) (ys : List α) :
    slice (xs ++ ys) start n = slice xs start n := by
  rw [slice, slice, List.drop_append_of_le_length (by omega), List.take_append_of_le_length]
  rw [List.length_drop]
  omega

theorem slice_map {xs : List α} (f : α → β) (start n : Nat) :
    slice (xs.map f) start n = (slice xs start n).map f := by
  rw [slice, slice, List.map_take, List.map_drop]

theorem slice_zipWith {γ : Type*} (f : α → β → γ) (xs : List α) (ys : List β) (start n : Nat) :
    slice (List.zipWith f xs ys) start n = List.zipWith f (slice xs start n) (slice ys start n) := by
  rw [slice, slice, slice, List.drop_zipWith, List.take_zipWith]

theorem slice_replicate {value : α} {length start n : Nat} (hInside : start + n ≤ length) :
    slice (List.replicate length value) start n = List.replicate n value := by
  rw [slice, List.drop_replicate, List.take_replicate, Nat.min_eq_left]
  omega

/-- A row lies inside the packed entries. -/
theorem offset_add_le (hRow : rows[r]? = some row) :
    offset count rows r + count row ≤ (rows.map count).sum := by
  rw [← offset_succ count hRow, offset]
  conv_rhs => rw [← List.take_append_drop (r + 1) rows, List.map_append, List.sum_append]
  exact Nat.le_add_right _ _

theorem assign_nil (xs : List α) (start : Nat) : assign xs start [] = xs := by
  rw [assign, List.append_nil, List.length_nil, Nat.add_zero, List.take_append_drop]

variable (count) in
/-- A loop that writes every row's slice fills the packed entries, whatever they held. -/
theorem foldl_assign (hWidth : ∀ row ∈ rows, (block row).length = count row)
    {step : List α → Nat → List α}
    (hStep : ∀ xs r row, rows[r]? = some row →
      step xs r = assign xs (offset count rows r) (block row))
    {start : List α} (hStart : start.length = (rows.map count).sum) :
    (List.range rows.length).foldl step start = rows.flatMap block := by
  have hLoop : ∀ m, m ≤ rows.length → (List.range m).foldl step start =
      (rows.take m).flatMap block ++ start.drop (offset count rows m) := by
    intro m hm
    induction m with
    | zero => simp [offset]
    | succ m ih =>
        have hRow := List.getElem?_eq_getElem (Nat.lt_of_succ_le hm)
        rw [List.range_succ, List.foldl_append, List.foldl_cons, List.foldl_nil, ih (by omega),
          hStep _ _ _ hRow, assign, offset_succ count hRow]
        rw [← length_take_flatMap hWidth m, List.take_left, List.drop_append,
          List.drop_eq_nil_of_le (Nat.le_add_right _ _), List.nil_append, Nat.add_sub_cancel_left,
          List.drop_drop, hWidth _ (List.getElem_mem _), List.take_add_one, hRow, List.flatMap_append]
        simp
  rw [hLoop _ le_rfl, List.take_length, List.drop_eq_nil_of_le, List.append_nil]
  rw [hStart, offset, List.take_length]

end Packed

/-- A tensor built row by row from the rows' numbers. -/
theorem map_range_rows {rows : List ρ} {f : Nat → α} {g : ρ → α}
    (hRows : ∀ r row, rows[r]? = some row → f r = g row) :
    (List.range rows.length).map f = rows.map g := by
  apply List.ext_getElem?
  intro r
  rw [List.getElem?_map, List.getElem?_map]
  cases hRow : rows[r]? with
  | none =>
      rw [List.getElem?_eq_none]
      · rfl
      · rw [List.length_range]
        exact List.getElem?_eq_none_iff.1 hRow
  | some row =>
      rw [List.getElem?_range (lt_of_row hRow), Option.map_some, hRows r row hRow, Option.map_some]

theorem getD_map_range (f : Nat → α) (n j : Nat) (value : α) :
    ((List.range n).map f).getD j value = if j < n then f j else value := by
  rw [List.getD_eq_getElem?_getD, List.getElem?_map]
  split
  · rename_i hLt
    rw [List.getElem?_range hLt]
    rfl
  · rename_i hLe
    rw [List.getElem?_eq_none]
    · rfl
    · rw [List.length_range]
      omega

theorem getD_append_singleton (xs : List α) (j : Nat) (value : α) :
    (xs ++ [value]).getD j value = xs.getD j value := by
  rw [List.getD_eq_getElem?_getD, List.getD_eq_getElem?_getD, List.getElem?_append]
  split
  · rfl
  · rename_i hLe
    rw [List.getElem?_eq_none (Nat.le_of_not_lt hLe)]
    cases j - xs.length <;> rfl

theorem modify_append (f : α → α) (front : List α) (entry : α) (back : List α) :
    (front ++ entry :: back).modify front.length f = front ++ f entry :: back := by
  induction front with
  | nil => rfl
  | cons first front ih =>
      rw [List.cons_append, List.length_cons, List.modify_succ_cons, ih, List.cons_append]

/-- A loop that edits row after row edits each once. -/
theorem foldl_modify (f : Nat → α → α) (rows : List α) (n : Nat) :
    (List.range n).foldl (fun rows r => rows.modify r (f r)) rows =
      rows.mapIdx fun r row => if r < n then f r row else row := by
  induction n with
  | zero =>
      apply List.ext_getElem?
      intro r
      rw [List.getElem?_mapIdx]
      cases hRow : rows[r]? <;> simp [hRow]
  | succ n ih =>
      rw [List.range_succ, List.foldl_append, ih, List.foldl_cons, List.foldl_nil]
      apply List.ext_getElem?
      intro r
      rw [List.getElem?_modify, List.getElem?_mapIdx, List.getElem?_mapIdx]
      cases rows[r]? with
      | none => simp
      | some row =>
          by_cases hEq : n = r
          · subst hEq
            simp
          · have hIff : r < n + 1 ↔ r < n := by omega
            simp [hEq, hIff]

/-- Such a loop over a tensor that holds a row of each entry. -/
theorem foldl_modify_map {rows : List ρ} {row row' : ρ → α} {f : Nat → α → α}
    (hRows : ∀ r entry, rows[r]? = some entry → f r (row entry) = row' entry) :
    (List.range rows.length).foldl (fun tensor r => tensor.modify r (f r)) (rows.map row) =
      rows.map row' := by
  rw [foldl_modify]
  apply List.ext_getElem?
  intro r
  rw [List.getElem?_mapIdx, List.getElem?_map, List.getElem?_map]
  cases hRow : rows[r]? with
  | none => rfl
  | some entry =>
      rw [Option.map_some, Option.map_some, if_pos (lt_of_row hRow), hRows r entry hRow,
        Option.map_some]

end VllmRbln.Slices
