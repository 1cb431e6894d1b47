import VllmRbln.ModelRunner.DecodeWindow

/-! The staging of a batch without a decode window: the scheduled tokens of every request and
nothing else, as a prefill chunk and a decode step without speculation are staged. -/
namespace VllmRbln.DecodeWindow

open Ragged Checked

namespace BatchRow

variable (row : BatchRow)

def scheduledPositions : List Nat :=
  (List.range row.numScheduledTokens).map (row.numComputedTokens + ·)

def scheduledTokens : List Int := row.scheduledPositions.map fun position =>
  row.tokenIds.getD position 0

@[simp] theorem length_scheduledPositions :
    row.scheduledPositions.length = row.numScheduledTokens := by
  rw [scheduledPositions, List.length_map, List.length_range]

/-- What the scheduler and the persistent batch give such a step of the request. -/
structure Scheduled (runner : Runner) : Prop where
  scheduled : 1 ≤ row.numScheduledTokens
  inside : row.numComputedTokens + row.numScheduledTokens ≤ runner.maxModelLen
  width : row.tokenIds.length = runner.maxModelLen

theorem scheduledPosition_lt {row : BatchRow} {position : Nat}
    (hMem : position ∈ row.scheduledPositions) :
    position < row.numComputedTokens + row.numScheduledTokens := by
  obtain ⟨j, hRange, rfl⟩ := List.mem_map.1 hMem
  exact Nat.add_lt_add_left (List.mem_range.1 hRange) _

end BatchRow

/-- The request of each slot. -/
def scheduledReqs (rows : List BatchRow) : List Nat :=
  rows.zipIdx.flatMap fun entry => List.replicate entry.1.numScheduledTokens entry.2

/-- The index of each slot's token in the flattened `token_ids_cpu`. -/
def scheduledSlots (runner : Runner) (rows : List BatchRow) : List Nat :=
  rows.zipIdx.flatMap fun entry =>
    entry.1.scheduledPositions.map fun position => entry.2 * runner.maxModelLen + position

/-- The staged arrays of such a batch. -/
def unpaddedOf (runner : Runner) (rows : List BatchRow) : Staged where
  queryLengths := rows.map (·.numScheduledTokens)
  reqIndices := (scheduledReqs rows).map Nat.cast
  positions := (rows.flatMap (·.scheduledPositions)).map Nat.cast
  tokenIndices := (scheduledSlots runner rows).map Nat.cast
  inputIds := rows.flatMap (·.scheduledTokens) ++
    runner.inputIds.drop (rows.map (·.numScheduledTokens)).sum
  backPad := rows.map fun _ => 0
  queryStartLoc := 0 :: cumsum (rows.map (·.numScheduledTokens))
  seqLens := rows.map fun row => row.numComputedTokens + row.numScheduledTokens
  discardRequestMask := rows.map fun row =>
    decide (row.numComputedTokens + row.numScheduledTokens < row.numTokens)
  logitsIndices := (cumsum (rows.map (·.numScheduledTokens))).map fun total : Nat =>
    (total : Int) - 1
  specDecodeMetadata := none

section Unpadded

variable {runner : Runner} {rows : List BatchRow}

theorem reqIndices_unpadded :
    repeatEach ((List.range rows.length).map (Nat.cast : Nat → Int))
        (rows.map (·.numScheduledTokens)) = (scheduledReqs rows).map Nat.cast := by
  have hRange : List.range rows.length = rows.zipIdx.map Prod.snd := by
    rw [List.zipIdx_map_snd, List.range_eq_range']
  rw [hRange, List.map_map, map_eq_zipIdx (fun row => row.numScheduledTokens) rows, repeatEach_map,
    scheduledReqs, List.map_flatMap]
  simp only [List.map_replicate, Function.comp_apply]

/-- An array with an entry for each request, read for every slot. -/
theorem takeAll_scheduledReqs {α : Type} (rows : List BatchRow) (f : BatchRow → α) :
    takeAll (rows.map f) ((scheduledReqs rows).map Nat.cast) =
      .ok (rows.flatMap fun row => List.replicate row.numScheduledTokens (f row)) := by
  apply takeAll_cast
  rw [scheduledReqs, List.map_flatMap, List.map_flatMap,
    flatMap_eq_zipIdx (fun row => (List.replicate row.numScheduledTokens (f row)).map some)]
  apply List.flatMap_congr
  rintro ⟨row, req⟩ hMem
  have hRow : rows[req]? = some row := List.mem_zipIdx_iff_getElem?.1 hMem
  simp only [List.map_replicate, List.getElem?_map, hRow, Option.map_some]

theorem positions_unpadded :
    List.zipWith (· + ·)
        (List.zipWith (· - ·)
          (rows.flatMap fun row =>
            List.replicate row.numScheduledTokens (row.numComputedTokens : Int))
          (rows.flatMap fun row => List.replicate row.numScheduledTokens (0 : Int)))
        (((rows.map (·.numScheduledTokens)).flatMap List.range).map (Nat.cast : Nat → Int)) =
      (rows.flatMap (·.scheduledPositions)).map Nat.cast := by
  rw [zipWith_flatMap _ (by simp), List.flatMap_map, List.map_flatMap,
    zipWith_flatMap _ (by simp), List.map_flatMap]
  apply List.flatMap_congr
  intro row _
  rw [List.zipWith_replicate', BatchRow.scheduledPositions, List.map_map,
    zipWith_replicate_left _ _ (by rw [List.length_map, List.length_range]), List.map_map]
  apply List.map_congr_left
  intro j _
  show (row.numComputedTokens : Int) - 0 + (j : Nat) = ((row.numComputedTokens + j : Nat) : Int)
  omega

theorem tokenIndices_unpadded :
    List.zipWith (fun (position req : Int) => position + req * (runner.maxModelLen : Int))
        ((rows.flatMap (·.scheduledPositions)).map Nat.cast) ((scheduledReqs rows).map Nat.cast) =
      (scheduledSlots runner rows).map Nat.cast := by
  rw [flatMap_eq_zipIdx, scheduledReqs, scheduledSlots, List.map_flatMap, List.map_flatMap,
    List.map_flatMap, zipWith_flatMap _ (by simp)]
  apply List.flatMap_congr
  rintro ⟨row, req⟩ _
  rw [List.map_replicate, List.zipWith_comm, zipWith_replicate_left _ _
    (by rw [List.length_map, BatchRow.length_scheduledPositions]), List.map_map, List.map_map]
  apply List.map_congr_left
  intro position _
  show (position : Int) + (req : Nat) * (runner.maxModelLen : Int) =
    ((req * runner.maxModelLen + position : Nat) : Int)
  rw [Int.natCast_add, Int.natCast_mul, Int.add_comm]

theorem indexSelect_unpadded (hRows : ∀ row ∈ rows, row.Scheduled runner) :
    indexSelect (rows.flatMap (·.tokenIds)) ((scheduledSlots runner rows).map Nat.cast) =
      .ok (rows.flatMap (·.scheduledTokens)) := by
  rw [indexSelect_cast]
  apply takeAll_cast
  rw [scheduledSlots, List.map_flatMap, flatMap_eq_zipIdx (fun row => row.scheduledTokens) rows,
    List.map_flatMap]
  apply List.flatMap_congr
  rintro ⟨row, req⟩ hMem
  have hRow : rows[req]? = some row := List.mem_zipIdx_iff_getElem?.1 hMem
  have hScheduled := hRows row (List.mem_of_getElem? hRow)
  rw [BatchRow.scheduledTokens, List.map_map, List.map_map]
  apply List.map_congr_left
  intro position hPosition
  have hInside : position < runner.maxModelLen :=
    Nat.lt_of_lt_of_le (BatchRow.scheduledPosition_lt hPosition) hScheduled.inside
  have hWidth : ∀ slot ∈ rows.map (·.tokenIds), slot.length = runner.maxModelLen := by
    simp only [List.mem_map]
    rintro slot ⟨other, hOther, rfl⟩
    exact (hRows other hOther).width
  have hSlot : (rows.map (·.tokenIds))[req]? = some row.tokenIds := by
    rw [List.getElem?_map, hRow, Option.map_some]
  have hBound : position < row.tokenIds.length := by
    rw [hScheduled.width]
    exact hInside
  show (rows.flatMap (·.tokenIds))[req * runner.maxModelLen + position]? =
    some (row.tokenIds.getD position 0)
  rw [List.flatMap_def, Rows.flatten_getElem? hWidth hSlot hInside,
    List.getElem?_eq_getElem hBound, List.getD_eq_getElem _ _ hBound]

theorem prepareInputs_unpadded (hFixed : runner.windowFixed rows = false)
    (hUndrafted : useSpecDecode rows = false) (hSome : rows ≠ [])
    (hRows : ∀ row ∈ rows, row.Scheduled runner) :
    runner.prepareInputs rows = .ok (unpaddedOf runner rows) := by
  have hSum : (rows.map (·.numScheduledTokens)).sum ≠ 0 := by
    obtain ⟨row, rest, rfl⟩ := List.exists_cons_of_ne_nil hSome
    have hPos := (hRows row List.mem_cons_self).scheduled
    rw [List.map_cons, List.sum_cons]
    omega
  have hEmpty : rows.isEmpty = false := by
    rw [List.isEmpty_eq_false_iff]
    exact hSome
  have hPads : runner.pads rows =
      .ok ⟨rows.map (·.numScheduledTokens), rows.map fun _ => 0, rows.map fun _ => 0⟩ := by
    rw [Runner.pads, hFixed]
    rfl
  have hComputed := takeAll_scheduledReqs rows fun row => (row.numComputedTokens : Int)
  have hShift := takeAll_scheduledReqs rows fun _ => (0 : Int)
  simp only [Runner.prepareInputs, if_neg hSum, hEmpty, Bool.false_eq_true, if_false, hPads, hFixed,
    zipWith_map_map, getCumsumAndArange_eq, ok_bind, pure_bind, reqIndices_unpadded, hComputed, hShift,
    positions_unpadded, tokenIndices_unpadded, indexSelect_unpadded hRows, hUndrafted]
  rfl

end Unpadded

end VllmRbln.DecodeWindow
