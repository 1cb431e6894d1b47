import VllmRbln.Common.Checked
import VllmRbln.Common.Ragged
import VllmRbln.Common.Rows

/-! The staging of a batch (`_prepare_inputs`, `v1/worker/rbln_model_runner.py`). A decode step
under speculation stages one window of `num_spec_tokens + 1` slots for every request: the
scheduled tokens, with the slack behind them, or in front where the window would run past
`max_model_len`. -/
namespace VllmRbln.DecodeWindow

open Ragged Checked

/-- What the step reads of a request: its counts, its row of `token_ids_cpu` and the drafts
scheduled for it. -/
structure BatchRow where
  numComputedTokens : Nat
  numScheduledTokens : Nat
  numTokens : Nat
  tokenIds : List Int
  scheduledSpecTokens : Option (List Int)

/-- The runner's configuration and its persistent `input_ids`. -/
structure Runner where
  numSpecTokens : Nat
  maxModelLen : Nat
  usesFixedDecodeWindow : Bool
  isPrefill : Bool
  inputIds : List Int

inductive StageError
  | noScheduledTokens
  | noRequests
  | negativeSlack (queryLengths logicalNumTokens : List Nat)
  | index
  deriving DecidableEq

structure SpecDecodeMetadata where
  draftTokenIds : List Int
  numDraftTokens : List Nat
  cuNumDraftTokens : List Nat
  cuNumSampledTokens : List Nat
  targetLogitsIndices : List Int
  bonusLogitsIndices : List Int
  logitsIndices : List Int
  deriving DecidableEq

/-- The flat arrays of a step. Of each buffer but `input_ids`, the part the batch fills. -/
structure Staged where
  queryLengths : List Nat
  reqIndices : List Int
  positions : List Int
  tokenIndices : List Int
  inputIds : List Int
  backPad : List Int
  queryStartLoc : List Nat
  seqLens : List Nat
  discardRequestMask : List Bool
  logitsIndices : List Int
  specDecodeMetadata : Option SpecDecodeMetadata
  deriving DecidableEq

/-! ### Arrays -/

section Arrays

variable {α : Type}

/-- `values[index]`, where a negative index counts from the end. -/
def entryAt (values : List α) (index : Int) : Except StageError α :=
  let position := if index < 0 then index + values.length else index
  if position < 0 then .error .index
  else
    match values[position.toNat]? with
    | none => .error .index
    | some value => .ok value

/-- `values[indices]`. -/
def takeAll (values : List α) (indices : List Int) : Except StageError (List α) :=
  indices.mapM (entryAt values)

/-- `torch.index_select`, which takes no negative index. -/
def indexSelect (values : List α) (indices : List Int) : Except StageError (List α) :=
  indices.mapM fun index => if index < 0 then .error .index else entryAt values index

end Arrays

/-- `_get_cumsum_and_arange`. -/
def getCumsumAndArange (numTokens : List Nat) : List Nat × List Int :=
  let cuNumTokens := cumsum numTokens
  let totalNumTokens := cuNumTokens.getLastD 0
  let cumsumsOffsets := repeatEach
    (List.zipWith (fun total count : Nat => (total : Int) - count) cuNumTokens numTokens) numTokens
  (cuNumTokens, List.zipWith (· - ·) ((List.range totalNumTokens).map Nat.cast) cumsumsOffsets)

/-- `_calc_spec_decode_metadata`. -/
def calcSpecDecodeMetadata (inputIds : List Int) (numDraftTokens : List Nat)
    (cuSampleEnd : List Int) : Except StageError SpecDecodeMetadata := do
  let numSampledTokens := numDraftTokens.map (· + 1)
  let (cuNumSampledTokens, sampledArange) := getCumsumAndArange numSampledTokens
  let logitsIndices := List.zipWith (· + ·)
    (repeatEach (List.zipWith (fun (last : Int) (count : Nat) => last - count) cuSampleEnd
      numSampledTokens) numSampledTokens) sampledArange
  let bonusLogitsIndices := cuNumSampledTokens.map fun total : Nat => (total : Int) - 1
  let (cuNumDraftTokens, draftArange) := getCumsumAndArange numDraftTokens
  let targetLogitsIndices := List.zipWith (· + ·)
    (repeatEach (List.zipWith (fun total count : Nat => (total : Int) - count) cuNumSampledTokens
      numSampledTokens) numDraftTokens) draftArange
  let sampledIds ← takeAll inputIds logitsIndices
  let draftTokenIds ← takeAll sampledIds (targetLogitsIndices.map (· + 1))
  return { draftTokenIds, numDraftTokens, cuNumDraftTokens, cuNumSampledTokens,
           targetLogitsIndices, bonusLogitsIndices, logitsIndices }

/-- The number of drafts scheduled for the request. -/
def BatchRow.numDraftTokens (row : BatchRow) : Nat := (row.scheduledSpecTokens.getD []).length

structure Pads where
  queryLengths : List Nat
  frontPad : List Int
  backPad : List Int

def useSpecDecode (rows : List BatchRow) : Bool := rows.any (·.scheduledSpecTokens.isSome)

namespace Runner

variable (runner : Runner)

def windowFixed (rows : List BatchRow) : Bool :=
  !runner.isPrefill && (runner.usesFixedDecodeWindow || useSpecDecode rows)

/-- The query lengths, and the padding in front of and behind the scheduled tokens. -/
def pads (rows : List BatchRow) : Except StageError Pads :=
  let logicalNumTokens := rows.map (·.numScheduledTokens)
  if runner.windowFixed rows then
    let queryLengths := rows.map fun _ => runner.numSpecTokens + 1
    let slack := List.zipWith (fun length logical : Nat => (length : Int) - logical) queryLengths
      logicalNumTokens
    if slack.any (· < 0) then .error (.negativeSlack queryLengths logicalNumTokens)
    else
      let frontPad := List.zipWith
        (fun computed length : Nat => max 0 ((computed : Int) + length - runner.maxModelLen))
        (rows.map (·.numComputedTokens)) queryLengths
      .ok ⟨queryLengths, frontPad, List.zipWith (· - ·) slack frontPad⟩
  else .ok ⟨logicalNumTokens, rows.map fun _ => 0, rows.map fun _ => 0⟩

/-- `_prepare_inputs`. The rows of `token_ids_cpu` are `max_model_len` long. -/
def prepareInputs (rows : List BatchRow) : Except StageError Staged := do
  let logicalNumTokens := rows.map (·.numScheduledTokens)
  if logicalNumTokens.sum = 0 then throw .noScheduledTokens
  if rows.isEmpty then throw .noRequests
  let numComputed : List Int := rows.map fun row => (row.numComputedTokens : Int)
  let pads ← runner.pads rows
  let totalQueryTokens := pads.queryLengths.sum
  let reqIndices := repeatEach ((List.range rows.length).map Nat.cast) pads.queryLengths
  let (cuNumTokens, arange) := getCumsumAndArange pads.queryLengths
  let computed ← takeAll numComputed reqIndices
  let shift ← takeAll pads.frontPad reqIndices
  let positions := List.zipWith (· + ·) (List.zipWith (· - ·) computed shift) arange
  let logicalEnd := List.zipWith (fun (done : Int) (logical : Nat) => done + logical - 1)
    numComputed logicalNumTokens
  let lookupPositions ←
    if runner.windowFixed rows then
      (takeAll logicalEnd reqIndices).map (List.zipWith min positions)
    else pure positions
  let tokenIndices := List.zipWith (fun position req => position + req * (runner.maxModelLen : Int))
    lookupPositions reqIndices
  let tokens ← indexSelect (rows.flatMap (·.tokenIds)) tokenIndices
  let inputIds := tokens ++ runner.inputIds.drop totalQueryTokens
  let seqLens := List.zipWith (· + ·) (rows.map (·.numComputedTokens)) logicalNumTokens
  let staged : Staged :=
    { queryLengths := pads.queryLengths, reqIndices, positions, tokenIndices, inputIds,
      backPad := pads.backPad, queryStartLoc := 0 :: cuNumTokens, seqLens,
      discardRequestMask :=
        List.zipWith (fun length total => decide (length < total)) seqLens
          (rows.map (·.numTokens)),
      logitsIndices := [], specDecodeMetadata := none }
  if useSpecDecode rows then
    let cuSampleEnd : List Int :=
      if runner.windowFixed rows then List.zipWith (· - ·) (cuNumTokens.map Nat.cast) pads.backPad
      else cuNumTokens.map Nat.cast
    let metadata ← calcSpecDecodeMetadata inputIds (rows.map (·.numDraftTokens)) cuSampleEnd
    return { staged with
      logitsIndices := metadata.logitsIndices, specDecodeMetadata := some metadata }
  else
    let lastSlots : List Int := cuNumTokens.map fun total : Nat => (total : Int) - 1
    return { staged with
      logitsIndices :=
        if runner.windowFixed rows then List.zipWith (· - ·) lastSlots pads.backPad else lastSlots }

end Runner

/-! ### The arrays' operations -/

section Arrays

variable {α β γ : Type}

theorem entryAt_cast {values : List α} {slot : Nat} {value : α}
    (hSlot : values[slot]? = some value) : entryAt values slot = .ok value := by
  have hPos : ¬ (slot : Int) < 0 := by omega
  simp only [entryAt, if_neg hPos, Int.toNat_natCast, hSlot]

/-- An array read at slots that all exist. -/
theorem takeAll_cast {values out : List α} {slots : List Nat}
    (hRead : slots.map (fun slot => values[slot]?) = out.map some) :
    takeAll values (slots.map Nat.cast) = .ok out := by
  unfold takeAll
  induction slots generalizing out with
  | nil =>
      cases out with
      | nil => rfl
      | cons value out => cases hRead
  | cons slot slots ih =>
      cases out with
      | nil => cases hRead
      | cons value out =>
          obtain ⟨hHead, hTail⟩ := List.cons.inj hRead
          rw [List.map_cons, List.mapM_cons, entryAt_cast hHead, ih hTail]
          rfl

theorem indexSelect_cast (values : List α) (slots : List Nat) :
    indexSelect values (slots.map Nat.cast) = takeAll values (slots.map Nat.cast) := by
  unfold indexSelect takeAll
  induction slots with
  | nil => rfl
  | cons slot slots ih =>
      have hPos : ¬ (slot : Int) < 0 := by omega
      rw [List.map_cons, List.mapM_cons, List.mapM_cons, ih, if_neg hPos]

theorem zipWith_replicate_left (combine : α → β → γ) (value : α) {values : List β} {count : Nat}
    (hCount : values.length = count) :
    List.zipWith combine (List.replicate count value) values = values.map (combine value) := by
  subst hCount
  induction values with
  | nil => rfl
  | cons head values ih =>
      rw [List.length_cons, List.replicate_succ, List.zipWith_cons_cons, ih, List.map_cons]

theorem map_eq_zipIdx (f : α → β) (rows : List α) :
    rows.map f = rows.zipIdx.map fun entry => f entry.1 := by
  conv_lhs => rw [← List.zipIdx_map_fst 0 rows, List.map_map]
  rfl

theorem flatMap_eq_zipIdx (f : α → List β) (rows : List α) :
    rows.flatMap f = rows.zipIdx.flatMap fun entry => f entry.1 := by
  rw [List.flatMap_def, map_eq_zipIdx, ← List.flatMap_def]

end Arrays

theorem getCumsumAndArange_eq (counts : List Nat) :
    getCumsumAndArange counts = (cumsum counts, (counts.flatMap List.range).map Nat.cast) := by
  have hTotal : (cumsum counts).getLastD 0 = counts.sum := by
    rw [cumsum, getLastD_cumsumFrom, Nat.zero_add]
  have hRange := batched_range 0 counts
  rw [← List.range_eq_range'] at hRange
  rw [getCumsumAndArange, hTotal]
  exact congrArg _ hRange

/-! ### A row's window -/

namespace BatchRow

variable (runner : Runner) (row : BatchRow)

/-- The padding in front of the scheduled tokens. -/
def front : Nat := row.numComputedTokens + (runner.numSpecTokens + 1) - runner.maxModelLen

/-- The first position that is staged. -/
def first : Nat := row.numComputedTokens - row.front runner

/-- The padding behind them. -/
def back : Nat := runner.numSpecTokens + 1 - row.numScheduledTokens - row.front runner

def positions : List Nat :=
  (List.range (runner.numSpecTokens + 1)).map (row.first runner + ·)

/-- Where the tokens of the slots are read: padding behind repeats the last scheduled token. -/
def lookups : List Nat :=
  (row.positions runner).map (min · (row.numComputedTokens + row.numScheduledTokens - 1))

def tokens : List Int := (row.lookups runner).map fun lookup => row.tokenIds.getD lookup 0

theorem length_positions : (row.positions runner).length = runner.numSpecTokens + 1 := by
  rw [positions, List.length_map, List.length_range]

theorem length_lookups : (row.lookups runner).length = runner.numSpecTokens + 1 := by
  rw [lookups, List.length_map, length_positions]

theorem length_tokens : (row.tokens runner).length = runner.numSpecTokens + 1 := by
  rw [tokens, List.length_map, length_lookups]

/-- What the scheduler and the persistent batch give a decode step of the request. -/
structure Fits : Prop where
  window : runner.numSpecTokens + 1 ≤ runner.maxModelLen
  scheduled : 1 ≤ row.numScheduledTokens
  inWindow : row.numScheduledTokens ≤ runner.numSpecTokens + 1
  inside : row.numComputedTokens + row.numScheduledTokens ≤ runner.maxModelLen
  drafts : row.numDraftTokens = row.numScheduledTokens - 1
  width : row.tokenIds.length = runner.maxModelLen
  placed : ∀ j < row.numDraftTokens, row.tokenIds[row.numComputedTokens + 1 + j]? =
    (row.scheduledSpecTokens.getD [])[j]?

namespace Fits

variable {runner row} (hFits : Fits runner row)
include hFits

/-- The window is the padding in front, the scheduled tokens and the padding behind. -/
theorem parts : row.front runner + row.numScheduledTokens + row.back runner =
    runner.numSpecTokens + 1 := by
  have hInside := hFits.inside
  have hWindow := hFits.inWindow
  unfold back front
  omega

theorem first_add_front : row.first runner + row.front runner = row.numComputedTokens := by
  have hWindow := hFits.window
  unfold first front
  omega

theorem first_add_window : row.first runner + (runner.numSpecTokens + 1) ≤ runner.maxModelLen := by
  have hWindow := hFits.window
  have hInside := hFits.inside
  unfold first front
  omega

theorem drafts_add_one : row.numDraftTokens + 1 = row.numScheduledTokens := by
  have hScheduled := hFits.scheduled
  have hDrafts := hFits.drafts
  omega

theorem lookup_lt {lookup : Nat} (hMem : lookup ∈ row.lookups runner) :
    lookup < row.numComputedTokens + row.numScheduledTokens := by
  have hScheduled := hFits.scheduled
  obtain ⟨position, -, rfl⟩ := List.mem_map.1 hMem
  have hMin := Nat.min_le_right position (row.numComputedTokens + row.numScheduledTokens - 1)
  omega

theorem lookup_lt_width {lookup : Nat} (hMem : lookup ∈ row.lookups runner) :
    lookup < runner.maxModelLen :=
  Nat.lt_of_lt_of_le (hFits.lookup_lt hMem) hFits.inside

end Fits

end BatchRow

/-! ### The staged arrays, row by row -/

section Window

variable {runner : Runner} {rows : List BatchRow}

theorem zipWith_map_map {α β γ ρ : Type} (combine : α → β → γ) (left : ρ → α) (right : ρ → β)
    (rows : List ρ) :
    List.zipWith combine (rows.map left) (rows.map right) =
      rows.map fun row => combine (left row) (right row) := by
  induction rows with
  | nil => rfl
  | cons row rows ih => rw [List.map_cons, List.map_cons, List.zipWith_cons_cons, ih, List.map_cons]

theorem pads_window (hFixed : runner.windowFixed rows = true)
    (hFits : ∀ row ∈ rows, row.Fits runner) :
    runner.pads rows = .ok
      ⟨rows.map fun _ => runner.numSpecTokens + 1, rows.map fun row => (row.front runner : Int),
        rows.map fun row => (row.back runner : Int)⟩ := by
  have hFront : ∀ row ∈ rows, max 0 ((row.numComputedTokens : Int) +
      (runner.numSpecTokens + 1 : Nat) - runner.maxModelLen) = (row.front runner : Int) := by
    intro row _
    unfold BatchRow.front
    omega
  have hBack : ∀ row ∈ rows, ((runner.numSpecTokens + 1 : Nat) : Int) - row.numScheduledTokens -
      row.front runner = row.back runner := by
    intro row hMem
    have hParts := (hFits row hMem).parts
    omega
  have hSlack : (rows.map fun row =>
      ((runner.numSpecTokens + 1 : Nat) : Int) - row.numScheduledTokens).any (· < 0) = false := by
    simp only [List.any_eq_false, List.mem_map, decide_eq_true_eq]
    rintro slack ⟨row, hMem, rfl⟩
    have hWindow := (hFits row hMem).inWindow
    omega
  simp only [Runner.pads, hFixed, if_true, zipWith_map_map, hSlack, Bool.false_eq_true, if_false]
  rw [List.map_congr_left hFront]
  congr 2
  apply List.map_congr_left
  intro row hMem
  rw [hFront row hMem, hBack row hMem]

/-- The request of each slot. -/
def reqSlots (runner : Runner) (rows : List BatchRow) : List Nat :=
  rows.zipIdx.flatMap fun entry => List.replicate (runner.numSpecTokens + 1) entry.2

theorem reqIndices_window :
    repeatEach ((List.range rows.length).map (Nat.cast : Nat → Int))
        (rows.map fun _ => runner.numSpecTokens + 1) = (reqSlots runner rows).map Nat.cast := by
  have hRange : List.range rows.length = rows.zipIdx.map Prod.snd := by
    rw [List.zipIdx_map_snd, List.range_eq_range']
  rw [hRange, List.map_map, map_eq_zipIdx (fun _ => runner.numSpecTokens + 1), repeatEach_map, reqSlots, List.map_flatMap]
  simp only [List.map_replicate, Function.comp_apply]

/-- An array with an entry for each request, read for every slot. -/
theorem takeAll_reqSlots {α : Type} (runner : Runner) (rows : List BatchRow) (f : BatchRow → α) :
    takeAll (rows.map f) ((reqSlots runner rows).map Nat.cast) =
      .ok (rows.flatMap fun row => List.replicate (runner.numSpecTokens + 1) (f row)) := by
  apply takeAll_cast
  rw [reqSlots, List.map_flatMap, List.map_flatMap,
    flatMap_eq_zipIdx (fun row => (List.replicate (runner.numSpecTokens + 1) (f row)).map some)]
  apply List.flatMap_congr
  rintro ⟨row, req⟩ hMem
  have hRow : rows[req]? = some row := List.mem_zipIdx_iff_getElem?.1 hMem
  simp only [List.map_replicate, List.getElem?_map, hRow, Option.map_some]

theorem positions_window (hFits : ∀ row ∈ rows, row.Fits runner) :
    List.zipWith (· + ·)
        (List.zipWith (· - ·)
          (rows.flatMap fun row =>
            List.replicate (runner.numSpecTokens + 1) (row.numComputedTokens : Int))
          (rows.flatMap fun row =>
            List.replicate (runner.numSpecTokens + 1) (row.front runner : Int)))
        (((rows.map fun _ => runner.numSpecTokens + 1).flatMap List.range).map
          (Nat.cast : Nat → Int)) =
      (rows.flatMap (·.positions runner)).map Nat.cast := by
  rw [zipWith_flatMap _ (by simp), List.flatMap_map, List.map_flatMap,
    zipWith_flatMap _ (by simp), List.map_flatMap]
  apply List.flatMap_congr
  intro row hMem
  have hFirst := (hFits row hMem).first_add_front
  rw [List.zipWith_replicate', BatchRow.positions, List.map_map,
    zipWith_replicate_left _ _ (by rw [List.length_map, List.length_range]), List.map_map]
  apply List.map_congr_left
  intro j _
  show (row.numComputedTokens : Int) - row.front runner + (j : Nat) =
    ((row.first runner + j : Nat) : Int)
  omega

theorem lookups_window (hFits : ∀ row ∈ rows, row.Fits runner) :
    List.zipWith min ((rows.flatMap (·.positions runner)).map (Nat.cast : Nat → Int))
        (rows.flatMap fun row => List.replicate (runner.numSpecTokens + 1)
          ((row.numComputedTokens : Int) + row.numScheduledTokens - 1)) =
      (rows.flatMap (·.lookups runner)).map Nat.cast := by
  rw [List.map_flatMap, zipWith_flatMap _ (by simp [BatchRow.length_positions]), List.map_flatMap]
  apply List.flatMap_congr
  intro row hMem
  have hScheduled := (hFits row hMem).scheduled
  have hCast : (row.numComputedTokens : Int) + row.numScheduledTokens - 1 =
      ((row.numComputedTokens + row.numScheduledTokens - 1 : Nat) : Int) := by omega
  rw [List.zipWith_comm_of_comm, zipWith_replicate_left _ _
    (by rw [List.length_map, BatchRow.length_positions]), List.map_map, BatchRow.lookups,
    List.map_map]
  · apply List.map_congr_left
    intro position _
    show min ((row.numComputedTokens : Int) + row.numScheduledTokens - 1) (position : Nat) =
      ((min position (row.numComputedTokens + row.numScheduledTokens - 1) : Nat) : Int)
    omega
  · exact min_comm

/-- The index of each slot's token in the flattened `token_ids_cpu`. -/
def tokenSlots (runner : Runner) (rows : List BatchRow) : List Nat :=
  rows.zipIdx.flatMap fun entry =>
    (entry.1.lookups runner).map fun lookup => entry.2 * runner.maxModelLen + lookup

theorem tokenIndices_window :
    List.zipWith (fun (position req : Int) => position + req * (runner.maxModelLen : Int))
        ((rows.flatMap (·.lookups runner)).map Nat.cast) ((reqSlots runner rows).map Nat.cast) =
      (tokenSlots runner rows).map Nat.cast := by
  rw [flatMap_eq_zipIdx, reqSlots, tokenSlots, List.map_flatMap, List.map_flatMap,
    List.map_flatMap, zipWith_flatMap _ (by simp [BatchRow.length_lookups])]
  apply List.flatMap_congr
  rintro ⟨row, req⟩ _
  rw [List.map_replicate, List.zipWith_comm, zipWith_replicate_left _ _
    (by rw [List.length_map, BatchRow.length_lookups]), List.map_map, List.map_map]
  apply List.map_congr_left
  intro lookup _
  show (lookup : Int) + (req : Nat) * (runner.maxModelLen : Int) =
    ((req * runner.maxModelLen + lookup : Nat) : Int)
  rw [Int.natCast_add, Int.natCast_mul, Int.add_comm]

theorem indexSelect_window (hFits : ∀ row ∈ rows, row.Fits runner) :
    indexSelect (rows.flatMap (·.tokenIds)) ((tokenSlots runner rows).map Nat.cast) =
      .ok (rows.flatMap (·.tokens runner)) := by
  rw [indexSelect_cast]
  apply takeAll_cast
  rw [tokenSlots, List.map_flatMap, flatMap_eq_zipIdx (fun row => row.tokens runner) rows,
    List.map_flatMap]
  apply List.flatMap_congr
  rintro ⟨row, req⟩ hMem
  have hRow : rows[req]? = some row := List.mem_zipIdx_iff_getElem?.1 hMem
  have hRowFits := hFits row (List.mem_of_getElem? hRow)
  rw [BatchRow.tokens, List.map_map, List.map_map]
  apply List.map_congr_left
  intro lookup hLookup
  have hInside := hRowFits.lookup_lt_width hLookup
  have hWidth : ∀ slot ∈ rows.map (·.tokenIds), slot.length = runner.maxModelLen := by
    simp only [List.mem_map]
    rintro slot ⟨other, hOther, rfl⟩
    exact (hFits other hOther).width
  have hSlot : (rows.map (·.tokenIds))[req]? = some row.tokenIds := by
    rw [List.getElem?_map, hRow, Option.map_some]
  show (rows.flatMap (·.tokenIds))[req * runner.maxModelLen + lookup]? =
    some (row.tokenIds.getD lookup 0)
  have hBound : lookup < row.tokenIds.length := by
    rw [hRowFits.width]
    exact hInside
  rw [List.flatMap_def, Rows.flatten_getElem? hWidth hSlot hInside,
    List.getElem?_eq_getElem hBound, List.getD_eq_getElem _ _ hBound]

/-! ### The sampled slots -/

/-- The slots of the scheduled tokens, in the flat window of the batch. -/
def sampledSlots (runner : Runner) (rows : List BatchRow) : List Nat :=
  slotsFrom (fun _ => runner.numSpecTokens + 1) (·.front runner) (·.numScheduledTokens) 0 rows

/-- What the metadata of a batch of windows holds. -/
def metadataOf (runner : Runner) (rows : List BatchRow) : SpecDecodeMetadata where
  draftTokenIds := rows.flatMap fun row => row.scheduledSpecTokens.getD []
  numDraftTokens := rows.map (·.numDraftTokens)
  cuNumDraftTokens := cumsum (rows.map (·.numDraftTokens))
  cuNumSampledTokens := cumsum (rows.map (·.numScheduledTokens))
  targetLogitsIndices :=
    (slotsFrom (·.numScheduledTokens) (fun _ => 0) (·.numDraftTokens) 0 rows).map Nat.cast
  bonusLogitsIndices :=
    (slotsFrom (·.numScheduledTokens) (·.numDraftTokens) (fun _ => 1) 0 rows).map Nat.cast
  logitsIndices := (sampledSlots runner rows).map Nat.cast

theorem positions_sampled {row : BatchRow} (hFits : row.Fits runner) :
    ((row.positions runner).drop (row.front runner)).take row.numScheduledTokens =
      (List.range row.numScheduledTokens).map (row.numComputedTokens + ·) := by
  have hParts := hFits.parts
  have hFirst := hFits.first_add_front
  rw [BatchRow.positions, take_drop_map_range _ (by omega)]
  apply List.map_congr_left
  intro j _
  omega

theorem tokens_sampled {row : BatchRow} (hFits : row.Fits runner) :
    ((row.tokens runner).drop (row.front runner)).take row.numScheduledTokens =
      (List.range row.numScheduledTokens).map fun j =>
        row.tokenIds.getD (row.numComputedTokens + j) 0 := by
  have hParts := hFits.parts
  have hFirst := hFits.first_add_front
  rw [BatchRow.tokens, BatchRow.lookups, BatchRow.positions, List.map_map, List.map_map,
    take_drop_map_range _ (by omega)]
  apply List.map_congr_left
  intro j hMem
  have hLt := List.mem_range.1 hMem
  have hMin : min (row.first runner + (row.front runner + j))
      (row.numComputedTokens + row.numScheduledTokens - 1) = row.numComputedTokens + j := by omega
  show row.tokenIds.getD (min (row.first runner + (row.front runner + j))
    (row.numComputedTokens + row.numScheduledTokens - 1)) 0 = _
  rw [hMin]

/-- The drafts are the scheduled tokens behind the first. -/
theorem drafts_sampled {row : BatchRow} (hFits : row.Fits runner) :
    (((List.range row.numScheduledTokens).map fun j =>
        row.tokenIds.getD (row.numComputedTokens + j) 0).drop 1).take row.numDraftTokens =
      row.scheduledSpecTokens.getD [] := by
  have hDrafts := hFits.drafts_add_one
  rw [take_drop_map_range _ (by omega)]
  apply List.ext_getElem
  · rw [List.length_map, List.length_range, BatchRow.numDraftTokens]
  · intro j hLeft hRight
    have hPlaced := hFits.placed j hRight
    rw [List.getElem?_eq_getElem hRight, Nat.add_assoc] at hPlaced
    rw [List.getElem_map, List.getElem_range, List.getD_eq_getElem?_getD, hPlaced,
      Option.getD_some]

theorem inputIds_sampled (hFits : ∀ row ∈ rows, row.Fits runner) (rest : List Int) :
    takeAll (rows.flatMap (·.tokens runner) ++ rest) ((sampledSlots runner rows).map Nat.cast) =
      .ok (rows.flatMap fun row => (List.range row.numScheduledTokens).map fun j =>
        row.tokenIds.getD (row.numComputedTokens + j) 0) := by
  apply takeAll_cast
  have hRead := getElem?_slotsFrom (fun _ => runner.numSpecTokens + 1) (·.front runner)
    (·.numScheduledTokens) (fun row => row.tokens runner) rows [] rest
    (fun row _ => row.length_tokens runner)
    (fun row hMem => by have := (hFits row hMem).parts; omega)
  rw [List.nil_append] at hRead
  rw [sampledSlots, List.map_flatMap]
  refine hRead.trans (List.flatMap_congr fun row hMem => ?_)
  rw [tokens_sampled (hFits row hMem)]

theorem calcSpecDecodeMetadata_window (hFits : ∀ row ∈ rows, row.Fits runner) (rest : List Int) :
    calcSpecDecodeMetadata (rows.flatMap (·.tokens runner) ++ rest)
        (rows.map (·.numDraftTokens))
        (List.zipWith (· - ·)
          ((cumsum (rows.map fun _ => runner.numSpecTokens + 1)).map (Nat.cast : Nat → Int))
          (rows.map fun row => (row.back runner : Int))) = .ok (metadataOf runner rows) := by
  have hScheduled : (rows.map (·.numDraftTokens)).map (· + 1) =
      rows.map (·.numScheduledTokens) := by
    rw [List.map_map]
    exact List.map_congr_left fun row hMem => (hFits row hMem).drafts_add_one
  have hLogits := zipWith_repeatEach_cumsumFrom (fun _ => runner.numSpecTokens + 1)
    (·.front runner) (·.numScheduledTokens)
    (fun total row => (total : Int) - row.back runner - row.numScheduledTokens) rows 0
    (by
      intro base row hMem
      have hParts := (hFits row hMem).parts
      omega)
  have hTarget := zipWith_repeatEach_cumsumFrom (·.numScheduledTokens) (fun _ => 0)
    (·.numDraftTokens) (fun total row => (total : Int) - row.numScheduledTokens) rows 0
    (by
      intro base row _
      omega)
  have hBonus := zipWith_cumsumFrom_single (·.numScheduledTokens) (·.numDraftTokens)
    (fun _ => 1) (fun total _ => (total : Int) - 1) rows 0 (fun _ _ => rfl)
    (by
      intro base row hMem
      have hDrafts := (hFits row hMem).drafts_add_one
      omega)
  rw [zipWith_ignoring (fun total : Nat => (total : Int) - 1)
    (by rw [length_cumsumFrom, List.length_map])] at hBonus
  have hEnd : List.zipWith (fun (last : Int) (count : Nat) => last - count)
      (List.zipWith (· - ·)
        ((cumsum (rows.map fun _ => runner.numSpecTokens + 1)).map (Nat.cast : Nat → Int))
        (rows.map fun row => (row.back runner : Int))) (rows.map (·.numScheduledTokens)) =
      List.zipWith (fun (total : Nat) row => (total : Int) - row.back runner -
        row.numScheduledTokens) (cumsum (rows.map fun _ => runner.numSpecTokens + 1)) rows := by
    rw [List.zipWith_map_right, List.zipWith_map_left, List.zipWith_map_right,
      zipWith_zipWith_right]
  have hSampled := inputIds_sampled hFits rest
  have hDraftIds : takeAll (rows.flatMap fun row => (List.range row.numScheduledTokens).map fun j =>
      row.tokenIds.getD (row.numComputedTokens + j) 0)
      (((slotsFrom (·.numScheduledTokens) (fun _ => 0) (·.numDraftTokens) 0 rows).map
        (Nat.cast : Nat → Int)).map (· + 1)) =
      .ok (rows.flatMap fun row => row.scheduledSpecTokens.getD []) := by
    have hShift : ((slotsFrom (·.numScheduledTokens) (fun _ => 0) (·.numDraftTokens) 0 rows).map
        (Nat.cast : Nat → Int)).map (· + 1) =
        (slotsFrom (·.numScheduledTokens) (fun _ => 1) (·.numDraftTokens) 0 rows).map Nat.cast := by
      have hSucc := @map_succ_slotsFrom BatchRow (·.numScheduledTokens) (fun _ => 0)
        (·.numDraftTokens) 0 rows
      rw [← hSucc, List.map_map, List.map_map]
      rfl
    rw [hShift]
    apply takeAll_cast
    have hRead := getElem?_slotsFrom (·.numScheduledTokens) (fun _ => 1) (·.numDraftTokens)
      (fun row => (List.range row.numScheduledTokens).map fun j =>
        row.tokenIds.getD (row.numComputedTokens + j) 0) rows [] []
      (by simp) (fun row hMem => by have := (hFits row hMem).drafts_add_one; omega)
    rw [List.nil_append, List.append_nil] at hRead
    rw [List.map_flatMap]
    refine hRead.trans (List.flatMap_congr fun row hMem => ?_)
    rw [drafts_sampled (hFits row hMem)]
  have hTotals : List.zipWith (fun total count : Nat => (total : Int) - count)
      (cumsum (rows.map (·.numScheduledTokens))) (rows.map (·.numScheduledTokens)) =
      List.zipWith (fun (total : Nat) row => (total : Int) - row.numScheduledTokens)
        (cumsum (rows.map (·.numScheduledTokens))) rows := List.zipWith_map_right
  simp only [calcSpecDecodeMetadata, hScheduled, getCumsumAndArange_eq, hEnd, List.flatMap_map]
  rw [hTotals, cumsum, hLogits, cumsum, hTarget, hBonus]
  rw [sampledSlots] at hSampled
  rw [hSampled]
  show takeAll _ _ >>= _ = _
  rw [hDraftIds]
  rfl

/-- The staged arrays of a batch of windows. -/
def stagedOf (runner : Runner) (rows : List BatchRow) : Staged where
  queryLengths := rows.map fun _ => runner.numSpecTokens + 1
  reqIndices := (reqSlots runner rows).map Nat.cast
  positions := (rows.flatMap (·.positions runner)).map Nat.cast
  tokenIndices := (tokenSlots runner rows).map Nat.cast
  inputIds := rows.flatMap (·.tokens runner) ++
    runner.inputIds.drop (rows.map fun _ => runner.numSpecTokens + 1).sum
  backPad := rows.map fun row => (row.back runner : Int)
  queryStartLoc := 0 :: cumsum (rows.map fun _ => runner.numSpecTokens + 1)
  seqLens := rows.map fun row => row.numComputedTokens + row.numScheduledTokens
  discardRequestMask := rows.map fun row =>
    decide (row.numComputedTokens + row.numScheduledTokens < row.numTokens)
  logitsIndices := (sampledSlots runner rows).map Nat.cast
  specDecodeMetadata := if useSpecDecode rows then some (metadataOf runner rows) else none

theorem scheduled_of_undrafted (hFits : ∀ row ∈ rows, row.Fits runner)
    (hNone : useSpecDecode rows = false) {row : BatchRow} (hMem : row ∈ rows) :
    row.numScheduledTokens = 1 := by
  have hUndrafted : row.scheduledSpecTokens = none := by
    have hNot := List.any_eq_false.1 hNone row hMem
    simpa using hNot
  have hDrafts := (hFits row hMem).drafts_add_one
  rw [BatchRow.numDraftTokens, hUndrafted] at hDrafts
  exact hDrafts.symm

/-- The last slots, moved in front of the padding behind them. -/
theorem logitsIndices_undrafted (hFits : ∀ row ∈ rows, row.Fits runner)
    (hNone : useSpecDecode rows = false) :
    List.zipWith (· - ·)
        ((cumsum (rows.map fun _ => runner.numSpecTokens + 1)).map
          fun total : Nat => (total : Int) - 1)
        (rows.map fun row => (row.back runner : Int)) =
      (sampledSlots runner rows).map Nat.cast := by
  rw [List.zipWith_map_left, List.zipWith_map_right, cumsum]
  apply zipWith_cumsumFrom_single _ _ _ _ _ 0
  · intro row hMem
    exact scheduled_of_undrafted hFits hNone hMem
  · intro base row hMem
    have hParts := (hFits row hMem).parts
    have hOne := scheduled_of_undrafted hFits hNone hMem
    omega

theorem scheduled_sum_ne_zero (hRows : rows ≠ []) (hFits : ∀ row ∈ rows, row.Fits runner) :
    (rows.map (·.numScheduledTokens)).sum ≠ 0 := by
  obtain ⟨row, rest, rfl⟩ := List.exists_cons_of_ne_nil hRows
  have hPos := (hFits row List.mem_cons_self).scheduled
  rw [List.map_cons, List.sum_cons]
  omega

theorem prepareInputs_window (hFixed : runner.windowFixed rows = true) (hRows : rows ≠ [])
    (hFits : ∀ row ∈ rows, row.Fits runner) :
    runner.prepareInputs rows = .ok (stagedOf runner rows) := by
  have hScheduled := scheduled_sum_ne_zero hRows hFits
  have hSome : rows.isEmpty = false := by
    rw [List.isEmpty_eq_false_iff]
    exact hRows
  have hComputed := takeAll_reqSlots runner rows
    fun row => (row.numComputedTokens : Int)
  have hShift := takeAll_reqSlots runner rows
    fun row => (row.front runner : Int)
  have hEnds := takeAll_reqSlots runner rows
    fun row => (row.numComputedTokens : Int) + row.numScheduledTokens - 1
  simp only [Runner.prepareInputs, if_neg hScheduled, hSome, Bool.false_eq_true, if_false,
    pads_window hFixed hFits, hFixed, if_true, zipWith_map_map, getCumsumAndArange_eq, ok_bind,
    reqIndices_window, hComputed, hShift, positions_window hFits, hEnds, Except.map,
    lookups_window hFits, tokenIndices_window, indexSelect_window hFits]
  unfold stagedOf
  cases hSpec : useSpecDecode rows with
  | true =>
      simp only [if_true, calcSpecDecodeMetadata_window hFits, ok_bind]
      rfl
  | false =>
      simp only [Bool.false_eq_true, if_false, logitsIndices_undrafted hFits hSpec]
      rfl

end Window

/-! ### What the window holds -/

/-- The request and the position staged in a slot. -/
def Staged.slotAt (staged : Staged) (slot : Int) : Option (Int × Int) :=
  if slot < 0 then none else (staged.reqIndices.zip staged.positions)[slot.toNat]?

/-- The same of a row of the logits. -/
def Staged.sampledAt (staged : Staged) (index : Int) : Option (Int × Int) :=
  if index < 0 then none else ((staged.logitsIndices.map staged.slotAt)[index.toNat]?).join

/-- The slots that the sampler's indices select, of the request `req`. -/
structure SpecDecodeMetadata.Aligned (metadata : SpecDecodeMetadata) (rows : List BatchRow)
    (staged : Staged) : Prop where
  logits : metadata.logitsIndices = staged.logitsIndices
  bonus : metadata.bonusLogitsIndices.map staged.sampledAt =
    rows.zipIdx.map fun (row, req) =>
      some ((req : Int), ((row.numComputedTokens + row.numScheduledTokens - 1 : Nat) : Int))
  target : metadata.targetLogitsIndices.map staged.sampledAt =
    rows.zipIdx.flatMap fun (row, req) => (List.range (row.numScheduledTokens - 1)).map fun j =>
      some ((req : Int), ((row.numComputedTokens + j : Nat) : Int))
  draftTokenIds : metadata.draftTokenIds =
    rows.flatMap fun row => row.scheduledSpecTokens.getD []

/-- The window of each request is contiguous and inside the model's length, its padding reads no
token behind the last scheduled one, and the sampled slots are the scheduled tokens'. -/
structure Staged.Aligned (runner : Runner) (rows : List BatchRow) (staged : Staged) : Prop where
  backPad : staged.backPad.length = rows.length ∧ ∀ pad ∈ staged.backPad, 0 ≤ pad
  reqIndices : staged.reqIndices =
    (List.range rows.length).flatMap fun req : Nat =>
      List.replicate (runner.numSpecTokens + 1) (req : Int)
  positions : ∃ firsts : List Nat, firsts.length = rows.length ∧
    (∀ first ∈ firsts, first + (runner.numSpecTokens + 1) ≤ runner.maxModelLen) ∧
    staged.positions = firsts.flatMap fun first =>
      (List.range (runner.numSpecTokens + 1)).map fun j => ((first + j : Nat) : Int)
  reads : staged.tokenIndices.length = rows.length * (runner.numSpecTokens + 1) ∧
    ∀ req row, rows[req]? = some row → ∀ j < runner.numSpecTokens + 1,
      ∃ position lookup : Nat,
        lookup = min position (row.numComputedTokens + row.numScheduledTokens - 1) ∧
        lookup < row.numComputedTokens + row.numScheduledTokens ∧
        staged.positions[req * (runner.numSpecTokens + 1) + j]? = some (position : Int) ∧
        staged.tokenIndices[req * (runner.numSpecTokens + 1) + j]? =
          some ((req * runner.maxModelLen + lookup : Nat) : Int) ∧
        staged.inputIds[req * (runner.numSpecTokens + 1) + j]? = row.tokenIds[lookup]?
  logits : staged.logitsIndices.map staged.slotAt =
    rows.zipIdx.flatMap fun (row, req) => (List.range row.numScheduledTokens).map fun j =>
      some ((req : Int), ((row.numComputedTokens + j : Nat) : Int))
  drafted : staged.specDecodeMetadata.isSome = useSpecDecode rows
  metadata : ∀ metadata, staged.specDecodeMetadata = some metadata → metadata.Aligned rows staged

section Aligned

variable {runner : Runner} {rows : List BatchRow}

theorem slotAt_cast (staged : Staged) (slot : Nat) :
    staged.slotAt slot = (staged.reqIndices.zip staged.positions)[slot]? := by
  have hPos : ¬ (slot : Int) < 0 := by omega
  rw [Staged.slotAt, if_neg hPos, Int.toNat_natCast]

theorem sampledAt_cast (staged : Staged) (index : Nat) :
    staged.sampledAt index = ((staged.logitsIndices.map staged.slotAt)[index]?).join := by
  have hPos : ¬ (index : Int) < 0 := by omega
  rw [Staged.sampledAt, if_neg hPos, Int.toNat_natCast]

/-- The requests and positions of the slots, window after window. -/
theorem slots_stagedOf :
    (stagedOf runner rows).reqIndices.zip (stagedOf runner rows).positions =
      rows.zipIdx.flatMap fun entry =>
        (entry.1.positions runner).map fun position : Nat => ((entry.2 : Int), (position : Int)) := by
  show List.zip ((reqSlots runner rows).map Nat.cast)
    ((rows.flatMap (·.positions runner)).map Nat.cast) = _
  rw [reqSlots, flatMap_eq_zipIdx (fun row => row.positions runner) rows, List.map_flatMap,
    List.map_flatMap, List.zip, zipWith_flatMap _ (by simp [BatchRow.length_positions])]
  apply List.flatMap_congr
  rintro ⟨row, req⟩ _
  rw [List.map_replicate, zipWith_replicate_left _ _
    (by rw [List.length_map, BatchRow.length_positions]), List.map_map]
  rfl

theorem logits_stagedOf (hFits : ∀ row ∈ rows, row.Fits runner) :
    (stagedOf runner rows).logitsIndices.map (stagedOf runner rows).slotAt =
      rows.zipIdx.flatMap fun entry => (List.range entry.1.numScheduledTokens).map fun j =>
        some ((entry.2 : Int), ((entry.1.numComputedTokens + j : Nat) : Int)) := by
  have hSlots : sampledSlots runner rows = slotsFrom (fun _ => runner.numSpecTokens + 1)
      (fun entry => entry.1.front runner) (fun entry => entry.1.numScheduledTokens) 0
      rows.zipIdx := by
    rw [sampledSlots]
    conv_lhs => rw [← List.zipIdx_map_fst 0 rows, slotsFrom_map]
  have hRead := getElem?_slotsFrom (fun _ => runner.numSpecTokens + 1)
    (fun entry => entry.1.front runner) (fun entry => entry.1.numScheduledTokens)
    (fun entry =>
      (entry.1.positions runner).map fun position : Nat => ((entry.2 : Int), (position : Int)))
    rows.zipIdx [] []
    (fun entry _ => by rw [List.length_map, BatchRow.length_positions])
    (fun entry hMem => by
      have hParts := (hFits entry.1 (List.fst_mem_of_mem_zipIdx hMem)).parts
      omega)
  rw [List.nil_append, List.append_nil, ← slots_stagedOf] at hRead
  show List.map _ ((sampledSlots runner rows).map Nat.cast) = _
  rw [List.map_map, hSlots]
  have hCast : ((stagedOf runner rows).slotAt ∘ Nat.cast) = fun slot : Nat =>
      ((stagedOf runner rows).reqIndices.zip (stagedOf runner rows).positions)[slot]? := by
    funext slot
    exact slotAt_cast _ slot
  rw [hCast]
  apply hRead.trans
  apply List.flatMap_congr
  rintro ⟨row, req⟩ hMem
  have hRow := hFits row (List.fst_mem_of_mem_zipIdx hMem)
  rw [← List.map_drop, ← List.map_take, positions_sampled hRow, List.map_map, List.map_map]
  rfl

/-- Rows of the logits that a request owns, read through a choice of them. -/
theorem sampled_stagedOf (hFits : ∀ row ∈ rows, row.Fits runner) {start count : BatchRow → Nat}
    (hInside : ∀ row ∈ rows, start row + count row ≤ row.numScheduledTokens) :
    ((slotsFrom (·.numScheduledTokens) start count 0 rows).map (Nat.cast : Nat → Int)).map
        (stagedOf runner rows).sampledAt =
      rows.zipIdx.flatMap fun entry => (List.range (count entry.1)).map fun j =>
        some ((entry.2 : Int), ((entry.1.numComputedTokens + (start entry.1 + j) : Nat) : Int)) := by
  have hSlots : slotsFrom (·.numScheduledTokens) start count 0 rows =
      slotsFrom (fun entry => entry.1.numScheduledTokens) (fun entry => start entry.1)
        (fun entry => count entry.1) 0 rows.zipIdx := by
    conv_lhs => rw [← List.zipIdx_map_fst 0 rows, slotsFrom_map]
  have hRead := getElem?_slotsFrom (fun entry => entry.1.numScheduledTokens)
    (fun entry => start entry.1) (fun entry => count entry.1)
    (fun entry => (List.range entry.1.numScheduledTokens).map fun j =>
      some ((entry.2 : Int), ((entry.1.numComputedTokens + j : Nat) : Int))) rows.zipIdx [] []
    (fun entry _ => by rw [List.length_map, List.length_range])
    (fun entry hMem => hInside entry.1 (List.fst_mem_of_mem_zipIdx hMem))
  rw [List.nil_append, List.append_nil, ← logits_stagedOf hFits] at hRead
  have hCast : ((stagedOf runner rows).sampledAt ∘ Nat.cast) = fun index : Nat =>
      (((stagedOf runner rows).logitsIndices.map (stagedOf runner rows).slotAt)[index]?).join := by
    funext index
    exact sampledAt_cast _ index
  have hJoin := congrArg (List.map Option.join) hRead
  rw [List.map_map] at hJoin
  rw [List.map_map, hSlots, hCast]
  apply hJoin.trans
  rw [List.map_flatMap]
  apply List.flatMap_congr
  rintro ⟨row, req⟩ hMem
  rw [take_drop_map_range _ (hInside row (List.fst_mem_of_mem_zipIdx hMem)), List.map_map,
    List.map_map]
  rfl

theorem metadata_stagedOf (hFits : ∀ row ∈ rows, row.Fits runner) :
    (metadataOf runner rows).Aligned rows (stagedOf runner rows) where
  logits := rfl
  bonus := by
    show List.map _ ((slotsFrom (·.numScheduledTokens) (·.numDraftTokens) (fun _ => 1) 0 rows).map
      Nat.cast) = _
    rw [sampled_stagedOf hFits fun row hMem => Nat.le_of_eq (hFits row hMem).drafts_add_one,
      List.map_eq_flatMap]
    apply List.flatMap_congr
    rintro ⟨row, req⟩ hMem
    have hDrafts := (hFits row (List.fst_mem_of_mem_zipIdx hMem)).drafts_add_one
    have hLast : row.numComputedTokens + (row.numDraftTokens + 0) =
        row.numComputedTokens + row.numScheduledTokens - 1 := by omega
    show [some ((req : Int), ((row.numComputedTokens + (row.numDraftTokens + 0) : Nat) : Int))] = _
    rw [hLast]
  target := by
    show List.map _ ((slotsFrom (·.numScheduledTokens) (fun _ => 0) (·.numDraftTokens) 0 rows).map
      Nat.cast) = _
    rw [sampled_stagedOf hFits fun row hMem => by
      have := (hFits row hMem).drafts_add_one
      omega]
    apply List.flatMap_congr
    rintro ⟨row, req⟩ hMem
    have hDrafts := (hFits row (List.fst_mem_of_mem_zipIdx hMem)).drafts
    show (List.range row.numDraftTokens).map _ = _
    rw [hDrafts]
    simp only [Nat.zero_add]
  draftTokenIds := rfl

/-- A slot of a request's window in an array of windows. -/
theorem window_getElem? {α : Type} {block : BatchRow × Nat → List α}
    (hLength : ∀ entry ∈ rows.zipIdx, (block entry).length = runner.numSpecTokens + 1) {req : Nat}
    {row : BatchRow} (hRow : rows[req]? = some row) {j : Nat} (hSlot : j < runner.numSpecTokens + 1) :
    (rows.zipIdx.flatMap block)[req * (runner.numSpecTokens + 1) + j]? = (block (row, req))[j]? := by
  have hWidth : ∀ slot ∈ rows.zipIdx.map block, slot.length = runner.numSpecTokens + 1 := by
    intro slot hMem
    obtain ⟨entry, hEntry, rfl⟩ := List.mem_map.1 hMem
    exact hLength entry hEntry
  have hBlock : (rows.zipIdx.map block)[req]? = some (block (row, req)) := by
    rw [List.getElem?_map, List.getElem?_zipIdx, hRow]
    simp only [Option.map_some, Nat.zero_add]
  rw [List.flatMap_def, Rows.flatten_getElem? hWidth hBlock hSlot]

theorem position_stagedOf {req : Nat} {row : BatchRow} (hRow : rows[req]? = some row) {j : Nat}
    (hSlot : j < runner.numSpecTokens + 1) :
    (stagedOf runner rows).positions[req * (runner.numSpecTokens + 1) + j]? =
      some ((row.first runner + j : Nat) : Int) := by
  show ((rows.flatMap (·.positions runner)).map Nat.cast)[_]? = _
  rw [List.getElem?_map, flatMap_eq_zipIdx (fun row => row.positions runner) rows,
    window_getElem? (fun entry _ => entry.1.length_positions runner) hRow hSlot, BatchRow.positions,
    List.getElem?_map, List.getElem?_range hSlot]
  rfl

theorem inputId_stagedOf (hFits : ∀ row ∈ rows, row.Fits runner) {req : Nat} {row : BatchRow}
    (hRow : rows[req]? = some row) {j : Nat} (hSlot : j < runner.numSpecTokens + 1) :
    (stagedOf runner rows).inputIds[req * (runner.numSpecTokens + 1) + j]? =
      row.tokenIds[min (row.first runner + j)
        (row.numComputedTokens + row.numScheduledTokens - 1)]? := by
  have hRowFits := hFits row (List.mem_of_getElem? hRow)
  have hScheduled := hRowFits.scheduled
  have hInside := hRowFits.inside
  have hWidth := hRowFits.width
  have hToken : min (row.first runner + j) (row.numComputedTokens + row.numScheduledTokens - 1) <
      row.tokenIds.length := by omega
  have hStaged : (rows.flatMap (·.tokens runner))[req * (runner.numSpecTokens + 1) + j]? =
      row.tokenIds[min (row.first runner + j)
        (row.numComputedTokens + row.numScheduledTokens - 1)]? := by
    rw [flatMap_eq_zipIdx (fun row => row.tokens runner) rows,
      window_getElem? (fun entry _ => entry.1.length_tokens runner) hRow hSlot, BatchRow.tokens,
      BatchRow.lookups, BatchRow.positions, List.map_map, List.map_map, List.getElem?_map,
      List.getElem?_range hSlot, List.getElem?_eq_getElem hToken]
    exact congrArg some (List.getD_eq_getElem _ _ hToken)
  rw [List.getElem?_eq_getElem hToken] at hStaged ⊢
  show (rows.flatMap (·.tokens runner) ++ _)[req * (runner.numSpecTokens + 1) + j]? = _
  rw [List.getElem?_append_left (List.getElem?_eq_some_iff.1 hStaged).1, hStaged]

theorem tokenIndex_stagedOf {req : Nat} {row : BatchRow} (hRow : rows[req]? = some row) {j : Nat}
    (hSlot : j < runner.numSpecTokens + 1) :
    (stagedOf runner rows).tokenIndices[req * (runner.numSpecTokens + 1) + j]? =
      some ((req * runner.maxModelLen + min (row.first runner + j)
        (row.numComputedTokens + row.numScheduledTokens - 1) : Nat) : Int) := by
  show ((tokenSlots runner rows).map Nat.cast)[_]? = _
  rw [List.getElem?_map, tokenSlots, window_getElem?
    (fun entry _ => by rw [List.length_map, BatchRow.length_lookups]) hRow hSlot,
    BatchRow.lookups, BatchRow.positions, List.map_map, List.map_map, List.getElem?_map,
    List.getElem?_range hSlot]
  rfl

theorem aligned_stagedOf (hFits : ∀ row ∈ rows, row.Fits runner) :
    (stagedOf runner rows).Aligned runner rows where
  backPad := by
    constructor
    · exact List.length_map ..
    · intro pad hMem
      obtain ⟨row, -, rfl⟩ := List.mem_map.1 hMem
      exact Int.natCast_nonneg _
  reqIndices := by
    show (reqSlots runner rows).map Nat.cast = _
    have hRange : List.range rows.length = rows.zipIdx.map Prod.snd := by
      rw [List.zipIdx_map_snd, List.range_eq_range']
    rw [reqSlots, List.map_flatMap, hRange, List.flatMap_map]
    apply List.flatMap_congr
    intro entry _
    exact List.map_replicate ..
  positions := by
    refine ⟨rows.map (·.first runner), List.length_map .., ?_, ?_⟩
    · intro first hMem
      obtain ⟨row, hRow, rfl⟩ := List.mem_map.1 hMem
      exact (hFits row hRow).first_add_window
    · show (rows.flatMap (·.positions runner)).map Nat.cast = _
      rw [List.map_flatMap, List.flatMap_map]
      apply List.flatMap_congr
      intro row _
      rw [BatchRow.positions, List.map_map]
      rfl
  reads := by
    constructor
    · show ((tokenSlots runner rows).map _).length = _
      rw [List.length_map, tokenSlots, length_flatMap_of_count
        (fun _ => runner.numSpecTokens + 1)
        (fun entry _ => by rw [List.length_map, BatchRow.length_lookups]), List.map_const',
        List.sum_replicate_nat, List.length_zipIdx]
    · intro req row hRow j hSlot
      have hScheduled := (hFits row (List.mem_of_getElem? hRow)).scheduled
      exact ⟨row.first runner + j, _, rfl, by omega, position_stagedOf hRow hSlot,
        tokenIndex_stagedOf hRow hSlot, inputId_stagedOf hFits hRow hSlot⟩
  logits := logits_stagedOf hFits
  drafted := by
    show Option.isSome (if useSpecDecode rows then some (metadataOf runner rows) else none) = _
    cases useSpecDecode rows <;> rfl
  metadata := by
    intro metadata hSome
    change (if useSpecDecode rows then some (metadataOf runner rows) else none) = _ at hSome
    split at hSome
    · cases hSome
      exact metadata_stagedOf hFits
    · cases hSome

/-- Every decode batch of fixed windows is staged, and staged in line. -/
theorem prepareInputs_aligned (runner : Runner) (rows : List BatchRow)
    (hFixed : runner.windowFixed rows = true) (hRows : rows ≠ [])
    (hFits : ∀ row ∈ rows, row.Fits runner) :
    ∃ staged, runner.prepareInputs rows = .ok staged ∧ staged.Aligned runner rows :=
  ⟨stagedOf runner rows, prepareInputs_window hFixed hRows hFits, aligned_stagedOf hFits⟩

/-- A length limit of ten, and windows of four. -/
def tenRunner : Runner where
  numSpecTokens := 3
  maxModelLen := 10
  usesFixedDecodeWindow := false
  isPrefill := false
  inputIds := []

/-- A request far from the limit, and one whose window moves onto computed positions. -/
def mixedBatch : List BatchRow :=
  [⟨2, 1, 3, [0, 1, 2, 3, 4, 5, 6, 7, 8, 9], none⟩,
    ⟨7, 3, 8, [0, 1, 2, 3, 4, 5, 6, 7, 18, 19], some [18, 19]⟩]

theorem mixedBatch_fits : ∀ row ∈ mixedBatch, row.Fits tenRunner := by
  intro row hMem
  simp only [mixedBatch, List.mem_cons, List.not_mem_nil, or_false] at hMem
  rcases hMem with rfl | rfl
  · exact ⟨by decide, by decide, by decide, by decide, rfl, rfl, by decide⟩
  · exact ⟨by decide, by decide, by decide, by decide, rfl, rfl, by decide⟩

theorem prepareInputs_aligned_mixed :
    ∃ staged, tenRunner.prepareInputs mixedBatch = .ok staged ∧
      staged.Aligned tenRunner mixedBatch :=
  prepareInputs_aligned tenRunner mixedBatch rfl (by decide) mixedBatch_fits

end Aligned

end VllmRbln.DecodeWindow
