import VllmRbln.ModelRunner.Unpadded

/-! The attention metadata of a step (`RBLNFlashAttentionMetadataBuilder.build`,
`v1/attention/backends/flash_attention.py`), built from the arrays that `_prepare_inputs` stages.
A mask is a row of key slots for each query row; what the kernel reads as `1` admits the slot. -/
namespace VllmRbln.Attention

open Checked DecodeWindow Ragged Rows

abbrev Mask := List (List Bool)

inductive BuildError
  | index
  | shape
  deriving DecidableEq

/-- `CommonAttentionMetadata`, of one KV cache group. -/
structure CommonMetadata where
  numReqs : Nat
  queryStartLoc : List Nat
  seqLens : List Nat
  blockTableTensor : List (List Nat)

inductive BlockTables
  | prefill (row : List Nat)
  | decode (rows : List (List Nat))
  deriving DecidableEq

/-- `RBLNFlashAttentionMetadata`. The copies into the device's buffers keep the values. -/
structure FlashMetadata where
  seqLens : List Int
  blockTables : BlockTables
  isPrefill : Bool
  attnMasks : Option Mask
  swaAppends : Bool
  cacheSeqLens : Option (List Int)
  cacheOffsets : Option (List Int)
  localBlockTables : Option BlockTables
  swaAttnMasks : Option Mask
  deriving DecidableEq

/-- The builder of one group. `slidingWindow` is that of an `RBLNSlidingWindowSpec`. -/
structure MetadataBuilder where
  maxModelLen : Nat
  chunkedPrefillSize : Nat
  isCausal : Bool
  swaAppends : Bool
  slidingWindow : Option Nat

/-- `row[:stop] = 1`. -/
def fillTo (stop : Nat) (row : List Bool) : List Bool :=
  row.zipIdx.map fun entry => if entry.2 < stop then true else entry.1

/-- `row[start : start + len(values)] = values`. -/
def setFrom (start : Nat) (values row : List Bool) : List Bool :=
  row.zipIdx.map fun entry =>
    if start ≤ entry.2 then values.getD (entry.2 - start) entry.1 else entry.1

def zeros (rows columns : Nat) : Mask := List.replicate rows (List.replicate columns false)

/-- `1 - torch.triu(torch.ones(size, size), diagonal=1)`. -/
def causalMask (size : Nat) : Mask :=
  (List.range size).map fun row => (List.range size).map fun column => !decide (row + 1 ≤ column)

/-- The loop over `seq_lens` that fills the rows of a decode mask. -/
def fillSteps : Nat → List Nat → Mask → Except BuildError Mask
  | _, [], mask => .ok mask
  | batchIndex, batchStep :: steps, mask =>
      if batchIndex < mask.length then
        fillSteps (batchIndex + 1) steps (mask.modify batchIndex (fillTo (batchStep + 1)))
      else .error .index

/-- `positions[query_start_loc[:num_reqs]]`. -/
def CommonMetadata.seqIdx (common : CommonMetadata) (positions : List Int) :
    Except BuildError (List Int) :=
  (common.queryStartLoc.take common.numReqs).mapM fun slot =>
    match positions[slot]? with
    | none => .error .index
    | some position => .ok position

/-- Only the first entry of every block table row. -/
def BlockTables.local : BlockTables → BlockTables
  | .prefill row => .prefill (row.take 1)
  | .decode rows => .decode (rows.map (·.take 1))

namespace MetadataBuilder

variable (builder : MetadataBuilder)

/-- The mask of a prefill chunk that starts at position `step`. -/
def prefillMask (step : Nat) : Except BuildError Mask :=
  let size := builder.chunkedPrefillSize
  let chunkedAttentionMask := zeros size builder.maxModelLen
  let chunkedAttentionMask :=
    if size ≤ step then chunkedAttentionMask.map (fillTo step) else chunkedAttentionMask
  -- the columns of the triangle must all exist; a single one is broadcast
  if min size (builder.maxModelLen - step) = size ∨ size = 1 then
    .ok (List.zipWith (setFrom step) (causalMask size) chunkedAttentionMask)
  else .error .shape

def decodeMask (batchPad : Nat) (seqLens : List Nat) : Except BuildError Mask :=
  fillSteps 0 seqLens (zeros batchPad builder.maxModelLen)

/-- The mask of a step whose requests start at the positions `seqIdx`. -/
def attnMask (isPrefill : Bool) (batchPad : Nat) (seqLens : List Nat) (seqIdx : List Int) :
    Except BuildError Mask :=
  if isPrefill then
    match seqIdx with
    | [] => .error .index
    | step :: _ => builder.prefillMask step.toNat
  else builder.decodeMask batchPad seqLens

/-- `build`. -/
def build (common : CommonMetadata) (positions : List Int) (batchPad : Nat) (isPrefill : Bool)
    (skipAttnMasks : Bool) (backPad : Option (List Int)) : Except BuildError FlashMetadata := do
  let querySeqLens := List.zipWith (fun stop start : Nat => (stop : Int) - start)
    (common.queryStartLoc.drop 1) common.queryStartLoc.dropLast
  let numComputedTokens := List.zipWith (fun (length : Nat) (query : Int) => (length : Int) - query)
    common.seqLens querySeqLens
  let seqIdx ← common.seqIdx positions
  let width := (common.blockTableTensor.headD []).length
  let blockTables ←
    if isPrefill then
      match common.blockTableTensor with
      | [] => .error .index
      | row :: _ => .ok (.prefill row)
    else .ok (.decode (padTo (List.replicate width 0) batchPad common.blockTableTensor))
  let attnMasks ←
    if builder.isCausal || skipAttnMasks then .ok none
    else (builder.attnMask isPrefill batchPad common.seqLens seqIdx).map some
  let metadata : FlashMetadata :=
    { seqLens := if isPrefill then seqIdx else padTo 0 batchPad seqIdx, blockTables, isPrefill,
      attnMasks, swaAppends := builder.swaAppends, cacheSeqLens := none, cacheOffsets := none,
      localBlockTables := none, swaAttnMasks := none }
  match builder.slidingWindow with
  | none => return metadata
  | some slidingWindow =>
      let numComputed := numComputedTokens.take common.numReqs
      let numComputed := match backPad with
        | none => numComputed
        | some pads => List.zipWith (· + ·) numComputed (pads.take common.numReqs)
      let queryLens := List.zipWith (fun (length : Nat) (computed : Int) => (length : Int) - computed)
        (common.seqLens.take common.numReqs) numComputed
      let cacheSeqLens := numComputed.map (min · (slidingWindow : Int))
      let cacheOffsets := List.zipWith (· + ·) cacheSeqLens queryLens
      if isPrefill then
        return { metadata with
          cacheSeqLens := some cacheSeqLens, cacheOffsets := some cacheOffsets,
          localBlockTables := some blockTables.local }
      else
        let cacheSeqLens := padTo 0 batchPad cacheSeqLens
        return { metadata with
          cacheSeqLens := some cacheSeqLens, cacheOffsets := some (padTo 0 batchPad cacheOffsets),
          localBlockTables := some blockTables.local,
          swaAttnMasks := some (cacheSeqLens.map fun cached =>
            (List.range slidingWindow).map fun slot : Nat => !decide (0 < (slot : Int) - cached)) }

end MetadataBuilder

/-- Whether a query row of the mask sees a key slot. -/
def admits (mask : Mask) (row slot : Nat) : Bool := (mask.getD row []).getD slot false

/-! ### The masks, entry by entry -/

theorem fillTo_getElem? (stop slot : Nat) (row : List Bool) :
    (fillTo stop row)[slot]? = row[slot]?.map fun entry => if slot < stop then true else entry := by
  rw [fillTo, List.getElem?_map, List.getElem?_zipIdx, Option.map_map, Nat.zero_add]
  rfl

theorem setFrom_getElem? (start slot : Nat) (values row : List Bool) :
    (setFrom start values row)[slot]? =
      row[slot]?.map fun entry =>
        if start ≤ slot then values.getD (slot - start) entry else entry := by
  rw [setFrom, List.getElem?_map, List.getElem?_zipIdx, Option.map_map, Nat.zero_add]
  rfl

theorem blank_getElem? {columns slot : Nat} (hSlot : slot < columns) :
    (List.replicate columns false)[slot]? = some false := by
  rw [List.getElem?_replicate, if_pos hSlot]

theorem modify_append (f : List Bool → List Bool) (before after : Mask) (row : List Bool) :
    (before ++ row :: after).modify before.length f = before ++ f row :: after := by
  induction before with
  | nil => rfl
  | cons head before ih =>
      rw [List.cons_append, List.length_cons, List.modify_succ_cons, ih, List.cons_append]

theorem fillSteps_append (blank : List Bool) (steps : List Nat) (before after : Mask) :
    fillSteps before.length steps (before ++ steps.map (fun _ => blank) ++ after) =
      .ok (before ++ steps.map (fun step => fillTo (step + 1) blank) ++ after) := by
  induction steps generalizing before with
  | nil => rfl
  | cons step steps ih =>
      have hInside : before.length <
          (before ++ (blank :: steps.map fun _ => blank) ++ after).length := by
        simp only [List.length_append, List.length_cons]
        omega
      have hNext := ih (before ++ [fillTo (step + 1) blank])
      rw [List.length_append, List.length_singleton] at hNext
      simp only [List.append_assoc, List.cons_append, List.nil_append] at hNext
      rw [List.map_cons, fillSteps, if_pos hInside, List.append_assoc, List.cons_append,
        modify_append, hNext, List.map_cons, List.append_assoc, List.cons_append]

namespace MetadataBuilder

variable (builder : MetadataBuilder)

/-- The rows that the loop leaves: one for each request, and blank ones. -/
def decodeRows (batchPad : Nat) (seqLens : List Nat) : Mask :=
  seqLens.map (fun length => fillTo (length + 1) (List.replicate builder.maxModelLen false)) ++
    zeros (batchPad - seqLens.length) builder.maxModelLen

theorem decodeMask_eq {batchPad : Nat} {seqLens : List Nat} (hFit : seqLens.length ≤ batchPad) :
    builder.decodeMask batchPad seqLens = .ok (builder.decodeRows batchPad seqLens) := by
  have hRows : zeros batchPad builder.maxModelLen =
      [] ++ seqLens.map (fun _ => List.replicate builder.maxModelLen false) ++
        zeros (batchPad - seqLens.length) builder.maxModelLen := by
    rw [List.nil_append, List.map_const', zeros, zeros, List.replicate_append_replicate]
    congr 1
    omega
  rw [decodeMask, hRows]
  exact fillSteps_append _ seqLens [] _

/-- The row of a request sees one slot more than its length. -/
theorem decodeRows_admits {seqLens : List Nat} {batchPad row length : Nat}
    (hLength : seqLens[row]? = some length) {slot : Nat} (hSlot : slot < builder.maxModelLen) :
    admits (builder.decodeRows batchPad seqLens) row slot = decide (slot ≤ length) := by
  have hRow : row < seqLens.length := (List.getElem?_eq_some_iff.1 hLength).1
  simp only [admits, decodeRows, List.getD_eq_getElem?_getD]
  rw [List.getElem?_append_left (by rwa [List.length_map]), List.getElem?_map, hLength,
    Option.map_some, Option.getD_some, fillTo_getElem?, blank_getElem? hSlot, Option.map_some,
    Option.getD_some]
  by_cases hLe : slot ≤ length
  · rw [if_pos (Nat.lt_succ_of_le hLe), decide_eq_true hLe]
  · rw [if_neg (by omega), decide_eq_false hLe]

theorem decodeRows_padded {seqLens : List Nat} {batchPad row : Nat} (hRow : seqLens.length ≤ row)
    (slot : Nat) : admits (builder.decodeRows batchPad seqLens) row slot = false := by
  simp only [admits, decodeRows, List.getD_eq_getElem?_getD]
  rw [List.getElem?_append_right (by rwa [List.length_map]), zeros, List.getElem?_replicate]
  split
  · rw [Option.getD_some, List.getElem?_replicate]
    split <;> rfl
  · rfl

theorem prefillMask_eq {step : Nat} (hRoom : step + builder.chunkedPrefillSize ≤ builder.maxModelLen) :
    ∃ mask, builder.prefillMask step = .ok mask ∧
      ∀ row < builder.chunkedPrefillSize, ∀ slot < builder.maxModelLen,
        admits mask row slot =
          if step ≤ slot ∧ slot < step + builder.chunkedPrefillSize then decide (slot ≤ step + row)
          else decide (builder.chunkedPrefillSize ≤ step ∧ slot < step) := by
  have hColumns : min builder.chunkedPrefillSize (builder.maxModelLen - step) =
      builder.chunkedPrefillSize := by omega
  refine ⟨_, if_pos (Or.inl hColumns), ?_⟩
  intro row hRow slot hSlot
  have hCausal : (causalMask builder.chunkedPrefillSize)[row]? =
      some ((List.range builder.chunkedPrefillSize).map fun column =>
        !decide (row + 1 ≤ column)) := by
    rw [causalMask, List.getElem?_map, List.getElem?_range hRow, Option.map_some]
  have hCached : (if builder.chunkedPrefillSize ≤ step then
        (zeros builder.chunkedPrefillSize builder.maxModelLen).map (fillTo step)
      else zeros builder.chunkedPrefillSize builder.maxModelLen)[row]? =
      some (if builder.chunkedPrefillSize ≤ step then
          fillTo step (List.replicate builder.maxModelLen false)
        else List.replicate builder.maxModelLen false) := by
    split
    · rw [List.getElem?_map, zeros, List.getElem?_replicate, if_pos hRow, Option.map_some]
    · rw [zeros, List.getElem?_replicate, if_pos hRow]
  have hEntry : (if builder.chunkedPrefillSize ≤ step then
          fillTo step (List.replicate builder.maxModelLen false)
        else List.replicate builder.maxModelLen false)[slot]? =
      some (decide (builder.chunkedPrefillSize ≤ step ∧ slot < step)) := by
    split
    · rw [fillTo_getElem?, blank_getElem? hSlot, Option.map_some]
      by_cases hBelow : slot < step <;> simp_all
    · rw [blank_getElem? hSlot]
      simp_all
  simp only [admits, List.getD_eq_getElem?_getD, List.getElem?_zipWith, hCausal, hCached,
    Option.getD_some, setFrom_getElem?, hEntry, Option.map_some]
  by_cases hBehind : step ≤ slot
  · by_cases hInside : slot < step + builder.chunkedPrefillSize
    · have hColumn : slot - step < builder.chunkedPrefillSize := by omega
      rw [if_pos hBehind, if_pos ⟨hBehind, hInside⟩, List.getElem?_map,
        List.getElem?_range hColumn, Option.map_some, Option.getD_some, ← decide_not]
      apply decide_eq_decide.2
      omega
    · have hColumn : ((List.range builder.chunkedPrefillSize).map fun column =>
          !decide (row + 1 ≤ column)).length ≤ slot - step := by
        rw [List.length_map, List.length_range]
        omega
      rw [if_pos hBehind, if_neg fun h => hInside h.2, List.getElem?_eq_none hColumn,
        Option.getD_none]
  · rw [if_neg hBehind, if_neg fun h => hBehind h.1]

end MetadataBuilder

/-! ### The masks of a step -/

theorem CommonMetadata.seqIdx_ok (common : CommonMetadata) (positions : List Int)
    (hInside : ∀ slot ∈ common.queryStartLoc.take common.numReqs, slot < positions.length) :
    common.seqIdx positions =
      .ok ((common.queryStartLoc.take common.numReqs).map fun slot => positions.getD slot 0) := by
  apply mapM_eq_map
  intro slot hMem
  have hSlot := hInside slot hMem
  rw [List.getElem?_eq_getElem hSlot, List.getD_eq_getElem _ _ hSlot]

/-- A builder that masks returns the mask of the step. -/
theorem MetadataBuilder.build_attnMasks {builder : MetadataBuilder} {common : CommonMetadata}
    {positions : List Int} {batchPad : Nat} {isPrefill : Bool} (backPad : Option (List Int))
    {seqIdx : List Int} {mask : Mask} (hMasked : builder.isCausal = false)
    (hTable : common.blockTableTensor ≠ []) (hSeq : common.seqIdx positions = .ok seqIdx)
    (hMask : builder.attnMask isPrefill batchPad common.seqLens seqIdx = .ok mask) :
    ∃ metadata, builder.build common positions batchPad isPrefill false backPad = .ok metadata ∧
      metadata.attnMasks = some mask := by
  obtain ⟨first, rest, hRows⟩ := List.exists_cons_of_ne_nil hTable
  cases hWindow : builder.slidingWindow with
  | none =>
      cases isPrefill with
      | true => exact ⟨_, by simp only [build, hSeq, ok_bind, hRows, hMasked, hMask, hWindow,
          if_true, Bool.or_false, Bool.false_eq_true, if_false, Except.map]; rfl, rfl⟩
      | false => exact ⟨_, by simp only [build, hSeq, ok_bind, hRows, hMasked, hMask, hWindow,
          Bool.or_false, Bool.false_eq_true, if_false, Except.map]; rfl, rfl⟩
  | some slidingWindow =>
      cases isPrefill with
      | true => exact ⟨_, by simp only [build, hSeq, ok_bind, hRows, hMasked, hMask, hWindow,
          if_true, Bool.or_false, Bool.false_eq_true, if_false, Except.map]; rfl, rfl⟩
      | false => exact ⟨_, by simp only [build, hSeq, ok_bind, hRows, hMasked, hMask, hWindow,
          Bool.or_false, Bool.false_eq_true, if_false, Except.map]; rfl, rfl⟩

/-- The metadata of a staged step, as `_build_attention_metadata` makes it. -/
def commonMetadata (staged : Staged) (numReqs : Nat) (blockTable : List (List Nat)) :
    CommonMetadata where
  numReqs := numReqs
  queryStartLoc := staged.queryStartLoc.take (numReqs + 1)
  seqLens := staged.seqLens.take numReqs
  blockTableTensor := blockTable

/-- The steps in which a query row of the mask is a slot of the batch: one prefill chunk, or a
decode batch of single tokens. -/
inductive SingleRows (builder : MetadataBuilder) (runner : Runner) : List BatchRow → Prop
  | chunk {row : BatchRow} (hPhase : runner.isPrefill = true) (hRow : row.Scheduled runner)
      (hSize : row.numScheduledTokens ≤ builder.chunkedPrefillSize)
      (hRoom : row.numComputedTokens + builder.chunkedPrefillSize ≤ builder.maxModelLen)
      (hUndrafted : row.scheduledSpecTokens = none) : SingleRows builder runner [row]
  | decode {rows : List BatchRow} (hPhase : runner.isPrefill = false) (hSome : rows ≠ [])
      (hRows : ∀ row ∈ rows, row.Scheduled runner)
      (hSingle : ∀ row ∈ rows, row.numScheduledTokens = 1 ∧ row.numDraftTokens = 0)
      (hWindow : runner.windowFixed rows = true → runner.numSpecTokens = 0) :
      SingleRows builder runner rows

theorem queryStartLoc_single (rows : List BatchRow) :
    0 :: cumsum (rows.map fun _ => 1) = List.range (rows.length + 1) := by
  have hTotals := cumsumFrom_const 0 1 rows
  have hRange : List.range rows.length = rows.zipIdx.map Prod.snd := by
    rw [List.zipIdx_map_snd, List.range_eq_range']
  rw [Nat.zero_mul] at hTotals
  rw [List.range_succ_eq_map, cumsum, hTotals, hRange, List.map_map]
  congr 1
  apply List.map_congr_left
  intro entry _
  exact Nat.mul_one _

/-- A single token is staged at the position behind the computed ones. -/
theorem prepareInputs_single {builder : MetadataBuilder} {runner : Runner} {rows : List BatchRow}
    (hStep : SingleRows builder runner rows) (hPhase : runner.isPrefill = false) :
    ∃ staged, runner.prepareInputs rows = .ok staged ∧
      staged.positions = rows.map (fun row => (row.numComputedTokens : Int)) ∧
      staged.queryStartLoc = List.range (rows.length + 1) ∧
      staged.seqLens = rows.map fun row => row.numComputedTokens + 1 := by
  cases hStep with
  | chunk hPrefill =>
      rw [hPhase] at hPrefill
      cases hPrefill
  | decode _ hSome hRows hSingle hWindow =>
      have hLens : (rows.map fun row => row.numComputedTokens + row.numScheduledTokens) =
          rows.map fun row => row.numComputedTokens + 1 := by
        apply List.map_congr_left
        intro row hMem
        rw [(hSingle row hMem).1]
      cases hFixed : runner.windowFixed rows with
      | true =>
          have hNone := hWindow hFixed
          have hFits : ∀ row ∈ rows, row.Fits runner := by
            intro row hMem
            obtain ⟨hOne, hDrafts⟩ := hSingle row hMem
            have hInside := (hRows row hMem).inside
            exact ⟨by omega, (hRows row hMem).scheduled, by omega, hInside, by omega,
              (hRows row hMem).width, fun j hj => by omega⟩
          refine ⟨_, prepareInputs_window hFixed hSome hFits, ?_, ?_, hLens⟩
          · show (rows.flatMap (·.positions runner)).map Nat.cast = _
            rw [List.map_flatMap, List.map_eq_flatMap]
            apply List.flatMap_congr
            intro row hMem
            have hFirst := (hFits row hMem).first_add_front
            have hInside := (hRows row hMem).inside
            have hOne := (hSingle row hMem).1
            have hAt : row.first runner = row.numComputedTokens := by
              unfold BatchRow.front at hFirst
              omega
            rw [BatchRow.positions, hNone, hAt]
            rfl
          · show 0 :: cumsum (rows.map fun _ => runner.numSpecTokens + 1) = _
            rw [hNone]
            exact queryStartLoc_single rows
      | false =>
          have hUndrafted : useSpecDecode rows = false := by
            rw [Runner.windowFixed, hPhase] at hFixed
            exact (Bool.or_eq_false_iff.1 hFixed).2
          have hCounts : rows.map (·.numScheduledTokens) = rows.map fun _ => 1 := by
            apply List.map_congr_left
            intro row hMem
            exact (hSingle row hMem).1
          refine ⟨_, prepareInputs_unpadded hFixed hUndrafted hSome hRows, ?_, ?_, hLens⟩
          · show (rows.flatMap (·.scheduledPositions)).map Nat.cast = _
            rw [List.map_flatMap, List.map_eq_flatMap]
            apply List.flatMap_congr
            intro row hMem
            rw [BatchRow.scheduledPositions, (hSingle row hMem).1]
            rfl
          · show 0 :: cumsum (rows.map (·.numScheduledTokens)) = _
            rw [hCounts]
            exact queryStartLoc_single rows

/-- A row sees the slots up to its position, and a row without a request sees none. -/
structure ExactMask (maxModelLen batchPad : Nat) (isPrefill : Bool) (positions : List Int)
    (mask : Mask) : Prop where
  real : ∀ row position, positions[row]? = some position → ∀ slot < maxModelLen,
    admits mask row slot = decide ((slot : Int) ≤ position)
  padded : isPrefill = false → ∀ row < batchPad, positions.length ≤ row → ∀ slot,
    admits mask row slot = false

/-- A chunk that starts at the front or behind a whole chunk, and requests at their last
position. -/
def MaskedRight (builder : MetadataBuilder) (runner : Runner) (rows : List BatchRow) : Prop :=
  ∀ row ∈ rows,
    if runner.isPrefill then
      row.numComputedTokens = 0 ∨ builder.chunkedPrefillSize ≤ row.numComputedTokens
    else row.numComputedTokens + 1 = builder.maxModelLen

section Step

variable {builder : MetadataBuilder} {runner : Runner} {rows : List BatchRow} {batchPad : Nat}

theorem exactMask_decode (hPhase : runner.isPrefill = false)
    (hInside : ∀ row ∈ rows, row.numComputedTokens + 1 ≤ builder.maxModelLen) :
    ExactMask builder.maxModelLen batchPad runner.isPrefill
        (rows.map fun row => (row.numComputedTokens : Int))
        (builder.decodeRows batchPad (rows.map fun row => row.numComputedTokens + 1)) ↔
      MaskedRight builder runner rows := by
  have hReal : ∀ row request, rows[row]? = some request → ∀ slot < builder.maxModelLen,
      admits (builder.decodeRows batchPad (rows.map fun row => row.numComputedTokens + 1)) row
        slot = decide (slot ≤ request.numComputedTokens + 1) := by
    intro row request hRow slot hSlot
    have hLength : (rows.map fun row => row.numComputedTokens + 1)[row]? =
        some (request.numComputedTokens + 1) := by
      rw [List.getElem?_map, hRow, Option.map_some]
    exact builder.decodeRows_admits hLength hSlot
  constructor
  · intro hExact request hMem
    obtain ⟨row, hRow⟩ := List.mem_iff_getElem?.1 hMem
    have hPosition : (rows.map fun row => (row.numComputedTokens : Int))[row]? =
        some (request.numComputedTokens : Int) := by
      rw [List.getElem?_map, hRow, Option.map_some]
    have hBound := hInside request hMem
    rw [hPhase, if_neg Bool.false_ne_true]
    -- the slot behind the position is admitted wherever it exists
    by_contra hLast
    have hSlot : request.numComputedTokens + 1 < builder.maxModelLen := by omega
    have hSeen := hReal row request hRow _ hSlot
    rw [hExact.real row _ hPosition _ hSlot] at hSeen
    have hLe := of_decide_eq_true (hSeen.trans (decide_eq_true (Nat.le_refl _)))
    omega
  · intro hLast
    refine ⟨?_, ?_⟩
    · intro row position hPosition slot hSlot
      obtain ⟨request, hRow, rfl⟩ := List.getElem?_map .. ▸ hPosition |> Option.map_eq_some_iff.1
      have hEnd := hLast request (List.mem_of_getElem? hRow)
      rw [hPhase, if_neg Bool.false_ne_true] at hEnd
      rw [hReal row request hRow slot hSlot]
      apply decide_eq_decide.2
      omega
    · intro _ row _ hRow slot
      apply builder.decodeRows_padded
      rwa [List.length_map] at hRow ⊢

theorem exactMask_chunk {row : BatchRow} {mask : Mask} (hPhase : runner.isPrefill = true)
    (hPos : 1 ≤ row.numScheduledTokens)
    (hSize : row.numScheduledTokens ≤ builder.chunkedPrefillSize)
    (hRoom : row.numComputedTokens + builder.chunkedPrefillSize ≤ builder.maxModelLen)
    (hMask : ∀ query < builder.chunkedPrefillSize, ∀ slot < builder.maxModelLen,
      admits mask query slot =
        if row.numComputedTokens ≤ slot ∧
            slot < row.numComputedTokens + builder.chunkedPrefillSize then
          decide (slot ≤ row.numComputedTokens + query)
        else decide (builder.chunkedPrefillSize ≤ row.numComputedTokens ∧
          slot < row.numComputedTokens)) :
    ExactMask builder.maxModelLen batchPad runner.isPrefill
        (row.scheduledPositions.map fun position : Nat => (position : Int)) mask ↔
      MaskedRight builder runner [row] := by
  have hPosition : ∀ query < row.numScheduledTokens,
      (row.scheduledPositions.map fun position : Nat => (position : Int))[query]? =
        some ((row.numComputedTokens + query : Nat) : Int) := by
    intro query hQuery
    rw [BatchRow.scheduledPositions, List.map_map, List.getElem?_map, List.getElem?_range hQuery]
    rfl
  constructor
  · intro hExact other hMem
    obtain rfl := List.mem_singleton.1 hMem
    rw [hPhase, if_pos rfl]
    -- with a start inside the first chunk, the first row does not see slot 0
    by_contra hStart
    have hSlot : 0 < builder.maxModelLen := by omega
    have hSeen := hExact.real 0 _ (hPosition 0 hPos) 0 hSlot
    have hMade := hMask 0 (by omega) 0 hSlot
    rw [if_neg (by omega), decide_eq_false (by omega)] at hMade
    rw [hMade] at hSeen
    have hNot := of_decide_eq_false hSeen.symm
    omega
  · intro hStart
    have hStart := hStart row List.mem_cons_self
    rw [hPhase, if_pos rfl] at hStart
    refine ⟨?_, ?_⟩
    · intro query position hQuery slot hSlot
      have hLt : query < row.numScheduledTokens := by
        have hBound := (List.getElem?_eq_some_iff.1 hQuery).1
        rwa [List.length_map, BatchRow.length_scheduledPositions] at hBound
      rw [hPosition query hLt] at hQuery
      obtain rfl := Option.some.inj hQuery
      rw [hMask query (by omega) slot hSlot]
      split
      · apply decide_eq_decide.2
        omega
      · apply decide_eq_decide.2
        omega
    · intro hDecode
      rw [hPhase] at hDecode
      cases hDecode


/-- The first positions of the requests, whatever stands behind the staged ones. -/
theorem seqIdx_single {staged : Staged} (blockTable : List (List Nat)) (stale : List Int)
    (hPositions : staged.positions = rows.map fun row => (row.numComputedTokens : Int))
    (hStarts : staged.queryStartLoc = List.range (rows.length + 1)) :
    ∃ seqIdx, (commonMetadata staged rows.length blockTable).seqIdx (staged.positions ++ stale) =
      .ok seqIdx := by
  refine ⟨_, CommonMetadata.seqIdx_ok _ _ ?_⟩
  intro slot hSlot
  change slot ∈ (staged.queryStartLoc.take (rows.length + 1)).take rows.length at hSlot
  rw [hStarts, List.take_take, List.take_range, List.mem_range] at hSlot
  rw [List.length_append, hPositions, List.length_map]
  omega

theorem seqIdx_chunk {row : BatchRow} (hPos : 1 ≤ row.numScheduledTokens)
    (blockTable : List (List Nat)) (stale : List Int) :
    (commonMetadata (unpaddedOf runner [row]) 1 blockTable).seqIdx
        ((unpaddedOf runner [row]).positions ++ stale) = .ok [(row.numComputedTokens : Int)] := by
  have hFirst : ((unpaddedOf runner [row]).positions ++ stale)[0]? =
      some (row.numComputedTokens : Int) := by
    show ((([row].flatMap (·.scheduledPositions)).map (Nat.cast : Nat → Int)) ++ stale)[0]? = _
    rw [List.flatMap_singleton, List.getElem?_append_left (by simpa using Nat.pos_of_ne_zero (by omega)),
      BatchRow.scheduledPositions, List.map_map, List.getElem?_map, List.getElem?_range hPos]
    rfl
  have hSlots : (commonMetadata (unpaddedOf runner [row]) 1 blockTable).queryStartLoc.take
      (commonMetadata (unpaddedOf runner [row]) 1 blockTable).numReqs = [0] := rfl
  rw [CommonMetadata.seqIdx_ok, hSlots, List.map_singleton, List.getD_eq_getElem?_getD, hFirst,
    Option.getD_some]
  intro slot hSlot
  rw [hSlots] at hSlot
  obtain rfl := List.mem_singleton.1 hSlot
  exact (List.getElem?_eq_some_iff.1 hFirst).1

theorem build_decode (hMasked : builder.isCausal = false)
    (hLimit : builder.maxModelLen = runner.maxModelLen) (hStep : SingleRows builder runner rows)
    (hPhase : runner.isPrefill = false) {blockTable : List (List Nat)} (hTable : blockTable ≠ [])
    (hPad : rows.length ≤ batchPad) (stale : List Int) :
    ∃ staged metadata mask, runner.prepareInputs rows = .ok staged ∧
      builder.build (commonMetadata staged rows.length blockTable) (staged.positions ++ stale)
        batchPad runner.isPrefill false (some staged.backPad) = .ok metadata ∧
      metadata.attnMasks = some mask ∧
      (ExactMask builder.maxModelLen batchPad runner.isPrefill staged.positions mask ↔
        MaskedRight builder runner rows) := by
  obtain ⟨staged, hStaged, hPositions, hStarts, hLens⟩ := prepareInputs_single hStep hPhase
  obtain ⟨seqIdx, hSeq⟩ := seqIdx_single blockTable stale hPositions hStarts
  have hInside : ∀ row ∈ rows, row.numComputedTokens + 1 ≤ builder.maxModelLen := by
    cases hStep with
    | chunk hPrefill =>
        rw [hPhase] at hPrefill
        cases hPrefill
    | decode _ _ hRows hSingle =>
        intro row hMem
        rw [hLimit, ← (hSingle row hMem).1]
        exact (hRows row hMem).inside
  have hFit : (rows.map fun row => row.numComputedTokens + 1).length ≤ batchPad := by
    rwa [List.length_map]
  have hMask : builder.attnMask runner.isPrefill batchPad
      (commonMetadata staged rows.length blockTable).seqLens seqIdx =
      .ok (builder.decodeRows batchPad (rows.map fun row => row.numComputedTokens + 1)) := by
    rw [hPhase]
    show builder.decodeMask batchPad (staged.seqLens.take rows.length) = _
    rw [hLens, List.take_of_length_le (by rw [List.length_map])]
    exact builder.decodeMask_eq hFit
  obtain ⟨metadata, hBuild, hMade⟩ := MetadataBuilder.build_attnMasks (some staged.backPad)
    hMasked hTable hSeq hMask
  refine ⟨staged, metadata, _, hStaged, hBuild, hMade, ?_⟩
  rw [hPositions]
  exact exactMask_decode hPhase hInside

theorem build_chunk {row : BatchRow} (hMasked : builder.isCausal = false)
    (hPhase : runner.isPrefill = true) (hRow : row.Scheduled runner)
    (hSize : row.numScheduledTokens ≤ builder.chunkedPrefillSize)
    (hRoom : row.numComputedTokens + builder.chunkedPrefillSize ≤ builder.maxModelLen)
    (hUndrafted : row.scheduledSpecTokens = none) {blockTable : List (List Nat)}
    (hTable : blockTable ≠ []) (stale : List Int) :
    ∃ staged metadata mask, runner.prepareInputs [row] = .ok staged ∧
      builder.build (commonMetadata staged 1 blockTable) (staged.positions ++ stale)
        batchPad runner.isPrefill false (some staged.backPad) = .ok metadata ∧
      metadata.attnMasks = some mask ∧
      (ExactMask builder.maxModelLen batchPad runner.isPrefill staged.positions mask ↔
        MaskedRight builder runner [row]) := by
  have hFixed : runner.windowFixed [row] = false := by
    rw [Runner.windowFixed, hPhase]
    rfl
  have hSpec : useSpecDecode [row] = false := by
    rw [useSpecDecode, List.any_cons, hUndrafted]
    rfl
  have hPos := hRow.scheduled
  have hStaged := prepareInputs_unpadded hFixed hSpec (List.cons_ne_nil row [])
    (by simpa using hRow)
  have hPositions : (unpaddedOf runner [row]).positions =
      row.scheduledPositions.map fun position : Nat => (position : Int) := by
    show ([row].flatMap (·.scheduledPositions)).map Nat.cast = _
    rw [List.flatMap_singleton]
  obtain ⟨mask, hPrefill, hEntries⟩ := builder.prefillMask_eq hRoom
  have hMask : builder.attnMask runner.isPrefill batchPad
      (commonMetadata (unpaddedOf runner [row]) 1 blockTable).seqLens
      [(row.numComputedTokens : Int)] = .ok mask := by
    rw [hPhase]
    exact hPrefill
  obtain ⟨metadata, hBuild, hMade⟩ := MetadataBuilder.build_attnMasks
    (some (unpaddedOf runner [row]).backPad) hMasked hTable (seqIdx_chunk hPos blockTable stale)
    hMask
  refine ⟨_, metadata, mask, hStaged, hBuild, hMade, ?_⟩
  rw [hPositions]
  exact exactMask_chunk hPhase hPos hSize hRoom hEntries

end Step

/-- The mask of a prefill chunk or of a decode batch of single tokens is exact in just these
steps. -/
theorem build_exact_iff (builder : MetadataBuilder) (runner : Runner) (rows : List BatchRow)
    (blockTable : List (List Nat)) (batchPad : Nat) (stale : List Int)
    (hMasked : builder.isCausal = false) (hLimit : builder.maxModelLen = runner.maxModelLen)
    (hStep : SingleRows builder runner rows) (hTable : blockTable.length = rows.length)
    (hPad : rows.length ≤ batchPad) :
    ∃ staged metadata mask, runner.prepareInputs rows = .ok staged ∧
      builder.build (commonMetadata staged rows.length blockTable) (staged.positions ++ stale)
        batchPad runner.isPrefill false (some staged.backPad) = .ok metadata ∧
      metadata.attnMasks = some mask ∧
      (ExactMask builder.maxModelLen batchPad runner.isPrefill staged.positions mask ↔
        MaskedRight builder runner rows) := by
  have hTables : rows ≠ [] → blockTable ≠ [] := by
    rintro hSome rfl
    exact hSome (List.length_eq_zero_iff.1 hTable.symm)
  cases hStep with
  | chunk hPhase hRow hSize hRoom hUndrafted =>
      exact build_chunk hMasked hPhase hRow hSize hRoom hUndrafted
        (hTables (List.cons_ne_nil _ _)) stale
  | decode hPhase hSome hRows hSingle hWindow =>
      exact build_decode hMasked hLimit (.decode hPhase hSome hRows hSingle hWindow) hPhase
        (hTables hSome) hPad stale

/-- Chunks of four in front of a limit of twelve. -/
def fourBuilder : MetadataBuilder where
  maxModelLen := 12
  chunkedPrefillSize := 4
  isCausal := false
  swaAppends := false
  slidingWindow := none

def fourRunner (isPrefill : Bool) : Runner where
  numSpecTokens := 0
  maxModelLen := 12
  usesFixedDecodeWindow := false
  isPrefill := isPrefill
  inputIds := []

/-- A prompt of ten tokens of which `computed` are cached. -/
def cachedRow (computed scheduled : Nat) : BatchRow where
  numComputedTokens := computed
  numScheduledTokens := scheduled
  numTokens := 10
  tokenIds := [0, 1, 2, 3, 4, 5, 6, 7, 8, 9, 0, 0]
  scheduledSpecTokens := none

theorem build_exact_iff_four :
    ∃ staged metadata mask, (fourRunner true).prepareInputs [cachedRow 5 4] = .ok staged ∧
      fourBuilder.build (commonMetadata staged 1 [[7, 8, 9]]) (staged.positions ++ [])
        1 true false (some staged.backPad) = .ok metadata ∧
      metadata.attnMasks = some mask ∧
      (ExactMask 12 1 true staged.positions mask ↔
        MaskedRight fourBuilder (fourRunner true) [cachedRow 5 4]) :=
  build_exact_iff fourBuilder (fourRunner true) [cachedRow 5 4] [[7, 8, 9]] 1 [] rfl rfl
    (.chunk rfl ⟨by decide, by decide, rfl⟩ (by decide) (by decide) rfl) rfl (by decide)

/-- Two tokens found in the cache are hidden from the chunk behind them, and a decoded token sees
the slot behind its own. -/
theorem build_hides_cached :
    (∃ staged metadata mask, (fourRunner true).prepareInputs [cachedRow 2 4] = .ok staged ∧
      fourBuilder.build (commonMetadata staged 1 [[7, 8, 9]]) staged.positions
        1 true false (some staged.backPad) = .ok metadata ∧
      metadata.attnMasks = some mask ∧
      staged.positions[0]? = some 2 ∧ admits mask 0 0 = false ∧ admits mask 0 1 = false ∧
      ¬ ExactMask 12 1 true staged.positions mask) ∧
    ∃ staged metadata mask, (fourRunner false).prepareInputs [cachedRow 9 1] = .ok staged ∧
      fourBuilder.build (commonMetadata staged 1 [[7, 8, 9]]) staged.positions
        2 false false (some staged.backPad) = .ok metadata ∧
      metadata.attnMasks = some mask ∧
      staged.positions[0]? = some 9 ∧ admits mask 0 10 = true ∧
      ¬ ExactMask 12 2 false staged.positions mask := by
  constructor
  · refine ⟨_, _, _, rfl, rfl, rfl, rfl, rfl, rfl, ?_⟩
    intro hExact
    have hSeen := hExact.real 0 2 rfl 0 (by decide)
    revert hSeen
    decide
  · refine ⟨_, _, _, rfl, rfl, rfl, rfl, rfl, ?_⟩
    intro hExact
    have hSeen := hExact.real 0 9 rfl 10 (by decide)
    revert hSeen
    decide

end VllmRbln.Attention
