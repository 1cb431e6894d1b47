import Mathlib.Algebra.Order.BigOperators.Group.List
import VllmRbln.Common.Checked
import VllmRbln.Common.Run
import VllmRbln.Optimum.Scheduling

/-! Padding of decode batches on the optimum path: the block and the cache slot that the rows of no
request point at (`get_dummy_block`, and `_prepare_decode` of
`v1/worker/optimum_model_runner.py`). -/
namespace VllmRbln.Optimum

set_option linter.unusedSectionVars false

variable {H T : Type} [DecidableEq H]

/-! ### The dummy block of the prefix cache manager -/

theorem ceilDiv_ceilDiv {a b c : Nat} (hInner : 0 < b) (hOuter : 0 < c) :
    ceilDiv (ceilDiv a b) c = ceilDiv a (c * b) := by
  apply ceilDiv_eq_of_forall_lt_iff hOuter
  intro d
  rw [lt_ceilDiv (Nat.mul_pos hOuter hInner), lt_ceilDiv hInner, Nat.mul_assoc]

section Spare

variable {cfg : BlockConfiguration} {s : Scheduler H T}

/-- A running request's outer blocks are allocated, and as many as its tokens need. -/
theorem Scheduler.Consistent.listed (hOk : s.Consistent cfg) (requestId : Nat) :
    let outers :=
      (s.kv.prefixCacheManager.mappingManager.requestToOuterBlocks requestId).getD []
    (∀ outer ∈ outers, outer ∈ s.kv.prefixCacheManager.allocator.allocatedBlocks) ∧
      outers.length =
        ((s.running requestId).map fun request =>
          ceilDiv request.numComputedTokens cfg.obSize).getD 0 := by
  cases hRunning : s.running requestId with
  | none =>
      rw [(hOk.idle requestId hRunning).1]
      exact ⟨nofun, rfl⟩
  | some request =>
      obtain ⟨⟨outers, hOuters, hLength, hSlices⟩, hHeld, -⟩ := hOk.tables requestId request hRunning
      rw [hOuters]
      constructor
      · intro outer hMem
        obtain ⟨i, hI⟩ := List.mem_iff_getElem?.1 hMem
        apply (hOk.manager.allocated outer).2
        exact Or.inl ⟨_, hSlices i outer hI⟩
      · show outers.length = ceilDiv request.numComputedTokens cfg.obSize
        rw [hLength, hHeld, ceilDiv_ceilDiv cfg.ibSize_pos cfg.blockRatio_pos]
        rfl

/-- The blocks below `num_ob` are the free ones and the allocated ones. -/
theorem PrefixCacheManager.Consistent.free_or_allocated {p : PrefixCacheManager}
    (hOk : p.Consistent cfg [] []) {outer : Nat} :
    outer < cfg.numOb ↔ outer ∈ p.allocator.freeBlocks ∨ outer ∈ p.allocator.allocatedBlocks := by
  rw [← List.mem_range, ← hOk.partition.mem_iff, List.mem_append]

theorem PrefixCacheManager.Consistent.free_not_allocated {p : PrefixCacheManager}
    (hOk : p.Consistent cfg [] []) {outer : Nat} (hFree : outer ∈ p.allocator.freeBlocks) :
    outer ∉ p.allocator.allocatedBlocks := by
  have hNodup := hOk.partition.nodup_iff.2 List.nodup_range
  obtain ⟨-, -, hApart⟩ := List.nodup_append.1 hNodup
  exact fun hAllocated => hApart outer hFree outer hAllocated rfl

/-- In a pool made for all requests, fewer of them leave a block that is in no table. -/
theorem Scheduler.Consistent.exists_unlisted (hOk : s.Consistent cfg)
    (hFull : cfg.isFullBlockAvailable = true) (hLen : 0 < cfg.maxModelLen) {ids : List Nat}
    (hIds : ∀ requestId request, s.running requestId = some request → requestId ∈ ids)
    (hComputed : ∀ requestId request, s.running requestId = some request →
      request.numComputedTokens ≤ cfg.maxModelLen) (hFew : ids.length < cfg.maxNumSeqs) :
    ∃ outer < cfg.numOb, ∀ requestId,
      outer ∉ (s.kv.prefixCacheManager.mappingManager.requestToOuterBlocks requestId).getD [] := by
  have hTable : ∀ requestId,
      ((s.kv.prefixCacheManager.mappingManager.requestToOuterBlocks requestId).getD []).length ≤
        ceilDiv cfg.maxModelLen cfg.obSize := by
    intro requestId
    rw [(hOk.listed requestId).2]
    cases hRunning : s.running requestId with
    | none => exact Nat.zero_le _
    | some request => exact EngineConfig.ceilDiv_mono (hComputed requestId request hRunning)
  have hPerSeq : 0 < ceilDiv cfg.maxModelLen cfg.obSize := by
    apply (lt_ceilDiv (Nat.mul_pos cfg.blockRatio_pos cfg.ibSize_pos)).2
    rwa [Nat.zero_mul]
  have hShort : (ids.flatMap fun requestId =>
      (s.kv.prefixCacheManager.mappingManager.requestToOuterBlocks requestId).getD []).length <
        cfg.numOb := by
    rw [List.length_flatMap]
    have hSum : (ids.map fun requestId =>
        ((s.kv.prefixCacheManager.mappingManager.requestToOuterBlocks requestId).getD []).length).sum
          ≤ ids.length * ceilDiv cfg.maxModelLen cfg.obSize := by
      have hCard := List.sum_le_card_nsmul (ids.map fun requestId =>
        ((s.kv.prefixCacheManager.mappingManager.requestToOuterBlocks requestId).getD []).length)
        (ceilDiv cfg.maxModelLen cfg.obSize) (by
          intro n hMem
          obtain ⟨requestId, -, rfl⟩ := List.mem_map.1 hMem
          exact hTable requestId)
      rw [List.length_map] at hCard
      exact hCard
    calc _ ≤ ids.length * ceilDiv cfg.maxModelLen cfg.obSize := hSum
      _ < cfg.maxNumSeqs * ceilDiv cfg.maxModelLen cfg.obSize :=
          Nat.mul_lt_mul_of_pos_right hFew hPerSeq
      _ ≤ cfg.numOb := of_decide_eq_true hFull
  obtain ⟨outer, hBound, hFree⟩ := Vacant.exists_not_mem Function.injective_id hShort
  refine ⟨outer, hBound, ?_⟩
  intro requestId hMem
  cases hRunning : s.running requestId with
  | none =>
      rw [(hOk.idle requestId hRunning).1] at hMem
      cases hMem
  | some request =>
      exact hFree (List.mem_flatMap.2 ⟨requestId, hIds requestId request hRunning, hMem⟩)

theorem BlockConfiguration.computeNumBlocksToAllocate_one :
    cfg.computeNumBlocksToAllocate 1 0 = 1 := by
  rw [BlockConfiguration.computeNumBlocksToAllocate, if_neg Nat.one_ne_zero, if_pos rfl]
  have hOne := ceilDiv_mul_add Nat.one_pos cfg.blockRatio_pos 0
  rwa [Nat.zero_mul, Nat.zero_add] at hOne

/-- A block in no table is free, or can be evicted. -/
theorem Scheduler.Consistent.canAllocate_of_unlisted (hOk : s.Consistent cfg) {outer : Nat}
    (hBound : outer < cfg.numOb) (hUnlisted : ∀ requestId,
      outer ∉ (s.kv.prefixCacheManager.mappingManager.requestToOuterBlocks requestId).getD []) :
    (s.kv.prefixCacheManager.canAllocate cfg 1 0).1 = true := by
  unfold PrefixCacheManager.canAllocate
  simp only [BlockConfiguration.computeNumBlocksToAllocate_one]
  split
  · rfl
  · rename_i hNone
    have hEmpty : s.kv.prefixCacheManager.allocator.freeBlocks = [] :=
      List.length_eq_zero_iff.1 (by omega)
    -- nothing is free, so the block has a record, and no request holds it
    have hAllocated := hOk.manager.free_or_allocated.1 hBound
    rw [hEmpty] at hAllocated
    replace hAllocated := hAllocated.resolve_left List.not_mem_nil
    obtain ⟨mapping, hMapping⟩ :=
      ((hOk.manager.allocated outer).1 hAllocated).resolve_right List.not_mem_nil
    have hInactive : mapping.isActive = false := by
      cases hActive : mapping.isActive with
      | false => rfl
      | true =>
          obtain ⟨requestId, -, outers, i, -, -, hOuters, hI, -⟩ := hOk.active hMapping hActive
          have hFree := hUnlisted requestId
          rw [hOuters] at hFree
          exact absurd (List.mem_of_getElem? hI) hFree
    have hEvictable : outer ∈ s.kv.prefixCacheManager.allocationOrder.filter
        s.kv.prefixCacheManager.mappingManager.isInactive := by
      apply List.mem_filter.2
      refine ⟨(hOk.manager.order outer).2 ⟨mapping, hMapping⟩, ?_⟩
      rw [BlockMappingManager.isInactive, hMapping]
      simp [hInactive]
    have hSome := List.length_pos_of_mem hEvictable
    have hSelected : (s.kv.prefixCacheManager.selectBlocksForEviction 1).length = 1 := by
      unfold PrefixCacheManager.selectBlocksForEviction
      simp only
      rw [if_neg (by omega), List.length_take]
      omega
    rw [hEmpty, List.length_nil, Nat.sub_zero, hSelected, if_pos (Nat.le_refl 1)]

/-- `get_dummy_block` while a request could still be admitted: it gives a block in no table. -/
theorem Scheduler.Consistent.getDummyBlock (hOk : s.Consistent cfg) (hLen : 0 < cfg.maxModelLen)
    {ids : List Nat}
    (hIds : ∀ requestId request, s.running requestId = some request → requestId ∈ ids)
    (hComputed : ∀ requestId request, s.running requestId = some request →
      request.numComputedTokens ≤ cfg.maxModelLen) (hFew : ids.length < cfg.maxNumSeqs) :
    ∃ dummy after, s.kv.prefixCacheManager.getDummyBlock cfg = some (dummy, after) ∧
      after.mappingManager.requestToOuterBlocks =
        s.kv.prefixCacheManager.mappingManager.requestToOuterBlocks ∧
      Scheduler.Consistent cfg { s with kv := { s.kv with prefixCacheManager := after } } ∧
      ∀ requestId, dummy ∉
        (s.kv.prefixCacheManager.mappingManager.requestToOuterBlocks requestId).getD [] := by
  have hListed : ∀ requestId outer, outer ∈
      (s.kv.prefixCacheManager.mappingManager.requestToOuterBlocks requestId).getD [] →
      outer ∈ s.kv.prefixCacheManager.allocator.allocatedBlocks :=
    fun requestId => (hOk.listed requestId).1
  cases hFull : cfg.isFullBlockAvailable with
  | false =>
      refine ⟨cfg.numOb, s.kv.prefixCacheManager, ?_, rfl, hOk, ?_⟩
      · simp only [PrefixCacheManager.getDummyBlock, hFull, Bool.not_false, if_true]
      · -- the block that is kept for padding is outside the allocator's range
        intro requestId hMem
        have hInside := hOk.manager.free_or_allocated.2 (Or.inr (hListed requestId _ hMem))
        exact Nat.lt_irrefl _ hInside
  | true =>
      obtain ⟨outer, hBound, hUnlisted⟩ := hOk.exists_unlisted hFull hLen hIds hComputed hFew
      have hCan := hOk.canAllocate_of_unlisted hBound hUnlisted
      rcases hOk.manager.canAllocate 1 0 with
        hNo | ⟨after, outers, hYes, hAfter, hEvicted, hInactive, hRoom⟩
      · rw [hNo] at hCan
        cases hCan
      · rw [BlockConfiguration.computeNumBlocksToAllocate_one] at hRoom
        obtain ⟨dummy, rest, hFree⟩ := List.exists_cons_of_length_pos hRoom
        have hLater := hOk.evicted hAfter hEvicted hInactive
        refine ⟨dummy, after, ?_, hEvicted.requests, hLater, ?_⟩
        · simp only [PrefixCacheManager.getDummyBlock, hFull, Bool.not_true, Bool.false_eq_true,
            if_false, hYes, hFree, List.head?_cons, Option.map_some]
        · intro requestId hMem
          rw [← hEvicted.requests] at hMem
          have hDummy : dummy ∈ after.allocator.freeBlocks := by
            rw [hFree]
            exact List.mem_cons_self
          exact hAfter.free_not_allocated hDummy ((hLater.listed requestId).1 dummy hMem)

end Spare

/-! ### The padded rows of a step -/

namespace EngineConfig

/-- The width of the runner's block table. -/
def maxNumBlocksPerReq (cfg : EngineConfig) : Nat := ceilDiv cfg.maxModelLen cfg.blockSize

/-- The row of a request in `block_tables`. Without prefix caching it is the runner's, and what
`mask_block_table` leaves of its tail is block `0`; `none` is the error of a row that is too short.
The tail of a row of the prefix cache manager is no block. -/
def blockTableRow (cfg : EngineConfig) (kv : KvCacheManager H) (requestId : Nat) :
    Option (List Nat) :=
  let table := cfg.blockTable kv requestId
  if cfg.enablePrefixCaching then some table
  else if table.length ≤ cfg.maxNumBlocksPerReq then
    some (table ++ List.replicate (cfg.maxNumBlocksPerReq - table.length) 0)
  else none

/-- The block of the padded rows: that of the scheduler, or the first one in no row of the batch. -/
def padBlock (cfg : EngineConfig) (output : SchedulerOutput) (kv : KvCacheManager H) : Option Nat := do
  let blockTables ← output.reqIds.mapM (cfg.blockTableRow kv)
  match output.dummyBlock with
  | some dummy => some dummy
  | none => Vacant.lowest id cfg.estimatedNumBlocks blockTables.flatten

end EngineConfig

/-- The cache slot of the padded rows. -/
def SchedulerOutput.padSlot (output : SchedulerOutput) (paddedBatchSize : Nat) : Nat :=
  (Vacant.lowest id paddedBatchSize (output.cacheSlotIdDict.map Prod.snd)).getD 0

section Dummy

variable {cfg : EngineConfig} {s : EngineState H T}

/-- A dummy block was chosen: what was running still is, with its tables, and none of them lists the
block. Without one the runner has to choose, or there is nothing to pad. -/
structure EngineState.Chosen (cfg : EngineConfig) (s : EngineState H T) (numDecodeReqs : Nat)
    (dummy : Option Nat) (after : EngineState H T) : Prop where
  sound : after.Sound cfg
  running : after.running = s.running
  records : after.core.running = s.core.running
  slots : after.cacheSlotIds = s.cacheSlotIds
  unlisted : ∀ block, dummy = some block → ∀ requestId,
    block ∉ cfg.blockTable after.core.kv requestId
  missing : dummy = none → cfg.isEncoderDecoder = false ∧
    (cfg.enablePrefixCaching = true → numDecodeReqs = 0 ∨ cfg.maxNumSeqs ≤ numDecodeReqs)

/-- The last block of an encoder-decoder model is never handed out. -/
theorem EngineConfig.Plain.last_unlisted {s : Scheduler H T} (hPlain : cfg.Plain s)
    (hCaching : cfg.enablePrefixCaching = false) (hEncoder : cfg.isEncoderDecoder = true)
    (requestId : Nat) : cfg.getAvailableNumBlocks - 1 - 1 ∉ cfg.blockTable s.kv requestId := by
  rw [EngineConfig.blockTable, hCaching, if_neg (by decide)]
  intro hMem
  obtain ⟨ib, hHeld, hEq⟩ := List.mem_map.1 hMem
  obtain ⟨hPos, hUsable⟩ := hPlain.usable ib (Or.inr ⟨requestId, hHeld⟩)
  rw [EngineConfig.numUsableBlocks, if_pos hEncoder] at hUsable
  have hInner : cfg.blocks.numInnerBlocks = cfg.getAvailableNumBlocks - 1 := rfl
  omega

/-- The dummy block of a step whose decodes are all the running requests. -/
theorem EngineState.Sound.dummyBlock (hSound : s.Sound cfg) {numDecodeReqs : Nat}
    (hBatch : numDecodeReqs = 0 ∨ numDecodeReqs = s.running.length) :
    ∃ dummy after, s.dummyBlock cfg numDecodeReqs = some (dummy, after) ∧
      s.Chosen cfg numDecodeReqs dummy after := by
  have hKept := hSound.kept
  rw [EngineConfig.Kept] at hKept
  unfold EngineState.dummyBlock
  cases hEncoder : cfg.isEncoderDecoder with
  | true =>
      have hCaching : cfg.enablePrefixCaching = false := by
        cases hCase : cfg.enablePrefixCaching with
        | false => rfl
        | true =>
            rw [cfg.decoder_only hCase] at hEncoder
            cases hEncoder
      rw [hCaching, if_neg (by decide)] at hKept
      rw [if_pos rfl]
      refine ⟨_, s, rfl, hSound, rfl, rfl, rfl, ?_, nofun⟩
      intro block hBlock requestId
      rw [Option.some.injEq] at hBlock
      subst hBlock
      exact hKept.last_unlisted hCaching hEncoder requestId
  | false =>
      rw [if_neg (by decide)]
      by_cases hWanted : cfg.enablePrefixCaching = true ∧ 0 < numDecodeReqs ∧
          numDecodeReqs < cfg.maxNumSeqs
      · obtain ⟨hCaching, hSome, hFew⟩ := hWanted
        rw [if_pos ⟨hCaching, hSome, hFew⟩]
        rw [hCaching, if_pos rfl] at hKept
        rw [hBatch.resolve_left (Nat.pos_iff_ne_zero.1 hSome)] at hFew
        obtain ⟨dummy, manager, hDummy, hSame, hAfter, hUnlisted⟩ := hKept.getDummyBlock
          cfg.maxModelLen_pos (fun requestId request hRunning =>
            (hSound.records requestId).2 ⟨request, hRunning⟩) hSound.computed hFew
        rw [hDummy, Option.map_some]
        refine ⟨_, _, rfl, ?_, rfl, rfl, rfl, ?_, nofun⟩
        · exact { hSound with
            kept := by
              rw [EngineConfig.Kept, hCaching, if_pos rfl]
              exact hAfter }
        · intro block hBlock requestId
          rw [Option.some.injEq] at hBlock
          subst hBlock
          rw [EngineConfig.blockTable, hCaching, if_pos rfl]
          show dummy ∉ (manager.mappingManager.requestToOuterBlocks requestId).getD []
          rw [hSame]
          exact hUnlisted requestId
      · rw [if_neg hWanted]
        refine ⟨none, s, rfl, hSound, rfl, rfl, rfl, nofun, fun _ => ⟨hEncoder, ?_⟩⟩
        intro hCaching
        by_contra hNone
        apply hWanted
        refine ⟨hCaching, ?_⟩
        omega

/-- A running request's slot. -/
theorem EngineState.Sound.lookup_slot (hSound : s.Sound cfg) {requestId : Nat}
    (hMem : requestId ∈ s.running) :
    s.cacheSlotIds.lookup requestId = some ((s.cacheSlotIds.lookup requestId).getD 0) := by
  have hKey : requestId ∈ Dict.keys s.cacheSlotIds := hSound.holders.mem_iff.2 hMem
  obtain ⟨slot, hSlot⟩ := Option.isSome_iff_exists.1 (Dict.lookup_isSome.2 hKey)
  rw [hSlot]
  rfl

/-- The output of a step, for requests that are running. -/
theorem EngineState.Sound.emit (hSound : s.Sound cfg) {numScheduledTokens : List (Nat × Nat)}
    (hRunning : ∀ requestId ∈ Dict.keys numScheduledTokens, requestId ∈ s.running)
    (isPrefill : Bool) (hBatch : isPrefill = true ∨ numScheduledTokens.length = s.running.length) :
    ∃ output after, s.emit cfg isPrefill numScheduledTokens = some (output, after) ∧
      output.isPrefill = isPrefill ∧ output.numScheduledTokens = numScheduledTokens ∧
      output.cacheSlotIdDict = numScheduledTokens.map (fun row =>
        (row.1, (s.cacheSlotIds.lookup row.1).getD 0)) ∧
      s.Chosen cfg (if isPrefill then 0 else numScheduledTokens.length) output.dummyBlock after := by
  have hDecodes : (if isPrefill then 0 else numScheduledTokens.length) = 0 ∨
      (if isPrefill then 0 else numScheduledTokens.length) = s.running.length := by
    cases isPrefill with
    | true => exact Or.inl rfl
    | false => exact Or.inr (hBatch.resolve_left (by decide))
  obtain ⟨dummy, after, hDummy, hChosen⟩ := hSound.dummyBlock hDecodes
  have hSlots : numScheduledTokens.mapM (fun row =>
      (after.cacheSlotIds.lookup row.1).map fun slot => (row.1, slot)) =
      some (numScheduledTokens.map fun row =>
        (row.1, (s.cacheSlotIds.lookup row.1).getD 0)) := by
    apply Checked.mapM_eq_some_map
    intro row hMem
    rw [hChosen.slots, hSound.lookup_slot (hRunning row.1 (List.mem_map_of_mem hMem))]
    rfl
  refine ⟨⟨isPrefill, numScheduledTokens, dummy, numScheduledTokens.map fun row =>
    (row.1, (s.cacheSlotIds.lookup row.1).getD 0)⟩, after, ?_, rfl, rfl, rfl, hChosen⟩
  simp only [EngineState.emit, hDummy, hSlots, Option.bind_eq_bind, Option.bind_some,
    Option.pure_def]

end Dummy

section Choice

variable {cfg : EngineConfig} {s : EngineState H T} {output : SchedulerOutput}

/-- What the tokens of each request need fits its row of the block table. -/
def EngineState.Fits (cfg : EngineConfig) (s : EngineState H T) : Prop :=
  cfg.enablePrefixCaching = false → ∀ requestId request,
    s.core.running requestId = some request →
    ceilDiv (cfg.numTokensNeedSlot requestId request.tokens.length) cfg.blockSize ≤
      cfg.maxNumBlocksPerReq

/-- The row that `mask_block_table` makes of a table. -/
def EngineConfig.maskedRow (cfg : EngineConfig) (kv : KvCacheManager H) (requestId : Nat) :
    List Nat :=
  cfg.blockTable kv requestId ++
    List.replicate (cfg.maxNumBlocksPerReq - (cfg.blockTable kv requestId).length) 0

/-- Rows of a batch of running requests that fit. -/
theorem EngineState.Sound.blockTables (hSound : s.Sound cfg) (hFits : s.Fits cfg)
    (hCaching : cfg.enablePrefixCaching = false) {ids : List Nat}
    (hIds : ∀ requestId ∈ ids, requestId ∈ s.running) :
    ids.mapM (cfg.blockTableRow s.core.kv) = some (ids.map (cfg.maskedRow s.core.kv)) ∧
      ∀ requestId ∈ ids, (cfg.maskedRow s.core.kv requestId).length = cfg.maxNumBlocksPerReq := by
  have hPlain := hSound.kept
  rw [EngineConfig.Kept, hCaching, if_neg (by decide)] at hPlain
  have hLength : ∀ requestId ∈ ids,
      (cfg.blockTable s.core.kv requestId).length ≤ cfg.maxNumBlocksPerReq := by
    intro requestId hMem
    obtain ⟨request, hRunning⟩ := (hSound.records requestId).1 (hIds requestId hMem)
    rw [EngineConfig.blockTable, hCaching, if_neg (by decide), List.length_map]
    exact Nat.le_trans (hPlain.tables requestId request hRunning).2
      (hFits hCaching requestId request hRunning)
  constructor
  · apply Checked.mapM_eq_some_map
    intro requestId hMem
    rw [EngineConfig.blockTableRow, hCaching]
    simp only [Bool.false_eq_true, if_false]
    rw [if_pos (hLength requestId hMem)]
    rfl
  · intro requestId hMem
    have hShort := hLength requestId hMem
    rw [EngineConfig.maskedRow, List.length_append, List.length_replicate]
    omega

/-- Without prefix caching a batch that is not full leaves a block in none of its rows. -/
theorem EngineState.Sound.exists_unlisted (hSound : s.Sound cfg) (hFits : s.Fits cfg)
    (hCaching : cfg.enablePrefixCaching = false) {ids : List Nat}
    (hIds : ∀ requestId ∈ ids, requestId ∈ s.running) (hSome : 0 < ids.length)
    (hFew : ids.length < cfg.maxNumSeqs) (hEncoder : cfg.isEncoderDecoder = false) :
    ∃ block < cfg.estimatedNumBlocks, block ∉ (ids.map (cfg.maskedRow s.core.kv)).flatten := by
  have hPlain := hSound.kept
  rw [EngineConfig.Kept, hCaching, if_neg (by decide)] at hPlain
  have hRatio := cfg.ratio_eq hCaching
  have hWidth : cfg.maxNumBlocksPerReq = cfg.blocksPerSeq := by
    rw [EngineConfig.maxNumBlocksPerReq, EngineConfig.blocksPerSeq, EngineConfig.attnBlockSize,
      hRatio, Nat.one_mul]
  cases hFull : cfg.isFullBlockAvailable with
  | true =>
      have hPool : cfg.maxNumSeqs * cfg.blocksPerSeq ≤ cfg.estimatedNumBlocks :=
        of_decide_eq_true hFull
      have hPos : 0 < cfg.blocksPerSeq := by
        apply (lt_ceilDiv (Nat.mul_pos cfg.blkRatio_pos cfg.blockSize_pos)).2
        rw [Nat.zero_mul]
        exact cfg.maxModelLen_pos
      have hCells : (ids.map (cfg.maskedRow s.core.kv)).flatten.length =
          ids.length * cfg.blocksPerSeq := by
        rw [List.length_flatten, List.map_map, List.map_congr_left (g := fun _ => cfg.blocksPerSeq)]
        · rw [List.map_const', List.sum_replicate_nat]
        · intro requestId hMem
          exact ((hSound.blockTables hFits hCaching hIds).2 requestId hMem).trans hWidth
      have hShort : (ids.map (cfg.maskedRow s.core.kv)).flatten.length < cfg.estimatedNumBlocks := by
        rw [hCells]
        exact Nat.lt_of_lt_of_le (Nat.mul_lt_mul_of_pos_right hFew hPos) hPool
      exact Vacant.exists_not_mem Function.injective_id hShort
  | false =>
      -- the last block is kept out of the pool
      have hInner : cfg.numUsableBlocks = cfg.estimatedNumBlocks - 1 := by
        rw [EngineConfig.numUsableBlocks, hEncoder, if_neg (by decide)]
        show cfg.getAvailableNumBlocks - 1 = _
        rw [EngineConfig.getAvailableNumBlocks, hFull, if_neg (by decide), hRatio]
        omega
      have hUsable : ∀ requestId ib, ib ∈ s.core.kv.reqToBlocks requestId →
          0 < ib ∧ ib ≤ cfg.estimatedNumBlocks - 1 := by
        intro requestId ib hMem
        rw [← hInner]
        exact hPlain.usable ib (Or.inr ⟨requestId, hMem⟩)
      have hTwo : 2 ≤ cfg.estimatedNumBlocks := by
        obtain ⟨requestId, hMem⟩ := List.exists_mem_of_length_pos hSome
        obtain ⟨request, hRunning⟩ := (hSound.records requestId).1 (hIds requestId hMem)
        obtain ⟨ib, hHeld⟩ := List.exists_mem_of_length_pos (hPlain.tables requestId request hRunning).1
        have hRange := hUsable requestId ib hHeld
        omega
      refine ⟨cfg.estimatedNumBlocks - 1, by omega, ?_⟩
      intro hMem
      obtain ⟨row, hRow, hCell⟩ := List.mem_flatten.1 hMem
      obtain ⟨requestId, -, rfl⟩ := List.mem_map.1 hRow
      rcases List.mem_append.1 hCell with hTable | hTail
      · rw [EngineConfig.blockTable, hCaching, if_neg (by decide)] at hTable
        obtain ⟨ib, hHeld, hEq⟩ := List.mem_map.1 hTable
        have hRange := hUsable requestId ib hHeld
        omega
      · have hZero := List.eq_of_mem_replicate hTail
        omega

/-- The block of the padded rows exists and is nobody's, when the batch is all that runs. -/
theorem EngineState.Sound.padBlock (hSound : s.Sound cfg) (hFits : s.Fits cfg)
    (hBatch : output.reqIds = s.running) (hSome : 0 < output.reqIds.length)
    (hFew : output.reqIds.length < cfg.maxNumSeqs)
    (hUnlisted : ∀ block, output.dummyBlock = some block → ∀ requestId,
      block ∉ cfg.blockTable s.core.kv requestId)
    (hMissing : output.dummyBlock = none →
      cfg.isEncoderDecoder = false ∧ cfg.enablePrefixCaching = false) :
    ∃ block, cfg.padBlock output s.core.kv = some block ∧
      ∀ requestId ∈ s.running, block ∉ cfg.blockTable s.core.kv requestId := by
  have hIds : ∀ requestId ∈ output.reqIds, requestId ∈ s.running := by
    intro requestId hMem
    rwa [hBatch] at hMem
  have hRows : ∃ rows, output.reqIds.mapM (cfg.blockTableRow s.core.kv) = some rows ∧
      (cfg.enablePrefixCaching = false → rows = output.reqIds.map (cfg.maskedRow s.core.kv)) := by
    cases hCaching : cfg.enablePrefixCaching with
    | false => exact ⟨_, (hSound.blockTables hFits hCaching hIds).1, fun _ => rfl⟩
    | true =>
        refine ⟨output.reqIds.map (cfg.blockTable s.core.kv), ?_, nofun⟩
        apply Checked.mapM_eq_some_map
        intro requestId _
        rw [EngineConfig.blockTableRow, hCaching]
        rfl
  obtain ⟨rows, hMap, hPlain⟩ := hRows
  unfold EngineConfig.padBlock
  rw [hMap, Option.bind_eq_bind, Option.bind_some]
  cases hDummy : output.dummyBlock with
  | some dummy => exact ⟨dummy, rfl, fun requestId _ => hUnlisted dummy hDummy requestId⟩
  | none =>
      obtain ⟨hEncoder, hCaching⟩ := hMissing hDummy
      obtain ⟨block, hBound, hFree⟩ :=
        hSound.exists_unlisted hFits hCaching hIds hSome hFew hEncoder
      rw [← hPlain hCaching] at hFree
      obtain ⟨chosen, hChosen⟩ : ∃ chosen, Vacant.lowest id cfg.estimatedNumBlocks rows.flatten =
          some chosen := Vacant.lowest_of_not_mem hBound hFree
      refine ⟨chosen, hChosen, ?_⟩
      intro requestId hMem hTable
      apply Vacant.lowest_not_mem hChosen
      rw [hPlain hCaching]
      apply List.mem_flatten.2
      refine ⟨cfg.maskedRow s.core.kv requestId, List.mem_map_of_mem (hBatch ▸ hMem), ?_⟩
      exact List.mem_append_left _ hTable

/-- The slot of the padded rows is nobody's either. -/
theorem EngineState.Sound.padSlot (hSound : s.Sound cfg) (hBatch : output.reqIds = s.running)
    (hSlots : output.cacheSlotIdDict = output.numScheduledTokens.map (fun row =>
      (row.1, (s.cacheSlotIds.lookup row.1).getD 0))) {paddedBatchSize : Nat}
    (hPadded : output.reqIds.length < paddedBatchSize) {requestId slot : Nat}
    (hHeld : (requestId, slot) ∈ s.cacheSlotIds) : slot ≠ output.padSlot paddedBatchSize := by
  have hShort : (output.cacheSlotIdDict.map Prod.snd).length < paddedBatchSize := by
    rw [hSlots, List.length_map, List.length_map]
    rwa [SchedulerOutput.reqIds, List.length_map] at hPadded
  obtain ⟨chosen, hChosen⟩ := Vacant.lowest_of_length_lt Function.injective_id hShort
  have hEq : output.padSlot paddedBatchSize = chosen := by
    rw [SchedulerOutput.padSlot, hChosen]
    rfl
  rw [hEq]
  rintro rfl
  apply Vacant.lowest_not_mem hChosen
  have hKey : requestId ∈ output.reqIds := by
    rw [hBatch, ← hSound.holders.mem_iff]
    exact List.mem_map_of_mem hHeld
  obtain ⟨row, hRow, rfl⟩ := List.mem_map.1 hKey
  have hNodup := hSound.holders.nodup_iff.2 hSound.nodup
  have hLookup := Dict.lookup_of_mem hNodup hHeld
  rw [hSlots, List.map_map]
  apply List.mem_map.2
  refine ⟨row, hRow, ?_⟩
  show (s.cacheSlotIds.lookup row.1).getD 0 = slot
  rw [hLookup]
  rfl

end Choice

/-! ### Runs -/

/-- What happens to an engine. `sample` is the token that a step leaves a request with. -/
inductive EngineEvent (T : Type)
  | schedule (candidate : Option (Nat × List T)) (pick : EngineConfig.Pick)
  | sample (requestId : Nat) (token : T)
  | finish (requestId : Nat)
  | preempt (requestId : Nat)

instance (cfg : EngineConfig) (request : Request T) : Decidable (request.Ready cfg) :=
  inferInstanceAs (Decidable (_ ∧ _))

namespace EngineState

def step (cfg : EngineConfig) (hash : BlockHashing H T) (s : EngineState H T) :
    EngineEvent T → Option (EngineState H T)
  | .schedule candidate pick => (s.schedule cfg hash pick candidate).map Prod.snd
  | .sample requestId token =>
      some { s with core := { s.core with
        running := Function.update s.core.running requestId
          ((s.core.running requestId).map fun request =>
            { request with tokens := request.tokens ++ [token] }) } }
  | .finish requestId => s.withdraw cfg false requestId
  | .preempt requestId => s.withdraw cfg true requestId

/-- A waiting request is not running and fits the model, and every running request has a token to
compute. -/
def Awaits (cfg : EngineConfig) (s : EngineState H T) (candidate : Option (Nat × List T)) : Prop :=
  (∀ waiting ∈ candidate, s.core.running waiting.1 = none ∧ 0 < waiting.2.length ∧
    waiting.2.length ≤ cfg.maxModelLen) ∧
  ∀ requestId ∈ s.running, ∀ request ∈ s.core.running requestId, request.Ready cfg

instance (cfg : EngineConfig) (s : EngineState H T) (candidate : Option (Nat × List T)) :
    Decidable (s.Awaits cfg candidate) := inferInstanceAs (Decidable (_ ∧ _))

/-- What the engine guarantees of an event, apart from its pool. -/
def Expects (cfg : EngineConfig) (s : EngineState H T) : EngineEvent T → Prop
  | .schedule candidate _ => s.Awaits cfg candidate
  | .sample requestId _ => ∃ request ∈ s.core.running requestId,
      request.tokens.length = request.numComputedTokens
  | .finish _ => True
  | .preempt _ => True

instance (cfg : EngineConfig) (s : EngineState H T) : ∀ event, Decidable (s.Expects cfg event)
  | .schedule candidate _ => inferInstanceAs (Decidable (s.Awaits cfg candidate))
  | .sample requestId _ => inferInstanceAs (Decidable (∃ request ∈ s.core.running requestId, _))
  | .finish _ => inferInstanceAs (Decidable True)
  | .preempt _ => inferInstanceAs (Decidable True)

/-- What the engine and its pool guarantee of an event. -/
def Legal (cfg : EngineConfig) (s : EngineState H T) (event : EngineEvent T) : Prop :=
  s.Expects cfg event ∧ ∀ candidate pick, event = .schedule candidate pick → EngineConfig.Picks pick

/-- Every running request gets into the batch: the budget covers the prompt, the tables fit their
rows, and the decode loop runs through. -/
def Covers (cfg : EngineConfig) (hash : BlockHashing H T) (s : EngineState H T) :
    EngineEvent T → Prop
  | .schedule candidate pick =>
      (∀ waiting ∈ candidate, waiting.2.length ≤ cfg.maxNumScheduledTokens) ∧
      s.Fits cfg ∧
      (s.tryAdmit cfg hash pick candidate = some (false, s) →
        (Pass.start cfg s).RunsThrough cfg hash pick (s.running.length + 1))
  | .sample _ _ => True
  | .finish _ => True
  | .preempt _ => True

end EngineState

/-- The padded rows of a batch write to no running request. -/
structure SchedulerOutput.PadsSafely (cfg : EngineConfig) (output : SchedulerOutput)
    (after : EngineState H T) : Prop where
  block : 0 < output.reqIds.length → output.reqIds.length < cfg.maxNumSeqs →
    ∃ block, cfg.padBlock output after.core.kv = some block ∧
      ∀ requestId ∈ after.running, block ∉ cfg.blockTable after.core.kv requestId
  slot : ∀ paddedBatchSize, output.reqIds.length < paddedBatchSize →
    ∀ requestId slot, (requestId, slot) ∈ after.cacheSlotIds →
      slot ≠ output.padSlot paddedBatchSize

section Runs

variable {cfg : EngineConfig} {hash : BlockHashing H T} {s : EngineState H T}

/-- A decode batch that is all that runs is padded safely. -/
theorem EngineState.Chosen.padsSafely {output : SchedulerOutput} {after : EngineState H T}
    (hChosen : s.Chosen cfg output.numScheduledTokens.length output.dummyBlock after)
    (hFits : s.Fits cfg) (hBatch : output.reqIds = s.running)
    (hSlots : output.cacheSlotIdDict = output.numScheduledTokens.map (fun row =>
      (row.1, (s.cacheSlotIds.lookup row.1).getD 0))) :
    output.PadsSafely cfg after where
  block := by
    intro hSome hFew
    have hAfterFits : after.Fits cfg := by
      intro hCaching requestId request hRunning
      rw [hChosen.records] at hRunning
      exact hFits hCaching requestId request hRunning
    apply hChosen.sound.padBlock hAfterFits (hBatch.trans hChosen.running.symm) hSome hFew
      hChosen.unlisted
    intro hNone
    obtain ⟨hEncoder, hCaching⟩ := hChosen.missing hNone
    refine ⟨hEncoder, ?_⟩
    cases hCase : cfg.enablePrefixCaching with
    | false => rfl
    | true =>
        have hLength : output.reqIds.length = output.numScheduledTokens.length := List.length_map ..
        have hSize := hCaching hCase
        omega
  slot := by
    intro paddedBatchSize hPadded requestId slot hHeld
    apply hChosen.sound.padSlot (hBatch.trans hChosen.running.symm) _ hPadded hHeld
    rw [hChosen.slots]
    exact hSlots

/-- The decode loop starts with everybody still to come. -/
theorem EngineState.Sound.start (hSound : s.Sound cfg)
    (hReady : ∀ requestId ∈ s.running, ∀ request, s.core.running requestId = some request →
      request.Ready cfg) : (Pass.start cfg s).Ok cfg s s.running where
  sound := hSound
  split := (List.nil_append _).symm
  index := rfl
  ready := hReady
  same := fun _ request hRunning => ⟨request, hRunning, rfl⟩

/-- The decode half of a step. -/
theorem EngineState.Sound.decodes (hSound : s.Sound cfg) (hFits : s.Fits cfg)
    {pick : EngineConfig.Pick} (hPick : EngineConfig.Picks pick)
    (hReady : ∀ requestId request, s.core.running requestId = some request → request.Ready cfg)
    (hThrough : (Pass.start cfg s).RunsThrough cfg hash pick (s.running.length + 1)) :
    ∃ pass output after,
      (Pass.start cfg s).decodeLoop cfg hash pick (s.running.length + 1) = some pass ∧
      pass.state.emit cfg false pass.numScheduledTokens = some (output, after) ∧
      after.Sound cfg ∧ output.isPrefill = false ∧ output.PadsSafely cfg after := by
  have hStart : (Pass.start cfg s).Ok cfg s s.running :=
    hSound.start fun requestId _ request hRunning => hReady requestId request hRunning
  obtain ⟨pass, rest, hLoop, hOk, hCover⟩ :=
    hStart.decodeLoop hash hPick (Nat.lt_succ_self s.running.length)
  have hKeys := hOk.split
  rw [hCover hThrough, List.append_nil] at hKeys
  have hLength : pass.numScheduledTokens.length = pass.state.running.length := by
    rw [hKeys, Dict.keys, List.length_map]
  obtain ⟨output, after, hEmit, hKind, hRows, hSlots, hChosen⟩ := hOk.sound.emit
    (fun requestId hMem => hKeys ▸ hMem) false (Or.inr hLength)
  refine ⟨pass, output, after, hLoop, hEmit, hChosen.sound, hKind, ?_⟩
  have hPassFits : pass.state.Fits cfg := by
    intro hCaching requestId request hRunning
    obtain ⟨old, hOld, hTokens⟩ := hOk.same requestId request hRunning
    rw [← hTokens]
    exact hFits hCaching requestId old hOld
  rw [← hRows] at hChosen hSlots hKeys
  exact hChosen.padsSafely hPassFits hKeys.symm hSlots

/-- A step. -/
theorem EngineState.Sound.schedule (hSound : s.Sound cfg) {candidate : Option (Nat × List T)}
    {pick : EngineConfig.Pick} (hLegal : s.Legal cfg (.schedule candidate pick))
    (hCovers : s.Covers cfg hash (.schedule candidate pick)) :
    ∃ output after, s.schedule cfg hash pick candidate = some (output, after) ∧ after.Sound cfg ∧
      (output.isPrefill = false → output.PadsSafely cfg after) := by
  obtain ⟨⟨hCandidate, hListed⟩, hPool⟩ := hLegal
  have hPick := hPool candidate pick rfl
  obtain ⟨hBudget, hFits, hThrough⟩ := hCovers
  have hReady : ∀ requestId request, s.core.running requestId = some request →
      request.Ready cfg := by
    intro requestId request hRunning
    exact hListed requestId ((hSound.records requestId).2 ⟨request, hRunning⟩) request hRunning
  have hAdmit : s.tryAdmit cfg hash pick candidate = some (false, s) ∨
      ∃ requestId tokens middle, candidate = some (requestId, tokens) ∧
        s.tryAdmit cfg hash pick candidate = some (true, middle) ∧ middle.Sound cfg ∧
        requestId ∈ middle.running := by
    cases candidate with
    | none => exact Or.inl rfl
    | some waiting =>
        obtain ⟨requestId, tokens⟩ := waiting
        obtain ⟨hIdle, hSome, hLen⟩ := hCandidate (requestId, tokens) rfl
        rcases hSound.admission hash hPick hIdle hSome hLen (hBudget (requestId, tokens) rfl) with
          hNo | ⟨middle, hYes, hMiddle, hMem⟩
        · exact Or.inl hNo
        · exact Or.inr ⟨requestId, tokens, middle, rfl, hYes, hMiddle, hMem⟩
  rcases hAdmit with hNo | ⟨requestId, tokens, middle, rfl, hYes, hMiddle, hMem⟩
  · obtain ⟨pass, output, after, hLoop, hEmit, hAfter, -, hPads⟩ :=
      hSound.decodes hFits hPick hReady (hThrough hNo)
    refine ⟨output, after, ?_, hAfter, fun _ => hPads⟩
    simp only [EngineState.schedule, hNo, hLoop, hEmit, Option.bind_eq_bind, Option.bind_some,
      Bool.false_eq_true, if_false]
  · have hOnly : ∀ other ∈ Dict.keys [(requestId, min tokens.length cfg.maxNumScheduledTokens)],
        other ∈ middle.running := by
      intro other hOther
      rw [List.mem_singleton.1 hOther]
      exact hMem
    obtain ⟨output, after, hEmit, hKind, -, -, hChosen⟩ := hMiddle.emit hOnly true (Or.inl rfl)
    refine ⟨output, after, ?_, hChosen.sound, ?_⟩
    · simp only [EngineState.schedule, hYes, hEmit, Option.bind_eq_bind, Option.bind_some, if_true]
    · intro hDecode
      rw [hKind] at hDecode
      cases hDecode

/-- Every event keeps the invariant. -/
theorem EngineState.Sound.step {event : EngineEvent T} {after : EngineState H T}
    (hLegal : s.Legal cfg event) (hCovers : s.Covers cfg hash event) (hSound : s.Sound cfg)
    (hStep : s.step cfg hash event = some after) : after.Sound cfg := by
  cases event with
  | schedule candidate pick =>
      obtain ⟨output, next, hSchedule, hNext, -⟩ := hSound.schedule hLegal hCovers
      rw [EngineState.step, hSchedule, Option.map_some, Option.some.injEq] at hStep
      exact hStep ▸ hNext
  | sample requestId token =>
      rw [EngineState.step, Option.some.injEq] at hStep
      rw [← hStep]
      exact hSound.sample requestId token
  | finish requestId =>
      obtain ⟨next, hWithdraw, hNext, -⟩ := hSound.withdraw false requestId
      rw [EngineState.step, hWithdraw, Option.some.injEq] at hStep
      exact hStep ▸ hNext
  | preempt requestId =>
      obtain ⟨next, hWithdraw, hNext, -⟩ := hSound.withdraw true requestId
      rw [EngineState.step, hWithdraw, Option.some.injEq] at hStep
      exact hStep ▸ hNext

theorem EngineState.Sound.run {events : List (EngineEvent T)}
    (hRun : Run.runFrom (EngineState.step cfg hash) (EngineState.initial cfg) events = some s)
    (hAlong : Run.Along (EngineState.step cfg hash)
      (fun s event => s.Legal cfg event ∧ s.Covers cfg hash event) (EngineState.initial cfg)
      events) : s.Sound cfg := by
  apply hAlong.invariant (EngineState.Sound cfg) _ EngineState.initial_sound hRun
  intro s event after hOk hSound hStep
  exact hSound.step hOk.1 hOk.2 hStep

/-- Under first come, first served with the default budget only the rows of the block table are left
to fit. -/
theorem EngineState.Sound.covers_of_fcfs (hSound : s.Sound cfg) (hPolicy : cfg.policy = .fcfs)
    (hBudget : cfg.maxModelLen ≤ cfg.maxNumScheduledTokens ∧
      cfg.maxNumSeqs ≤ cfg.maxNumScheduledTokens) (hFits : s.Fits cfg)
    {candidate : Option (Nat × List T)} {pick : EngineConfig.Pick}
    (hLegal : s.Legal cfg (.schedule candidate pick)) :
    s.Covers cfg hash (.schedule candidate pick) := by
  obtain ⟨⟨hCandidate, hListed⟩, hPool⟩ := hLegal
  refine ⟨?_, hFits, ?_⟩
  · intro waiting hMem
    exact Nat.le_trans (hCandidate waiting hMem).2.2 hBudget.1
  · intro _
    have hStart : (Pass.start cfg s).Ok cfg s s.running :=
      hSound.start fun requestId hMem request hRunning => hListed requestId hMem request hRunning
    apply hStart.runsThrough hash (hPool candidate pick rfl) hPolicy
    exact Nat.le_trans hSound.bounded hBudget.2


/-- Three sequences over a pool of four blocks. Request `2` comes after the others. -/
def threeSeqs (policy : SchedulingPolicy) : EngineConfig where
  blockSize := 2
  blkRatio := 1
  maxModelLen := 4
  maxNumSeqs := 3
  estimatedNumBlocks := 4
  maxNumScheduledTokens := 4
  enablePrefixCaching := false
  isEncoderDecoder := false
  policy := policy
  key := fun requestId => if requestId = 2 then (9, requestId) else (1, requestId)
  chunkedPrefillPad := fun _ => 0
  blockSize_pos := Nat.two_pos
  blkRatio_pos := Nat.one_pos
  maxModelLen_pos := Nat.succ_pos 3
  estimatedNumBlocks_pos := Nat.succ_pos 3
  ratio_eq := fun _ => rfl
  decoder_only := nofun

theorem threeSeqs_fits {policy : SchedulingPolicy} {s : EngineState H T} :
    s.Fits (threeSeqs policy) := by
  intro _ requestId request _
  apply EngineConfig.ceilDiv_mono
  exact Nat.min_le_right _ _

/-- The free queue hands out its first blocks. -/
def firstFree : EngineConfig.Pick := fun free n => free.take n

theorem firstFree_picks : EngineConfig.Picks firstFree := by
  intro free n hNodup hRoom
  refine ⟨List.length_take_of_le hRoom, hNodup.sublist (List.take_sublist n free), ?_⟩
  intro ib hMem
  exact List.mem_of_mem_take hMem

/-- The engine of the examples. -/
abbrev TokenEngine := EngineState (HashChain.FreeHash Nat Unit) Nat

def oneRunningRun : List (EngineEvent Nat) := [.schedule (some (0, [7])) firstFree, .sample 0 7]

/-- A request that decodes next. -/
def oneRunning : TokenEngine :=
  (Run.runFrom (EngineState.step (threeSeqs .fcfs) HashChain.FreeHash.extend)
    (EngineState.initial (threeSeqs .fcfs)) oneRunningRun).getD (EngineState.initial (threeSeqs .fcfs))

theorem firstFree_legal {cfg : EngineConfig} {s : TokenEngine}
    {candidate : Option (Nat × List Nat)} (hAwaits : s.Awaits cfg candidate) :
    s.Legal cfg (.schedule candidate firstFree) := by
  refine ⟨hAwaits, ?_⟩
  rintro _ _ ⟨rfl, rfl⟩
  exact firstFree_picks

theorem oneRunning_along : Run.Along
    (EngineState.step (threeSeqs .fcfs) (HashChain.FreeHash.extend :
      BlockHashing (HashChain.FreeHash Nat Unit) Nat))
    (fun s event => s.Legal (threeSeqs .fcfs) event ∧
      s.Covers (threeSeqs .fcfs) HashChain.FreeHash.extend event)
    (EngineState.initial (threeSeqs .fcfs)) oneRunningRun := by
  have hAwaits : (EngineState.initial (threeSeqs .fcfs) : TokenEngine).Awaits (threeSeqs .fcfs)
      (some (0, [7])) := by decide +kernel
  have hLegal := firstFree_legal hAwaits
  refine ⟨⟨hLegal, ?_⟩, ?_⟩
  · exact EngineState.initial_sound.covers_of_fcfs rfl (by decide) threeSeqs_fits hLegal
  · rintro next ⟨rfl⟩
    refine ⟨⟨⟨?_, nofun⟩, trivial⟩, ?_⟩
    · decide +kernel
    · rintro last _
      trivial

/-- Request `1` finished while `2`, whose key is the highest, ran behind it; `3` came last. -/
def crowdedRun : List (EngineEvent Nat) :=
  [.schedule (some (0, [7])) firstFree, .sample 0 7, .schedule (some (1, [7])) firstFree,
    .sample 1 7, .schedule (some (2, [7, 7])) firstFree, .sample 2 7, .finish 1,
    .schedule (some (3, [7])) firstFree, .sample 3 7]

def crowded : TokenEngine :=
  (Run.runFrom (EngineState.step (threeSeqs .priority) HashChain.FreeHash.extend)
    (EngineState.initial (threeSeqs .priority)) crowdedRun).getD
      (EngineState.initial (threeSeqs .priority))

end Runs

end VllmRbln.Optimum
