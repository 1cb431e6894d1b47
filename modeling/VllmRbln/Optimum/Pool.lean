import VllmRbln.Optimum.Consistency

/-! Block pools of the optimum path: their size (`KVCacheBlockAdapter` of
`model_executor/models/optimum/model_base.py`), and `allocate_slots` and `free` over them with
prefix caching and without it. -/
namespace VllmRbln.Optimum

set_option linter.unusedSectionVars false

variable {H T : Type*} [DecidableEq H]

inductive SchedulingPolicy
  | fcfs
  | priority
  deriving DecidableEq, Repr

/-- What an engine is configured with. `blkRatio` is how many blocks of vLLM make one of the
compiled model, `estimatedNumBlocks` counts the latter, `key` is the priority and the arrival time
of a request, and `chunkedPrefillPad` the slots that a model with sliding windows reserves beyond
the tokens of a request. -/
structure EngineConfig where
  blockSize : Nat
  blkRatio : Nat
  maxModelLen : Nat
  maxNumSeqs : Nat
  estimatedNumBlocks : Nat
  maxNumScheduledTokens : Nat
  enablePrefixCaching : Bool
  isEncoderDecoder : Bool
  policy : SchedulingPolicy
  key : Nat → Int × Nat
  chunkedPrefillPad : Nat → Nat
  blockSize_pos : 0 < blockSize
  blkRatio_pos : 0 < blkRatio
  maxModelLen_pos : 0 < maxModelLen
  estimatedNumBlocks_pos : 0 < estimatedNumBlocks
  ratio_eq : enablePrefixCaching = false → blkRatio = 1
  decoder_only : enablePrefixCaching = true → isEncoderDecoder = false

namespace EngineConfig

/-! ### The size of the pool -/

/-- `get_attn_block_size`. -/
def attnBlockSize (cfg : EngineConfig) : Nat := cfg.blkRatio * cfg.blockSize

def blocksPerSeq (cfg : EngineConfig) : Nat := ceilDiv cfg.maxModelLen cfg.attnBlockSize

/-- `KVCacheBlockAdapter.is_full_block_available`. -/
def isFullBlockAvailable (cfg : EngineConfig) : Bool :=
  cfg.maxNumSeqs * cfg.blocksPerSeq ≤ cfg.estimatedNumBlocks

/-- `get_available_num_blocks`. -/
def getAvailableNumBlocks (cfg : EngineConfig) : Nat :=
  if cfg.isFullBlockAvailable then cfg.estimatedNumBlocks * cfg.blkRatio + 1
  else (cfg.estimatedNumBlocks - 1) * cfg.blkRatio + 1

/-- What the prefix cache manager is built with: the pool without its null block. -/
def blocks (cfg : EngineConfig) : BlockConfiguration where
  ibSize := cfg.blockSize
  blockRatio := cfg.blkRatio
  maxModelLen := cfg.maxModelLen
  maxNumSeqs := cfg.maxNumSeqs
  numInnerBlocks := cfg.getAvailableNumBlocks - 1
  ibSize_pos := cfg.blockSize_pos
  blockRatio_pos := cfg.blkRatio_pos

theorem numOb_eq (cfg : EngineConfig) : cfg.blocks.numOb =
    if cfg.isFullBlockAvailable then cfg.estimatedNumBlocks else cfg.estimatedNumBlocks - 1 := by
  show ceilDiv (cfg.getAvailableNumBlocks - 1) cfg.blkRatio = _
  unfold getAvailableNumBlocks
  split
  · exact ceilDiv_mul cfg.blkRatio_pos _
  · exact ceilDiv_mul cfg.blkRatio_pos _

/-- The manager's view of a full pool is the adapter's. -/
theorem isFullBlockAvailable_eq (cfg : EngineConfig) :
    cfg.blocks.isFullBlockAvailable = cfg.isFullBlockAvailable := by
  have hManager : cfg.blocks.isFullBlockAvailable =
      decide (cfg.maxNumSeqs * cfg.blocksPerSeq ≤ cfg.blocks.numOb) := rfl
  rw [hManager, numOb_eq]
  cases hFull : cfg.isFullBlockAvailable with
  | true => exact hFull
  | false =>
      have hShort : ¬cfg.maxNumSeqs * cfg.blocksPerSeq ≤ cfg.estimatedNumBlocks :=
        of_decide_eq_false hFull
      apply decide_eq_false
      intro hLe
      rw [if_neg (by decide)] at hLe
      omega

/-! ### The pool without prefix caching -/

/-- The last block an encoder-decoder model can be given is the one before its dummy block. -/
def numUsableBlocks (cfg : EngineConfig) : Nat :=
  if cfg.isEncoderDecoder then cfg.blocks.numInnerBlocks - 1 else cfg.blocks.numInnerBlocks

/-- `RBLNBlockPool`: an encoder-decoder model has its last block removed from the free queue. -/
def initialKv (cfg : EngineConfig) : KvCacheManager H :=
  { KvCacheManager.initial cfg.blocks with freeBlocks := List.range' 1 cfg.numUsableBlocks }

/-- `num_tokens_need_slot`. -/
def numTokensNeedSlot (cfg : EngineConfig) (requestId numTokens : Nat) : Nat :=
  min numTokens cfg.maxModelLen + cfg.chunkedPrefillPad requestId

/-- How the free queue picks the blocks it hands out. -/
abbrev Pick := List Nat → Nat → List Nat

/-- Free blocks, as many as asked for and no two the same. -/
def Picks (pick : Pick) : Prop :=
  ∀ free n, free.Nodup → n ≤ free.length →
    (pick free n).length = n ∧ (pick free n).Nodup ∧ ∀ ib ∈ pick free n, ib ∈ free

/-- `allocate_slots`. Models that need the padding do without prefix caching. -/
def allocateSlots (cfg : EngineConfig) (hashes : Nat → H) (pick : Pick) (kv : KvCacheManager H)
    (requestId numTokens numComputedTokens numNewTokens : Nat) :
    Option (Bool × KvCacheManager H) :=
  if cfg.enablePrefixCaching then
    let numBlocks := kv.numBlocksToAllocate cfg.blocks requestId numTokens
    kv.allocateSlots cfg.blocks hashes requestId numTokens numComputedTokens numNewTokens
      (pick kv.freeBlocks numBlocks)
  else
    let numBlocks := ceilDiv (cfg.numTokensNeedSlot requestId numTokens) cfg.blockSize -
      (kv.reqToBlocks requestId).length
    if kv.freeBlocks.length < numBlocks then some (false, kv)
    else some (true, kv.allocateNewBlocks requestId (pick kv.freeBlocks numBlocks))

/-- `free`, which returns the blocks of a request in reverse. -/
def free (cfg : EngineConfig) (kv : KvCacheManager H) (requestId : Nat) (preemption : Bool) :
    Option (KvCacheManager H) :=
  if cfg.enablePrefixCaching then kv.free requestId preemption
  else some { kv with
    freeBlocks := kv.freeBlocks ++ (kv.reqToBlocks requestId).reverse
    reqToBlocks := Function.update kv.reqToBlocks requestId [] }

/-- The block table of a request, in the numbering of the compiled model. -/
def blockTable (cfg : EngineConfig) (kv : KvCacheManager H) (requestId : Nat) : List Nat :=
  if cfg.enablePrefixCaching then
    (kv.prefixCacheManager.mappingManager.requestToOuterBlocks requestId).getD []
  else (kv.reqToBlocks requestId).map (· - 1)

/-! ### What holds of the pool -/

/-- Blocks are free or belong to one request. -/
structure Owned (kv : KvCacheManager H) : Prop where
  free : kv.freeBlocks.Nodup
  nodup : ∀ requestId, (kv.reqToBlocks requestId).Nodup
  apart : ∀ requestId ib, ib ∈ kv.reqToBlocks requestId → ib ∉ kv.freeBlocks ∧
    ∀ other, ib ∈ kv.reqToBlocks other → other = requestId

/-- The invariant of a run without prefix caching. -/
structure Plain (cfg : EngineConfig) (s : Scheduler H T) : Prop where
  owned : Owned s.kv
  usable : ∀ ib, ib ∈ s.kv.freeBlocks ∨ (∃ requestId, ib ∈ s.kv.reqToBlocks requestId) →
    0 < ib ∧ ib ≤ cfg.numUsableBlocks
  tables : ∀ requestId request, s.running requestId = some request →
    0 < (s.kv.reqToBlocks requestId).length ∧ (s.kv.reqToBlocks requestId).length ≤
      ceilDiv (cfg.numTokensNeedSlot requestId request.tokens.length) cfg.blockSize
  idle : ∀ requestId, s.running requestId = none → s.kv.reqToBlocks requestId = []

/-- The invariant of a run. -/
def Kept (cfg : EngineConfig) (s : Scheduler H T) : Prop :=
  if cfg.enablePrefixCaching then s.Consistent cfg.blocks else cfg.Plain s

section Owned

variable {kv : KvCacheManager H} {requestId : Nat} {new : List Nat}

theorem mem_allocateNewBlocks {other ib : Nat} :
    ib ∈ (kv.allocateNewBlocks requestId new).reqToBlocks other ↔
      ib ∈ kv.reqToBlocks other ∨ other = requestId ∧ ib ∈ new := by
  show ib ∈ Function.update kv.reqToBlocks requestId (kv.reqToBlocks requestId ++ new) other ↔ _
  by_cases hOther : other = requestId
  · subst hOther
    simp
  · simp [hOther]

theorem mem_allocateNewBlocks_free {ib : Nat} :
    ib ∈ (kv.allocateNewBlocks requestId new).freeBlocks ↔ ib ∈ kv.freeBlocks ∧ ib ∉ new := by
  show ib ∈ kv.freeBlocks.filter (fun ib => ib ∉ new) ↔ _
  simp

/-- Handing out free blocks keeps every block with one owner. -/
theorem Owned.allocate (hOwned : Owned kv) (hNodup : new.Nodup)
    (hNew : ∀ ib ∈ new, ib ∈ kv.freeBlocks) : Owned (kv.allocateNewBlocks requestId new) where
  free := hOwned.free.filter _
  nodup := by
    intro other
    show (Function.update kv.reqToBlocks requestId (kv.reqToBlocks requestId ++ new) other).Nodup
    by_cases hOther : other = requestId
    · subst hOther
      rw [Function.update_self]
      apply List.nodup_append.2 ⟨hOwned.nodup other, hNodup, _⟩
      rintro ib hMem _ hIn rfl
      exact (hOwned.apart other ib hMem).1 (hNew ib hIn)
    · rw [Function.update_of_ne hOther]
      exact hOwned.nodup other
  apart := by
    intro owner ib hMem
    rw [mem_allocateNewBlocks_free]
    rcases mem_allocateNewBlocks.1 hMem with hOld | ⟨rfl, hIn⟩
    · obtain ⟨hNotFree, hOnly⟩ := hOwned.apart owner ib hOld
      constructor
      · exact fun hFree => hNotFree hFree.1
      · intro other hOther
        rcases mem_allocateNewBlocks.1 hOther with hOther | ⟨-, hIn⟩
        · exact hOnly other hOther
        · exact absurd (hNew ib hIn) hNotFree
    · constructor
      · exact fun hFree => hFree.2 hIn
      · intro other hOther
        rcases mem_allocateNewBlocks.1 hOther with hOther | ⟨hSame, -⟩
        · exact absurd (hNew ib hIn) (hOwned.apart other ib hOther).1
        · exact hSame

/-- The pool after a request gave its blocks back. -/
def released (kv : KvCacheManager H) (requestId : Nat) : KvCacheManager H :=
  { kv with
    freeBlocks := kv.freeBlocks ++ (kv.reqToBlocks requestId).reverse
    reqToBlocks := Function.update kv.reqToBlocks requestId [] }

theorem mem_released {other ib : Nat} :
    ib ∈ (released kv requestId).reqToBlocks other ↔
      other ≠ requestId ∧ ib ∈ kv.reqToBlocks other := by
  show ib ∈ Function.update kv.reqToBlocks requestId [] other ↔ _
  by_cases hOther : other = requestId
  · subst hOther
    simp
  · simp [hOther]

theorem mem_released_free {ib : Nat} :
    ib ∈ (released kv requestId).freeBlocks ↔ ib ∈ kv.freeBlocks ∨ ib ∈ kv.reqToBlocks requestId := by
  show ib ∈ kv.freeBlocks ++ (kv.reqToBlocks requestId).reverse ↔ _
  rw [List.mem_append, List.mem_reverse]

theorem Owned.release (hOwned : Owned kv) (requestId : Nat) : Owned (released kv requestId) where
  free := by
    show (kv.freeBlocks ++ (kv.reqToBlocks requestId).reverse).Nodup
    apply List.nodup_append.2 ⟨hOwned.free, List.nodup_reverse.2 (hOwned.nodup requestId), _⟩
    rintro ib hFree _ hMem rfl
    exact (hOwned.apart requestId ib (List.mem_reverse.1 hMem)).1 hFree
  nodup := by
    intro other
    show (Function.update kv.reqToBlocks requestId [] other).Nodup
    by_cases hOther : other = requestId
    · subst hOther
      rw [Function.update_self]
      exact List.nodup_nil
    · rw [Function.update_of_ne hOther]
      exact hOwned.nodup other
  apart := by
    intro owner ib hMem
    obtain ⟨hNe, hOld⟩ := mem_released.1 hMem
    obtain ⟨hNotFree, hOnly⟩ := hOwned.apart owner ib hOld
    rw [mem_released_free]
    constructor
    · rintro (hFree | hGone)
      · exact hNotFree hFree
      · exact hNe (hOnly requestId hGone).symm
    · intro other hOther
      exact hOnly other (mem_released.1 hOther).2

end Owned

section Kept

variable {cfg : EngineConfig} {s : Scheduler H T}

theorem initial_kept : cfg.Kept (⟨cfg.initialKv, fun _ => none⟩ : Scheduler H T) := by
  unfold Kept
  cases hCaching : cfg.enablePrefixCaching with
  | true =>
      have hUsable : cfg.numUsableBlocks = cfg.blocks.numInnerBlocks := by
        rw [numUsableBlocks, cfg.decoder_only hCaching]
        rfl
      have hInitial : (⟨cfg.initialKv, fun _ => none⟩ : Scheduler H T) =
          Scheduler.initial cfg.blocks := by
        rw [initialKv, hUsable]
        rfl
      rw [if_pos rfl, hInitial]
      exact Scheduler.initial_consistent
  | false =>
      rw [if_neg (by decide)]
      exact {
        owned := ⟨List.nodup_range', fun _ => List.nodup_nil,
          fun _ _ hMem => absurd hMem List.not_mem_nil⟩
        usable := by
          rintro ib (hFree | ⟨requestId, hMem⟩)
          · have hRange := List.mem_range'_1.1 hFree
            omega
          · cases hMem
        tables := nofun
        idle := fun _ _ => rfl }

/-- What `allocate_slots` is asked for: all tokens of a request that is not running, or the one
token a running request was left with. -/
def Asks (s : Scheduler H T) (requestId numTokens numComputedTokens : Nat) : Prop :=
  (s.running requestId = none ∧ numComputedTokens = 0 ∧ 0 < numTokens) ∨
    ∃ request, s.running requestId = some request ∧ request.tokens.length = numTokens ∧
      request.numComputedTokens = numComputedTokens ∧ numTokens = numComputedTokens + 1

theorem Plain.allocate (hPlain : cfg.Plain s) {pick : Pick} (hPick : Picks pick)
    {requestId numTokens numComputedTokens : Nat}
    (hAsks : Asks s requestId numTokens numComputedTokens) {numBlocks : Nat}
    (hNumBlocks : numBlocks = ceilDiv (cfg.numTokensNeedSlot requestId numTokens) cfg.blockSize -
      (s.kv.reqToBlocks requestId).length)
    (hRoom : numBlocks ≤ s.kv.freeBlocks.length) {request : Request T}
    (hTokens : request.tokens.length = numTokens) :
    cfg.Plain (⟨s.kv.allocateNewBlocks requestId (pick s.kv.freeBlocks numBlocks),
      Function.update s.running requestId (some request)⟩ : Scheduler H T) := by
  obtain ⟨hLength, hNodup, hNew⟩ := hPick s.kv.freeBlocks numBlocks hPlain.owned.free hRoom
  -- the request's table is now as long as its tokens need
  have hTable : (s.kv.reqToBlocks requestId ++ pick s.kv.freeBlocks numBlocks).length =
      ceilDiv (cfg.numTokensNeedSlot requestId numTokens) cfg.blockSize ∧
      0 < ceilDiv (cfg.numTokensNeedSlot requestId numTokens) cfg.blockSize := by
    rw [List.length_append, hLength, hNumBlocks]
    rcases hAsks with ⟨hNone, -, hSome⟩ | ⟨old, hRunning, hOld, -⟩
    · have hNeed : 0 < cfg.numTokensNeedSlot requestId numTokens := by
        have hLen := cfg.maxModelLen_pos
        unfold numTokensNeedSlot
        omega
      have hPos := (lt_ceilDiv (c := 0) cfg.blockSize_pos).2 (by rwa [Nat.zero_mul])
      rw [hPlain.idle requestId hNone, List.length_nil]
      omega
    · obtain ⟨hPos, hLe⟩ := hPlain.tables requestId old hRunning
      rw [hOld] at hLe
      omega
  exact {
    owned := hPlain.owned.allocate hNodup hNew
    usable := by
      rintro ib (hFree | ⟨other, hMem⟩)
      · exact hPlain.usable ib (Or.inl (mem_allocateNewBlocks_free.1 hFree).1)
      · rcases mem_allocateNewBlocks.1 hMem with hOld | ⟨-, hIn⟩
        · exact hPlain.usable ib (Or.inr ⟨other, hOld⟩)
        · exact hPlain.usable ib (Or.inl (hNew ib hIn))
    tables := by
      intro other otherRequest hRunning
      show 0 < (Function.update s.kv.reqToBlocks requestId _ other).length ∧
        (Function.update s.kv.reqToBlocks requestId _ other).length ≤ _
      replace hRunning : Function.update s.running requestId (some request) other =
        some otherRequest := hRunning
      by_cases hOther : other = requestId
      · subst hOther
        rw [Function.update_self, Option.some.injEq] at hRunning
        subst hRunning
        rw [Function.update_self, hTable.1, hTokens]
        exact ⟨hTable.2, Nat.le_refl _⟩
      · rw [Function.update_of_ne hOther] at hRunning ⊢
        exact hPlain.tables other otherRequest hRunning
    idle := by
      intro other hRunning
      show Function.update s.kv.reqToBlocks requestId _ other = []
      replace hRunning : Function.update s.running requestId (some request) other = none := hRunning
      by_cases hOther : other = requestId
      · subst hOther
        rw [Function.update_self] at hRunning
        cases hRunning
      · rw [Function.update_of_ne hOther] at hRunning ⊢
        exact hPlain.idle other hRunning }

/-- `allocate_slots` never fails: it gives up with everything as it was, or goes through. -/
theorem Kept.allocateSlots (hKept : cfg.Kept s) {pick : Pick} (hPick : Picks pick)
    {requestId numTokens numComputedTokens : Nat}
    (hAsks : Asks s requestId numTokens numComputedTokens) (hFits : numTokens ≤ cfg.maxModelLen)
    (hashes : Nat → H) (numNewTokens : Nat) :
    cfg.allocateSlots hashes pick s.kv requestId numTokens numComputedTokens numNewTokens =
        some (false, s.kv) ∨
      ∃ kv, cfg.allocateSlots hashes pick s.kv requestId numTokens numComputedTokens numNewTokens =
          some (true, kv) ∧
        ∀ request : Request T, request.tokens.length = numTokens →
          request.numComputedTokens = numTokens →
          cfg.Kept ⟨kv, Function.update s.running requestId (some request)⟩ := by
  unfold Kept at hKept ⊢
  unfold EngineConfig.allocateSlots
  cases hCaching : cfg.enablePrefixCaching with
  | true =>
      rw [hCaching, if_pos rfl] at hKept
      have hCall : s.Call cfg.blocks requestId numTokens numComputedTokens
          (pick s.kv.freeBlocks (s.kv.numBlocksToAllocate cfg.blocks requestId numTokens)) := by
        refine ⟨?_, hFits, hPick _ _ hKept.free⟩
        rcases hAsks with hIdle | ⟨request, hRunning, -, hComputed, hNext⟩
        · exact Or.inl hIdle
        · exact Or.inr ⟨request, hRunning, hComputed, hNext⟩
      rcases hKept.allocateSlots hCall hashes numNewTokens with hNo | ⟨after, hYes, -, -, -, hAll⟩
      · exact Or.inl hNo
      · exact Or.inr ⟨_, hYes, fun request _ hComputed => hAll request hComputed⟩
  | false =>
      rw [hCaching, if_neg (by decide)] at hKept
      simp only [Bool.false_eq_true, if_false]
      split
      · exact Or.inl rfl
      · rename_i hRoom
        exact Or.inr ⟨_, rfl, fun request hTokens _ =>
          hKept.allocate hPick hAsks rfl (Nat.not_lt.1 hRoom) hTokens⟩

/-- `free` never fails either. -/
theorem Kept.free (hKept : cfg.Kept s) (requestId : Nat) (preemption : Bool) :
    ∃ kv, cfg.free s.kv requestId preemption = some kv ∧
      cfg.Kept ⟨kv, Function.update s.running requestId none⟩ := by
  unfold Kept at hKept ⊢
  unfold EngineConfig.free
  cases hCaching : cfg.enablePrefixCaching with
  | true =>
      rw [hCaching, if_pos rfl] at hKept
      obtain ⟨p, hFree, -, hAll⟩ := hKept.freed requestId preemption
      obtain ⟨kv, hKv⟩ : ∃ kv, s.kv.free requestId preemption = some kv := by
        rw [KvCacheManager.free, hFree, Option.map_some]
        exact ⟨_, rfl⟩
      exact ⟨kv, hKv, hAll kv hKv⟩
  | false =>
      rw [hCaching, if_neg (by decide)] at hKept
      refine ⟨released s.kv requestId, rfl, hKept.owned.release requestId, ?_, ?_, ?_⟩
      · rintro ib (hFree | ⟨other, hMem⟩)
        · rcases mem_released_free.1 hFree with hFree | hGone
          · exact hKept.usable ib (Or.inl hFree)
          · exact hKept.usable ib (Or.inr ⟨requestId, hGone⟩)
        · exact hKept.usable ib (Or.inr ⟨other, (mem_released.1 hMem).2⟩)
      · intro other request hRunning
        replace hRunning : Function.update s.running requestId none other = some request := hRunning
        show 0 < (Function.update s.kv.reqToBlocks requestId [] other).length ∧
          (Function.update s.kv.reqToBlocks requestId [] other).length ≤ _
        by_cases hOther : other = requestId
        · subst hOther
          rw [Function.update_self] at hRunning
          cases hRunning
        · rw [Function.update_of_ne hOther] at hRunning ⊢
          exact hKept.tables other request hRunning
      · intro other hRunning
        replace hRunning : Function.update s.running requestId none other = none := hRunning
        show Function.update s.kv.reqToBlocks requestId [] other = []
        by_cases hOther : other = requestId
        · subst hOther
          exact Function.update_self ..
        · rw [Function.update_of_ne hOther] at hRunning ⊢
          exact hKept.idle other hRunning

theorem numTokensNeedSlot_mono (cfg : EngineConfig) (requestId : Nat) {a b : Nat} (hLe : a ≤ b) :
    cfg.numTokensNeedSlot requestId a ≤ cfg.numTokensNeedSlot requestId b := by
  unfold numTokensNeedSlot
  omega

theorem ceilDiv_mono {a b c : Nat} (hLe : a ≤ b) : ceilDiv a c ≤ ceilDiv b c := by
  unfold ceilDiv
  apply Nat.div_le_div_right
  omega

/-- A sampled token needs no block yet. -/
theorem Kept.sample (hKept : cfg.Kept s) (requestId : Nat) (token : T) :
    cfg.Kept { s with
      running := Function.update s.running requestId ((s.running requestId).map fun request =>
        { request with tokens := request.tokens ++ [token] }) } := by
  unfold Kept at hKept ⊢
  cases hCaching : cfg.enablePrefixCaching with
  | true =>
      rw [hCaching, if_pos rfl] at hKept
      exact hKept.sample requestId token
  | false =>
      rw [hCaching, if_neg (by decide)] at hKept
      refine ⟨hKept.owned, hKept.usable, ?_, ?_⟩
      · intro other request hRunning
        replace hRunning : Function.update s.running requestId _ other = some request := hRunning
        by_cases hOther : other = requestId
        · subst hOther
          rw [Function.update_self, Option.map_eq_some_iff] at hRunning
          obtain ⟨before, hBefore, rfl⟩ := hRunning
          obtain ⟨hPos, hLe⟩ := hKept.tables other before hBefore
          apply And.intro hPos
          apply Nat.le_trans hLe
          apply ceilDiv_mono
          apply numTokensNeedSlot_mono
          rw [List.length_append]
          exact Nat.le_add_right _ _
        · rw [Function.update_of_ne hOther] at hRunning
          exact hKept.tables other request hRunning
      · intro other hRunning
        replace hRunning : Function.update s.running requestId _ other = none := hRunning
        by_cases hOther : other = requestId
        · subst hOther
          rw [Function.update_self, Option.map_eq_none_iff] at hRunning
          exact hKept.idle other hRunning
        · rw [Function.update_of_ne hOther] at hRunning
          exact hKept.idle other hRunning

end Kept

end EngineConfig

end VllmRbln.Optimum
