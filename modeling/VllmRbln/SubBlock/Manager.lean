import VllmRbln.Common.HashChain
import VllmRbln.Common.Run
import VllmRbln.Scheduler.Request

/-! The KV cache manager with sub-block prefix caching
(`v1/core/rbln_kv_cache_manager.py`). The block pool and the coordinator belong to
the library underneath: reference counts, block hashes and block lists are state,
and which free blocks the pool hands out, which full blocks it finds cached and in
which order a set is iterated are arguments, checked before they are used. -/
namespace VllmRbln.SubBlock

open Scheduler Run

/-- `hash_block_tokens`, and the extra keys of the tokens from `start` to `stop`. -/
structure Hashing (H X : Type) where
  hashBlockTokens : Option H → List Token → Option X → H
  extraKeys : ReqId → Nat → Nat → Option X

/-- The hash a block of the pool carries: of a full block, or the synthetic one that
keeps a partial block in the LRU cache. -/
inductive BlockHash (H : Type)
  | full (hash : H) (groupId : Nat)
  | partialBlock (block : BlockId) (lastSubHash : H) (groupId : Nat)
  deriving DecidableEq

structure KVCacheCopyOp where
  groupId : Nat
  srcBlockId : BlockId
  dstBlockId : BlockId
  numTokens : Nat
  deriving DecidableEq, Repr

/-- A partial match: for each group its source block and the index, in the
request's block list, of the block that receives the copy. -/
structure SubBlockMatch where
  request : ReqId
  numTokens : Nat
  groupMatches : List (BlockId × Nat)
  deriving DecidableEq, Repr

def SubBlockMatch.srcBlocks (subBlockMatch : SubBlockMatch) : List BlockId :=
  subBlockMatch.groupMatches.map Prod.fst

structure Manager (H : Type) where
  refCnt : BlockId → Nat
  blockHash : BlockId → Option (BlockHash H)
  reqToBlocks : ReqId → Blocks
  index : Nat → SubBlockIndex H
  reqSubHashes : ReqId → List H
  pendingCopyOps : List KVCacheCopyOp
  pendingIndexing : List (ReqId × (Nat → Nat))

namespace Manager

variable {H X : Type} [DecidableEq H]

def initial : Manager H where
  refCnt _ := 0
  blockHash _ := none
  reqToBlocks _ := Blocks.empty
  index _ := SubBlockIndex.empty
  reqSubHashes _ := []
  pendingCopyOps := []
  pendingIndexing := []

/-! ### The block pool -/

def touch (kv : Manager H) (blocks : List BlockId) : Manager H :=
  { kv with refCnt := fun b => kv.refCnt b + blocks.count b }

def freeBlocks (kv : Manager H) (blocks : List BlockId) : Manager H :=
  { kv with refCnt := fun b => kv.refCnt b - blocks.count b }

/-- `_maybe_evict_cached_block` with the hook on it: a block that carried a hash
also leaves every sub-block index. -/
def evict (kv : Manager H) (block : BlockId) : Manager H :=
  if (kv.blockHash block).isSome then
    { kv with
      blockHash := Function.update kv.blockHash block none
      index := fun group => (kv.index group).pop block }
  else kv

def getNewBlocks (kv : Manager H) (blocks : List BlockId) : Manager H :=
  (blocks.foldl evict kv).touch blocks

/-- All blocks of a per-group list. -/
def allBlocks (cfg : Config) (blocks : Blocks) : List BlockId :=
  (List.range cfg.numGroups).flatMap blocks

/-- The groups the configuration has, and nothing past them. -/
def restrict (cfg : Config) (blocks : Blocks) : Blocks :=
  fun group => if group < cfg.numGroups then blocks group else []

/-- Usable blocks, all but the null block 0, that nobody references. -/
def freeBlockIds (cfg : Config) (kv : Manager H) : List BlockId :=
  (List.range cfg.numBlocks).filter fun b => b ≠ 0 ∧ kv.refCnt b = 0

/-- Blocks of the group that `numTokens` tokens need beyond the request's own and
the hits. -/
def newBlockCount (cfg : Config) (kv : Manager H) (id : ReqId) (hits : Blocks) (numTokens : Nat)
    (group : Nat) : Nat :=
  if cfg.slidingWindow group then
    if kv.reqToBlocks id group = [] then 1 else 0
  else
    (min numTokens cfg.maxModelLen + cfg.blockSize group - 1) / cfg.blockSize group -
      ((kv.reqToBlocks id group).length + (hits group).length)

/-- New blocks plus the hits that touching takes out of the free queue. -/
def numBlocksToAllocate (cfg : Config) (kv : Manager H) (id : ReqId) (hits : Blocks)
    (numTokens : Nat) : Nat :=
  ((List.range cfg.numGroups).map (newBlockCount cfg kv id hits numTokens)).sum +
    (allBlocks cfg hits).countP (fun b => kv.refCnt b = 0)

/-- Deal the blocks at the front of the free queue out to the groups in turn. -/
def dealBlocks (cfg : Config) (counts : Nat → Nat) (freeQueue : List BlockId) : Blocks :=
  fun group => if group < cfg.numGroups then
    (freeQueue.drop ((List.range group).map counts).sum).take (counts group) else []

/-- The pool may hand out these blocks: enough for each group, all different, usable
and unreferenced once the hits are touched. -/
def validNewBlocks (cfg : Config) (kv : Manager H) (id : ReqId) (hits : Blocks) (numTokens : Nat)
    (newBlocks : Blocks) : Bool :=
  (∀ group ∈ List.range cfg.numGroups,
    (newBlocks group).length = newBlockCount cfg kv id hits numTokens group) ∧
  (allBlocks cfg newBlocks).Nodup ∧
  ∀ b ∈ allBlocks cfg newBlocks, b ∈ (kv.touch (allBlocks cfg hits)).freeBlockIds cfg

/-- The manager after it gave a request the hits and the new blocks. -/
def giveBlocks (cfg : Config) (kv : Manager H) (id : ReqId) (hits newBlocks : Blocks) : Manager H :=
  let kv := (kv.touch (allBlocks cfg hits)).getNewBlocks (allBlocks cfg newBlocks)
  { kv with
    reqToBlocks := Function.update kv.reqToBlocks id fun group =>
      kv.reqToBlocks id group ++ (hits group ++ newBlocks group) }

/-- `allocate_slots` with delayed caching, and the new blocks it returns. `wholeTokens`
is the token count that must fit when the caller asks for the full sequence;
`freeQueue` is the pool's queue, read after the hits are touched. -/
def allocateSlots (cfg : Config) (kv : Manager H) (id : ReqId) (numTokens : Nat)
    (wholeTokens : Option Nat) (hits : Blocks) (freeQueue : Manager H → List BlockId) :
    Option (Manager H × Blocks) :=
  let numFree := (kv.freeBlockIds cfg).length
  if wholeTokens.any fun n => numFree < numBlocksToAllocate cfg kv id hits n then none
  else if numFree < numBlocksToAllocate cfg kv id hits numTokens then none
  else
    let newBlocks := dealBlocks cfg (newBlockCount cfg kv id hits numTokens)
      (freeQueue (kv.touch (allBlocks cfg hits)))
    if validNewBlocks cfg kv id hits numTokens newBlocks then
      some (giveBlocks cfg kv id hits newBlocks, newBlocks)
    else none

/-! ### Hashes -/

/-- The chained hash of a request's full block. -/
def fullHash (cfg : Config) (hashing : Hashing H X) (id : ReqId) (tokens : List Token)
    (group blockIndex : Nat) : H :=
  HashChain.prefixHash hashing.hashBlockTokens (cfg.blockSize group)
    (fun start => hashing.extraKeys id start (start + cfg.blockSize group)) tokens blockIndex

/-- Full blocks found cached: `numTokens` of them, a whole number of blocks in every
group, short of the last token, each block under the hash of the request's own. -/
def validHits (cfg : Config) (hashing : Hashing H X) (kv : Manager H) (id : ReqId)
    (request : Request) (hits : Blocks) (numTokens : Nat) : Bool :=
  numTokens + 1 ≤ request.numTokens ∧
  ∀ group ∈ List.range cfg.numGroups,
    (hits group).length * cfg.blockSize group = numTokens ∧
    ∀ hit ∈ (hits group).zipIdx, kv.blockHash hit.1 =
      some (.full (fullHash cfg hashing id request.allTokenIds group hit.2) group)

/-- `get_computed_blocks`: what the pool found, or nothing. -/
def getComputedBlocks (cfg : Config) (hashing : Hashing H X) (kv : Manager H) (id : ReqId)
    (request : Request) (found : Blocks × Nat) : Blocks × Nat :=
  if ¬ request.skipReadingPrefixCache ∧
      validHits cfg hashing kv id request found.1 found.2 then
    (restrict cfg found.1, found.2)
  else (Blocks.empty, 0)

def cacheBlock (kv : Manager H) (block : BlockId) (hash : BlockHash H) : Manager H :=
  if (kv.blockHash block).isSome then kv
  else { kv with blockHash := Function.update kv.blockHash block (some hash) }

/-- `cache_blocks`: hash the full blocks below `numTokens`; a sliding window has none. -/
def cacheBlocks (cfg : Config) (hashing : Hashing H X) (kv : Manager H) (id : ReqId)
    (request : Request) (numTokens : Nat) : Manager H :=
  ((List.range cfg.numGroups).filter fun group => ¬ cfg.slidingWindow group).foldl (fun kv group =>
    (((kv.reqToBlocks id group).take (numTokens / cfg.blockSize group)).zipIdx).foldl
      (fun kv block => kv.cacheBlock block.1
        (.full (fullHash cfg hashing id request.allTokenIds group block.2) group)) kv) kv

/-- `SubBlockHasher.hash_tokens`, for the `count` full sub-blocks from `start` on. -/
def hashTokens (hashing : Hashing H X) (subBlockSize : Nat) (id : ReqId) (tokens : List Token) :
    Option H → Nat → Nat → List H
  | _, _, 0 => []
  | parentHash, start, count + 1 =>
      let hash := hashing.hashBlockTokens parentHash ((tokens.drop start).take subBlockSize)
        (hashing.extraKeys id start (start + subBlockSize))
      hash :: hashTokens hashing subBlockSize id tokens (some hash) (start + subBlockSize) count

/-- The recorded sub-block hashes, extended to the tokens the request has by now. -/
def computeSubHashes (hashing : Hashing H X) (subBlockSize : Nat) (id : ReqId)
    (tokens : List Token) (recorded : List H) : List H :=
  recorded ++ hashTokens hashing subBlockSize id tokens recorded.getLast?
    (recorded.length * subBlockSize) ((tokens.length - recorded.length * subBlockSize) / subBlockSize)

def getOrComputeSubHashes (hashing : Hashing H X) (subBlockSize : Nat) (kv : Manager H)
    (id : ReqId) (request : Request) : Manager H :=
  { kv with
    reqSubHashes := Function.update kv.reqSubHashes id
      (computeSubHashes hashing subBlockSize id request.allTokenIds (kv.reqSubHashes id)) }

/-! ### The index -/

/-- Record the request's sub-block hashes `subStart` to `subEnd` for a block. -/
def indexBlock (kv : Manager H) (id : ReqId) (group : Nat) (block : BlockId)
    (subStart subEnd : Nat) : Manager H :=
  { kv with index := Function.update kv.index group ((kv.index group).update block
      (((kv.reqSubHashes id).drop subStart).take (subEnd - subStart))) }

def onBlockCached (cfg : Config) (hashing : Hashing H X) (subBlockSize : Nat) (kv : Manager H)
    (id : ReqId) (request : Request) (group blockIndex : Nat) (block : BlockId) : Manager H :=
  let kv := getOrComputeSubHashes hashing subBlockSize kv id request
  let subBlocksPerBlock := cfg.blockSize group / subBlockSize
  let subStart := blockIndex * subBlocksPerBlock
  let subEnd := min (subStart + subBlocksPerBlock) (kv.reqSubHashes id).length
  if subEnd ≤ subStart then kv else kv.indexBlock id group block subStart subEnd

/-- Index the blocks from `numFullBlocksBefore` on that carry a hash by now. -/
def indexNewlyCachedBlocks (cfg : Config) (hashing : Hashing H X) (subBlockSize : Nat)
    (kv : Manager H) (id : ReqId) (request : Request) (numFullBlocksBefore : Nat → Nat) :
    Manager H :=
  (List.range cfg.numGroups).foldl (fun kv group =>
    (((kv.reqToBlocks id group).zipIdx).drop (numFullBlocksBefore group)).foldl
      (fun kv block => if (kv.blockHash block.1).isSome then
        onBlockCached cfg hashing subBlockSize kv id request group block.2 block.1 else kv) kv) kv

/-- One group of `_index_partial_block`. -/
def indexPartialGroup (cfg : Config) (subBlockSize : Nat) (id : ReqId) (request : Request)
    (markCached : Bool) (kv : Manager H) (group : Nat) : Manager H :=
  let remainder := request.numComputedTokens % cfg.blockSize group
  let lastBlkIdx := request.numComputedTokens / cfg.blockSize group
  match (kv.reqToBlocks id group)[lastBlkIdx]? with
  | none => kv
  | some block =>
      let subStart := lastBlkIdx * (cfg.blockSize group / subBlockSize)
      let subEnd := min (subStart + remainder / subBlockSize) (kv.reqSubHashes id).length
      if subEnd ≤ subStart then kv
      else
        let kv := kv.indexBlock id group block subStart subEnd
        match markCached, (kv.reqSubHashes id)[subEnd - 1]? with
        | true, some lastSubHash =>
            { kv with
              blockHash := Function.update kv.blockHash block
                (some (.partialBlock block lastSubHash group)) }
        | _, _ => kv

/-- Index the sub-blocks of each group's last partial block; on a free the block also
gets a synthetic hash. -/
def indexPartialBlock (cfg : Config) (hashing : Hashing H X) (subBlockSize : Nat)
    (kv : Manager H) (id : ReqId) (request : Request) (markCached : Bool) : Manager H :=
  (List.range cfg.numGroups).foldl (indexPartialGroup cfg subBlockSize id request markCached)
    (getOrComputeSubHashes hashing subBlockSize kv id request)

/-- Note that the request needs indexing; the earliest note stays. -/
def scheduleSubBlockIndexing (cfg : Config) (kv : Manager H) (id : ReqId) (request : Request) :
    Manager H :=
  if (kv.pendingIndexing.lookup id).isSome then kv
  else { kv with pendingIndexing := kv.pendingIndexing ++
      [(id, fun group => request.numComputedTokens / cfg.blockSize group)] }

def doPendingIndexing (cfg : Config) (hashing : Hashing H X) (subBlockSize : Nat)
    (kv : Manager H) (requests : ReqId → Request) : Manager H :=
  { kv.pendingIndexing.foldl (fun kv pending =>
      indexPartialBlock cfg hashing subBlockSize
        (indexNewlyCachedBlocks cfg hashing subBlockSize kv pending.1 (requests pending.1)
          pending.2) pending.1 (requests pending.1) false) kv with pendingIndexing := [] }

/-- Index what the request still owes, then drop its state. -/
def finalizeSubBlockState (cfg : Config) (hashing : Hashing H X) (subBlockSize : Nat)
    (kv : Manager H) (id : ReqId) (request : Request) : Manager H :=
  let pending := kv.pendingIndexing.lookup id
  let kv := { kv with pendingIndexing := kv.pendingIndexing.filter (·.1 ≠ id) }
  let kv := match pending with
    | some numFullBlocksBefore =>
        indexNewlyCachedBlocks cfg hashing subBlockSize kv id request numFullBlocksBefore
    | none => kv
  let kv := indexPartialBlock cfg hashing subBlockSize kv id request true
  { kv with reqSubHashes := Function.update kv.reqSubHashes id [] }

/-- What both ways of freeing do before the blocks leave the manager. -/
def settle (cfg : Config) (hashing : Hashing H X) (kv : Manager H) (id : ReqId)
    (request : Request) : Manager H :=
  match cfg.subBlockSize with
  | some subBlockSize => finalizeSubBlockState cfg hashing subBlockSize kv id request
  | none => kv

/-- Take a request's blocks out of the manager; their references stay. -/
def popBlocks (kv : Manager H) (id : ReqId) : Manager H :=
  { kv with reqToBlocks := Function.update kv.reqToBlocks id Blocks.empty }

def free (cfg : Config) (hashing : Hashing H X) (kv : Manager H) (id : ReqId)
    (request : Request) : Manager H :=
  let kv := settle cfg hashing kv id request
  (kv.freeBlocks (allBlocks cfg (kv.reqToBlocks id))).popBlocks id

/-- The deferred path keeps the references for the scheduler to give back. -/
def popBlocksForFree (cfg : Config) (hashing : Hashing H X) (kv : Manager H) (id : ReqId)
    (request : Request) : Manager H × List BlockId :=
  let kv := settle cfg hashing kv id request
  (kv.popBlocks id, allBlocks cfg (kv.reqToBlocks id))

/-! ### Partial matches and copy operations -/

/-- The groups' matches with their depths, or `none` once a group has no match. -/
def groupMatches (cfg : Config) (subBlockSize : Nat) (choose : List BlockId → Nat)
    (kv : Manager H) (subHashes : List H) (numComputedTokens : Nat) :
    List Nat → Option (List (BlockId × Nat × Nat))
  | [] => some []
  | group :: groups =>
      let numFullBlocks := numComputedTokens / cfg.blockSize group
      let subBlocksPerBlock := cfg.blockSize group / subBlockSize
      let query := (subHashes.drop (numFullBlocks * subBlocksPerBlock)).take (subBlocksPerBlock - 1)
      match (kv.index group).longestMatch choose none 0 query with
      | (none, _) => none
      | (some block, numMatched) =>
          (groupMatches cfg subBlockSize choose kv subHashes numComputedTokens groups).map
            ((block, numFullBlocks, numMatched) :: ·)

/-- `get_computed_blocks_sub_block`: look past the full-block hits for a partial match,
and pin its source blocks. -/
def getComputedBlocksSubBlock (cfg : Config) (hashing : Hashing H X) (subBlockSize : Nat)
    (choose : List BlockId → Nat) (kv : Manager H) (id : ReqId) (request : Request)
    (numComputedTokens : Nat) : Manager H × Option SubBlockMatch :=
  if request.skipReadingPrefixCache then (kv, none)
  else
    let kv := getOrComputeSubHashes hashing subBlockSize kv id request
    match groupMatches cfg subBlockSize choose kv (kv.reqSubHashes id) numComputedTokens
        (List.range cfg.numGroups) with
    | none => (kv, none)
    | some [] => (kv, none)
    | some (first :: rest) =>
        let minMatched := rest.foldl (fun least found => min least found.2.2) first.2.2
        let numMatched := min minMatched
          ((request.numTokens - 1 - numComputedTokens) / subBlockSize)
        if numMatched = 0 then (kv, none)
        else
          let subBlockMatch : SubBlockMatch :=
            ⟨id, numMatched * subBlockSize, (first :: rest).map fun found => (found.1, found.2.1)⟩
          (kv.touch subBlockMatch.srcBlocks, some subBlockMatch)

/-- The copy operations of a match, once its destination blocks exist. -/
def copyOps (kv : Manager H) (subBlockMatch : SubBlockMatch) : Option (List KVCacheCopyOp) :=
  subBlockMatch.groupMatches.zipIdx.mapM fun groupMatch =>
    ((kv.reqToBlocks subBlockMatch.request groupMatch.2)[groupMatch.1.2]?).map fun dst =>
      ⟨groupMatch.2, groupMatch.1.1, dst, subBlockMatch.numTokens⟩

def applySubBlockMatch (kv : Manager H) (subBlockMatch : SubBlockMatch) : Option (Manager H) :=
  (copyOps kv subBlockMatch).map fun ops =>
    { kv with pendingCopyOps := kv.pendingCopyOps ++ ops }

def releaseSubBlockMatch (kv : Manager H) (subBlockMatch : SubBlockMatch) : Manager H :=
  kv.freeBlocks subBlockMatch.srcBlocks

def drainPendingCopyOps (kv : Manager H) : Manager H := { kv with pendingCopyOps := [] }

def releaseCopyOps (kv : Manager H) (ops : List KVCacheCopyOp) : Manager H :=
  kv.freeBlocks (ops.map (·.srcBlockId))

/-! ### What the indexing operations leave alone -/

/-- Who holds which block: reference counts, block lists and pending copies. Hashing
and indexing never touch it. -/
def ownership (kv : Manager H) :
    (BlockId → Nat) × (ReqId → Blocks) × List KVCacheCopyOp :=
  (kv.refCnt, kv.reqToBlocks, kv.pendingCopyOps)

omit [DecidableEq H] in
theorem ownership_cacheBlock (kv : Manager H) (block : BlockId) (hash : BlockHash H) :
    (kv.cacheBlock block hash).ownership = kv.ownership := by
  unfold cacheBlock
  split <;> rfl

omit [DecidableEq H] in
@[simp]
theorem ownership_cacheBlocks (cfg : Config) (hashing : Hashing H X) (kv : Manager H) (id : ReqId)
    (request : Request) (numTokens : Nat) :
    (kv.cacheBlocks cfg hashing id request numTokens).ownership = kv.ownership :=
  foldl_keeps ownership (fun _ _ => foldl_keeps ownership
    (fun kv _ => ownership_cacheBlock kv _ _) _ _) _ _

theorem ownership_onBlockCached (cfg : Config) (hashing : Hashing H X) (subBlockSize : Nat)
    (kv : Manager H) (id : ReqId) (request : Request) (group blockIndex : Nat) (block : BlockId) :
    (onBlockCached cfg hashing subBlockSize kv id request group blockIndex block).ownership =
      kv.ownership := by
  unfold onBlockCached
  dsimp only
  split <;> rfl

@[simp]
theorem ownership_indexNewlyCachedBlocks (cfg : Config) (hashing : Hashing H X)
    (subBlockSize : Nat) (kv : Manager H) (id : ReqId) (request : Request)
    (numFullBlocksBefore : Nat → Nat) :
    (indexNewlyCachedBlocks cfg hashing subBlockSize kv id request
      numFullBlocksBefore).ownership = kv.ownership := by
  refine foldl_keeps ownership (fun kv group => foldl_keeps ownership (fun kv block => ?_) _ _) _ _
  split
  · exact ownership_onBlockCached ..
  · rfl

theorem ownership_indexPartialGroup (cfg : Config) (subBlockSize : Nat) (id : ReqId)
    (request : Request) (markCached : Bool) (kv : Manager H) (group : Nat) :
    (indexPartialGroup cfg subBlockSize id request markCached kv group).ownership =
      kv.ownership := by
  unfold indexPartialGroup
  dsimp only
  split
  · rfl
  · split
    · rfl
    · split <;> rfl

@[simp]
theorem ownership_indexPartialBlock (cfg : Config) (hashing : Hashing H X) (subBlockSize : Nat)
    (kv : Manager H) (id : ReqId) (request : Request) (markCached : Bool) :
    (indexPartialBlock cfg hashing subBlockSize kv id request markCached).ownership =
      kv.ownership :=
  foldl_keeps ownership (fun _ _ => ownership_indexPartialGroup ..) _ _

@[simp]
theorem ownership_doPendingIndexing (cfg : Config) (hashing : Hashing H X) (subBlockSize : Nat)
    (kv : Manager H) (requests : ReqId → Request) :
    (kv.doPendingIndexing cfg hashing subBlockSize requests).ownership = kv.ownership := by
  refine foldl_keeps ownership (fun kv pending => ?_) kv.pendingIndexing kv
  rw [ownership_indexPartialBlock, ownership_indexNewlyCachedBlocks]

omit [DecidableEq H] in
@[simp]
theorem ownership_scheduleSubBlockIndexing (cfg : Config) (kv : Manager H) (id : ReqId)
    (request : Request) : (kv.scheduleSubBlockIndexing cfg id request).ownership = kv.ownership := by
  unfold scheduleSubBlockIndexing
  split <;> rfl

@[simp]
theorem ownership_settle (cfg : Config) (hashing : Hashing H X) (kv : Manager H) (id : ReqId)
    (request : Request) : (kv.settle cfg hashing id request).ownership = kv.ownership := by
  unfold settle
  split
  · rename_i subBlockSize _
    unfold finalizeSubBlockState
    dsimp only
    change ownership (indexPartialBlock ..) = _
    rw [ownership_indexPartialBlock]
    split
    · rw [ownership_indexNewlyCachedBlocks]
      rfl
    · rfl
  · rfl

omit [DecidableEq H] in
theorem ownership_refCnt {kv kv' : Manager H} (hSame : kv.ownership = kv'.ownership) :
    kv.refCnt = kv'.refCnt := congrArg Prod.fst hSame

omit [DecidableEq H] in
theorem ownership_reqToBlocks {kv kv' : Manager H} (hSame : kv.ownership = kv'.ownership) :
    kv.reqToBlocks = kv'.reqToBlocks := congrArg (fun x => x.2.1) hSame

omit [DecidableEq H] in
theorem ownership_pendingCopyOps {kv kv' : Manager H} (hSame : kv.ownership = kv'.ownership) :
    kv.pendingCopyOps = kv'.pendingCopyOps := congrArg (fun x => x.2.2) hSame

/-! ### Allocation -/

theorem ownership_foldl_evict (kv : Manager H) (blocks : List BlockId) :
    (blocks.foldl evict kv).ownership = kv.ownership := by
  refine foldl_keeps ownership (fun kv block => ?_) blocks kv
  unfold evict
  split <;> rfl

theorem giveBlocks_refCnt (cfg : Config) (kv : Manager H) (id : ReqId) (hits newBlocks : Blocks)
    (b : BlockId) : (giveBlocks cfg kv id hits newBlocks).refCnt b =
      kv.refCnt b + (allBlocks cfg hits).count b + (allBlocks cfg newBlocks).count b := by
  have hSame := ownership_refCnt
    (ownership_foldl_evict (kv.touch (allBlocks cfg hits)) (allBlocks cfg newBlocks))
  simp only [giveBlocks, getNewBlocks, touch] at hSame ⊢
  rw [hSame]

theorem giveBlocks_reqToBlocks (cfg : Config) (kv : Manager H) (id : ReqId)
    (hits newBlocks : Blocks) : (giveBlocks cfg kv id hits newBlocks).reqToBlocks =
      Function.update kv.reqToBlocks id fun group =>
        kv.reqToBlocks id group ++ (hits group ++ newBlocks group) := by
  have hSame := ownership_reqToBlocks
    (ownership_foldl_evict (kv.touch (allBlocks cfg hits)) (allBlocks cfg newBlocks))
  simp only [giveBlocks, getNewBlocks, touch] at hSame ⊢
  rw [hSame]

theorem giveBlocks_pendingCopyOps (cfg : Config) (kv : Manager H) (id : ReqId)
    (hits newBlocks : Blocks) :
    (giveBlocks cfg kv id hits newBlocks).pendingCopyOps = kv.pendingCopyOps :=
  congrArg (fun owner => owner.2.2)
    (ownership_foldl_evict (kv.touch (allBlocks cfg hits)) (allBlocks cfg newBlocks))

/-- The new blocks of a successful allocation: as many as each group needs, all
different, and free once the hits are touched. -/
structure NewBlocks (cfg : Config) (kv : Manager H) (id : ReqId) (hits : Blocks) (numTokens : Nat)
    (newBlocks : Blocks) : Prop where
  length : ∀ group < cfg.numGroups,
    (newBlocks group).length = newBlockCount cfg kv id hits numTokens group
  nodup : (allBlocks cfg newBlocks).Nodup
  free : ∀ b ∈ allBlocks cfg newBlocks, b ∈ (kv.touch (allBlocks cfg hits)).freeBlockIds cfg
  groups : ∀ group, cfg.numGroups ≤ group → newBlocks group = []

theorem allocateSlots_spec {cfg : Config} {kv kv' : Manager H} {id : ReqId} {numTokens : Nat}
    {wholeTokens : Option Nat} {hits newBlocks : Blocks} {freeQueue : Manager H → List BlockId}
    (hAlloc : kv.allocateSlots cfg id numTokens wholeTokens hits freeQueue =
      some (kv', newBlocks)) :
    kv' = giveBlocks cfg kv id hits newBlocks ∧ NewBlocks cfg kv id hits numTokens newBlocks := by
  unfold allocateSlots at hAlloc
  dsimp only at hAlloc
  split at hAlloc
  · cases hAlloc
  split at hAlloc
  · cases hAlloc
  split at hAlloc
  · rename_i hValid
    simp only [Option.some.injEq, Prod.mk.injEq] at hAlloc
    obtain ⟨rfl, rfl⟩ := hAlloc
    simp only [validNewBlocks, decide_eq_true_eq, List.mem_range] at hValid
    refine ⟨rfl, hValid.1, hValid.2.1, hValid.2.2, ?_⟩
    intro group hLe
    simp [dealBlocks, Nat.not_lt.mpr hLe]
  · cases hAlloc

omit [DecidableEq H] in
theorem mem_freeBlockIds {cfg : Config} {kv : Manager H} {b : BlockId} :
    b ∈ kv.freeBlockIds cfg ↔ b < cfg.numBlocks ∧ b ≠ 0 ∧ kv.refCnt b = 0 := by
  simp [freeBlockIds]

omit [DecidableEq H] in
/-- A block the pool hands out was referenced by nobody, not even as a hit. -/
theorem NewBlocks.refCnt_eq_zero {cfg : Config} {kv : Manager H} {id : ReqId}
    {hits newBlocks : Blocks} {numTokens : Nat} (hNew : NewBlocks cfg kv id hits numTokens newBlocks)
    {b : BlockId} (hMem : b ∈ allBlocks cfg newBlocks) :
    kv.refCnt b = 0 ∧ b ∉ allBlocks cfg hits := by
  have hFree := (mem_freeBlockIds.mp (hNew.free b hMem)).2.2
  simp only [touch, Nat.add_eq_zero_iff, List.count_eq_zero] at hFree
  exact hFree

omit [DecidableEq H] in
theorem mem_allBlocks {cfg : Config} {blocks : Blocks} {b : BlockId} :
    b ∈ allBlocks cfg blocks ↔ ∃ group < cfg.numGroups, b ∈ blocks group := by
  simp [allBlocks]

/-! ### Cached full blocks -/

/-- What a lookup of full blocks promises: whole blocks in every group, short of the
last token, each under the hash of the request's own block. -/
structure CachedHits (cfg : Config) (hashing : Hashing H X) (kv : Manager H) (id : ReqId)
    (request : Request) (hits : Blocks) (numTokens : Nat) : Prop where
  short : numTokens = 0 ∨ numTokens + 1 ≤ request.numTokens
  length : ∀ group < cfg.numGroups, (hits group).length * cfg.blockSize group = numTokens
  hash : ∀ group < cfg.numGroups, ∀ i b, (hits group)[i]? = some b →
    kv.blockHash b = some (.full (fullHash cfg hashing id request.allTokenIds group i) group)
  groups : ∀ group, cfg.numGroups ≤ group → hits group = []

omit [DecidableEq H] in
theorem CachedHits.none (cfg : Config) (hashing : Hashing H X) (kv : Manager H) (id : ReqId)
    (request : Request) : CachedHits cfg hashing kv id request Blocks.empty 0 where
  short := .inl rfl
  length := by simp [Blocks.empty]
  hash := by simp [Blocks.empty]
  groups _ _ := rfl

theorem getComputedBlocks_spec {cfg : Config} {hashing : Hashing H X} {kv : Manager H} {id : ReqId}
    {request : Request} {found : Blocks × Nat} {hits : Blocks} {numTokens : Nat}
    (hGet : kv.getComputedBlocks cfg hashing id request found = (hits, numTokens)) :
    CachedHits cfg hashing kv id request hits numTokens := by
  unfold getComputedBlocks at hGet
  split at hGet
  · rename_i hValid
    obtain ⟨-, hValid⟩ := hValid
    simp only [validHits, decide_eq_true_eq, List.mem_range] at hValid
    obtain ⟨hShort, hGroups⟩ := hValid
    simp only [Prod.mk.injEq] at hGet
    obtain ⟨rfl, rfl⟩ := hGet
    refine ⟨.inr hShort, fun group hLt => ?_, fun group hLt i b hGetElem => ?_,
      fun group hLe => ?_⟩
    · simpa [restrict, hLt] using (hGroups group hLt).1
    · simp only [restrict, hLt, if_true] at hGetElem
      exact (hGroups group hLt).2 (b, i) (List.mk_mem_zipIdx_iff_getElem?.mpr hGetElem)
    · simp [restrict, Nat.not_lt.mpr hLe]
  · simp only [Prod.mk.injEq] at hGet
    obtain ⟨rfl, rfl⟩ := hGet
    exact .none ..

/-! ### Partial matches -/

/-- A partial match in one group: the source block holds the last matched hash of the
block after the `numComputedTokens` already found. -/
def MatchesGroup (cfg : Config) (subBlockSize : Nat) (kv : Manager H) (subHashes : List H)
    (numComputedTokens group : Nat) (found : BlockId × Nat × Nat) : Prop :=
  found.2.1 = numComputedTokens / cfg.blockSize group ∧ 0 < found.2.2 ∧
    found.2.2 < cfg.blockSize group / subBlockSize ∧
    ∃ h, subHashes[found.2.1 * (cfg.blockSize group / subBlockSize) + found.2.2 - 1]? = some h ∧
      found.1 ∈ (kv.index group).hashToBlocks h

omit [DecidableEq H] in
theorem groupMatches_spec {cfg : Config} {subBlockSize : Nat} {choose : List BlockId → Nat}
    {kv : Manager H} {subHashes : List H} {numComputedTokens : Nat} {groups : List Nat}
    {found : List (BlockId × Nat × Nat)}
    (hFound : groupMatches cfg subBlockSize choose kv subHashes numComputedTokens groups =
      some found) :
    List.Forall₂ (MatchesGroup cfg subBlockSize kv subHashes numComputedTokens) groups found := by
  induction groups generalizing found with
  | nil =>
      simp only [groupMatches, Option.some.injEq] at hFound
      exact hFound ▸ .nil
  | cons group groups ih =>
      simp only [groupMatches] at hFound
      split at hFound
      · cases hFound
      · rename_i block numMatched hMatch
        simp only [Option.map_eq_some_iff] at hFound
        obtain ⟨rest, hRest, rfl⟩ := hFound
        refine .cons ?_ (ih hRest)
        rcases SubBlockIndex.longestMatch_spec _ _ _ hMatch with ⟨hBest, -⟩ | ⟨k, h, hDepth, hGet, hMem⟩
        · cases hBest
        · have hLt : k < cfg.blockSize group / subBlockSize - 1 := by
            by_contra hNot
            rw [List.getElem?_take, if_neg hNot] at hGet
            cases hGet
          rw [List.getElem?_take, if_pos hLt, List.getElem?_drop] at hGet
          refine ⟨rfl, by simp only; omega, by simp only; omega, h, ?_, hMem⟩
          rw [← hGet]
          congr 1
          simp only
          omega

/-- What a returned match promises: a source block in every group, and a whole number
of sub-blocks that every group matched and that leaves the last token to compute. -/
structure PartialMatch (cfg : Config) (subBlockSize : Nat) (kv : Manager H) (id : ReqId)
    (request : Request) (numComputedTokens : Nat) (subBlockMatch : SubBlockMatch) : Prop where
  request_eq : subBlockMatch.request = id
  exists_found : ∃ found numMatched,
    List.Forall₂ (MatchesGroup cfg subBlockSize kv (kv.reqSubHashes id) numComputedTokens)
      (List.range cfg.numGroups) found ∧
    subBlockMatch.groupMatches = found.map (fun group => (group.1, group.2.1)) ∧
    subBlockMatch.numTokens = numMatched * subBlockSize ∧ 0 < numMatched ∧
    (∀ group ∈ found, numMatched ≤ group.2.2) ∧
    numComputedTokens + numMatched * subBlockSize + 1 ≤ request.numTokens

private theorem foldl_min_le (found : List (BlockId × Nat × Nat)) (least : Nat) :
    found.foldl (fun least group => min least group.2.2) least ≤ least ∧
      ∀ group ∈ found, found.foldl (fun least group => min least group.2.2) least ≤ group.2.2 := by
  induction found generalizing least with
  | nil => simp
  | cons group found ih =>
      obtain ⟨hLeast, hFound⟩ := ih (min least group.2.2)
      refine ⟨by simp only [List.foldl_cons]; omega, ?_⟩
      intro other hMem
      rcases List.mem_cons.mp hMem with rfl | hMem
      · simp only [List.foldl_cons]; omega
      · exact hFound other hMem

omit [DecidableEq H] in
/-- The lookup records the request's hashes, and pins the source blocks of a match. -/
theorem getComputedBlocksSubBlock_spec {cfg : Config} {hashing : Hashing H X} {subBlockSize : Nat}
    {choose : List BlockId → Nat} {kv kv' : Manager H} {id : ReqId} {request : Request}
    {numComputedTokens : Nat} {found : Option SubBlockMatch} (hSub : 0 < subBlockSize)
    (hGet : kv.getComputedBlocksSubBlock cfg hashing subBlockSize choose id request
      numComputedTokens = (kv', found)) :
    (found = none ∧ (kv' = kv ∨ kv' = kv.getOrComputeSubHashes hashing subBlockSize id request)) ∨
      ∃ subBlockMatch, found = some subBlockMatch ∧
        kv' = (kv.getOrComputeSubHashes hashing subBlockSize id request).touch
          subBlockMatch.srcBlocks ∧
        PartialMatch cfg subBlockSize (kv.getOrComputeSubHashes hashing subBlockSize id request)
          id request numComputedTokens subBlockMatch := by
  unfold getComputedBlocksSubBlock at hGet
  dsimp only at hGet
  split at hGet
  · simp only [Prod.mk.injEq] at hGet
    exact .inl ⟨hGet.2.symm, .inl hGet.1.symm⟩
  split at hGet
  · simp only [Prod.mk.injEq] at hGet
    exact .inl ⟨hGet.2.symm, .inr hGet.1.symm⟩
  · simp only [Prod.mk.injEq] at hGet
    exact .inl ⟨hGet.2.symm, .inr hGet.1.symm⟩
  · rename_i first rest hGroups
    split at hGet
    · simp only [Prod.mk.injEq] at hGet
      exact .inl ⟨hGet.2.symm, .inr hGet.1.symm⟩
    · rename_i hPos
      simp only [Prod.mk.injEq] at hGet
      refine .inr ⟨_, hGet.2.symm, hGet.1.symm, rfl, first :: rest, _, groupMatches_spec hGroups,
        rfl, rfl, Nat.pos_of_ne_zero hPos, ?_, ?_⟩
      · obtain ⟨hFirst, hRest⟩ := foldl_min_le rest first.2.2
        intro group hMem
        rcases List.mem_cons.mp hMem with rfl | hMem
        · exact le_trans (Nat.min_le_left _ _) hFirst
        · exact le_trans (Nat.min_le_left _ _) (hRest group hMem)
      · set allowed := (request.numTokens - 1 - numComputedTokens) / subBlockSize with hAllowed
        set least := List.foldl (fun least found => min least found.2.2) first.2.2 rest
        have hLe : min least allowed * subBlockSize ≤ request.numTokens - 1 - numComputedTokens :=
          le_trans (Nat.mul_le_mul_right _ (Nat.min_le_right _ _)) (Nat.div_mul_le_self _ _)
        have hOne : 1 * subBlockSize ≤ min least allowed * subBlockSize :=
          Nat.mul_le_mul_right _ (Nat.pos_of_ne_zero hPos)
        omega

end Manager

end VllmRbln.SubBlock
