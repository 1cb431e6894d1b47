import Mathlib.Data.List.Nodup
import Mathlib.Data.List.Perm.Basic
import Mathlib.Data.List.Range

/-! Outer blocks of the optimum path (`v1/core/prefix_cache_manager/`). The compiled model
addresses large outer blocks, vLLM's pool hands out small inner ones; the mapping manager
records which inner blocks an outer block stands for, the allocator which outer blocks are in
use, and a FIFO policy which of the unused ones go first. -/
namespace VllmRbln.Optimum

set_option linter.unusedSectionVars false

/-! ### The mapping manager -/

structure BlockMapping where
  innerBlockIds : List Nat
  requestId : Option Nat
  isActive : Bool
  deriving DecidableEq, Repr

@[ext]
structure BlockMappingManager where
  blockMappings : Nat → Option BlockMapping
  innerToOuter : Nat → Option Nat
  requestToOuterBlocks : Nat → Option (List Nat)

def BlockMappingManager.initial : BlockMappingManager where
  blockMappings := fun _ => none
  innerToOuter := fun _ => none
  requestToOuterBlocks := fun _ => none

/-- `get_inner_blocks_for_outer`. -/
def BlockMappingManager.innerBlocksForOuter (m : BlockMappingManager) (outer : Nat) : List Nat :=
  ((m.blockMappings outer).map BlockMapping.innerBlockIds).getD []

/-- An entry of `get_inactive_mappings`. -/
def BlockMappingManager.isInactive (m : BlockMappingManager) (outer : Nat) : Bool :=
  (m.blockMappings outer).any fun mapping => !mapping.isActive

/-- `_detach_inner_from_stale_outer`. -/
def BlockMappingManager.detachInnerFromStaleOuter (m : BlockMappingManager)
    (inner newOuter : Nat) : BlockMappingManager :=
  match m.innerToOuter inner with
  | none => m
  | some prevOuter =>
      if prevOuter = newOuter then m
      else
        match m.blockMappings prevOuter with
        | none => m
        | some mapping =>
            { m with
              blockMappings := Function.update m.blockMappings prevOuter
                (some { mapping with innerBlockIds := mapping.innerBlockIds.erase inner }) }

/-- `add_new_inner_to_outer`. -/
def BlockMappingManager.addNewInnerToOuter (m : BlockMappingManager) (outer inner : Nat) :
    BlockMappingManager :=
  let m := m.detachInnerFromStaleOuter inner outer
  { m with innerToOuter := Function.update m.innerToOuter inner (some outer) }

def BlockMappingManager.setMapping (m : BlockMappingManager) (outer : Nat)
    (mapping : BlockMapping) : BlockMappingManager :=
  { m with blockMappings := Function.update m.blockMappings outer (some mapping) }

/-- `create_mapping`. -/
def BlockMappingManager.createMapping (m : BlockMappingManager) (outer : Nat)
    (inner : List Nat) (requestId : Nat) : BlockMappingManager :=
  let m := inner.foldl (fun m ib => m.addNewInnerToOuter outer ib)
    (m.setMapping outer ⟨inner, some requestId, true⟩)
  { m with
    requestToOuterBlocks := Function.update m.requestToOuterBlocks requestId
      (some ((m.requestToOuterBlocks requestId).getD [] ++ [outer])) }

/-- `remove_mapping`. -/
def BlockMappingManager.removeMapping (m : BlockMappingManager) (outer : Nat) :
    BlockMappingManager :=
  { m with
    innerToOuter := fun inner =>
      if inner ∈ m.innerBlocksForOuter outer then none else m.innerToOuter inner
    blockMappings := Function.update m.blockMappings outer none }

/-- `remove_request`, without the list it returns. -/
def BlockMappingManager.removeRequest (m : BlockMappingManager) (requestId : Nat) :
    BlockMappingManager :=
  { m with requestToOuterBlocks := Function.update m.requestToOuterBlocks requestId none }

/-! ### The allocator -/

structure BlockAllocator where
  freeBlocks : List Nat
  allocatedBlocks : List Nat

def BlockAllocator.initial (numBlocks : Nat) : BlockAllocator where
  freeBlocks := List.range numBlocks
  allocatedBlocks := []

/-- `allocate`; `none` is the error for too few free blocks. -/
def BlockAllocator.allocate (a : BlockAllocator) (count : Nat) :
    Option (List Nat × BlockAllocator) :=
  if a.freeBlocks.length < count then none
  else some (a.freeBlocks.take count,
    ⟨a.freeBlocks.drop count, a.allocatedBlocks ++ a.freeBlocks.take count⟩)

def BlockAllocator.deallocate (a : BlockAllocator) (outer : Nat) : BlockAllocator :=
  if outer ∈ a.allocatedBlocks then ⟨a.freeBlocks ++ [outer], a.allocatedBlocks.erase outer⟩ else a

/-! ### The prefix cache manager -/

/-- `BlockConfiguration`: an outer block is `blockRatio` inner ones. -/
structure BlockConfiguration where
  ibSize : Nat
  blockRatio : Nat
  maxModelLen : Nat
  maxNumSeqs : Nat
  numInnerBlocks : Nat
  ibSize_pos : 0 < ibSize
  blockRatio_pos : 0 < blockRatio

def BlockConfiguration.obSize (cfg : BlockConfiguration) : Nat :=
  cfg.blockRatio * cfg.ibSize

/-- `math.ceil(a / b)`. -/
def ceilDiv (a b : Nat) : Nat := (a + b - 1) / b

def BlockConfiguration.numOb (cfg : BlockConfiguration) : Nat :=
  ceilDiv cfg.numInnerBlocks cfg.blockRatio

/-- A call of `_evict_block`: the record it removes, and the request whose preemption asked for
it, if one did. -/
structure Eviction where
  outer : Nat
  mapping : BlockMapping
  preempted : Option Nat
  deriving DecidableEq, Repr

/-- `RBLNPrefixKVCacheManager`, with the evictions so far. -/
structure PrefixCacheManager where
  mappingManager : BlockMappingManager
  allocator : BlockAllocator
  allocationOrder : List Nat
  evictions : List Eviction

def PrefixCacheManager.initial (cfg : BlockConfiguration) : PrefixCacheManager where
  mappingManager := .initial
  allocator := .initial cfg.numOb
  allocationOrder := []
  evictions := []

/-- `FIFOEvictionPolicy.select_blocks_for_eviction`. -/
def PrefixCacheManager.selectBlocksForEviction (p : PrefixCacheManager) (count : Nat) : List Nat :=
  let evictableBlocks := p.allocationOrder.filter p.mappingManager.isInactive
  if evictableBlocks.length < count then [] else evictableBlocks.take count

/-- `_evict_block`. -/
def PrefixCacheManager.evictBlock (preempted : Option Nat) (p : PrefixCacheManager)
    (outer : Nat) : PrefixCacheManager :=
  match p.mappingManager.blockMappings outer with
  | none => { p with mappingManager := p.mappingManager.removeMapping outer }
  | some mapping =>
      if outer ∈ p.allocator.allocatedBlocks then
        { mappingManager := p.mappingManager.removeMapping outer
          allocator := p.allocator.deallocate outer
          allocationOrder := p.allocationOrder.erase outer
          evictions := p.evictions ++ [⟨outer, mapping, preempted⟩] }
      else { p with mappingManager := p.mappingManager.removeMapping outer }

/-- `_compute_num_blocks_to_allocate`. -/
def BlockConfiguration.computeNumBlocksToAllocate (cfg : BlockConfiguration)
    (numInnerBlocks numAllocatedTokens : Nat) : Nat :=
  if numInnerBlocks = 0 then 0
  else if numAllocatedTokens = 0 then ceilDiv numInnerBlocks cfg.blockRatio
  else if numAllocatedTokens / cfg.ibSize % cfg.blockRatio = 0 then 1
  else 0

/-- `can_allocate`: makes room by evicting when it can. -/
def PrefixCacheManager.canAllocate (p : PrefixCacheManager) (cfg : BlockConfiguration)
    (numNewBlocks numComputedTokens : Nat) : Bool × PrefixCacheManager :=
  let requiredNumOb := cfg.computeNumBlocksToAllocate numNewBlocks numComputedTokens
  let freeCount := p.allocator.freeBlocks.length
  if requiredNumOb ≤ freeCount then (true, p)
  else
    let evictCount := requiredNumOb - freeCount
    let blocksToEvict := p.selectBlocksForEviction evictCount
    if evictCount ≤ blocksToEvict.length then (true, blocksToEvict.foldl (evictBlock none) p)
    else (false, p)

/-- The body of the loop of `_allocate_new_blocks`. -/
def PrefixCacheManager.createAndRegister (p : PrefixCacheManager) (outer : Nat)
    (inner : List Nat) (requestId : Nat) : PrefixCacheManager :=
  { p with
    mappingManager := p.mappingManager.createMapping outer inner requestId
    allocationOrder := p.allocationOrder ++ [outer] }

/-- The loop of `_allocate_new_blocks`; `none` is the assertion of `register_block`. -/
def PrefixCacheManager.createMappings (cfg : BlockConfiguration) (requestId : Nat)
    (innerBlocks : List Nat) : Nat → List Nat → PrefixCacheManager → Option PrefixCacheManager
  | _, [], p => some p
  | i, outer :: rest, p =>
      if outer ∈ p.allocationOrder then none
      else createMappings cfg requestId innerBlocks (i + 1) rest
        (p.createAndRegister outer
          ((innerBlocks.drop (i * cfg.blockRatio)).take cfg.blockRatio) requestId)

/-- `_allocate_new_blocks`. -/
def PrefixCacheManager.allocateNewBlocks (p : PrefixCacheManager) (cfg : BlockConfiguration)
    (requestId numNewOb : Nat) (innerBlocks : List Nat) : Option PrefixCacheManager := do
  if numNewOb = 0 then none
  let (newBlocks, allocator) ← p.allocator.allocate numNewOb
  createMappings cfg requestId innerBlocks 0 newBlocks { p with allocator }

/-- `_append_to_existing_block`. -/
def PrefixCacheManager.appendToExistingBlock (p : PrefixCacheManager) (outer : Nat)
    (innerBlocks : List Nat) : Option PrefixCacheManager :=
  match innerBlocks, p.mappingManager.blockMappings outer with
  | [inner], some mapping =>
      let m := p.mappingManager.setMapping outer
        { mapping with innerBlockIds := mapping.innerBlockIds ++ [inner] }
      some { p with mappingManager := m.addNewInnerToOuter outer inner }
  | _, _ => none

/-- `allocate_blocks`; `none` where an assertion or another error stops it. -/
def PrefixCacheManager.allocateBlocks (p : PrefixCacheManager) (cfg : BlockConfiguration)
    (requestId numAllocatedTokens : Nat) (innerBlocks : List Nat) : Option PrefixCacheManager :=
  if innerBlocks = [] then some p
  else
    let numNewOb := cfg.computeNumBlocksToAllocate innerBlocks.length numAllocatedTokens
    if p.allocator.freeBlocks.length < numNewOb then none
    else
      match p.mappingManager.requestToOuterBlocks requestId with
      | none => p.allocateNewBlocks cfg requestId numNewOb innerBlocks
      | some requestBlocks =>
          if 0 < numNewOb then p.allocateNewBlocks cfg requestId numNewOb innerBlocks
          else requestBlocks.getLast?.bind fun last => p.appendToExistingBlock last innerBlocks

/-- What `free_request` does to a finished request's block. -/
def PrefixCacheManager.deactivate (p : PrefixCacheManager) (outer : Nat) :
    Option PrefixCacheManager :=
  (p.mappingManager.blockMappings outer).map fun mapping =>
    { p with
      mappingManager := p.mappingManager.setMapping outer
        { mapping with isActive := false, requestId := none } }

/-- `free_request`; `none` is the assertion on a missing mapping. -/
def PrefixCacheManager.freeRequest (p : PrefixCacheManager) (requestId : Nat)
    (preemption : Bool) : Option PrefixCacheManager :=
  let outerBlocks := (p.mappingManager.requestToOuterBlocks requestId).getD []
  let p := { p with mappingManager := p.mappingManager.removeRequest requestId }
  if preemption then some (outerBlocks.foldl (evictBlock (some requestId)) p)
  else outerBlocks.foldlM deactivate p

/-- `is_full_block_available`. -/
def BlockConfiguration.isFullBlockAvailable (cfg : BlockConfiguration) : Bool :=
  cfg.maxNumSeqs * ceilDiv cfg.maxModelLen cfg.obSize ≤ cfg.numOb

/-- `get_dummy_block`; `none` is its error, and the state shows what it evicted. -/
def PrefixCacheManager.getDummyBlock (p : PrefixCacheManager) (cfg : BlockConfiguration) :
    Option (Nat × PrefixCacheManager) :=
  if !cfg.isFullBlockAvailable then some (cfg.numOb, p)
  else
    match p.canAllocate cfg 1 0 with
    | (false, _) => none
    | (true, p) => p.allocator.freeBlocks.head?.map fun dummyBlock => (dummyBlock, p)

end VllmRbln.Optimum
