import VllmRbln.Optimum.Allocation
import VllmRbln.Common.HashChain

/-! The KV cache manager of the optimum path (`v1/core/optimum_kv_cache_manager.py`) and the
requests that `v1/core/optimum_scheduler.py` runs on it: a prefill takes all its slots in one
step, a decode one slot a step, and inner blocks keep their hashes until they are handed out
again. -/
namespace VllmRbln.Optimum

set_option linter.unusedSectionVars false

variable {H T : Type*} [DecidableEq H]

/-- `RBLNKVCacheManager` over its block pool: the free inner blocks, the holders of each hash
in the order they were cached, and the blocks of each request. -/
structure KvCacheManager (H : Type*) where
  prefixCacheManager : PrefixCacheManager
  freeBlocks : List Nat
  cachedBlockHashToBlock : H → List Nat
  blockHash : Nat → Option H
  reqToBlocks : Nat → List Nat
  numCachedBlock : Nat → Nat

/-- Block `0` is the null block. -/
def KvCacheManager.initial (cfg : BlockConfiguration) : KvCacheManager H where
  prefixCacheManager := .initial cfg
  freeBlocks := List.range' 1 cfg.numInnerBlocks
  cachedBlockHashToBlock := fun _ => []
  blockHash := fun _ => none
  reqToBlocks := fun _ => []
  numCachedBlock := fun _ => 0

/-- `get_num_blocks_to_allocate`. -/
def KvCacheManager.numBlocksToAllocate (kv : KvCacheManager H) (cfg : BlockConfiguration)
    (requestId numTokens : Nat) : Nat :=
  ceilDiv (min numTokens cfg.maxModelLen) cfg.ibSize - (kv.reqToBlocks requestId).length

/-- `allocate_new_blocks`: the pool's new blocks lose the hashes they still have. -/
def KvCacheManager.allocateNewBlocks (kv : KvCacheManager H) (requestId : Nat)
    (new : List Nat) : KvCacheManager H :=
  { kv with
    freeBlocks := kv.freeBlocks.filter fun ib => ib ∉ new
    cachedBlockHashToBlock := fun hash =>
      (kv.cachedBlockHashToBlock hash).filter fun ib => ib ∉ new
    blockHash := fun ib => if ib ∈ new then none else kv.blockHash ib
    reqToBlocks := Function.update kv.reqToBlocks requestId (kv.reqToBlocks requestId ++ new) }

/-- One block of `cache_full_blocks`. -/
def KvCacheManager.cacheFullBlock (kv : KvCacheManager H) (ib : Nat) (hash : H) :
    KvCacheManager H :=
  { kv with
    cachedBlockHashToBlock := Function.update kv.cachedBlockHashToBlock hash
      (kv.cachedBlockHashToBlock hash ++ [ib])
    blockHash := Function.update kv.blockHash ib (some hash) }

/-- `cache_full_blocks`, from the `i`-th block of the request on. -/
def KvCacheManager.cacheFullBlocks (hashes : Nat → H) :
    Nat → List Nat → KvCacheManager H → KvCacheManager H
  | _, [], kv => kv
  | i, ib :: rest, kv => cacheFullBlocks hashes (i + 1) rest (kv.cacheFullBlock ib (hashes i))

/-- `cache_blocks`: the full blocks among the first `num_tokens` tokens get their hashes. -/
def KvCacheManager.cacheBlocks (kv : KvCacheManager H) (cfg : BlockConfiguration)
    (hashes : Nat → H) (requestId numTokens : Nat) : KvCacheManager H :=
  let numFullBlocks := numTokens / cfg.ibSize
  let numCached := kv.numCachedBlock requestId
  if numFullBlocks ≤ numCached then kv
  else
    let newFullBlocks := ((kv.reqToBlocks requestId).take numFullBlocks).drop numCached
    let cached := cacheFullBlocks hashes numCached newFullBlocks kv
    { cached with numCachedBlock := Function.update cached.numCachedBlock requestId numFullBlocks }

/-- `allocate_slots`: `some (false, _)` is its `None`, and `none` an error. -/
def KvCacheManager.allocateSlots (kv : KvCacheManager H) (cfg : BlockConfiguration)
    (hashes : Nat → H) (requestId numTokens numComputedTokens numNewTokens : Nat)
    (new : List Nat) : Option (Bool × KvCacheManager H) :=
  let numBlocks := kv.numBlocksToAllocate cfg requestId numTokens
  if kv.freeBlocks.length < numBlocks then some (false, kv)
  else
    match kv.prefixCacheManager.canAllocate cfg numBlocks numComputedTokens with
    | (false, p) => some (false, { kv with prefixCacheManager := p })
    | (true, p) =>
        (p.allocateBlocks cfg requestId numComputedTokens new).map fun p =>
          (true, { kv.allocateNewBlocks requestId new with prefixCacheManager := p }.cacheBlocks cfg
            hashes requestId numNewTokens)

/-- `free`; `none` is an error of `free_request`. -/
def KvCacheManager.free (kv : KvCacheManager H) (requestId : Nat) (preemption : Bool) :
    Option (KvCacheManager H) :=
  (kv.prefixCacheManager.freeRequest requestId preemption).map fun p =>
    { kv with
      prefixCacheManager := p
      freeBlocks := kv.freeBlocks ++ kv.reqToBlocks requestId
      reqToBlocks := Function.update kv.reqToBlocks requestId []
      numCachedBlock := Function.update kv.numCachedBlock requestId 0 }

/-- A running request. A token stands for everything its KV depends on besides the tokens
before it. -/
structure Request (T : Type*) where
  tokens : List T
  numComputedTokens : Nat

/-- The running requests over their cache. -/
structure Scheduler (H T : Type*) where
  kv : KvCacheManager H
  running : Nat → Option (Request T)

def Scheduler.initial (cfg : BlockConfiguration) : Scheduler H T where
  kv := .initial cfg
  running := fun _ => none

/-- What can happen between two states. `new` is what the pool hands out, `sample` the token
a step leaves a request with, and `dummyBlock` the padding block of a decode batch. -/
inductive Action (T : Type*)
  | prefill (requestId : Nat) (tokens : List T) (new : List Nat)
  | sample (requestId : Nat) (token : T)
  | decode (requestId : Nat) (new : List Nat)
  | finish (requestId : Nat)
  | preempt (requestId : Nat)
  | dummyBlock

/-- How block hashes chain over the tokens. -/
abbrev BlockHashing (H T : Type*) := Option H → List T → Unit → H

/-- `request.block_hashes`. -/
def blockHashes (hash : BlockHashing H T) (cfg : BlockConfiguration) (tokens : List T) : Nat → H :=
  HashChain.prefixHash hash cfg.ibSize (fun _ => ()) tokens

/-- A step; `none` is an assertion or another error. -/
def Scheduler.step (hash : BlockHashing H T) (cfg : BlockConfiguration) (s : Scheduler H T) :
    Action T → Option (Scheduler H T)
  | .prefill requestId tokens new =>
      (s.kv.allocateSlots cfg (blockHashes hash cfg tokens) requestId tokens.length 0 tokens.length
        new).map fun
        | (false, kv) => { s with kv }
        | (true, kv) =>
            ⟨kv, Function.update s.running requestId (some ⟨tokens, tokens.length⟩)⟩
  | .sample requestId token =>
      some { s with
        running := Function.update s.running requestId ((s.running requestId).map fun request =>
          { request with tokens := request.tokens ++ [token] }) }
  | .decode requestId new =>
      (s.running requestId).bind fun request =>
        (s.kv.allocateSlots cfg (blockHashes hash cfg request.tokens) requestId
          request.tokens.length request.numComputedTokens 1 new).map fun
          | (false, kv) => { s with kv }
          | (true, kv) =>
              ⟨kv, Function.update s.running requestId
                (some { request with numComputedTokens := request.numComputedTokens + 1 })⟩
  | .finish requestId =>
      (s.kv.free requestId false).map fun kv => ⟨kv, Function.update s.running requestId none⟩
  | .preempt requestId =>
      (s.kv.free requestId true).map fun kv => ⟨kv, Function.update s.running requestId none⟩
  | .dummyBlock =>
      (s.kv.prefixCacheManager.getDummyBlock cfg).map fun dummy =>
        { s with kv := { s.kv with prefixCacheManager := dummy.2 } }

/-- What the pool guarantees of the blocks it hands out, when it has enough. -/
def KvCacheManager.Gives (kv : KvCacheManager H) (numBlocks : Nat) (new : List Nat) : Prop :=
  numBlocks ≤ kv.freeBlocks.length →
    new.length = numBlocks ∧ new.Nodup ∧ ∀ ib ∈ new, ib ∈ kv.freeBlocks

/-- What the scheduler guarantees of a step: a prefill is for a request that is not running and
has all its tokens scheduled, a decode for one that has a token sampled since its last step,
both within the model's length. -/
def Scheduler.Legal (cfg : BlockConfiguration) (s : Scheduler H T) : Action T → Prop
  | .prefill requestId tokens new =>
      s.running requestId = none ∧ 0 < tokens.length ∧ tokens.length ≤ cfg.maxModelLen ∧
        s.kv.Gives (s.kv.numBlocksToAllocate cfg requestId tokens.length) new
  | .sample requestId _ => ∃ request, s.running requestId = some request ∧
      request.tokens.length = request.numComputedTokens
  | .decode requestId new => ∃ request, s.running requestId = some request ∧
      request.tokens.length = request.numComputedTokens + 1 ∧
      request.tokens.length ≤ cfg.maxModelLen ∧
      s.kv.Gives (s.kv.numBlocksToAllocate cfg requestId request.tokens.length) new
  | .finish _ => True
  | .preempt requestId => ∃ request, s.running requestId = some request
  | .dummyBlock => True

/-- The states of a run. -/
inductive Reaches (hash : BlockHashing H T) (cfg : BlockConfiguration) : Scheduler H T → Prop
  | initial : Reaches hash cfg (Scheduler.initial cfg)
  | step {s after : Scheduler H T} {action : Action T} : Reaches hash cfg s →
      s.Legal cfg action → s.step hash cfg action = some after → Reaches hash cfg after

end VllmRbln.Optimum
