import VllmRbln.Common.Mirror
import VllmRbln.SubBlock.Manager

/-! The KV events of the sub-block manager (`v1/core/rbln_kv_cache_manager.py`): what the
index reports of each update and eviction, and the queue in which a router is told of it. -/
namespace VllmRbln.SubBlock

open Scheduler Run

variable {H X E : Type} [DecidableEq H]

/-! ### What the index reports -/

namespace SubBlockIndex

/-- The loop of `update`, from position `i` on. -/
def updateLoop (block : BlockId) : (H → List BlockId) → Nat → Nat → List H →
    (H → List BlockId) × Nat
  | hashToBlocks, _, firstFreshIdx, [] => (hashToBlocks, firstFreshIdx)
  | hashToBlocks, i, firstFreshIdx, h :: rest =>
      let bucket := hashToBlocks h
      let firstFreshIdx := if bucket = [] ∧ i < firstFreshIdx then i else firstFreshIdx
      let bucket := if block ∈ bucket then bucket else block :: bucket
      updateLoop block (Function.update hashToBlocks h bucket) (i + 1) firstFreshIdx rest

/-- What `update` returns: where the first hash stands that no block held. -/
def firstFreshIdx (index : SubBlockIndex H) (block : BlockId) (subBlockHashes : List H) : Nat :=
  (updateLoop block index.hashToBlocks (index.recorded block).length subBlockHashes.length
    (subBlockHashes.drop (index.recorded block).length)).2

/-- The loop of `pop`; an empty bucket is one that is deleted. -/
def popLoop (block : BlockId) : (H → List BlockId) → List H → (H → List BlockId) × List H
  | hashToBlocks, [] => (hashToBlocks, [])
  | hashToBlocks, h :: rest =>
      let bucket := (hashToBlocks h).filter (· ≠ block)
      let popped := popLoop block (Function.update hashToBlocks h bucket) rest
      (popped.1, if hashToBlocks h ≠ [] ∧ bucket = [] then h :: popped.2 else popped.2)

/-- What `pop` returns: the hashes that the block was the last to hold. -/
def fullyRemoved (index : SubBlockIndex H) (block : BlockId) : List H :=
  (popLoop block index.hashToBlocks (index.recorded block)).2

theorem updateLoop_holders (block : BlockId) (hashToBlocks : H → List BlockId) (i first : Nat)
    (hashes : List H) (h : H) : (updateLoop block hashToBlocks i first hashes).1 h =
      if h ∈ hashes ∧ block ∉ hashToBlocks h then block :: hashToBlocks h else hashToBlocks h := by
  induction hashes generalizing hashToBlocks i first with
  | nil => simp [updateLoop]
  | cons head rest ih =>
      rw [updateLoop, ih]
      by_cases hEq : h = head
      · subst hEq
        by_cases hMem : block ∈ hashToBlocks h <;> simp [hMem]
      · simp [hEq]

/-- The loop leaves the buckets that `update` has. -/
theorem updateLoop_update (index : SubBlockIndex H) (block : BlockId) (hashes : List H) :
    (updateLoop block index.hashToBlocks (index.recorded block).length hashes.length
      (hashes.drop (index.recorded block).length)).1 = (index.update block hashes).hashToBlocks := by
  funext h
  rw [updateLoop_holders]
  rfl

/-- A position once found stays. -/
theorem updateLoop_found (block : BlockId) (hashToBlocks : H → List BlockId) {i first : Nat}
    (hFound : first ≤ i) (hashes : List H) :
    (updateLoop block hashToBlocks i first hashes).2 = first := by
  induction hashes generalizing hashToBlocks i with
  | nil => rfl
  | cons head rest ih =>
      have hKeep : (if hashToBlocks head = [] ∧ i < first then i else first) = first :=
        if_neg fun hBoth => absurd hBoth.2 (Nat.not_lt.mpr hFound)
      rw [updateLoop, hKeep]
      exact ih _ (Nat.le_succ_of_le hFound)

/-- Until then the loop passes over hashes that some block holds. -/
theorem updateLoop_fresh (block : BlockId) (hashToBlocks : H → List BlockId) {i first : Nat}
    {hashes : List H} (hFirst : i + hashes.length ≤ first) :
    (∀ h ∈ hashes, hashToBlocks h ≠ []) ∧
        (updateLoop block hashToBlocks i first hashes).2 = first ∨
      ∃ k h, hashes[k]? = some h ∧ hashToBlocks h = [] ∧
        (∀ h' ∈ hashes.take k, hashToBlocks h' ≠ []) ∧
        (updateLoop block hashToBlocks i first hashes).2 = i + k := by
  induction hashes generalizing hashToBlocks i with
  | nil => exact .inl ⟨by simp, rfl⟩
  | cons head rest ih =>
      rw [List.length_cons] at hFirst
      by_cases hEmpty : hashToBlocks head = []
      · right
        refine ⟨0, head, rfl, hEmpty, by simp, ?_⟩
        have hHere : (if hashToBlocks head = [] ∧ i < first then i else first) = i :=
          if_pos ⟨hEmpty, by omega⟩
        rw [updateLoop, hHere]
        exact updateLoop_found _ _ (Nat.le_succ i) _
      · -- a bucket with a block in it keeps one
        have hSame : ∀ h, Function.update hashToBlocks head
            (if block ∈ hashToBlocks head then hashToBlocks head else block :: hashToBlocks head) h =
              [] ↔ hashToBlocks h = [] := by
          intro h
          by_cases hEq : h = head
          · subst hEq
            by_cases hMem : block ∈ hashToBlocks h <;> simp [hMem, hEmpty]
          · simp [hEq]
        have hKeep : (if hashToBlocks head = [] ∧ i < first then i else first) = first :=
          if_neg fun hBoth => hEmpty hBoth.1
        rw [updateLoop, hKeep]
        rcases ih (Function.update hashToBlocks head (if block ∈ hashToBlocks head then
          hashToBlocks head else block :: hashToBlocks head)) (i := i + 1) (by omega) with
          ⟨hHeld, hNone⟩ | ⟨k, h, hGet, hFree, hHeld, hHere⟩
        · left
          simp only [ne_eq, hSame] at hHeld
          exact ⟨by simpa [hEmpty] using hHeld, hNone⟩
        · right
          simp only [ne_eq, hSame] at hHeld hFree
          exact ⟨k + 1, h, by simpa using hGet, hFree, by simpa [hEmpty] using hHeld, by omega⟩

theorem popLoop_holders (block : BlockId) (hashToBlocks : H → List BlockId) (hashes : List H)
    (h : H) : (popLoop block hashToBlocks hashes).1 h =
      if h ∈ hashes then (hashToBlocks h).filter (· ≠ block) else hashToBlocks h := by
  induction hashes generalizing hashToBlocks with
  | nil => simp [popLoop]
  | cons head rest ih =>
      rw [popLoop]
      dsimp only
      rw [ih]
      by_cases hEq : h = head
      · subst hEq
        simp
      · simp [hEq]

/-- The loop leaves the buckets that `pop` has. -/
theorem popLoop_pop (index : SubBlockIndex H) (block : BlockId) :
    (popLoop block index.hashToBlocks (index.recorded block)).1 =
      (index.pop block).hashToBlocks := by
  funext h
  rw [popLoop_holders]
  rfl

/-- A hash is reported once, when its bucket empties. -/
theorem popLoop_removed (block : BlockId) (hashToBlocks : H → List BlockId) (hashes : List H) :
    (popLoop block hashToBlocks hashes).2.Nodup ∧
      ∀ h, h ∈ (popLoop block hashToBlocks hashes).2 ↔
        h ∈ hashes ∧ hashToBlocks h ≠ [] ∧ (hashToBlocks h).filter (· ≠ block) = [] := by
  induction hashes generalizing hashToBlocks with
  | nil => simp [popLoop]
  | cons head rest ih =>
      rw [popLoop]
      dsimp only
      obtain ⟨hNodup, hMem⟩ := ih
        (Function.update hashToBlocks head ((hashToBlocks head).filter (· ≠ block)))
      generalize (popLoop block (Function.update hashToBlocks head
        ((hashToBlocks head).filter (· ≠ block))) rest).2 = removed at hNodup hMem ⊢
      have hHead : head ∈ removed ↔ head ∈ rest ∧ (hashToBlocks head).filter (· ≠ block) ≠ [] ∧
          (hashToBlocks head).filter (· ≠ block) = [] := by
        rw [hMem, Function.update_self, List.filter_filter]
        simp
      have hOther : ∀ h, h ≠ head → (h ∈ removed ↔
          h ∈ rest ∧ hashToBlocks h ≠ [] ∧ (hashToBlocks h).filter (· ≠ block) = []) := by
        intro h hNe
        rw [hMem, Function.update_of_ne hNe]
      have hNot : head ∉ removed := fun hIn => (hHead.mp hIn).2.1 (hHead.mp hIn).2.2
      split
      · rename_i hGone
        refine ⟨List.nodup_cons.mpr ⟨hNot, hNodup⟩, fun h => ?_⟩
        by_cases hEq : h = head
        · subst hEq
          exact iff_of_true List.mem_cons_self ⟨List.mem_cons_self, hGone⟩
        · simp only [List.mem_cons, hEq, hOther h hEq, false_or]
      · rename_i hStays
        refine ⟨hNodup, fun h => ?_⟩
        by_cases hEq : h = head
        · subst hEq
          exact iff_of_false hNot fun hIn => hStays hIn.2
        · simp only [List.mem_cons, hEq, hOther h hEq, false_or]

theorem hashToBlocks_update_ne_nil (index : SubBlockIndex H) (block : BlockId) (hashes : List H)
    (h : H) : (index.update block hashes).hashToBlocks h ≠ [] ↔
      index.hashToBlocks h ≠ [] ∨ h ∈ hashes.drop (index.recorded block).length := by
  dsimp only [update]
  split
  · rename_i hBoth
    simp [hBoth.1]
  · rename_i hNot
    refine ⟨Or.inl, fun hOr => hOr.elim (fun hHeld => hHeld) fun hMem hNil => hNot ⟨hMem, ?_⟩⟩
    rw [hNil]
    exact List.not_mem_nil

/-- The hashes before the fresh one were held already. -/
theorem firstFreshIdx_spec (index : SubBlockIndex H) (block : BlockId) (hashes : List H) :
    (index.firstFreshIdx block hashes = hashes.length ∧
        ∀ h ∈ hashes.drop (index.recorded block).length, index.hashToBlocks h ≠ []) ∨
      (index.recorded block).length ≤ index.firstFreshIdx block hashes ∧
        (∃ h, hashes[index.firstFreshIdx block hashes]? = some h ∧ index.hashToBlocks h = []) ∧
        ∀ h ∈ hashes.drop (index.recorded block).length,
          h ∉ hashes.drop (index.firstFreshIdx block hashes) → index.hashToBlocks h ≠ [] := by
  by_cases hShort : hashes.length ≤ (index.recorded block).length
  · left
    rw [firstFreshIdx, List.drop_eq_nil_of_le hShort]
    exact ⟨rfl, by simp⟩
  · rw [firstFreshIdx]
    set seen := (index.recorded block).length
    have hCount : seen + (hashes.drop seen).length ≤ hashes.length := by
      rw [List.length_drop]
      omega
    rcases updateLoop_fresh block index.hashToBlocks hCount with
      ⟨hHeld, hNone⟩ | ⟨k, h, hGet, hFree, hHeld, hHere⟩
    · exact .inl ⟨hNone, hHeld⟩
    · right
      rw [hHere]
      refine ⟨Nat.le_add_right _ _, ⟨h, by rwa [List.getElem?_drop] at hGet, hFree⟩, ?_⟩
      intro h' hMem hNot
      apply hHeld
      rw [← List.take_append_drop k (hashes.drop seen), List.drop_drop] at hMem
      exact (List.mem_append.mp hMem).resolve_right hNot

theorem fullyRemoved_nodup (index : SubBlockIndex H) (block : BlockId) :
    (index.fullyRemoved block).Nodup := (popLoop_removed ..).1

theorem mem_fullyRemoved {index : SubBlockIndex H} {block : BlockId} {h : H} :
    h ∈ index.fullyRemoved block ↔
      index.hashToBlocks h ≠ [] ∧ (index.pop block).hashToBlocks h = [] := by
  rw [fullyRemoved, (popLoop_removed ..).2]
  dsimp only [pop]
  by_cases hMem : h ∈ index.recorded block
  · rw [if_pos hMem]
    exact and_iff_right hMem
  · rw [if_neg hMem]
    exact iff_of_false (fun hAll => hMem hAll.1) fun hBoth => hBoth.1 hBoth.2

theorem hashToBlocks_pop_ne_nil {index : SubBlockIndex H} {block : BlockId} {h : H}
    (hHeld : (index.pop block).hashToBlocks h ≠ []) : index.hashToBlocks h ≠ [] := by
  dsimp only [pop] at hHeld
  split at hHeld
  · intro hNil
    rw [hNil] at hHeld
    exact hHeld rfl
  · exact hHeld

end SubBlockIndex

/-! ### Events -/

structure LoraRequest where
  adapterId : Nat
  name : String
  deriving DecidableEq, Repr

inductive Medium
  | gpu
  deriving DecidableEq, Repr

structure BlockStored (E X : Type) where
  blockHashes : List E
  parentBlockHash : Option E
  tokenIds : List Token
  blockSize : Nat
  loraId : Option Nat
  medium : Medium
  loraName : Option String
  extraKeys : Option (List (Option X))
  deriving DecidableEq

inductive KVCacheEvent (E X : Type)
  | blockStored (stored : BlockStored E X)
  | blockRemoved (blockHashes : List E) (medium : Medium)
  | allBlocksCleared
  deriving DecidableEq

/-- What the manager reads when it emits: whether events are on, the adapter of a request, and
the form in which a hash goes out. -/
structure EventConfig (H E : Type) where
  enableKvCacheEvents : Bool
  loraRequest : ReqId → Option LoraRequest
  maybeConvertBlockHash : H → E

/-- The manager, the extra keys it keeps beside a request's sub-block hashes, and the queue. -/
structure EventManager (H X E : Type) where
  kv : Manager H
  extraKeys : ReqId → List (Option X)
  subBlockEventQueue : List (KVCacheEvent E X)

namespace EventManager

/-- `__init__`: events are for one group. -/
def create (cfg : Config) (events : EventConfig H E) : Option (EventManager H X E) :=
  if events.enableKvCacheEvents ∧ 1 < cfg.numGroups then none
  else some ⟨Manager.initial, fun _ => [], []⟩

/-- The event for the hashes of an update from the first fresh one on. -/
def freshSuffix (events : EventConfig H E) (subBlockSize : Nat) (m : EventManager H X E)
    (id : ReqId) (request : Request) (subStart subEnd firstFreshIdx : Nat) : BlockStored E X :=
  let hashes := m.kv.reqSubHashes id
  let freshStart := subStart + firstFreshIdx
  let freshHashes := (hashes.drop freshStart).take (subEnd - freshStart)
  let parentHash := if 0 < freshStart then hashes[freshStart - 1]? else none
  let tokStart := freshStart * subBlockSize
  let tokEnd := subEnd * subBlockSize
  let extras := ((m.extraKeys id).drop freshStart).take (subEnd - freshStart)
  { blockHashes := freshHashes.map events.maybeConvertBlockHash
    parentBlockHash := parentHash.map events.maybeConvertBlockHash
    tokenIds := (request.allTokenIds.drop tokStart).take (tokEnd - tokStart)
    blockSize := subBlockSize
    loraId := (events.loraRequest id).map LoraRequest.adapterId
    medium := .gpu
    loraName := (events.loraRequest id).map LoraRequest.name
    extraKeys := if extras.any Option.isSome then some extras else none }

def emitBlockStored (events : EventConfig H E) (subBlockSize : Nat) (m : EventManager H X E)
    (id : ReqId) (request : Request) (subStart subEnd firstFreshIdx : Nat) :
    EventManager H X E :=
  if ¬ events.enableKvCacheEvents then m
  else if subEnd - subStart ≤ firstFreshIdx then m
  else { m with
    subBlockEventQueue := m.subBlockEventQueue ++
      [.blockStored (freshSuffix events subBlockSize m id request subStart subEnd firstFreshIdx)] }

def emitBlockRemoved (events : EventConfig H E) (m : EventManager H X E)
    (fullyRemoved : List H) : EventManager H X E :=
  if ¬ events.enableKvCacheEvents ∨ fullyRemoved = [] then m
  else { m with
    subBlockEventQueue := m.subBlockEventQueue ++
      [.blockRemoved (fullyRemoved.map events.maybeConvertBlockHash) .gpu] }

/-! ### The operations of the manager, with their events -/

def getOrComputeSubHashes (hashing : Hashing H X) (subBlockSize : Nat) (m : EventManager H X E)
    (id : ReqId) (request : Request) : EventManager H X E :=
  let numHashedTokens := (m.kv.reqSubHashes id).length * subBlockSize
  let newExtraKeys := (List.range ((request.allTokenIds.length - numHashedTokens) / subBlockSize)).map
    fun k => hashing.extraKeys id (numHashedTokens + k * subBlockSize)
      (numHashedTokens + k * subBlockSize + subBlockSize)
  { m with
    kv := m.kv.getOrComputeSubHashes hashing subBlockSize id request
    extraKeys := Function.update m.extraKeys id (m.extraKeys id ++ newExtraKeys) }

/-- Update the index of a group with the request's hashes `subStart` to `subEnd`, and tell. -/
def indexBlock (events : EventConfig H E) (subBlockSize : Nat) (m : EventManager H X E)
    (id : ReqId) (request : Request) (group : Nat) (block : BlockId) (subStart subEnd : Nat) :
    EventManager H X E :=
  let firstFreshIdx := (m.kv.index group).firstFreshIdx block
    (((m.kv.reqSubHashes id).drop subStart).take (subEnd - subStart))
  emitBlockStored events subBlockSize { m with kv := m.kv.indexBlock id group block subStart subEnd }
    id request subStart subEnd firstFreshIdx

def onBlockCached (cfg : Config) (hashing : Hashing H X) (events : EventConfig H E)
    (subBlockSize : Nat) (m : EventManager H X E) (id : ReqId) (request : Request)
    (group blockIndex : Nat) (block : BlockId) : EventManager H X E :=
  let m := getOrComputeSubHashes hashing subBlockSize m id request
  let subBlocksPerBlock := cfg.blockSize group / subBlockSize
  let subStart := blockIndex * subBlocksPerBlock
  let subEnd := min (subStart + subBlocksPerBlock) (m.kv.reqSubHashes id).length
  if subEnd ≤ subStart then m
  else indexBlock events subBlockSize m id request group block subStart subEnd

def indexNewlyCachedBlocks (cfg : Config) (hashing : Hashing H X) (events : EventConfig H E)
    (subBlockSize : Nat) (m : EventManager H X E) (id : ReqId) (request : Request)
    (numFullBlocksBefore : Nat → Nat) : EventManager H X E :=
  (List.range cfg.numGroups).foldl (fun m group =>
    (((m.kv.reqToBlocks id group).zipIdx).drop (numFullBlocksBefore group)).foldl
      (fun m block => if (m.kv.blockHash block.1).isSome then
        onBlockCached cfg hashing events subBlockSize m id request group block.2 block.1
        else m) m) m

def indexPartialGroup (cfg : Config) (events : EventConfig H E) (subBlockSize : Nat) (id : ReqId)
    (request : Request) (markCached : Bool) (m : EventManager H X E) (group : Nat) :
    EventManager H X E :=
  let remainder := request.numComputedTokens % cfg.blockSize group
  let lastBlkIdx := request.numComputedTokens / cfg.blockSize group
  match (m.kv.reqToBlocks id group)[lastBlkIdx]? with
  | none => m
  | some block =>
      let subStart := lastBlkIdx * (cfg.blockSize group / subBlockSize)
      let subEnd := min (subStart + remainder / subBlockSize) (m.kv.reqSubHashes id).length
      if subEnd ≤ subStart then m
      else
        let m := indexBlock events subBlockSize m id request group block subStart subEnd
        match markCached, (m.kv.reqSubHashes id)[subEnd - 1]? with
        | true, some lastSubHash =>
            { m with
              kv := { m.kv with
                blockHash := Function.update m.kv.blockHash block
                  (some (.partialBlock block lastSubHash group)) } }
        | _, _ => m

def indexPartialBlock (cfg : Config) (hashing : Hashing H X) (events : EventConfig H E)
    (subBlockSize : Nat) (m : EventManager H X E) (id : ReqId) (request : Request)
    (markCached : Bool) : EventManager H X E :=
  (List.range cfg.numGroups).foldl
    (indexPartialGroup cfg events subBlockSize id request markCached)
    (getOrComputeSubHashes hashing subBlockSize m id request)

def doPendingIndexing (cfg : Config) (hashing : Hashing H X) (events : EventConfig H E)
    (subBlockSize : Nat) (m : EventManager H X E) (requests : ReqId → Request) :
    EventManager H X E :=
  let m := m.kv.pendingIndexing.foldl (fun m pending =>
    indexPartialBlock cfg hashing events subBlockSize
      (indexNewlyCachedBlocks cfg hashing events subBlockSize m pending.1 (requests pending.1)
        pending.2) pending.1 (requests pending.1) false) m
  { m with kv := { m.kv with pendingIndexing := [] } }

def finalizeSubBlockState (cfg : Config) (hashing : Hashing H X) (events : EventConfig H E)
    (subBlockSize : Nat) (m : EventManager H X E) (id : ReqId) (request : Request) :
    EventManager H X E :=
  let pending := m.kv.pendingIndexing.lookup id
  let m := { m with
    kv := { m.kv with pendingIndexing := m.kv.pendingIndexing.filter (·.1 ≠ id) } }
  let m := match pending with
    | some numFullBlocksBefore =>
        indexNewlyCachedBlocks cfg hashing events subBlockSize m id request numFullBlocksBefore
    | none => m
  let m := indexPartialBlock cfg hashing events subBlockSize m id request true
  { m with
    kv := { m.kv with reqSubHashes := Function.update m.kv.reqSubHashes id [] }
    extraKeys := Function.update m.extraKeys id [] }

def free (cfg : Config) (hashing : Hashing H X) (events : EventConfig H E) (subBlockSize : Nat)
    (m : EventManager H X E) (id : ReqId) (request : Request) : EventManager H X E :=
  let m := finalizeSubBlockState cfg hashing events subBlockSize m id request
  { m with kv := (m.kv.freeBlocks (Manager.allBlocks cfg (m.kv.reqToBlocks id))).popBlocks id }

def popBlocksForFree (cfg : Config) (hashing : Hashing H X) (events : EventConfig H E)
    (subBlockSize : Nat) (m : EventManager H X E) (id : ReqId) (request : Request) :
    EventManager H X E × List BlockId :=
  let m := finalizeSubBlockState cfg hashing events subBlockSize m id request
  ({ m with kv := m.kv.popBlocks id }, Manager.allBlocks cfg (m.kv.reqToBlocks id))

/-- `_on_block_evicted`: every group forgets the block, and tells which hashes go with it. -/
def onBlockEvicted (cfg : Config) (events : EventConfig H E) (m : EventManager H X E)
    (block : BlockId) : EventManager H X E :=
  (List.range cfg.numGroups).foldl (fun popped group =>
      emitBlockRemoved events popped ((m.kv.index group).fullyRemoved block))
    { m with kv := { m.kv with index := fun group => (m.kv.index group).pop block } }

/-- `evict_with_index_cleanup`. -/
def evict (cfg : Config) (events : EventConfig H E) (m : EventManager H X E) (block : BlockId) :
    EventManager H X E :=
  if (m.kv.blockHash block).isSome then
    onBlockEvicted cfg events
      { m with kv := { m.kv with blockHash := Function.update m.kv.blockHash block none } } block
  else m

/-- `allocate_slots`: the new blocks lose what they were cached for. -/
def allocateSlots (cfg : Config) (events : EventConfig H E) (m : EventManager H X E) (id : ReqId)
    (numTokens : Nat) (wholeTokens : Option Nat) (hits : Blocks)
    (freeQueue : Manager H → List BlockId) : Option (EventManager H X E × Blocks) :=
  (m.kv.allocateSlots cfg id numTokens wholeTokens hits freeQueue).map fun result =>
    let evicted := (Manager.allBlocks cfg result.2).foldl (evict cfg events)
      { m with kv := m.kv.touch (Manager.allBlocks cfg hits) }
    ({ evicted with kv := result.1 }, result.2)

def getComputedBlocksSubBlock (cfg : Config) (hashing : Hashing H X) (subBlockSize : Nat)
    (choose : List BlockId → Nat) (m : EventManager H X E) (id : ReqId) (request : Request)
    (numComputedTokens : Nat) : EventManager H X E × Option SubBlockMatch :=
  let result := m.kv.getComputedBlocksSubBlock cfg hashing subBlockSize choose id request
    numComputedTokens
  if request.skipReadingPrefixCache then ({ m with kv := result.1 }, result.2)
  else ({ getOrComputeSubHashes hashing subBlockSize m id request with kv := result.1 }, result.2)

/-- `reset_prefix_cache`: only while nobody references a block. -/
def resetPrefixCache (cfg : Config) (events : EventConfig H E) (m : EventManager H X E) :
    EventManager H X E × Bool :=
  if (m.kv.freeBlockIds cfg).length = cfg.numBlocks - 1 then
    ({ m with
      kv := { m.kv with
        blockHash := fun _ => none
        index := fun _ => SubBlockIndex.empty
        pendingIndexing := [] }
      subBlockEventQueue := if events.enableKvCacheEvents then
        m.subBlockEventQueue ++ [.allBlocksCleared] else m.subBlockEventQueue }, true)
  else (m, false)

def takeEvents (events : EventConfig H E) (m : EventManager H X E) :
    EventManager H X E × List (KVCacheEvent E X) :=
  if ¬ events.enableKvCacheEvents then (m, [])
  else ({ m with subBlockEventQueue := [] }, m.subBlockEventQueue)

end EventManager

end VllmRbln.SubBlock
