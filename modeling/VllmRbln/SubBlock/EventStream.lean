import VllmRbln.Scheduler.Update
import VllmRbln.SubBlock.Events
import Mathlib.Data.List.Nodup

/-! What a reader of the events knows. The operations with events do to the manager what they
do without; the events in order lead a reader from nothing to the hashes that the index has,
and each tells it something. -/
namespace VllmRbln.SubBlock.EventManager

open Scheduler Run Mirror

variable {H X E : Type} [DecidableEq H]

/-! ### The manager underneath -/

section

variable (cfg : Config) (hashing : Hashing H X) (events : EventConfig H E) (subBlockSize : Nat)
  (m : EventManager H X E) (id : ReqId) (request : Request)

omit [DecidableEq H] in
@[simp]
theorem kv_emitBlockStored (subStart subEnd firstFreshIdx : Nat) :
    (emitBlockStored events subBlockSize m id request subStart subEnd firstFreshIdx).kv = m.kv := by
  unfold emitBlockStored
  split
  · rfl
  · split <;> rfl

omit [DecidableEq H] in
@[simp]
theorem kv_emitBlockRemoved (fullyRemoved : List H) :
    (emitBlockRemoved events m fullyRemoved).kv = m.kv := by
  unfold emitBlockRemoved
  split <;> rfl

omit [DecidableEq H] in
@[simp]
theorem kv_getOrComputeSubHashes :
    (getOrComputeSubHashes hashing subBlockSize m id request).kv =
      m.kv.getOrComputeSubHashes hashing subBlockSize id request := rfl

@[simp]
theorem kv_indexBlock (group : Nat) (block : BlockId) (subStart subEnd : Nat) :
    (indexBlock events subBlockSize m id request group block subStart subEnd).kv =
      m.kv.indexBlock id group block subStart subEnd :=
  kv_emitBlockStored ..

@[simp]
theorem kv_onBlockCached (group blockIndex : Nat) (block : BlockId) :
    (onBlockCached cfg hashing events subBlockSize m id request group blockIndex block).kv =
      m.kv.onBlockCached cfg hashing subBlockSize id request group blockIndex block := by
  dsimp only [onBlockCached, Manager.onBlockCached]
  rw [kv_getOrComputeSubHashes]
  split
  · exact kv_getOrComputeSubHashes ..
  · rw [kv_indexBlock, kv_getOrComputeSubHashes]

@[simp]
theorem kv_indexNewlyCachedBlocks (numFullBlocksBefore : Nat → Nat) :
    (indexNewlyCachedBlocks cfg hashing events subBlockSize m id request numFullBlocksBefore).kv =
      m.kv.indexNewlyCachedBlocks cfg hashing subBlockSize id request numFullBlocksBefore := by
  symm
  apply List.foldl_hom EventManager.kv
  intro m group
  apply List.foldl_hom EventManager.kv
  intro m block
  split
  · exact (kv_onBlockCached ..).symm
  · rfl

theorem kv_indexPartialGroup (markCached : Bool) (group : Nat) :
    (indexPartialGroup cfg events subBlockSize id request markCached m group).kv =
      m.kv.indexPartialGroup cfg subBlockSize id request markCached group := by
  unfold indexPartialGroup Manager.indexPartialGroup
  dsimp only
  cases (m.kv.reqToBlocks id group)[request.numComputedTokens / cfg.blockSize group]? with
  | none => rfl
  | some block =>
      dsimp only
      split
      · rfl
      · rw [kv_indexBlock]
        dsimp only [Manager.indexBlock]
        generalize (m.kv.reqSubHashes id)[_ - 1]? = last
        cases markCached <;> cases last <;> simp [Manager.indexBlock]

@[simp]
theorem kv_indexPartialBlock (markCached : Bool) :
    (indexPartialBlock cfg hashing events subBlockSize m id request markCached).kv =
      m.kv.indexPartialBlock cfg hashing subBlockSize id request markCached := by
  unfold indexPartialBlock Manager.indexPartialBlock
  rw [← kv_getOrComputeSubHashes hashing subBlockSize m id request, List.foldl_hom EventManager.kv]
  intro m group
  exact (kv_indexPartialGroup ..).symm

@[simp]
theorem kv_doPendingIndexing (requests : ReqId → Request) :
    (doPendingIndexing cfg hashing events subBlockSize m requests).kv =
      m.kv.doPendingIndexing cfg hashing subBlockSize requests := by
  dsimp only [doPendingIndexing, Manager.doPendingIndexing]
  rw [List.foldl_hom EventManager.kv]
  intro m pending
  rw [kv_indexPartialBlock, kv_indexNewlyCachedBlocks]

@[simp]
theorem kv_finalizeSubBlockState :
    (finalizeSubBlockState cfg hashing events subBlockSize m id request).kv =
      m.kv.finalizeSubBlockState cfg hashing subBlockSize id request := by
  dsimp only [finalizeSubBlockState, Manager.finalizeSubBlockState]
  rw [kv_indexPartialBlock]
  cases m.kv.pendingIndexing.lookup id with
  | none => rfl
  | some numFullBlocksBefore =>
      dsimp only
      rw [kv_indexNewlyCachedBlocks]

/-- Freeing with events frees as the scheduler's manager does. -/
theorem kv_free (hSize : cfg.subBlockSize = some subBlockSize) :
    (free cfg hashing events subBlockSize m id request).kv = m.kv.free cfg hashing id request := by
  dsimp only [free, Manager.free, Manager.settle]
  rw [hSize, kv_finalizeSubBlockState]

theorem kv_popBlocksForFree (hSize : cfg.subBlockSize = some subBlockSize) :
    ((popBlocksForFree cfg hashing events subBlockSize m id request).1.kv,
      (popBlocksForFree cfg hashing events subBlockSize m id request).2) =
        m.kv.popBlocksForFree cfg hashing id request := by
  dsimp only [popBlocksForFree, Manager.popBlocksForFree, Manager.settle]
  rw [hSize, kv_finalizeSubBlockState]

@[simp]
theorem kv_onBlockEvicted (block : BlockId) : (onBlockEvicted cfg events m block).kv =
    { m.kv with index := fun group => (m.kv.index group).pop block } :=
  foldl_keeps EventManager.kv (fun _ _ => kv_emitBlockRemoved ..) _ _

@[simp]
theorem kv_evict (block : BlockId) : (evict cfg events m block).kv = m.kv.evict block := by
  unfold evict Manager.evict
  split
  · exact kv_onBlockEvicted ..
  · rfl

omit [DecidableEq H] in
theorem index_cacheBlocks (kv : Manager H) (numTokens : Nat) :
    (kv.cacheBlocks cfg hashing id request numTokens).index = kv.index := by
  apply foldl_keeps Manager.index
  intro kv group
  apply foldl_keeps Manager.index
  intro kv block
  unfold Manager.cacheBlock
  split <;> rfl

omit [DecidableEq H] in
theorem index_getComputedBlocksSubBlock (choose : List BlockId → Nat) (kv : Manager H)
    (numComputedTokens : Nat) : (kv.getComputedBlocksSubBlock cfg hashing subBlockSize choose id
      request numComputedTokens).1.index = kv.index := by
  unfold Manager.getComputedBlocksSubBlock
  dsimp only
  split
  · rfl
  · split
    · rfl
    · rfl
    · split <;> rfl

omit [DecidableEq H] in
theorem index_scheduleSubBlockIndexing (kv : Manager H) :
    (kv.scheduleSubBlockIndexing cfg id request).index = kv.index := by
  unfold Manager.scheduleSubBlockIndexing
  split <;> rfl

theorem kv_foldl_evict (blocks : List BlockId) :
    (blocks.foldl (evict cfg events) m).kv = blocks.foldl Manager.evict m.kv := by
  symm
  apply List.foldl_hom EventManager.kv
  intro m block
  exact (kv_evict ..).symm

end

/-! ### Runs -/

/-- The requests as the scheduler has them, and the events taken so far. -/
structure Session (H X E : Type) where
  requests : ReqId → Request
  manager : EventManager H X E
  published : List (KVCacheEvent E X)

/-- What the scheduler does with the manager. -/
inductive Action (H : Type)
  | setRequest (id : ReqId) (request : Request)
  | getComputedBlocksSubBlock (choose : List BlockId → Nat) (id : ReqId) (numComputedTokens : Nat)
  | allocateSlots (id : ReqId) (numTokens : Nat) (wholeTokens : Option Nat) (hits : Blocks)
      (freeQueue : Manager H → List BlockId)
  | cacheBlocks (id : ReqId) (numTokens : Nat)
  | applySubBlockMatch (subBlockMatch : SubBlockMatch)
  | releaseSubBlockMatch (subBlockMatch : SubBlockMatch)
  | scheduleSubBlockIndexing (id : ReqId)
  | drainPendingCopyOps
  | releaseCopyOps (ops : List KVCacheCopyOp)
  | doPendingIndexing
  | free (id : ReqId)
  | popBlocksForFree (id : ReqId)
  | freeBlocks (blocks : List BlockId)
  | resetPrefixCache
  | takeEvents

namespace Session

def start (m : EventManager H X E) : Session H X E := ⟨fun _ => Request.unknown, m, []⟩

def setManager (s : Session H X E) (m : EventManager H X E) : Session H X E :=
  { s with manager := m }

def setKv (s : Session H X E) (kv : Manager H) : Session H X E :=
  s.setManager { s.manager with kv := kv }

def step (cfg : Config) (hashing : Hashing H X) (events : EventConfig H E) (subBlockSize : Nat)
    (s : Session H X E) : Action H → Option (Session H X E)
  | .setRequest id request => some { s with requests := Function.update s.requests id request }
  | .getComputedBlocksSubBlock choose id numComputedTokens =>
      some (s.setManager (s.manager.getComputedBlocksSubBlock cfg hashing subBlockSize choose id
        (s.requests id) numComputedTokens).1)
  | .allocateSlots id numTokens wholeTokens hits freeQueue =>
      (s.manager.allocateSlots cfg events id numTokens wholeTokens hits freeQueue).map fun result =>
        s.setManager result.1
  | .cacheBlocks id numTokens =>
      some (s.setKv (s.manager.kv.cacheBlocks cfg hashing id (s.requests id) numTokens))
  | .applySubBlockMatch subBlockMatch =>
      (s.manager.kv.applySubBlockMatch subBlockMatch).map s.setKv
  | .releaseSubBlockMatch subBlockMatch =>
      some (s.setKv (s.manager.kv.releaseSubBlockMatch subBlockMatch))
  | .scheduleSubBlockIndexing id =>
      some (s.setKv (s.manager.kv.scheduleSubBlockIndexing cfg id (s.requests id)))
  | .drainPendingCopyOps => some (s.setKv s.manager.kv.drainPendingCopyOps)
  | .releaseCopyOps ops => some (s.setKv (s.manager.kv.releaseCopyOps ops))
  | .doPendingIndexing =>
      some (s.setManager (s.manager.doPendingIndexing cfg hashing events subBlockSize s.requests))
  | .free id =>
      some (s.setManager (s.manager.free cfg hashing events subBlockSize id (s.requests id)))
  | .popBlocksForFree id =>
      some (s.setManager
        (s.manager.popBlocksForFree cfg hashing events subBlockSize id (s.requests id)).1)
  | .freeBlocks blocks => some (s.setKv (s.manager.kv.freeBlocks blocks))
  | .resetPrefixCache => some (s.setManager (s.manager.resetPrefixCache cfg events).1)
  | .takeEvents =>
      let taken := s.manager.takeEvents events
      some { s with manager := taken.1, published := s.published ++ taken.2 }

/-- The same on the manager alone, by the operations that the scheduler's model has. -/
def kvStep (cfg : Config) (hashing : Hashing H X) (subBlockSize : Nat)
    (requests : ReqId → Request) (kv : Manager H) : Action H → Option (Manager H)
  | .setRequest _ _ => some kv
  | .getComputedBlocksSubBlock choose id numComputedTokens =>
      some (kv.getComputedBlocksSubBlock cfg hashing subBlockSize choose id (requests id)
        numComputedTokens).1
  | .allocateSlots id numTokens wholeTokens hits freeQueue =>
      (kv.allocateSlots cfg id numTokens wholeTokens hits freeQueue).map Prod.fst
  | .cacheBlocks id numTokens => some (kv.cacheBlocks cfg hashing id (requests id) numTokens)
  | .applySubBlockMatch subBlockMatch => kv.applySubBlockMatch subBlockMatch
  | .releaseSubBlockMatch subBlockMatch => some (kv.releaseSubBlockMatch subBlockMatch)
  | .scheduleSubBlockIndexing id => some (kv.scheduleSubBlockIndexing cfg id (requests id))
  | .drainPendingCopyOps => some kv.drainPendingCopyOps
  | .releaseCopyOps ops => some (kv.releaseCopyOps ops)
  | .doPendingIndexing => some (kv.doPendingIndexing cfg hashing subBlockSize requests)
  | .free id => some (kv.free cfg hashing id (requests id))
  | .popBlocksForFree id => some (kv.popBlocksForFree cfg hashing id (requests id)).1
  | .freeBlocks blocks => some (kv.freeBlocks blocks)
  | .resetPrefixCache => some (
      if (kv.freeBlockIds cfg).length = cfg.numBlocks - 1 then
        { kv with
          blockHash := fun _ => none
          index := fun _ => SubBlockIndex.empty
          pendingIndexing := [] }
      else kv)
  | .takeEvents => some kv

/-- Events change nothing: under every action the manager goes on as it does without them. -/
theorem kv_step {cfg : Config} {hashing : Hashing H X} {events : EventConfig H E}
    {subBlockSize : Nat} (hSize : cfg.subBlockSize = some subBlockSize) (s : Session H X E)
    (a : Action H) : (s.step cfg hashing events subBlockSize a).map (·.manager.kv) =
      kvStep cfg hashing subBlockSize s.requests s.manager.kv a := by
  cases a with
  | getComputedBlocksSubBlock choose id numComputedTokens =>
      simp only [step, kvStep, Option.map_some, setManager,
        EventManager.getComputedBlocksSubBlock, Option.some.injEq]
      split <;> rfl
  | allocateSlots id numTokens wholeTokens hits freeQueue =>
      simp only [step, kvStep, EventManager.allocateSlots, Option.map_map]
      rfl
  | applySubBlockMatch subBlockMatch =>
      simp only [step, kvStep, Option.map_map]
      exact Option.map_id'
  | doPendingIndexing => exact congrArg some (kv_doPendingIndexing ..)
  | free id => exact congrArg some (kv_free _ _ _ _ _ _ _ hSize)
  | popBlocksForFree id =>
      exact congrArg (fun result => some result.1) (kv_popBlocksForFree _ _ events _ _ _ _ hSize)
  | resetPrefixCache =>
      simp only [step, kvStep, Option.map_some, setManager, EventManager.resetPrefixCache,
        Option.some.injEq]
      split <;> rfl
  | takeEvents =>
      simp only [step, kvStep, Option.map_some, EventManager.takeEvents, Option.some.injEq]
      split <;> rfl
  | _ => rfl

end Session

/-! ### The reader -/

/-- What an event changes for its reader. -/
def change : KVCacheEvent E X → Change E
  | .blockStored stored => .insert stored.blockHashes
  | .blockRemoved blockHashes _ => .remove blockHashes
  | .allBlocksCleared => .clear

/-- The hashes that some block holds, in the form in which they go out. -/
def held (cfg : Config) (events : EventConfig H E) (kv : Manager H) : Set E :=
  {e | ∃ h, events.maybeConvertBlockHash h = e ∧
    ∃ group < cfg.numGroups, (kv.index group).hashToBlocks h ≠ []}

/-- A reader that was in step stays so. -/
def Tells (cfg : Config) (events : EventConfig H E) (m m' : EventManager H X E) : Prop :=
  ∀ told, Mirrors (held cfg events m.kv) (told ++ m.subBlockEventQueue.map change) →
    Mirrors (held cfg events m'.kv) (told ++ m'.subBlockEventQueue.map change)

section

variable {cfg : Config} {hashing : Hashing H X} {events : EventConfig H E} {subBlockSize : Nat}
  {m m' m'' : EventManager H X E} {id : ReqId} {request : Request}

omit [DecidableEq H] in
theorem Tells.refl (m : EventManager H X E) : Tells cfg events m m := fun _ hMirrors => hMirrors

omit [DecidableEq H] in
theorem Tells.trans (hFirst : Tells cfg events m m') (hSecond : Tells cfg events m' m'') :
    Tells cfg events m m'' := fun told hMirrors => hSecond told (hFirst told hMirrors)

omit [DecidableEq H] in
/-- There is nothing to tell while the index stays. -/
theorem Tells.quiet (hIndex : m'.kv.index = m.kv.index)
    (hQueue : m'.subBlockEventQueue = m.subBlockEventQueue) : Tells cfg events m m' := by
  intro told hMirrors
  rw [held, hIndex, hQueue]
  exact hMirrors

omit [DecidableEq H] in
/-- One event that brings the reader from the old index to the new one. -/
theorem Tells.event {event : KVCacheEvent E X}
    (hQueue : m'.subBlockEventQueue = m.subBlockEventQueue ++ [event])
    (hApply : (change event).apply (held cfg events m.kv) = held cfg events m'.kv)
    (hNews : (change event).News (held cfg events m.kv)) : Tells cfg events m m' := by
  intro told hMirrors
  rw [hQueue, List.map_append, ← List.append_assoc, ← hApply]
  exact hMirrors.append hNews

omit [DecidableEq H] in
/-- With one group it is that group's index that counts. -/
theorem mem_held (hGroups : cfg.numGroups ≤ 1) {group : Nat} (hGroup : group < cfg.numGroups)
    {kv : Manager H} {e : E} : e ∈ held cfg events kv ↔
      ∃ h, events.maybeConvertBlockHash h = e ∧ (kv.index group).hashToBlocks h ≠ [] := by
  constructor
  · rintro ⟨h, hConvert, other, hOther, hHeld⟩
    obtain rfl : other = group := by omega
    exact ⟨h, hConvert, hHeld⟩
  · rintro ⟨h, hConvert, hHeld⟩
    exact ⟨h, hConvert, group, hGroup, hHeld⟩

/-- The reader gets the new hashes of an update, and perhaps some that it had. -/
theorem tells_indexBlock (hOn : events.enableKvCacheEvents)
    (hInjective : Function.Injective events.maybeConvertBlockHash) (hGroups : cfg.numGroups ≤ 1)
    {group : Nat} (hGroup : group < cfg.numGroups) (block : BlockId) {subStart subEnd : Nat}
    (hEnd : subEnd ≤ (m.kv.reqSubHashes id).length) :
    Tells cfg events m (indexBlock events subBlockSize m id request group block subStart subEnd) := by
  set hashes := ((m.kv.reqSubHashes id).drop subStart).take (subEnd - subStart) with hHashes
  set first := (m.kv.index group).firstFreshIdx block hashes with hFirst
  set updated : EventManager H X E :=
    { m with kv := m.kv.indexBlock id group block subStart subEnd } with hUpdated
  have hLength : hashes.length = subEnd - subStart := by
    rw [hHashes, List.length_take, List.length_drop]
    omega
  have hHeldAfter : ∀ e, e ∈ held cfg events updated.kv ↔ ∃ h, events.maybeConvertBlockHash h = e ∧
      ((m.kv.index group).hashToBlocks h ≠ [] ∨
        h ∈ hashes.drop ((m.kv.index group).recorded block).length) := by
    intro e
    rw [mem_held hGroups hGroup]
    simp only [hUpdated, Manager.indexBlock, Function.update_self,
      SubBlockIndex.hashToBlocks_update_ne_nil, hHashes]
  have hEmit : indexBlock events subBlockSize m id request group block subStart subEnd =
      if subEnd - subStart ≤ first then updated
      else { updated with
        subBlockEventQueue := m.subBlockEventQueue ++ [.blockStored
          (freshSuffix events subBlockSize updated id request subStart subEnd first)] } :=
    if_neg (not_not.mpr hOn)
  rw [hEmit]
  rcases (m.kv.index group).firstFreshIdx_spec block hashes with
    ⟨hNone, hHeld⟩ | ⟨hSeen, ⟨fresh, hGet, hFree⟩, hHeld⟩
  · -- every hash is held already
    rw [← hFirst] at hNone
    rw [if_pos (by omega)]
    have hSame : held cfg events updated.kv = held cfg events m.kv := by
      ext e
      rw [hHeldAfter, mem_held hGroups hGroup]
      apply exists_congr
      intro h
      apply and_congr_right
      intro _
      exact or_iff_left_of_imp (hHeld h)
    intro told hMirrors
    rw [hSame]
    exact hMirrors
  · rw [← hFirst] at hSeen hGet hHeld
    have hLt : first < hashes.length := (List.getElem?_eq_some_iff.mp hGet).1
    have hSuffix : (freshSuffix events subBlockSize updated id request subStart subEnd
        first).blockHashes = (hashes.drop first).map events.maybeConvertBlockHash := by
      rw [hHashes, List.drop_take, List.drop_drop, Nat.sub_sub]
      rfl
    rw [if_neg (by omega)]
    apply Tells.event rfl
    · ext e
      dsimp only [change, Change.apply]
      rw [Set.mem_union, hHeldAfter, mem_held hGroups hGroup, Set.mem_ofPred_eq, hSuffix,
        List.mem_map]
      constructor
      · rintro (⟨h, hConvert, hOld⟩ | ⟨h, hIn, hConvert⟩)
        · exact ⟨h, hConvert, .inl hOld⟩
        · exact ⟨h, hConvert, .inr (List.drop_subset_drop_left hashes hSeen hIn)⟩
      · rintro ⟨h, hConvert, hNew⟩
        by_cases hIn : h ∈ hashes.drop first
        · exact .inr ⟨h, hIn, hConvert⟩
        · exact .inl ⟨h, hConvert, hNew.elim (fun hOld => hOld) fun hMem => hHeld h hMem hIn⟩
    · dsimp only [change, Change.News]
      rw [hSuffix]
      refine ⟨events.maybeConvertBlockHash fresh, List.mem_map_of_mem ?_, ?_⟩
      · apply List.mem_of_getElem? (i := 0)
        rw [List.getElem?_drop]
        exact hGet
      · rw [mem_held hGroups hGroup]
        rintro ⟨h, hConvert, hOld⟩
        exact hOld (hInjective hConvert ▸ hFree)

variable (hOn : events.enableKvCacheEvents)
  (hInjective : Function.Injective events.maybeConvertBlockHash) (hGroups : cfg.numGroups ≤ 1)

include hOn hInjective hGroups

theorem tells_onBlockCached {group : Nat} (hGroup : group < cfg.numGroups) (blockIndex : Nat)
    (block : BlockId) : Tells cfg events m
      (onBlockCached cfg hashing events subBlockSize m id request group blockIndex block) := by
  have hHashed : Tells cfg events m (getOrComputeSubHashes hashing subBlockSize m id request) :=
    .quiet rfl rfl
  dsimp only [onBlockCached]
  split
  · exact hHashed
  · exact hHashed.trans
      (tells_indexBlock hOn hInjective hGroups hGroup block (Nat.min_le_right _ _))

theorem tells_indexNewlyCachedBlocks (numFullBlocksBefore : Nat → Nat) : Tells cfg events m
    (indexNewlyCachedBlocks cfg hashing events subBlockSize m id request numFullBlocksBefore) := by
  apply foldl_invariant (Tells cfg events m) _ (.refl m)
  intro mid group hGroup hMid
  apply foldl_invariant (Tells cfg events m) _ hMid
  intro last block _ hLast
  split
  · exact hLast.trans (tells_onBlockCached hOn hInjective hGroups (List.mem_range.mp hGroup) _ _)
  · exact hLast

theorem tells_indexPartialGroup (markCached : Bool) {group : Nat} (hGroup : group < cfg.numGroups) :
    Tells cfg events m
      (indexPartialGroup cfg events subBlockSize id request markCached m group) := by
  dsimp only [indexPartialGroup]
  split
  · exact .refl m
  · split
    · exact .refl m
    · rename_i block _ _
      have hIndexed (subStart : Nat) {subEnd : Nat} (hEnd : subEnd ≤ (m.kv.reqSubHashes id).length) :
          Tells cfg events m
            (indexBlock events subBlockSize m id request group block subStart subEnd) :=
        tells_indexBlock hOn hInjective hGroups hGroup block hEnd
      split
      · exact (hIndexed _ (Nat.min_le_right _ _)).trans (.quiet rfl rfl)
      · exact hIndexed _ (Nat.min_le_right _ _)

theorem tells_indexPartialBlock (markCached : Bool) : Tells cfg events m
    (indexPartialBlock cfg hashing events subBlockSize m id request markCached) := by
  apply foldl_invariant (Tells cfg events m)
  · intro mid group hGroup hMid
    exact hMid.trans
      (tells_indexPartialGroup hOn hInjective hGroups markCached (List.mem_range.mp hGroup))
  · exact .quiet rfl rfl

theorem tells_doPendingIndexing (requests : ReqId → Request) : Tells cfg events m
    (doPendingIndexing cfg hashing events subBlockSize m requests) := by
  apply Tells.trans _ (.quiet rfl rfl)
  apply foldl_invariant (Tells cfg events m) _ (.refl m)
  intro mid pending _ hMid
  exact (hMid.trans (tells_indexNewlyCachedBlocks hOn hInjective hGroups pending.2)).trans
    (tells_indexPartialBlock hOn hInjective hGroups false)

theorem tells_finalizeSubBlockState : Tells cfg events m
    (finalizeSubBlockState cfg hashing events subBlockSize m id request) := by
  have hNoted : Tells cfg events m { m with
      kv := { m.kv with pendingIndexing := m.kv.pendingIndexing.filter (·.1 ≠ id) } } :=
    .quiet rfl rfl
  dsimp only [finalizeSubBlockState]
  apply Tells.trans _ (.quiet rfl rfl)
  apply Tells.trans _ (tells_indexPartialBlock hOn hInjective hGroups true)
  split
  · exact hNoted.trans (tells_indexNewlyCachedBlocks hOn hInjective hGroups _)
  · exact hNoted

/-- The reader drops what no block holds any more. -/
theorem tells_onBlockEvicted (block : BlockId) :
    Tells cfg events m (onBlockEvicted cfg events m block) := by
  set popped : EventManager H X E :=
    { m with kv := { m.kv with index := fun group => (m.kv.index group).pop block } } with hPopped
  by_cases hNone : cfg.numGroups = 0
  · have hEvicted : onBlockEvicted cfg events m block = popped := by
      rw [onBlockEvicted, hNone]
      rfl
    have hEmpty (kv : Manager H) : held cfg events kv = ∅ := by
      ext e
      simp [held, hNone]
    intro told hMirrors
    rw [hEvicted, hEmpty]
    rw [hEmpty] at hMirrors
    exact hMirrors
  · have hOne : cfg.numGroups = 1 := by omega
    have hGroup : 0 < cfg.numGroups := by omega
    have hEvicted : onBlockEvicted cfg events m block =
        emitBlockRemoved events popped ((m.kv.index 0).fullyRemoved block) := by
      rw [onBlockEvicted, hOne]
      rfl
    rw [hEvicted, emitBlockRemoved]
    have hAfter : ∀ e, e ∈ held cfg events popped.kv ↔ ∃ h, events.maybeConvertBlockHash h = e ∧
        ((m.kv.index 0).pop block).hashToBlocks h ≠ [] := fun e => mem_held hGroups hGroup
    by_cases hQuiet : (m.kv.index 0).fullyRemoved block = []
    · rw [if_pos (.inr hQuiet)]
      have hSame : held cfg events popped.kv = held cfg events m.kv := by
        ext e
        rw [hAfter, mem_held hGroups hGroup]
        apply exists_congr
        intro h
        apply and_congr_right
        intro _
        refine ⟨SubBlockIndex.hashToBlocks_pop_ne_nil, fun hOld hGone => ?_⟩
        have hRemoved := SubBlockIndex.mem_fullyRemoved.mpr ⟨hOld, hGone⟩
        rw [hQuiet] at hRemoved
        exact absurd hRemoved List.not_mem_nil
      intro told hMirrors
      rw [hSame]
      exact hMirrors
    · rw [if_neg (by simp [hOn, hQuiet])]
      apply Tells.event rfl
      · ext e
        dsimp only [change, Change.apply]
        rw [Set.mem_sdiff, hAfter, mem_held hGroups hGroup, Set.mem_ofPred_eq, List.mem_map]
        constructor
        · rintro ⟨⟨h, hConvert, hOld⟩, hStays⟩
          refine ⟨h, hConvert, fun hGone => hStays ⟨h, ?_, hConvert⟩⟩
          exact SubBlockIndex.mem_fullyRemoved.mpr ⟨hOld, hGone⟩
        · rintro ⟨h, hConvert, hLeft⟩
          refine ⟨⟨h, hConvert, SubBlockIndex.hashToBlocks_pop_ne_nil hLeft⟩, ?_⟩
          rintro ⟨h', hRemoved, hConvert'⟩
          obtain rfl := hInjective (hConvert'.trans hConvert.symm)
          exact hLeft (SubBlockIndex.mem_fullyRemoved.mp hRemoved).2
      · dsimp only [change, Change.News]
        refine ⟨by simpa using hQuiet,
          List.Nodup.map hInjective (SubBlockIndex.fullyRemoved_nodup ..), ?_⟩
        intro e hMem
        obtain ⟨h, hRemoved, hConvert⟩ := List.mem_map.mp hMem
        exact (mem_held hGroups hGroup).mpr
          ⟨h, hConvert, (SubBlockIndex.mem_fullyRemoved.mp hRemoved).1⟩

theorem tells_evict (block : BlockId) : Tells cfg events m (evict cfg events m block) := by
  unfold evict
  split
  · have hUnhashed : Tells cfg events m { m with
        kv := { m.kv with blockHash := Function.update m.kv.blockHash block none } } :=
      .quiet rfl rfl
    exact hUnhashed.trans (tells_onBlockEvicted hOn hInjective hGroups block)
  · exact .refl m

theorem tells_allocateSlots {numTokens : Nat} {wholeTokens : Option Nat} {hits newBlocks : Blocks}
    {freeQueue : Manager H → List BlockId}
    (hAlloc : allocateSlots cfg events m id numTokens wholeTokens hits freeQueue =
      some (m', newBlocks)) : Tells cfg events m m' := by
  unfold allocateSlots at hAlloc
  simp only [Option.map_eq_some_iff, Prod.mk.injEq] at hAlloc
  obtain ⟨⟨kv, given⟩, hKv, rfl, rfl⟩ := hAlloc
  obtain ⟨rfl, -⟩ := Manager.allocateSlots_spec hKv
  have hEvicted : Tells cfg events m ((Manager.allBlocks cfg given).foldl (evict cfg events)
      { m with kv := m.kv.touch (Manager.allBlocks cfg hits) }) := by
    apply foldl_invariant (Tells cfg events m)
    · intro mid block _ hMid
      exact hMid.trans (tells_evict hOn hInjective hGroups block)
    · exact .quiet rfl rfl
  apply hEvicted.trans
  have hIndex : (Manager.giveBlocks cfg m.kv id hits given).index =
      ((Manager.allBlocks cfg given).foldl (evict cfg events)
        { m with kv := m.kv.touch (Manager.allBlocks cfg hits) }).kv.index := by
    rw [kv_foldl_evict]
    rfl
  exact .quiet hIndex rfl

omit [DecidableEq H] hInjective hGroups in
theorem tells_resetPrefixCache : Tells cfg events m (resetPrefixCache cfg events m).1 := by
  unfold resetPrefixCache
  split
  · apply Tells.event rfl
    · ext e
      simp [change, Change.apply, held, SubBlockIndex.empty]
    · trivial
  · exact .refl m

theorem tells_step {s s' : Session H X E} {a : Action H}
    (hStep : s.step cfg hashing events subBlockSize a = some s')
    (hMirrors : Mirrors (held cfg events s.manager.kv)
      (s.published.map change ++ s.manager.subBlockEventQueue.map change)) :
    Mirrors (held cfg events s'.manager.kv)
      (s'.published.map change ++ s'.manager.subBlockEventQueue.map change) := by
  have hSilent (m : EventManager H X E) (hIndex : m.kv.index = s.manager.kv.index)
      (hQueue : m.subBlockEventQueue = s.manager.subBlockEventQueue) :
      Mirrors (held cfg events m.kv)
        (s.published.map change ++ m.subBlockEventQueue.map change) :=
    Tells.quiet hIndex hQueue _ hMirrors
  have hQuiet (kv : Manager H) (hIndex : kv.index = s.manager.kv.index) :
      Mirrors (held cfg events kv)
        (s.published.map change ++ s.manager.subBlockEventQueue.map change) :=
    hSilent { s.manager with kv := kv } hIndex rfl
  cases a with
  | setRequest id request =>
      obtain rfl := Option.some.inj hStep
      exact hMirrors
  | getComputedBlocksSubBlock choose id numComputedTokens =>
      obtain rfl := Option.some.inj hStep
      dsimp only [getComputedBlocksSubBlock]
      split
      · exact hSilent _ (index_getComputedBlocksSubBlock ..) rfl
      · exact hSilent _ (index_getComputedBlocksSubBlock ..) rfl
  | allocateSlots id numTokens wholeTokens hits freeQueue =>
      simp only [Session.step, Option.map_eq_some_iff] at hStep
      obtain ⟨⟨m', newBlocks⟩, hAlloc, rfl⟩ := hStep
      exact tells_allocateSlots hOn hInjective hGroups hAlloc _ hMirrors
  | cacheBlocks id numTokens =>
      obtain rfl := Option.some.inj hStep
      exact hQuiet _ (index_cacheBlocks ..)
  | applySubBlockMatch subBlockMatch =>
      simp only [Session.step, Manager.applySubBlockMatch, Option.map_map,
        Option.map_eq_some_iff] at hStep
      obtain ⟨ops, -, rfl⟩ := hStep
      exact hQuiet _ rfl
  | releaseSubBlockMatch subBlockMatch =>
      obtain rfl := Option.some.inj hStep
      exact hQuiet _ rfl
  | scheduleSubBlockIndexing id =>
      obtain rfl := Option.some.inj hStep
      exact hQuiet _ (index_scheduleSubBlockIndexing ..)
  | drainPendingCopyOps =>
      obtain rfl := Option.some.inj hStep
      exact hQuiet _ rfl
  | releaseCopyOps ops =>
      obtain rfl := Option.some.inj hStep
      exact hQuiet _ rfl
  | doPendingIndexing =>
      obtain rfl := Option.some.inj hStep
      exact tells_doPendingIndexing hOn hInjective hGroups s.requests _ hMirrors
  | free id =>
      obtain rfl := Option.some.inj hStep
      exact (tells_finalizeSubBlockState hOn hInjective hGroups).trans (.quiet rfl rfl) _ hMirrors
  | popBlocksForFree id =>
      obtain rfl := Option.some.inj hStep
      exact (tells_finalizeSubBlockState hOn hInjective hGroups).trans (.quiet rfl rfl) _ hMirrors
  | freeBlocks blocks =>
      obtain rfl := Option.some.inj hStep
      exact hQuiet _ rfl
  | resetPrefixCache =>
      obtain rfl := Option.some.inj hStep
      exact tells_resetPrefixCache hOn _ hMirrors
  | takeEvents =>
      obtain rfl := Option.some.inj hStep
      dsimp only [takeEvents]
      rw [if_neg (not_not.mpr hOn)]
      simpa using hMirrors

end

/-- The events, those taken and those still queued, lead a reader from nothing to the hashes
that the index has, and each of them told it something. -/
theorem events_mirror_index {cfg : Config} {hashing : Hashing H X} {events : EventConfig H E}
    {subBlockSize : Nat} {m : EventManager H X E} {actions : List (Action H)} {s : Session H X E}
    (hCreate : create cfg events = some m) (hOn : events.enableKvCacheEvents)
    (hInjective : Function.Injective events.maybeConvertBlockHash)
    (run : runFrom (Session.step cfg hashing events subBlockSize) (Session.start m) actions =
      some s) :
    Mirrors (held cfg events s.manager.kv)
      ((s.published ++ s.manager.subBlockEventQueue).map change) := by
  unfold create at hCreate
  split at hCreate
  · cases hCreate
  rename_i hOne
  have hGroups : cfg.numGroups ≤ 1 := Nat.not_lt.mp fun hLt => hOne ⟨hOn, hLt⟩
  obtain rfl := Option.some.inj hCreate
  rw [List.map_append]
  apply runFrom_invariant (fun s : Session H X E => Mirrors (held cfg events s.manager.kv)
    (s.published.map change ++ s.manager.subBlockEventQueue.map change)) _ _ run
  · intro s a _ s' hInv hStep
    exact tells_step hOn hInjective hGroups hStep hInv
  · have hEmpty : held cfg events (Manager.initial : Manager H) = ∅ := by
      ext e
      simp [held, Manager.initial, SubBlockIndex.empty]
    dsimp only [Session.start]
    rw [hEmpty]
    exact .nil

/-- Events are on, and hashes go out as they are. -/
def plainEvents : EventConfig SmallHash SmallHash where
  enableKvCacheEvents := true
  loraRequest _ := none
  maybeConvertBlockHash h := h

/-- A running request with these tokens. -/
def withTokens (tokenIds : List Token) (numComputedTokens : Nat) : Request :=
  { Request.unknown with
    status := .running, allTokenIds := tokenIds, numPromptTokens := tokenIds.length
    numComputedTokens := numComputedTokens }

/-- One request is cached and freed, and another takes every block. -/
def twoRequests : List (Action SmallHash) :=
  [.setRequest 0 (withTokens [1, 2, 3, 4, 5, 6, 7] 0),
    .getComputedBlocksSubBlock (fun _ => 0) 0 0,
    .allocateSlots 0 7 none Blocks.empty (Manager.freeBlockIds .small),
    .cacheBlocks 0 7, .scheduleSubBlockIndexing 0,
    .setRequest 0 (withTokens [1, 2, 3, 4, 5, 6, 7] 7), .doPendingIndexing, .takeEvents, .free 0,
    .allocateSlots 1 16 none Blocks.empty (Manager.freeBlockIds .small)]

theorem events_mirror_index_small : ∃ s : Session SmallHash Unit SmallHash,
    runFrom (Session.step .small Hashing.free plainEvents 2)
        (Session.start ⟨Manager.initial, fun _ => [], []⟩) twoRequests = some s ∧
      s.published.length = 2 ∧ s.manager.subBlockEventQueue.length = 2 ∧
      Mirrors (held .small plainEvents s.manager.kv)
        ((s.published ++ s.manager.subBlockEventQueue).map change) := by
  obtain ⟨s, run, hHolds⟩ := (Option.any_eq_true (fun s : Session SmallHash Unit SmallHash => decide
    (s.published.length = 2 ∧ s.manager.subBlockEventQueue.length = 2))
      (runFrom (Session.step .small Hashing.free plainEvents 2)
        (Session.start ⟨Manager.initial, fun _ => [], []⟩) twoRequests)).mp (by decide +kernel)
  simp only [decide_eq_true_eq] at hHolds
  exact ⟨s, run, hHolds.1, hHolds.2,
    events_mirror_index rfl rfl (fun _ _ hEq => hEq) run⟩

end VllmRbln.SubBlock.EventManager
