import VllmRbln.SubBlock.Manager
import Mathlib.Logic.Relation

/-! Every operation that hashes or indexes blocks is a sequence of small edits of the
hashes and the index. A property of these is shown once, edit by edit. -/
namespace VllmRbln.SubBlock

set_option linter.unusedSectionVars false

open Scheduler Run

variable {H X : Type} [DecidableEq H]

namespace Manager

/-- One edit, made for a request of `requests`: hash a block below `limit` tokens, record
sub-block hashes, index a hashed block, index or mark the block that the computed tokens
end in, or drop state. -/
inductive Edit (cfg : Config) (hashing : Hashing H X) (subBlockSize : Nat)
    (requests : ReqId → Request) (limit : ReqId → Nat) (kv : Manager H) : Manager H → Prop
  | hash {id : ReqId} {group i : Nat} {block : BlockId} (hGroup : group < cfg.numGroups)
      (hBlock : (kv.reqToBlocks id group)[i]? = some block)
      (hFull : (i + 1) * cfg.blockSize group ≤ limit id) (hNone : kv.blockHash block = none) :
      Edit cfg hashing subBlockSize requests limit kv { kv with
        blockHash := Function.update kv.blockHash block
          (some (.full (fullHash cfg hashing id (requests id).allTokenIds group i) group)) }
  | subHashes (id : ReqId) :
      Edit cfg hashing subBlockSize requests limit kv
        (kv.getOrComputeSubHashes hashing subBlockSize id (requests id))
  | indexCached {id : ReqId} {group i subEnd : Nat} {block : BlockId}
      (hGroup : group < cfg.numGroups) (hBlock : (kv.reqToBlocks id group)[i]? = some block)
      (hCached : kv.blockHash block ≠ none)
      (hStart : i * (cfg.blockSize group / subBlockSize) < subEnd)
      (hEnd : subEnd ≤ i * (cfg.blockSize group / subBlockSize) +
        cfg.blockSize group / subBlockSize)
      (hLength : subEnd ≤ (kv.reqSubHashes id).length) :
      Edit cfg hashing subBlockSize requests limit kv
        (kv.indexBlock id group block (i * (cfg.blockSize group / subBlockSize)) subEnd)
  | indexPartial {id : ReqId} {group i subEnd : Nat} {block : BlockId}
      (hGroup : group < cfg.numGroups) (hBlock : (kv.reqToBlocks id group)[i]? = some block)
      (hIndex : i = (requests id).numComputedTokens / cfg.blockSize group)
      (hStart : i * (cfg.blockSize group / subBlockSize) < subEnd)
      (hEnd : subEnd ≤ i * (cfg.blockSize group / subBlockSize) +
        (requests id).numComputedTokens % cfg.blockSize group / subBlockSize)
      (hLength : subEnd ≤ (kv.reqSubHashes id).length) :
      Edit cfg hashing subBlockSize requests limit kv
        (kv.indexBlock id group block (i * (cfg.blockSize group / subBlockSize)) subEnd)
  | mark {id : ReqId} {group : Nat} {block : BlockId} {lastSubHash : H}
      (hGroup : group < cfg.numGroups)
      (hBlock : (kv.reqToBlocks id group)[(requests id).numComputedTokens /
        cfg.blockSize group]? = some block) :
      Edit cfg hashing subBlockSize requests limit kv { kv with
        blockHash := Function.update kv.blockHash block
          (some (.partialBlock block lastSubHash group)) }
  | pending (pendingIndexing : List (ReqId × (Nat → Nat))) :
      Edit cfg hashing subBlockSize requests limit kv { kv with pendingIndexing := pendingIndexing }
  | forget (id : ReqId) :
      Edit cfg hashing subBlockSize requests limit kv { kv with
        reqSubHashes := Function.update kv.reqSubHashes id [] }

abbrev Edits (cfg : Config) (hashing : Hashing H X) (subBlockSize : Nat)
    (requests : ReqId → Request) (limit : ReqId → Nat) : Manager H → Manager H → Prop :=
  Relation.ReflTransGen (Edit cfg hashing subBlockSize requests limit)

section

variable {cfg : Config} {hashing : Hashing H X} {subBlockSize : Nat} {requests : ReqId → Request}
  {limit : ReqId → Nat} {kv kv' : Manager H}

theorem Edit.ownership (hEdit : Edit cfg hashing subBlockSize requests limit kv kv') :
    kv'.ownership = kv.ownership := by
  cases hEdit <;> rfl

theorem Edits.ownership (hEdits : Edits cfg hashing subBlockSize requests limit kv kv') :
    kv'.ownership = kv.ownership := by
  induction hEdits with
  | refl => rfl
  | tail _ hEdit ih => exact hEdit.ownership.trans ih

theorem Edits.reqToBlocks (hEdits : Edits cfg hashing subBlockSize requests limit kv kv') :
    kv'.reqToBlocks = kv.reqToBlocks := ownership_reqToBlocks hEdits.ownership

/-- What every edit preserves, the operations preserve. -/
theorem Edits.invariant {Inv : Manager H → Prop}
    (hEdit : ∀ kv kv', Inv kv → Edit cfg hashing subBlockSize requests limit kv kv' → Inv kv')
    (hInv : Inv kv) (hEdits : Edits cfg hashing subBlockSize requests limit kv kv') : Inv kv' := by
  induction hEdits with
  | refl => exact hInv
  | tail _ hLast ih => exact hEdit _ _ ih hLast

theorem edits_cacheBlocks (kv : Manager H) (id : ReqId) (request : Request) {numTokens : Nat}
    (hTokens : (requests id).allTokenIds = request.allTokenIds) (hLimit : numTokens ≤ limit id) :
    Edits cfg hashing subBlockSize requests limit kv
      (kv.cacheBlocks cfg hashing id request numTokens) := by
  refine foldl_invariant (Edits cfg hashing subBlockSize requests limit kv)
    (fun mid group hGroup hMid => ?_) .refl
  have hGroup : group < cfg.numGroups := List.mem_range.mp (List.mem_of_mem_filter hGroup)
  refine foldl_invariant (Edits cfg hashing subBlockSize requests limit kv)
    (fun last block hBlock hLast => ?_) hMid
  unfold cacheBlock
  split
  · exact hLast
  rename_i hNone
  rw [List.mem_zipIdx_iff_getElem?, List.getElem?_take] at hBlock
  split at hBlock
  · rename_i hLt
    rw [hMid.reqToBlocks, ← hLast.reqToBlocks] at hBlock
    refine hLast.tail ?_
    rw [← hTokens]
    refine .hash hGroup hBlock (le_trans ?_ hLimit) (by simpa using hNone)
    exact le_trans (Nat.mul_le_mul_right _ hLt) (Nat.div_mul_le_self _ _)
  · cases hBlock

theorem edits_indexNewlyCachedBlocks (kv : Manager H) (id : ReqId)
    (numFullBlocksBefore : Nat → Nat) :
    Edits cfg hashing subBlockSize requests limit kv
      (indexNewlyCachedBlocks cfg hashing subBlockSize kv id (requests id) numFullBlocksBefore) := by
  refine foldl_invariant (Edits cfg hashing subBlockSize requests limit kv)
    (fun mid group hGroup hMid => ?_) .refl
  have hGroup : group < cfg.numGroups := List.mem_range.mp hGroup
  refine foldl_invariant (Edits cfg hashing subBlockSize requests limit kv)
    (fun last block hBlock hLast => ?_) hMid
  split
  · rename_i hCached
    have hBlock := List.mem_of_mem_drop hBlock
    rw [List.mem_zipIdx_iff_getElem?, hMid.reqToBlocks, ← hLast.reqToBlocks] at hBlock
    have hHashed : Edits cfg hashing subBlockSize requests limit kv
        (last.getOrComputeSubHashes hashing subBlockSize id (requests id)) :=
      hLast.tail (.subHashes id)
    unfold onBlockCached
    dsimp only
    split
    · exact hHashed
    · rename_i hLt
      have hSome : last.blockHash block.1 ≠ none := by
        simpa [Option.isSome_iff_ne_none] using hCached
      refine hHashed.tail (.indexCached hGroup hBlock hSome (Nat.not_le.mp hLt) ?_ ?_)
      · exact Nat.min_le_left _ _
      · exact Nat.min_le_right _ _
  · exact hLast

theorem edits_indexPartialGroup (kv : Manager H) (id : ReqId) (markCached : Bool) {group : Nat}
    (hGroup : group < cfg.numGroups) :
    Edits cfg hashing subBlockSize requests limit kv
      (indexPartialGroup cfg subBlockSize id (requests id) markCached kv group) := by
  unfold indexPartialGroup
  dsimp only
  split
  · exact .refl
  rename_i block hBlock
  split
  · exact .refl
  rename_i hLt
  have hIndexed : Edits cfg hashing subBlockSize requests limit kv (kv.indexBlock id group block
      ((requests id).numComputedTokens / cfg.blockSize group * (cfg.blockSize group / subBlockSize))
      (min ((requests id).numComputedTokens / cfg.blockSize group *
        (cfg.blockSize group / subBlockSize) +
          (requests id).numComputedTokens % cfg.blockSize group / subBlockSize)
        (kv.reqSubHashes id).length)) :=
    .single (.indexPartial hGroup hBlock rfl (Nat.not_le.mp hLt) (Nat.min_le_left _ _)
      (Nat.min_le_right _ _))
  split
  · exact hIndexed.tail (.mark hGroup hBlock)
  · exact hIndexed

theorem edits_indexPartialBlock (kv : Manager H) (id : ReqId) (markCached : Bool) :
    Edits cfg hashing subBlockSize requests limit kv
      (indexPartialBlock cfg hashing subBlockSize kv id (requests id) markCached) :=
  foldl_invariant (Edits cfg hashing subBlockSize requests limit kv)
    (fun mid _ hGroup hMid => hMid.trans
      (edits_indexPartialGroup mid id markCached (List.mem_range.mp hGroup)))
    (.single (.subHashes id))

theorem edits_doPendingIndexing (kv : Manager H) :
    Edits cfg hashing subBlockSize requests limit kv
      (kv.doPendingIndexing cfg hashing subBlockSize requests) := by
  refine Relation.ReflTransGen.tail ?_ (.pending [])
  exact foldl_invariant (Edits cfg hashing subBlockSize requests limit kv)
    (fun mid pending _ hMid => (hMid.trans (edits_indexNewlyCachedBlocks mid pending.1 pending.2)).trans
      (edits_indexPartialBlock _ pending.1 false)) .refl

/-- The first half of settling a request: what was noted for it is indexed. -/
def settlePending (cfg : Config) (hashing : Hashing H X) (subBlockSize : Nat) (kv : Manager H)
    (id : ReqId) (request : Request) : Manager H :=
  match kv.pendingIndexing.lookup id with
  | some numFullBlocksBefore => indexNewlyCachedBlocks cfg hashing subBlockSize
      { kv with pendingIndexing := kv.pendingIndexing.filter (·.1 ≠ id) } id request
        numFullBlocksBefore
  | none => { kv with pendingIndexing := kv.pendingIndexing.filter (·.1 ≠ id) }

theorem settle_eq (hSize : cfg.subBlockSize = some subBlockSize) (kv : Manager H) (id : ReqId)
    (request : Request) : kv.settle cfg hashing id request =
      { indexPartialBlock cfg hashing subBlockSize
          (kv.settlePending cfg hashing subBlockSize id request) id request true with
        reqSubHashes := Function.update (indexPartialBlock cfg hashing subBlockSize
          (kv.settlePending cfg hashing subBlockSize id request) id request true).reqSubHashes
            id [] } := by
  unfold settle
  rw [hSize]
  rfl

theorem edits_settlePending (kv : Manager H) (id : ReqId) :
    Edits cfg hashing subBlockSize requests limit kv
      (kv.settlePending cfg hashing subBlockSize id (requests id)) := by
  have hPending : Edits cfg hashing subBlockSize requests limit kv
      { kv with pendingIndexing := kv.pendingIndexing.filter (·.1 ≠ id) } :=
    .single (.pending _)
  unfold settlePending
  split
  · exact hPending.trans (edits_indexNewlyCachedBlocks _ id _)
  · exact hPending

theorem edits_settle (hSize : cfg.subBlockSize = some subBlockSize) (kv : Manager H) (id : ReqId) :
    Edits cfg hashing subBlockSize requests limit kv
      (kv.settle cfg hashing id (requests id)) := by
  rw [settle_eq hSize]
  exact ((edits_settlePending kv id).trans (edits_indexPartialBlock _ id true)).tail (.forget id)

end

/-! ### Eviction -/

/-- Handing blocks out again takes away their hashes. -/
theorem foldl_evict_blockHash (kv : Manager H) (blocks : List BlockId) (b : BlockId) :
    (blocks.foldl evict kv).blockHash b = if b ∈ blocks then none else kv.blockHash b := by
  induction blocks generalizing kv with
  | nil => simp
  | cons block blocks ih =>
      have hHead : (kv.evict block).blockHash b = if b = block then none else kv.blockHash b := by
        unfold evict
        cases hHash : kv.blockHash block with
        | none =>
            by_cases hEq : b = block
            · simp [hEq, hHash]
            · simp [hEq]
        | some hash => simp [Function.update_apply]
      rw [List.foldl_cons, ih, hHead]
      by_cases hMem : b ∈ blocks <;> simp [hMem]

/-- It takes them out of the index if they carried a hash. -/
theorem foldl_evict_blockHashes (kv : Manager H) (blocks : List BlockId) (group : Nat)
    (b : BlockId) : ((blocks.foldl evict kv).index group).blockHashes b =
      if b ∈ blocks ∧ kv.blockHash b ≠ none then none else (kv.index group).blockHashes b := by
  induction blocks generalizing kv with
  | nil => simp
  | cons block blocks ih =>
      rw [List.foldl_cons, ih]
      by_cases hEq : b = block
      · subst hEq
        unfold evict
        cases hHash : kv.blockHash b with
        | none => simp [hHash]
        | some hash => simp
      · have hHash : (kv.evict block).blockHash b = kv.blockHash b := by
          unfold evict
          split <;> simp [hEq]
        have hHashes : ((kv.evict block).index group).blockHashes b =
            (kv.index group).blockHashes b := by
          unfold evict
          split
          · exact SubBlockIndex.blockHashes_pop_of_ne _ hEq
          · rfl
        rw [hHash, hHashes]
        simp [hEq]

theorem giveBlocks_blockHash (cfg : Config) (kv : Manager H) (id : ReqId) (hits newBlocks : Blocks)
    (b : BlockId) : (giveBlocks cfg kv id hits newBlocks).blockHash b =
      if b ∈ allBlocks cfg newBlocks then none else kv.blockHash b :=
  foldl_evict_blockHash (kv.touch (allBlocks cfg hits)) (allBlocks cfg newBlocks) b

theorem giveBlocks_blockHashes (cfg : Config) (kv : Manager H) (id : ReqId)
    (hits newBlocks : Blocks) (group : Nat) (b : BlockId) :
    ((giveBlocks cfg kv id hits newBlocks).index group).blockHashes b =
      if b ∈ allBlocks cfg newBlocks ∧ kv.blockHash b ≠ none then none
      else (kv.index group).blockHashes b :=
  foldl_evict_blockHashes (kv.touch (allBlocks cfg hits)) (allBlocks cfg newBlocks) group b

theorem giveBlocks_reqSubHashes (cfg : Config) (kv : Manager H) (id : ReqId)
    (hits newBlocks : Blocks) :
    (giveBlocks cfg kv id hits newBlocks).reqSubHashes = kv.reqSubHashes := by
  refine foldl_keeps reqSubHashes (fun kv block => ?_) (allBlocks cfg newBlocks) (kv.touch _)
  unfold evict
  split <;> rfl

/-! ### The recorded sub-block hashes -/

theorem hashTokens_length (hashing : Hashing H X) (subBlockSize : Nat) (id : ReqId)
    (tokens : List Token) (parentHash : Option H) (start count : Nat) :
    (hashTokens hashing subBlockSize id tokens parentHash start count).length = count := by
  induction count generalizing parentHash start with
  | zero => rfl
  | succ count ih => simp [hashTokens, ih]

theorem computeSubHashes_length {hashing : Hashing H X} {subBlockSize : Nat} {id : ReqId}
    {tokens : List Token} {recorded : List H}
    (hRecorded : recorded.length ≤ tokens.length / subBlockSize) :
    (computeSubHashes hashing subBlockSize id tokens recorded).length =
      tokens.length / subBlockSize := by
  rw [computeSubHashes, List.length_append, hashTokens_length, Nat.mul_comm,
    Nat.sub_mul_div]
  omega

end Manager

end VllmRbln.SubBlock
