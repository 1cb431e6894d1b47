import VllmRbln.Scheduler.References
import VllmRbln.SubBlock.Edits

/-! Stale entries of the sub-block index. A running request's blocks are indexed before
they carry a hash, so an indexed block without one must stay in its request's list; when
the request gives its blocks back, every such block has to be hashed first. -/
namespace VllmRbln.SubBlock.Manager

set_option linter.unusedSectionVars false

open Scheduler Run

variable {H X : Type} [DecidableEq H]

/-- An indexed block carries a hash, or stands in the list of a request whose tokens
reach into it. -/
structure Indexed (cfg : Config) (subBlockSize : Nat) (numTokens : ReqId → Nat)
    (kv : Manager H) : Prop where
  held : ∀ group b, (kv.index group).contains b = true → kv.blockHash b ≠ none ∨
    ∃ id i, (kv.reqToBlocks id group)[i]? = some b ∧
      i * (cfg.blockSize group / subBlockSize) < numTokens id / subBlockSize
  hashes : ∀ id, (kv.reqSubHashes id).length ≤ numTokens id / subBlockSize

variable {cfg : Config} {hashing : Hashing H X} {subBlockSize : Nat}

/-- More tokens, or the same ones, keep the property. -/
theorem Indexed.mono {numTokens numTokens' : ReqId → Nat} {kv : Manager H}
    (hIndexed : Indexed cfg subBlockSize numTokens kv)
    (hLe : ∀ id, kv.reqToBlocks id = Blocks.empty ∧ kv.reqSubHashes id = [] ∨
      numTokens id ≤ numTokens' id) : Indexed cfg subBlockSize numTokens' kv := by
  constructor
  · intro group b hContains
    rcases hIndexed.held group b hContains with hHash | ⟨id, i, hBlock, hLt⟩
    · exact .inl hHash
    · rcases hLe id with ⟨hEmpty, -⟩ | hLe
      · rw [hEmpty] at hBlock
        simp [Blocks.empty] at hBlock
      · exact .inr ⟨id, i, hBlock, lt_of_lt_of_le hLt (Nat.div_le_div_right hLe)⟩
  · intro id
    rcases hLe id with ⟨-, hNil⟩ | hLe
    · simp [hNil]
    · exact le_trans (hIndexed.hashes id) (Nat.div_le_div_right hLe)

/-- Only hashes, index, lists and recorded hashes matter. -/
theorem Indexed.congr {numTokens : ReqId → Nat} {kv kv' : Manager H}
    (hIndexed : Indexed cfg subBlockSize numTokens kv) (hHash : kv'.blockHash = kv.blockHash)
    (hIndex : kv'.index = kv.index) (hBlocks : kv'.reqToBlocks = kv.reqToBlocks)
    (hHashes : kv'.reqSubHashes = kv.reqSubHashes) : Indexed cfg subBlockSize numTokens kv' := by
  constructor
  · rw [hHash, hIndex, hBlocks]
    exact hIndexed.held
  · rw [hHashes]
    exact hIndexed.hashes

theorem Indexed.edit {requests : ReqId → Request} {limit : ReqId → Nat} {kv kv' : Manager H}
    (hIndexed : Indexed cfg subBlockSize (fun id => (requests id).numTokens) kv)
    (hEdit : Edit cfg hashing subBlockSize requests limit kv kv') :
    Indexed cfg subBlockSize (fun id => (requests id).numTokens) kv' := by
  have hUpdate : ∀ {block : BlockId} {hash : BlockHash H} {b : BlockId},
      kv.blockHash b ≠ none → Function.update kv.blockHash block (some hash) b ≠ none := by
    intro block hash b hHash
    by_cases hEq : b = block
    · simp [hEq]
    · simpa [hEq] using hHash
  cases hEdit with
  | hash hGroup hBlock hFull hNone =>
      exact ⟨fun group b hContains => (hIndexed.held group b hContains).imp_left hUpdate,
        hIndexed.hashes⟩
  | subHashes id =>
      refine ⟨hIndexed.held, fun other => ?_⟩
      by_cases hEq : other = id
      · subst hEq
        simp only [getOrComputeSubHashes, Function.update_self]
        exact le_of_eq (computeSubHashes_length (hIndexed.hashes other))
      · simpa [getOrComputeSubHashes, hEq] using hIndexed.hashes other
  | indexCached hGroup hBlock hCached hStart hEnd hLength =>
      refine ⟨fun group b hContains => ?_, hIndexed.hashes⟩
      simp only [indexBlock, Function.update_apply] at hContains
      split at hContains
      · rename_i hSame
        rw [SubBlockIndex.contains_update, Bool.or_eq_true, decide_eq_true_eq] at hContains
        rcases hContains with rfl | hContains
        · exact .inl hCached
        · exact hIndexed.held group b (hSame ▸ hContains)
      · exact hIndexed.held group b hContains
  | @indexPartial id target i subEnd block hGroup hBlock hIndex hStart hEnd hLength =>
      refine ⟨fun group b hContains => ?_, hIndexed.hashes⟩
      simp only [indexBlock, Function.update_apply] at hContains
      split at hContains
      · rename_i hSame
        rw [SubBlockIndex.contains_update, Bool.or_eq_true, decide_eq_true_eq] at hContains
        rcases hContains with rfl | hContains
        · right
          exact ⟨id, i, hSame ▸ hBlock,
            hSame ▸ lt_of_lt_of_le hStart (le_trans hLength (hIndexed.hashes id))⟩
        · exact hIndexed.held group b (hSame ▸ hContains)
      · exact hIndexed.held group b hContains
  | mark hGroup hBlock =>
      exact ⟨fun group b hContains => (hIndexed.held group b hContains).imp_left hUpdate,
        hIndexed.hashes⟩
  | pending pendingIndexing => exact ⟨hIndexed.held, hIndexed.hashes⟩
  | forget id =>
      refine ⟨hIndexed.held, fun other => ?_⟩
      by_cases hEq : other = id
      · simp [hEq]
      · simpa [hEq] using hIndexed.hashes other

theorem Indexed.edits {requests : ReqId → Request} {limit : ReqId → Nat} {kv kv' : Manager H}
    (hIndexed : Indexed cfg subBlockSize (fun id => (requests id).numTokens) kv)
    (hEdits : Edits cfg hashing subBlockSize requests limit kv kv') :
    Indexed cfg subBlockSize (fun id => (requests id).numTokens) kv' :=
  hEdits.invariant (fun _ _ hInv hEdit => Indexed.edit hInv hEdit) hIndexed

/-- Blocks may be handed out: an indexed one carries a hash, so the eviction hook takes it out of
the index. -/
theorem Indexed.giveBlocks {numTokens : ReqId → Nat} {kv : Manager H}
    (hIndexed : Indexed cfg subBlockSize numTokens kv) {id : ReqId} {hits newBlocks : Blocks} :
    Indexed cfg subBlockSize numTokens (giveBlocks cfg kv id hits newBlocks) := by
  constructor
  · intro group b hContains
    rw [SubBlockIndex.contains, giveBlocks_blockHashes] at hContains
    rw [giveBlocks_blockHash]
    have hOld : (kv.index group).contains b = true ∧
        ¬ (b ∈ allBlocks cfg newBlocks ∧ kv.blockHash b ≠ none) := by
      split at hContains
      · cases hContains
      · rename_i hNot
        exact ⟨hContains, hNot⟩
    rcases hIndexed.held group b hOld.1 with hHash | ⟨other, i, hBlock, hLt⟩
    · left
      rw [if_neg fun hMem => hOld.2 ⟨hMem, hHash⟩]
      exact hHash
    · right
      refine ⟨other, i, ?_, hLt⟩
      rw [giveBlocks_reqToBlocks]
      by_cases hEq : other = id
      · subst hEq
        rw [Function.update_self, List.getElem?_append_left]
        · exact hBlock
        · exact (List.getElem?_eq_some_iff.mp hBlock).1
      · rw [Function.update_of_ne hEq]
        exact hBlock
  · rw [giveBlocks_reqSubHashes]
    exact hIndexed.hashes

/-! ### Giving the blocks of a request back -/

/-- Hashes stay, and what enters the index carries one. -/
def Marked (kv kv' : Manager H) : Prop :=
  (∀ b, kv.blockHash b ≠ none → kv'.blockHash b ≠ none) ∧
    ∀ group b, (kv'.index group).contains b = true →
      (kv.index group).contains b = true ∨ kv'.blockHash b ≠ none

theorem Marked.refl (kv : Manager H) : Marked kv kv := ⟨fun _ h => h, fun _ _ h => .inl h⟩

theorem Marked.trans {kv mid kv' : Manager H} (hFirst : Marked kv mid) (hSecond : Marked mid kv') :
    Marked kv kv' := by
  refine ⟨fun b hHash => hSecond.1 b (hFirst.1 b hHash), fun group b hContains => ?_⟩
  rcases hSecond.2 group b hContains with hMid | hHash
  · exact (hFirst.2 group b hMid).imp_right (hSecond.1 b)
  · exact .inr hHash

/-- One block enters the index, and has a hash. -/
theorem Marked.update {kv kv' : Manager H} {target : Nat} {block : BlockId} {hashes : List H}
    (hIndex : kv'.index = Function.update kv.index target ((kv.index target).update block hashes))
    (hMono : ∀ b, kv.blockHash b ≠ none → kv'.blockHash b ≠ none)
    (hHash : kv'.blockHash block ≠ none) : Marked kv kv' := by
  refine ⟨hMono, fun group b hContains => ?_⟩
  rw [hIndex, Function.update_apply] at hContains
  split at hContains
  · rename_i hSame
    rw [SubBlockIndex.contains_update, Bool.or_eq_true, decide_eq_true_eq] at hContains
    rcases hContains with rfl | hContains
    · exact .inr hHash
    · exact .inl (hSame ▸ hContains)
  · exact .inl hContains

theorem marked_indexNewlyCachedBlocks (kv : Manager H) (id : ReqId) (request : Request)
    (numFullBlocksBefore : Nat → Nat) :
    Marked kv (indexNewlyCachedBlocks cfg hashing subBlockSize kv id request
      numFullBlocksBefore) := by
  refine foldl_invariant (Marked kv) (fun mid group _ hMid => ?_) (.refl kv)
  refine foldl_invariant (Marked kv) (fun last block _ hLast => ?_) hMid
  split
  · rename_i hCached
    refine hLast.trans ?_
    unfold onBlockCached
    dsimp only
    split
    · exact ⟨fun _ h => h, fun _ _ h => .inl h⟩
    · have hSome : last.blockHash block.1 ≠ none := by
        simpa [Option.isSome_iff_ne_none] using hCached
      exact .update rfl (fun _ h => h) hSome
  · exact hLast

/-- Marking a partial block keeps what it enters hashed. -/
theorem marked_indexPartialGroup (kv : Manager H) (id : ReqId) (request : Request) (group : Nat) :
    Marked kv (indexPartialGroup cfg subBlockSize id request true kv group) := by
  unfold indexPartialGroup
  dsimp only
  split
  · exact .refl kv
  split
  · exact .refl kv
  rename_i block _ hLt
  have hSome : (kv.reqSubHashes id)[min (request.numComputedTokens / cfg.blockSize group *
      (cfg.blockSize group / subBlockSize) + request.numComputedTokens % cfg.blockSize group /
        subBlockSize) (kv.reqSubHashes id).length - 1]? ≠ none := by
    rw [ne_eq, List.getElem?_eq_none_iff]
    omega
  split
  · refine .update rfl (fun b hHash => ?_) (by simp)
    by_cases hEq : b = block
    · simp [hEq]
    · simpa [hEq, indexBlock] using hHash
  · rename_i hNone
    obtain ⟨lastSubHash, hLast⟩ := Option.ne_none_iff_exists'.mp hSome
    exact absurd hLast (hNone lastSubHash rfl)

/-- The block that the computed tokens end in gets a hash, if a whole sub-block of it is
computed. -/
theorem indexPartialGroup_hash {kv : Manager H} {id : ReqId} {request : Request} {group : Nat}
    {b : BlockId}
    (hBlock : (kv.reqToBlocks id group)[request.numComputedTokens / cfg.blockSize group]? = some b)
    (hStart : request.numComputedTokens / cfg.blockSize group *
      (cfg.blockSize group / subBlockSize) < (kv.reqSubHashes id).length)
    (hWhole : 0 < request.numComputedTokens % cfg.blockSize group / subBlockSize) :
    (indexPartialGroup cfg subBlockSize id request true kv group).blockHash b ≠ none := by
  unfold indexPartialGroup
  dsimp only
  rw [hBlock]
  dsimp only
  rw [if_neg (by omega)]
  have hSome : (kv.reqSubHashes id)[min (request.numComputedTokens / cfg.blockSize group *
      (cfg.blockSize group / subBlockSize) + request.numComputedTokens % cfg.blockSize group /
        subBlockSize) (kv.reqSubHashes id).length - 1]? ≠ none := by
    rw [ne_eq, List.getElem?_eq_none_iff]
    omega
  split
  · simp
  · rename_i hNone
    obtain ⟨lastSubHash, hLast⟩ := Option.ne_none_iff_exists'.mp hSome
    exact absurd hLast (hNone lastSubHash rfl)

theorem indexPartialGroup_reqSubHashes (kv : Manager H) (id : ReqId) (request : Request)
    (markCached : Bool) (group : Nat) :
    (indexPartialGroup cfg subBlockSize id request markCached kv group).reqSubHashes =
      kv.reqSubHashes := by
  unfold indexPartialGroup
  dsimp only
  split
  · rfl
  · split
    · rfl
    · split <;> rfl

/-- The same for every group in turn. -/
theorem foldl_indexPartialGroup_hash {kv : Manager H} {id : ReqId} {request : Request}
    {groups : List Nat} {group : Nat} (hMem : group ∈ groups) {b : BlockId}
    (hBlock : (kv.reqToBlocks id group)[request.numComputedTokens / cfg.blockSize group]? = some b)
    (hStart : request.numComputedTokens / cfg.blockSize group *
      (cfg.blockSize group / subBlockSize) < (kv.reqSubHashes id).length)
    (hWhole : 0 < request.numComputedTokens % cfg.blockSize group / subBlockSize) :
    (groups.foldl (indexPartialGroup cfg subBlockSize id request true) kv).blockHash b ≠ none := by
  induction groups generalizing kv with
  | nil => cases hMem
  | cons first groups ih =>
      have hMarked : Marked (indexPartialGroup cfg subBlockSize id request true kv first)
          (groups.foldl (indexPartialGroup cfg subBlockSize id request true)
            (indexPartialGroup cfg subBlockSize id request true kv first)) :=
        foldl_invariant (Marked (indexPartialGroup cfg subBlockSize id request true kv first))
        (fun mid other _ hMid => hMid.trans (marked_indexPartialGroup mid id request other)) (.refl _)
      rcases List.mem_cons.mp hMem with rfl | hMem
      · exact hMarked.1 b (indexPartialGroup_hash hBlock hStart hWhole)
      · refine ih hMem ?_ ?_
        · rw [ownership_reqToBlocks (ownership_indexPartialGroup ..)]
          exact hBlock
        · rw [indexPartialGroup_reqSubHashes]
          exact hStart

theorem marked_settlePending (kv : Manager H) (id : ReqId) (request : Request) :
    Marked kv (kv.settlePending cfg hashing subBlockSize id request) := by
  have hPending : Marked kv
      { kv with pendingIndexing := kv.pendingIndexing.filter (·.1 ≠ id) } := .refl kv
  unfold settlePending
  split
  · exact hPending.trans (marked_indexNewlyCachedBlocks _ id _ _)
  · exact hPending

/-- Every indexed block of the request that carries no hash is the one its computed
tokens end in, with a whole sub-block of it computed. -/
def MarksAll (cfg : Config) (subBlockSize : Nat) (kv : Manager H) (id : ReqId)
    (request : Request) : Prop :=
  ∀ group < cfg.numGroups, ∀ i b, (kv.reqToBlocks id group)[i]? = some b →
    (kv.index group).contains b = true → kv.blockHash b = none →
    i = request.numComputedTokens / cfg.blockSize group ∧
      subBlockSize ≤ request.numComputedTokens % cfg.blockSize group

instance (cfg : Config) (subBlockSize : Nat) (kv : Manager H) (id : ReqId) (request : Request) :
    Decidable (MarksAll cfg subBlockSize kv id request) :=
  decidable_of_iff (∀ group < cfg.numGroups, ∀ row ∈ (kv.reqToBlocks id group).zipIdx,
    (kv.index group).contains row.1 = true → kv.blockHash row.1 = none →
      row.2 = request.numComputedTokens / cfg.blockSize group ∧
        subBlockSize ≤ request.numComputedTokens % cfg.blockSize group)
    ⟨fun hAll group hGroup i b hBlock =>
        hAll group hGroup (b, i) (List.mem_zipIdx_iff_getElem?.mpr hBlock),
      fun hMarks group hGroup row hRow =>
        hMarks group hGroup row.2 row.1 (List.mem_zipIdx_iff_getElem?.mp hRow)⟩

/-- Then settling the request hashes all of its indexed blocks. -/
theorem settle_hashes {requests : ReqId → Request} {kv : Manager H} {id : ReqId}
    (hSize : cfg.subBlockSize = some subBlockSize)
    (hIndexed : Indexed cfg subBlockSize (fun id => (requests id).numTokens) kv)
    (hMarks : MarksAll cfg subBlockSize kv id (requests id))
    {group i : Nat} (hGroup : group < cfg.numGroups) {b : BlockId}
    (hBlock : (kv.reqToBlocks id group)[i]? = some b)
    (hLt : i * (cfg.blockSize group / subBlockSize) < (requests id).numTokens / subBlockSize)
    (hContains : ((kv.settle cfg hashing id (requests id)).index group).contains b = true) :
    (kv.settle cfg hashing id (requests id)).blockHash b ≠ none := by
  have hPos := (cfg.subBlockSize_fits subBlockSize hSize).1
  rw [settle_eq hSize] at hContains ⊢
  have hEdits : Edits cfg hashing subBlockSize requests (fun _ => 0) kv
      (kv.settlePending cfg hashing subBlockSize id (requests id)) := edits_settlePending kv id
  have hFirst : Marked kv (kv.settlePending cfg hashing subBlockSize id (requests id)) :=
    marked_settlePending kv id (requests id)
  generalize kv.settlePending cfg hashing subBlockSize id (requests id) = mid
    at hContains hEdits hFirst ⊢
  have hMidIndexed := hIndexed.edits hEdits
  have hComputed : Marked mid (mid.getOrComputeSubHashes hashing subBlockSize id (requests id)) :=
    .refl mid
  have hLast : Marked mid (indexPartialBlock cfg hashing subBlockSize mid id (requests id) true) :=
    foldl_invariant (Marked mid) (fun last other _ hLast =>
      hLast.trans (marked_indexPartialGroup last id (requests id) other)) hComputed
  rcases (hFirst.trans hLast).2 group b hContains with hOld | hHash
  · by_cases hHash : kv.blockHash b = none
    · obtain ⟨rfl, hWhole⟩ := hMarks group hGroup i b hBlock hOld hHash
      refine foldl_indexPartialGroup_hash (List.mem_range.mpr hGroup) ?_ ?_ ?_
      · have hSame : (mid.getOrComputeSubHashes hashing subBlockSize id (requests id)).reqToBlocks =
            kv.reqToBlocks := hEdits.reqToBlocks
        rw [hSame]
        exact hBlock
      · simp only [getOrComputeSubHashes, Function.update_self]
        rw [computeSubHashes_length (hMidIndexed.hashes id)]
        exact hLt
      · exact Nat.div_pos hWhole hPos
    · exact (hFirst.trans hLast).1 b hHash
  · exact hHash

/-- After that the blocks may leave the request's list. -/
theorem Indexed.release (hashing : Hashing H X) {requests : ReqId → Request} {kv : Manager H} {id : ReqId}
    (hSize : cfg.subBlockSize = some subBlockSize)
    (hIndexed : Indexed cfg subBlockSize (fun id => (requests id).numTokens) kv)
    (hMarks : MarksAll cfg subBlockSize kv id (requests id))
    (hGroups : ∀ group, cfg.numGroups ≤ group → kv.reqToBlocks id group = []) :
    Indexed cfg subBlockSize (fun id => (requests id).numTokens)
      ((kv.settle cfg hashing id (requests id)).popBlocks id) := by
  have hEdits : Edits cfg hashing subBlockSize requests (fun _ => 0) kv
      (kv.settle cfg hashing id (requests id)) := edits_settle hSize kv id
  have hSettled := hIndexed.edits hEdits
  refine ⟨fun group b hContains => ?_, hSettled.hashes⟩
  rcases hSettled.held group b hContains with hHash | ⟨other, i, hBlock, hLt⟩
  · exact .inl hHash
  · by_cases hEq : other = id
    · subst hEq
      left
      rw [hEdits.reqToBlocks] at hBlock
      have hGroup : group < cfg.numGroups := by
        by_contra hNot
        rw [hGroups group (Nat.not_lt.mp hNot)] at hBlock
        simp at hBlock
      exact settle_hashes hSize hIndexed hMarks hGroup hBlock hLt hContains
    · right
      refine ⟨other, i, ?_, hLt⟩
      simpa [popBlocks, hEq] using hBlock

end VllmRbln.SubBlock.Manager

namespace VllmRbln.Scheduler

set_option linter.unusedSectionVars false

open SubBlock SubBlock.Manager Run

variable {H X : Type} [DecidableEq H]

/-- The blocks of a request are given back when every one of them that is indexed
without a hash is about to get one. -/
def Release.Safe (cfg : Config) (subBlockSize : Nat) (release : Release H) : Prop :=
  MarksAll cfg subBlockSize release.kv release.id release.request

instance (cfg : Config) (subBlockSize : Nat) (release : Release H) :
    Decidable (release.Safe cfg subBlockSize) :=
  inferInstanceAs (Decidable (MarksAll ..))

/-- So far every release was safe. -/
def State.ReleasesSafe (cfg : Config) (subBlockSize : Nat) (s : State H) : Prop :=
  ∀ release ∈ s.releases, release.Safe cfg subBlockSize

instance (cfg : Config) (subBlockSize : Nat) (s : State H) :
    Decidable (s.ReleasesSafe cfg subBlockSize) :=
  inferInstanceAs (Decidable (∀ release ∈ s.releases, _))

/-- The index of a state, as long as every release was safe. -/
def SafeIndex (cfg : Config) (subBlockSize : Nat) (s : State H) : Prop :=
  s.ReleasesSafe cfg subBlockSize →
    Indexed cfg subBlockSize (fun id => (s.requests id).numTokens) s.kv

variable {cfg : Config} {hashing : Hashing H X} {subBlockSize : Nat}

/-- Nothing is released, and the index is at least as safe. -/
theorem SafeIndex.keep {s s' : State H} (hSafe : SafeIndex cfg subBlockSize s)
    (hReleases : s'.releases = s.releases)
    (hIndexed : Indexed cfg subBlockSize (fun id => (s.requests id).numTokens) s.kv →
      Indexed cfg subBlockSize (fun id => (s'.requests id).numTokens) s'.kv) :
    SafeIndex cfg subBlockSize s' := by
  intro hAll
  refine hIndexed (hSafe ?_)
  unfold State.ReleasesSafe at hAll ⊢
  rwa [hReleases] at hAll

theorem SafeIndex.freeRequestBlocks (hashing : Hashing H X) (hSize : cfg.subBlockSize = some subBlockSize) {s : State H}
    (hSafe : SafeIndex cfg subBlockSize s) (mode : FreeMode) {id : ReqId}
    (hGroups : ∀ group, cfg.numGroups ≤ group → s.kv.reqToBlocks id group = []) :
    SafeIndex cfg subBlockSize (s.freeRequestBlocks cfg hashing mode id) := by
  cases mode with
  | now =>
      intro hAll
      have hAll : ∀ release ∈ s.releases ++ [⟨s.kv, id, s.requests id⟩],
        release.Safe cfg subBlockSize := hAll
      have hIndexed := hSafe fun release hMem => hAll release (List.mem_append_left _ hMem)
      have hMarks := hAll _ (List.mem_append_right _ List.mem_cons_self)
      have hReleased := hIndexed.release hashing hSize hMarks hGroups
      exact hReleased.congr rfl rfl rfl rfl
  | deferred =>
      intro hAll
      have hAll : ∀ release ∈ s.releases ++ [⟨s.kv, id, s.requests id⟩],
        release.Safe cfg subBlockSize := hAll
      have hIndexed := hSafe fun release hMem => hAll release (List.mem_append_left _ hMem)
      have hMarks := hAll _ (List.mem_append_right _ List.mem_cons_self)
      have hReleased := hIndexed.release hashing hSize hMarks hGroups
      exact hReleased.congr rfl rfl rfl rfl
  | delayed => exact hSafe

/-- A block in a request's list is referenced. -/
theorem Ledger.refCnt_pos_of_listed {s : State H} {skipped : List ReqId} {matched : List BlockId}
    (hQueues : Queues cfg s skipped) (hLedger : Ledger cfg s matched) {id : ReqId} {group : Nat}
    {b : BlockId} (hIn : b ∈ s.kv.reqToBlocks id group) : 0 < s.kv.refCnt b := by
  have hGroup : group < cfg.numGroups := by
    by_contra hNot
    rw [(hQueues.request id).groups group (Nat.not_lt.mp hNot)] at hIn
    cases hIn
  have hId : id ∈ s.ids := by
    refine hQueues.mem_ids fun hUnknown => ?_
    rw [(hQueues.request id).unknown_blocks hUnknown] at hIn
    cases hIn
  exact hLedger.refCnt_pos_of_held hId (mem_allBlocks.mpr ⟨group, hGroup, hIn⟩)

/-- Blocks the pool hands out stand in no request's list. -/
theorem Ledger.unlisted {s : State H} {skipped : List ReqId} {matched : List BlockId}
    (hQueues : Queues cfg s skipped) (hLedger : Ledger cfg s matched) {id : ReqId}
    {hits newBlocks : Blocks} {numTokens : Nat}
    (hNew : NewBlocks cfg s.kv id hits numTokens newBlocks) :
    ∀ b ∈ allBlocks cfg newBlocks, ∀ other group, b ∉ s.kv.reqToBlocks other group := by
  intro b hMem other group hIn
  have hPos := hLedger.refCnt_pos_of_listed hQueues hIn
  rw [(hNew.refCnt_eq_zero hMem).1] at hPos
  exact absurd hPos (by simp)

/-! ### Within a call -/

/-- The references and the index of a step. -/
def IndexOk (cfg : Config) (subBlockSize : Nat) (locals : Locals H) : Prop :=
  RefsOk cfg locals ∧ SafeIndex cfg subBlockSize locals.st

/-- No manager operation, no release and no new token. -/
theorem SafeIndex.same {s s' : State H} (hSafe : SafeIndex cfg subBlockSize s)
    (hReleases : s'.releases = s.releases) (hKv : s'.kv = s.kv)
    (hTokens : ∀ id, (s'.requests id).numTokens = (s.requests id).numTokens) :
    SafeIndex cfg subBlockSize s' := by
  refine hSafe.keep hReleases fun hIndexed => ?_
  rw [hKv]
  exact hIndexed.mono fun id => .inr (hTokens id).ge

/-- One request changes, not its tokens. -/
theorem SafeIndex.modified {s s' : State H} (hSafe : SafeIndex cfg subBlockSize s)
    (hReleases : s'.releases = s.releases) (hKv : s'.kv = s.kv) {id : ReqId} {request : Request}
    (hRequests : s'.requests = Function.update s.requests id request)
    (hTokens : request.numTokens = (s.requests id).numTokens) : SafeIndex cfg subBlockSize s' := by
  refine hSafe.same hReleases hKv fun other => ?_
  rw [hRequests]
  by_cases hEq : other = id
  · subst hEq
    rw [Function.update_self]
    exact hTokens
  · rw [Function.update_of_ne hEq]

theorem index_running (hashing : Hashing H X) (up : Upstream H)
    (hSize : cfg.subBlockSize = some subBlockSize) :
    RunningRule cfg hashing up (IndexOk cfg subBlockSize) where
  pass hOk hInv hIndex hBudget hPassed :=
    ⟨(refs_running cfg hashing up).pass hOk hInv.1 hIndex hBudget hPassed, hInv.2⟩
  preempt {locals locals' id} hOk hInv hVictim hPre := by
    refine ⟨(refs_running cfg hashing up).preempt hOk hInv.1 hVictim hPre, ?_⟩
    rw [hPre.st]
    have hFreed := SafeIndex.freeRequestBlocks hashing hSize
      (s := { locals.st with running := locals.st.running.filter (· ≠ id) }) hInv.2
      (.ofPreempted cfg (up.deferFree id)) (hOk.queues.request id).groups
    exact hFreed.modified rfl rfl rfl rfl
  grant {id numNewTokens start locals kv newBlocks} hStart hInv hGranted := by
    refine ⟨(refs_running cfg hashing up).grant hStart.1 hInv.1 hGranted, ?_⟩
    obtain ⟨hKv, -⟩ := allocateSlots_spec hGranted.alloc
    have hGiven : SafeIndex cfg subBlockSize { locals.st with kv := kv } :=
      hInv.2.keep rfl fun hIndexed => hKv ▸ hIndexed.giveBlocks
    exact hGiven.modified rfl rfl rfl rfl

private theorem promoteRequest_safe (hashing : Hashing H X)
    (hSize : cfg.subBlockSize = some subBlockSize) {locals : Locals H}
    (hSafe : SafeIndex cfg subBlockSize locals.st) {id : ReqId}
    (hGroups : ∀ group, cfg.numGroups ≤ group → locals.st.kv.reqToBlocks id group = [])
    (numLoadedTokens : Nat) :
    SafeIndex cfg subBlockSize (locals.promoteRequest cfg hashing id numLoadedTokens).st := by
  unfold Locals.promoteRequest
  dsimp only
  split
  · have hModified : SafeIndex cfg subBlockSize (locals.st.modifyRequest id fun _ =>
        { locals.st.requests id with
          status := (locals.st.requests id).readyStatus
          numComputedTokens := min (min numLoadedTokens
            (locals.st.requests id).numComputedTokens)
              ((locals.st.requests id).numTokens - 1) }) :=
      hSafe.modified rfl rfl rfl rfl
    split
    · exact hModified.freeRequestBlocks hashing hSize .now hGroups
    · refine hModified.keep rfl fun hIndexed => ?_
      have hEdits : Edits cfg hashing subBlockSize
          (locals.st.modifyRequest id fun _ =>
            { locals.st.requests id with
              status := (locals.st.requests id).readyStatus
              numComputedTokens := min (min numLoadedTokens
                (locals.st.requests id).numComputedTokens)
                  ((locals.st.requests id).numTokens - 1) }).requests
          (fun _ => min numLoadedTokens (locals.st.requests id).numComputedTokens) locals.st.kv
          (locals.st.kv.cacheBlocks cfg hashing id (locals.st.requests id)
            (min numLoadedTokens (locals.st.requests id).numComputedTokens)) :=
        edits_cacheBlocks _ id _ (by simp [State.modifyRequest]) le_rfl
      exact hIndexed.edits hEdits
  · exact hSafe.modified rfl rfl rfl rfl

theorem SafeIndex.looked {id : ReqId} {numLocal : Nat} {locals locals' : Locals H}
    (hSafe : SafeIndex cfg subBlockSize locals.st) (hSize : cfg.subBlockSize = some subBlockSize)
    (hLooked : Looked cfg hashing id numLocal locals locals') :
    SafeIndex cfg subBlockSize locals'.st := by
  have hRecorded : SafeIndex cfg subBlockSize { locals.st with
      kv := locals.st.kv.getOrComputeSubHashes hashing subBlockSize id (locals.st.requests id) } :=
    hSafe.keep rfl fun hIndexed => by
      have hEdit : Edit cfg hashing subBlockSize locals.st.requests (fun _ => 0) locals.st.kv
          (locals.st.kv.getOrComputeSubHashes hashing subBlockSize id (locals.st.requests id)) :=
        .subHashes id
      exact hIndexed.edit hEdit
  cases hLooked with
  | untouched => exact hSafe
  | hashed hOther =>
      cases hSize.symm.trans hOther
      exact hRecorded
  | outdone hOther =>
      cases hSize.symm.trans hOther
      exact hRecorded.keep rfl fun hIndexed => hIndexed.congr rfl rfl rfl rfl
  | matched hOther hMatch =>
      cases hSize.symm.trans hOther
      exact hRecorded.keep rfl fun hIndexed => hIndexed.congr rfl rfl rfl rfl

theorem SafeIndex.seat {up : Upstream H} {id : ReqId} {numNewTokens : Nat}
    {start locals : Locals H} {found : Locals.Computed} {kv : Manager H} {newBlocks : Blocks}
    {ops : List KVCacheCopyOp} (hInv : IndexOk cfg subBlockSize locals)
    (hSeated : Seated cfg hashing up id numNewTokens start locals found kv newBlocks ops) :
    SafeIndex cfg subBlockSize (locals.seatWaiting kv ops).st := by
  obtain ⟨hKv, -⟩ := allocateSlots_spec hSeated.alloc
  refine hInv.2.keep rfl fun hIndexed => ?_
  have hGiven : Indexed cfg subBlockSize (fun other => (locals.st.requests other).numTokens) kv :=
    hKv ▸ hIndexed.giveBlocks
  exact hGiven.congr rfl rfl rfl rfl

theorem index_waiting (hashing : Hashing H X) (up : Upstream H)
    (hSize : cfg.subBlockSize = some subBlockSize) :
    WaitingRule cfg hashing up (IndexOk cfg subBlockSize) (IndexOk cfg subBlockSize) where
  last hInv := hInv
  skip hOk hInv hNone hMem := ⟨(refs_waiting cfg hashing up).skip hOk hInv.1 hNone hMem, hInv.2⟩
  promote {locals id} numLoadedTokens hOk hInv hNone hMem hBlocked hLoaded :=
    ⟨(refs_waiting cfg hashing up).promote numLoadedTokens hOk hInv.1 hNone hMem hBlocked hLoaded,
      promoteRequest_safe hashing hSize hInv.2 (hOk.queues.request id).groups numLoadedTokens⟩
  look hOk hInv hNone hMem hFound := ⟨(refs_waiting cfg hashing up).look hOk hInv.1 hNone hMem hFound,
    hInv.2.looked hSize hFound.looked⟩
  await hStart hInv hSeated hAsync hExternal := by
    refine ⟨(refs_waiting cfg hashing up).await hStart.1 hInv.1 hSeated hAsync hExternal, ?_⟩
    exact (SafeIndex.seat hInv hSeated).modified rfl rfl rfl rfl
  join hStart hInv hSeated hSync hReady hOne hDecode hGuard := by
    refine ⟨(refs_waiting cfg hashing up).join hStart.1 hInv.1 hSeated hSync hReady hOne hDecode
      hGuard, ?_⟩
    exact (SafeIndex.seat hInv hSeated).modified rfl rfl rfl rfl
  alone {start locals id found kv newBlocks ops} hStart hInv hSeated hSync hReady hTokens hPrefill
      hGuard := by
    refine ⟨(refs_waiting cfg hashing up).alone hStart.1 hInv.1 hSeated hSync hReady hTokens hPrefill
      hGuard, ?_⟩
    rw [evictDecodes_eq cfg (hSeated.startRunning _ _).scheduledRunning_nodup]
    have hRunning : SafeIndex cfg subBlockSize
        ((locals.seatWaiting kv ops).admitWaiting id found.numComputedTokens
          ((locals.st.requests id).waitingTokens cfg found.numComputedTokens)).st :=
      (SafeIndex.seat hInv hSeated).modified rfl rfl rfl rfl
    refine hRunning.same rfl rfl fun other => ?_
    simp only [Locals.withoutDecodes]
    split <;> rfl

theorem IndexOk.leave {locals : Locals H} (hInv : IndexOk cfg subBlockSize locals) :
    IndexOk cfg subBlockSize (locals.leaveWaitingLoop cfg) := by
  refine ⟨hInv.1.leave, ?_⟩
  unfold Locals.leaveWaitingLoop
  dsimp only
  split
  · exact hInv.2.same rfl rfl fun _ => rfl
  · exact hInv.2.keep rfl fun hIndexed => hIndexed.congr rfl rfl rfl rfl

/-! ### Runs -/

/-- The references and the index between two calls. -/
def IndexSafe (cfg : Config) (subBlockSize : Nat) (s : State H) : Prop :=
  RefsBalanced cfg s ∧ SafeIndex cfg subBlockSize s

theorem IndexSafe.loops (hSize : cfg.subBlockSize = some subBlockSize) {up : Upstream H}
    {s : State H} (hQueues : Queues cfg s []) (hSafe : IndexSafe cfg subBlockSize s)
    {locals : Locals H} (hLoops : Locals.loops cfg hashing up s = some locals) :
    IndexOk cfg subBlockSize locals :=
  (loops_rule (IndexOk cfg subBlockSize) (index_running hashing up hSize)
    (index_waiting hashing up hSize) hQueues ⟨hSafe.1.start, hSafe.2⟩ (fun _ _ h _ => h)
    (fun _ _ h _ _ => h) (fun _ _ h => h.leave) hLoops).2

theorem edits_cacheScheduled (hashing : Hashing H X) (subBlockSize : Nat) (locals : Locals H) :
    Edits cfg hashing subBlockSize locals.st.requests
      (fun id => min ((locals.st.requests id).numComputedTokens +
        (locals.numScheduledTokens.lookup id).getD 0) (locals.st.requests id).numTokens)
      locals.st.kv (locals.scheduledReqs.foldl
        (cacheScheduled cfg hashing locals.st.requests locals.numScheduledTokens)
          locals.st.kv) := by
  refine foldl_invariant (Edits cfg hashing subBlockSize locals.st.requests _ locals.st.kv)
    (fun kv id _ hEdits => hEdits.trans ?_) .refl
  have hCached : Edits cfg hashing subBlockSize locals.st.requests
      (fun id => min ((locals.st.requests id).numComputedTokens +
        (locals.numScheduledTokens.lookup id).getD 0) (locals.st.requests id).numTokens) kv
      (kv.cacheBlocks cfg hashing id (locals.st.requests id)
        (min ((locals.st.requests id).numComputedTokens +
          (locals.numScheduledTokens.lookup id).getD 0) (locals.st.requests id).numTokens)) :=
    edits_cacheBlocks kv id (locals.st.requests id) rfl le_rfl
  unfold cacheScheduled scheduleSubBlockIndexing
  dsimp only
  split
  · split
    · exact hCached
    · exact hCached.tail (.pending _)
  · exact hCached

theorem IndexOk.finish (hashing : Hashing H X) {locals : Locals H}
    (hInv : IndexOk cfg subBlockSize locals) (hNone : locals.subBlockMatch = none) :
    IndexSafe cfg subBlockSize (locals.finish cfg hashing) := by
  refine ⟨hInv.1.finish hashing hNone, hInv.2.keep rfl fun hIndexed => ?_⟩
  have hCached := hIndexed.edits (edits_cacheScheduled hashing subBlockSize locals)
  have hTokens : ∀ id, ((locals.finish cfg hashing).requests id).numTokens =
      (locals.st.requests id).numTokens := by
    intro id
    simp only [Locals.finish, Request.numTokens]
    split
    · rw [(advanceRequest_keeps ..).2.2.1]
    · rfl
  have hGrown := hCached.mono fun id => .inr (hTokens id).ge
  exact hGrown.congr rfl rfl rfl rfl

theorem SafeIndex.freeRequest (hashing : Hashing H X) (hSize : cfg.subBlockSize = some subBlockSize)
    {s : State H} (hQueues : Queues cfg s []) (hSafe : SafeIndex cfg subBlockSize s)
    (mode : FreeMode) (id : ReqId) :
    SafeIndex cfg subBlockSize (s.freeRequest cfg hashing mode id) := by
  have hPopped : SafeIndex cfg subBlockSize (s.popWaiting id) := hSafe
  have hFreed := hPopped.freeRequestBlocks hashing hSize mode (hQueues.request id).groups
  exact hFreed.modified rfl rfl rfl rfl

theorem SafeIndex.receiveOutput (hashing : Hashing H X) (result : RunnerOutput)
    (output : SchedulerOutput) {s : State H} (hSafe : SafeIndex cfg subBlockSize s) (id : ReqId) :
    SafeIndex cfg subBlockSize (s.receiveOutput cfg hashing result output id) := by
  refine hSafe.keep rfl fun hIndexed => ?_
  obtain ⟨-, -, -, hTokens⟩ := afterOutput_keeps cfg result output id (s.requests id)
  have hGrown : Indexed cfg subBlockSize
      (fun other => ((s.receiveOutput cfg hashing result output id).requests other).numTokens)
      s.kv := by
    refine hIndexed.mono fun other => .inr ?_
    by_cases hEq : other = id
    · subst hEq
      simp only [State.receiveOutput, Function.update_self]
      exact hTokens.length_le
    · simp [State.receiveOutput, hEq]
  unfold State.receiveOutput at hGrown ⊢
  dsimp only at hGrown ⊢
  split
  · have hEdits : Edits cfg hashing subBlockSize
        (Function.update s.requests id ((s.requests id).afterOutput cfg result output id).1)
        (fun _ => min
          (((s.requests id).afterOutput cfg result output id).1.numComputedTokens -
            ((s.requests id).afterOutput cfg result output id).1.numOutputPlaceholders)
          ((s.requests id).afterOutput cfg result output id).1.numTokens) s.kv
        (s.kv.cacheBlocks cfg hashing id ((s.requests id).afterOutput cfg result output id).1
          (min (((s.requests id).afterOutput cfg result output id).1.numComputedTokens -
            ((s.requests id).afterOutput cfg result output id).1.numOutputPlaceholders)
            ((s.requests id).afterOutput cfg result output id).1.numTokens)) :=
      edits_cacheBlocks _ id _ (by rw [Function.update_self]) le_rfl
    exact hGrown.edits hEdits
  · exact hGrown

theorem index_update (hashing : Hashing H X) (hSize : cfg.subBlockSize = some subBlockSize)
    (result : RunnerOutput) (output : SchedulerOutput) :
    UpdateRule cfg hashing result output (SafeIndex cfg subBlockSize) where
  receive _ hSafe _ _ _ := hSafe.receiveOutput hashing result output _
  free hQueues hSafe _ _ _ := hSafe.freeRequest hashing hSize hQueues _ _

theorem SafeIndex.settleOutput (hashing : Hashing H X) (hSize : cfg.subBlockSize = some subBlockSize)
    (output : SchedulerOutput) {s : State H} (hSafe : SafeIndex cfg subBlockSize s) :
    SafeIndex cfg subBlockSize (s.settleOutput cfg hashing output) := by
  have hEdits : Edits cfg hashing subBlockSize s.requests (fun _ => 0) s.kv
      (s.kv.doPendingIndexing cfg hashing subBlockSize s.requests) := edits_doPendingIndexing s.kv
  simp only [State.settleOutput, hSize]
  exact hSafe.keep rfl fun hIndexed => (hIndexed.edits hEdits).congr rfl rfl rfl rfl

theorem index_run (hashing : Hashing H X) (hSize : cfg.subBlockSize = some subBlockSize) :
    RunRule cfg hashing (fun _ => True) (IndexSafe cfg subBlockSize) where
  initial := by
    refine ⟨(refs_run hashing hSize).initial, fun _ => ⟨fun group b hContains => ?_, fun id => ?_⟩⟩
    · cases hContains
    · exact Nat.zero_le _
  add {s s' id new} hQueues hSafe hAdd := by
    refine ⟨(refs_run hashing hSize).add hQueues hSafe.1 hAdd, ?_⟩
    obtain ⟨hNew, -, -, -, waiting, skippedWaiting, -, rfl⟩ := addRequest_cases hAdd
    have hUnknown : (s.requests id).status = .unknown := by
      by_contra hKnown
      exact hNew (hQueues.mem_ids hKnown)
    have hZero := (hQueues.request id).unknown_tokens hUnknown
    refine hSafe.2.keep rfl fun hIndexed => hIndexed.mono fun other => .inr ?_
    by_cases hEq : other = id
    · subst hEq
      omega
    · simp [hEq]
  schedule _ hQueues hSafe _ hLoops hOk _ := (hSafe.loops hSize hQueues hLoops).finish hashing hOk.noMatch
  update {s result output inFlight} hQueues hSafe hInFlight hPopped hAdmitted :=
    ⟨(refs_run hashing hSize).update hQueues hSafe.1 hInFlight hPopped hAdmitted,
      (update_rule (index_update hashing hSize result output) hPopped hAdmitted
        hSafe.2).2.settleOutput hashing hSize output⟩
  drafts {s} drafts hQueues hSafe := by
    refine ⟨(refs_run hashing hSize).drafts drafts hQueues hSafe.1, ?_⟩
    unfold setDrafts
    dsimp only
    split
    · exact hSafe.2
    · exact hSafe.2.modified rfl rfl rfl rfl
  free hQueues hSafe hKnown hUnfinished hDelayed :=
    ⟨(refs_run hashing hSize).free hQueues hSafe.1 hKnown hUnfinished hDelayed,
      hSafe.2.freeRequest hashing hSize hQueues _ _⟩
  releaseDeferred hQueues hSafe hDeferred :=
    ⟨(refs_run hashing hSize).releaseDeferred hQueues hSafe.1 hDeferred,
      hSafe.2.keep rfl fun hIndexed => hIndexed.congr rfl rfl rfl rfl⟩
  freeDelayed {s id} hQueues hSafe hFinished :=
    ⟨(refs_run hashing hSize).freeDelayed hQueues hSafe.1 hFinished,
      hSafe.2.freeRequestBlocks hashing hSize .now (hQueues.request id).groups⟩

/-- Every indexed block is referenced or carries a hash. -/
def NoStale (kv : Manager H) : Prop :=
  ∀ group b, (kv.index group).contains b = true → 0 < kv.refCnt b ∨ kv.blockHash b ≠ none

/-- So the pool takes a block that it hands out again out of every index. -/
theorem NoStale.evicted {kv : Manager H} (hNoStale : NoStale kv) {b : BlockId}
    (hFree : kv.refCnt b = 0) (group : Nat) : ((kv.evict b).index group).contains b = false := by
  have hHashes := foldl_evict_blockHashes kv [b] group b
  simp only [List.foldl_cons, List.foldl_nil, List.mem_singleton, true_and] at hHashes
  rw [SubBlockIndex.contains, hHashes]
  split
  · rfl
  · rename_i hNone
    by_contra hContains
    have hIn : (kv.index group).contains b = true := by
      simpa [SubBlockIndex.contains, Option.isSome_iff_ne_none] using hContains
    rcases hNoStale group b hIn with hPos | hHash
    · omega
    · exact hNone hHash

theorem SafeIndex.noStale {s : State H} {skipped : List ReqId} {matched : List BlockId}
    (hSafe : SafeIndex cfg subBlockSize s) (hQueues : Queues cfg s skipped)
    (hLedger : Ledger cfg s matched) (hReleases : s.ReleasesSafe cfg subBlockSize) :
    NoStale s.kv := by
  intro group b hContains
  rcases (hSafe hReleases).held group b hContains with hHash | ⟨id, i, hBlock, -⟩
  · exact .inr hHash
  · left
    exact hLedger.refCnt_pos_of_listed hQueues (List.mem_of_getElem? hBlock)

/-- In a run whose releases are all safe no entry of an index is stale, between calls and
after any number of rounds of the two loops within one; a block that the pool hands out
again leaves every index. -/
theorem index_noStale (hSize : cfg.subBlockSize = some subBlockSize) {actions : List (Action H)}
    {s : State H} (run : Reaches cfg hashing actions s)
    (hReleases : s.ReleasesSafe cfg subBlockSize) :
    NoStale s.kv ∧
      (∀ b, s.kv.refCnt b = 0 → ∀ group, ((s.kv.evict b).index group).contains b = false) ∧
      ∀ (up : Upstream H) (budget : DecodeBatchBudget) (rounds moreRounds : Nat)
        (middle locals : Locals H),
        loop (Locals.runningRound cfg hashing up budget) rounds (Locals.start cfg up s) =
          some middle →
        (locals = middle ∨ ¬ middle.skipsWaiting up ∧
          loop (Locals.waitingRound cfg hashing up budget) moreRounds middle = some locals) →
        locals.st.ReleasesSafe cfg subBlockSize → NoStale locals.st.kv := by
  obtain ⟨hQueues, hRefs, hSafe⟩ := run_rule (index_run hashing hSize) (fun _ _ => trivial) run
  have hNoStale := hSafe.noStale hQueues hRefs.ledger hReleases
  refine ⟨hNoStale, fun b hFree group => hNoStale.evicted hFree group, ?_⟩
  intro up budget rounds moreRounds middle locals hRunning hLocals hLater
  obtain ⟨hOk, hMiddle⟩ := running_rule (index_running hashing up hSize) hQueues
    ⟨hRefs.start, hSafe⟩ hRunning
  rcases hLocals with rfl | ⟨hEnters, hWaiting⟩
  · exact hMiddle.2.noStale hOk.queues hMiddle.1.ledger hLater
  · obtain ⟨hLoop, hLast⟩ :=
      waitingLoop_rule (index_waiting hashing up hSize) hOk hEnters hMiddle hWaiting
    exact hLast.2.noStale hLoop.queues hLast.1.ledger hLater

/-- A request is aborted half way through its only block, which then gets a hash. -/
theorem index_noStale_small : ∃ s, Reaches Config.small Hashing.free
      [.addRequest 0 (.plain [1, 2, 3] 8), .schedule (.plain .small),
        .updateFromOutput (.constant 5), .finishRequest 0 false false] s ∧
    s.releases.length = 1 ∧ (s.kv.index 0).contains 1 = true ∧ s.kv.refCnt 1 = 0 ∧
      NoStale s.kv := by
  obtain ⟨s, run, hHolds⟩ := Reaches.exists_of_any Config.small Hashing.free
    [.addRequest 0 (.plain [1, 2, 3] 8), .schedule (.plain .small),
      .updateFromOutput (.constant 5), .finishRequest 0 false false]
    (fun s => decide (s.releases.length = 1 ∧ (s.kv.index 0).contains 1 = true ∧
      s.kv.refCnt 1 = 0 ∧ s.ReleasesSafe Config.small 2)) (by decide +kernel)
  simp only [decide_eq_true_eq] at hHolds
  obtain ⟨hOne, hContains, hFree, hSafe⟩ := hHolds
  exact ⟨s, run, hOne, hContains, hFree, (index_noStale rfl run hSafe).1⟩

/-- One token is drafted, and blocks of four tokens are cached in halves. -/
def Config.drafting : Config :=
  { Config.small with maxNumScheduledTokens := 2, numSpecTokens := 1, numLookaheadTokens := 1 }

/-- The draft fills the request's block and is accepted, and the request ends: its block
was indexed half full, is not hashed, and goes back to the pool. -/
theorem index_stale : ∃ s, Reaches Config.drafting Hashing.free
      [.addRequest 0 (.plain [1, 2] 3), .schedule (.plain .drafting),
        .updateFromOutput (.constant 7), .updateDraftTokenIds [(0, [7])],
        .schedule (.plain .drafting), .updateFromOutput (.constant 7)] s ∧ ¬ NoStale s.kv := by
  obtain ⟨s, run, hHolds⟩ := Reaches.exists_of_any Config.drafting Hashing.free
    [.addRequest 0 (.plain [1, 2] 3), .schedule (.plain .drafting),
      .updateFromOutput (.constant 7), .updateDraftTokenIds [(0, [7])],
      .schedule (.plain .drafting), .updateFromOutput (.constant 7)]
    (fun s => decide ((s.kv.index 0).contains 1 = true ∧ s.kv.refCnt 1 = 0 ∧
      s.kv.blockHash 1 = none)) (by decide +kernel)
  simp only [decide_eq_true_eq] at hHolds
  refine ⟨s, run, fun hNoStale => ?_⟩
  rcases hNoStale 0 1 hHolds.1 with hPos | hHash
  · omega
  · exact hHash hHolds.2.2

end VllmRbln.Scheduler
