import Mathlib.Algebra.Ring.Nat
import Mathlib.Data.List.Forall2
import Mathlib.Data.List.GetD
import VllmRbln.Common.Checked
import VllmRbln.Common.Grid

/-! The write of a request's blocks to the consumer that registered for them
(`rbln_nixl/push_worker.py`): our lists trimmed to the consumer's, then one transfer for each
paired peer rank, over descriptor ids that both sides count alike. -/
namespace VllmRbln.KvTransfer

open Checked Grid

/-- Block ids by KV group. -/
abbrev BlockIds := List (List Nat)

inductive PushError
  | consumerHoldsMore (group numRemote numLocal : Nat)
  | groupIndex
  | blockSizes (blockSizeRatio : Nat)
  | descCounts (numLocal numRemote : Nat)
  deriving DecidableEq

/-- One write prepared for a peer rank, and whether NIXL took it. -/
structure Attempt where
  globalRank : Nat
  localDescs : List Nat
  remoteDescs : List Nat
  accepted : Bool
  deriving DecidableEq

/-- An exception, with the writes submitted before it. -/
structure PushFailure where
  error : PushError
  submitted : List Attempt
  deriving DecidableEq

/-- A peer rank that serves part of what a whole-engine handle covers: the KV group of each
region, and the descriptors of a block. -/
structure ShardPeer where
  globalRank : Nat
  regionGroupIds : List Nat
  descsPerBlock : Nat

/-- What the worker knows of one consumer engine. `toKernelBlockIds` is
`_logical_to_kernel_block_ids` on one group, and `accepts` is NIXL's answer for a rank. -/
structure PushWorker where
  peers : List ShardPeer
  numBlocks : Nat
  dstNumBlocks : Nat
  blockSizeRatio : Nat
  physicalBlocksPerLogical : Nat
  toKernelBlockIds : Nat → List Nat → List Nat
  accepts : Nat → Bool

/-- What becomes of a request. A delegated one is upstream's to transfer. -/
inductive PushAction
  | delegated
  | nothing
  | submitted (attempts : List Attempt)
  deriving DecidableEq

structure PushOutcome where
  localBlockIds : BlockIds
  remoteBlockIds : BlockIds
  action : PushAction
  deriving DecidableEq

/-- `xs[start:]`, where a negative start counts from the end. -/
def sliceFrom {α : Type} (xs : List α) (start : Int) : List α :=
  if 0 ≤ start then xs.drop start.toNat else xs.drop (xs.length - (-start).toNat)

/-- One group of the trim, when the consumer's list is not the longer one. -/
def keepTail (own wanted : List Nat) : List Nat :=
  if wanted.length < own.length then sliceFrom own (-(wanted.length : Int)) else own

/-- `_trim_to_consumer_blocks`, from the given group on. -/
def trimToConsumerBlocks (group : Nat) : BlockIds → BlockIds → Except PushError BlockIds
  | owns, [] => .ok owns
  | [], _ :: _ => .error .groupIndex
  | own :: owns, wanted :: wanteds =>
      if own.length < wanted.length then
        .error (.consumerHoldsMore group wanted.length own.length)
      else (trimToConsumerBlocks (group + 1) owns wanteds).map (keepTail own wanted :: ·)

/-- The descriptors of one block in a region. -/
def blockDescs (peer : ShardPeer) (numBlocks region block : Nat) : List Nat :=
  let ix := region * numBlocks + block
  if peer.descsPerBlock = 1 then [ix]
  else (List.range peer.descsPerBlock).map fun piece => ix * peer.descsPerBlock + piece

/-- The descriptors of one region, given with the KV group it belongs to. -/
def regionDescs (peer : ShardPeer) (numBlocks : Nat) (blockIds : BlockIds) (region : Nat × Nat) :
    Except PushError (List Nat) :=
  match blockIds[region.1]? with
  | none => .error .groupIndex
  | some blocks => .ok (blocks.flatMap (blockDescs peer numBlocks region.2))

/-- `_get_block_descs_ids_for_shard`. -/
def blockDescsIdsForShard (peer : ShardPeer) (numBlocks : Nat) (blockIds : BlockIds) :
    Except PushError (List Nat) :=
  (peer.regionGroupIds.zipIdx.mapM (regionDescs peer numBlocks blockIds)).map List.flatten

namespace PushWorker

/-- One write for each paired rank. A write that NIXL refuses is logged and released. -/
def writeShards (worker : PushWorker) (own wanted : BlockIds) :
    List ShardPeer → List Attempt → Except PushFailure (List Attempt)
  | [], done => .ok done
  | peer :: peers, done =>
      match blockDescsIdsForShard peer worker.dstNumBlocks wanted,
          blockDescsIdsForShard peer worker.numBlocks own with
      | .error error, _ | .ok _, .error error => .error ⟨error, done⟩
      | .ok remoteDescs, .ok localDescs =>
          if localDescs.length ≠ remoteDescs.length then
            .error ⟨.descCounts localDescs.length remoteDescs.length, done⟩
          else worker.writeShards own wanted peers
            (done ++ [⟨peer.globalRank, localDescs, remoteDescs, worker.accepts peer.globalRank⟩])

/-- The consumer's blocks in our unit. -/
def wanted (worker : PushWorker) (remoteBlockIds : BlockIds) : BlockIds :=
  remoteBlockIds.map (worker.toKernelBlockIds worker.physicalBlocksPerLogical)

/-- `_xfer_blocks_for_req`. -/
def xferBlocksForReq (worker : PushWorker) (localBlockIds remoteBlockIds : BlockIds) :
    Except PushFailure PushOutcome :=
  if worker.peers = [] then
    if worker.physicalBlocksPerLogical = 1 then
      match trimToConsumerBlocks 0 localBlockIds remoteBlockIds with
      | .error error => .error ⟨error, []⟩
      | .ok trimmed => .ok ⟨trimmed, remoteBlockIds, .delegated⟩
    else .ok ⟨localBlockIds, remoteBlockIds, .delegated⟩
  else if worker.blockSizeRatio ≠ 1 then .error ⟨.blockSizes worker.blockSizeRatio, []⟩
  else
    let remoteBlockIds := worker.wanted remoteBlockIds
    match trimToConsumerBlocks 0 localBlockIds remoteBlockIds with
    | .error error => .error ⟨error, []⟩
    | .ok trimmed =>
        if (trimmed.map List.length).sum = 0 then .ok ⟨trimmed, remoteBlockIds, .nothing⟩
        else (worker.writeShards trimmed remoteBlockIds worker.peers []).map fun attempts =>
          ⟨trimmed, remoteBlockIds, .submitted attempts⟩

end PushWorker

/-! ### The trim -/

/-- The consumer registered no more than we hold, in every group. -/
def NoLonger (owns wanteds : BlockIds) : Prop :=
  List.Forall₂ (fun own wanted => wanted.length ≤ own.length) owns wanteds

theorem keepTail_suffix (own wanted : List Nat) : keepTail own wanted <:+ own := by
  unfold keepTail
  split
  · unfold sliceFrom
    split
    · exact List.drop_suffix _ _
    · exact List.drop_suffix _ _
  · exact List.suffix_refl own

/-- The slice has the consumer's length, but for the slice `[-0:]` of a list that is not empty. -/
theorem keepTail_length {own wanted : List Nat} (hLe : wanted.length ≤ own.length) :
    (keepTail own wanted).length = wanted.length ↔ (wanted = [] → own = []) := by
  unfold keepTail
  split
  · rename_i hLess
    by_cases hEmpty : wanted = []
    · subst hEmpty
      simp [sliceFrom]
    · have hPos : 0 < wanted.length := List.length_pos_iff.2 hEmpty
      have hNeg : ¬ (0 : Int) ≤ -(wanted.length : Int) := by omega
      simp only [sliceFrom, hNeg, if_false, Int.neg_neg, Int.toNat_natCast, List.length_drop]
      constructor
      · intro _ hNil
        exact absurd hNil hEmpty
      · intro _
        omega
  · rename_i hNot
    constructor
    · rintro hLength rfl
      exact List.length_eq_zero_iff.1 hLength
    · intro _
      omega

theorem trimToConsumerBlocks_ok (group : Nat) {owns wanteds : BlockIds}
    (hFits : NoLonger owns wanteds) :
    trimToConsumerBlocks group owns wanteds = .ok (List.zipWith keepTail owns wanteds) := by
  induction hFits generalizing group with
  | nil => rfl
  | cons hHead _ ih =>
      rw [trimToConsumerBlocks, if_neg (Nat.not_lt.2 hHead), ih]
      rfl

/-- A group in which the consumer holds more is refused. -/
theorem trimToConsumerBlocks_error (group : Nat) {owns wanteds : BlockIds}
    (hGroups : owns.length = wanteds.length) (hLonger : ¬ NoLonger owns wanteds) :
    ∃ at' numRemote numLocal, trimToConsumerBlocks group owns wanteds =
      .error (.consumerHoldsMore at' numRemote numLocal) := by
  induction owns generalizing group wanteds with
  | nil =>
      cases wanteds with
      | nil => exact absurd List.Forall₂.nil hLonger
      | cons wanted wanteds => cases hGroups
  | cons own owns ih =>
      cases wanteds with
      | nil => cases hGroups
      | cons wanted wanteds =>
          rw [trimToConsumerBlocks]
          split
          · exact ⟨_, _, _, rfl⟩
          · rename_i hHead
            have hRest : ¬ NoLonger owns wanteds := fun hFits =>
              hLonger (List.Forall₂.cons (Nat.not_lt.1 hHead) hFits)
            obtain ⟨at', numRemote, numLocal, hError⟩ :=
              ih (group + 1) (Nat.succ.inj hGroups) hRest
            refine ⟨at', numRemote, numLocal, ?_⟩
            rw [hError]
            rfl

/-- A list for each group, as long as the consumer's. -/
def SameLengths (kept wanteds : BlockIds) : Prop :=
  List.Forall₂ (fun own wanted => own.length = wanted.length) kept wanteds

/-- No group that the consumer registered empty has blocks of ours. -/
def EmptyTogether (owns wanteds : BlockIds) : Prop :=
  List.Forall₂ (fun own wanted => wanted = [] → own = []) owns wanteds

theorem sameLengths_trimmed {owns wanteds : BlockIds} (hFits : NoLonger owns wanteds) :
    SameLengths (List.zipWith keepTail owns wanteds) wanteds ↔ EmptyTogether owns wanteds := by
  induction hFits with
  | nil => exact ⟨fun _ => List.Forall₂.nil, fun _ => List.Forall₂.nil⟩
  | cons hHead _ ih =>
      simp only [SameLengths, EmptyTogether, List.zipWith_cons_cons, List.forall₂_cons] at ih ⊢
      rw [ih, keepTail_length hHead]

theorem suffixes_trimmed {owns wanteds : BlockIds} (hGroups : owns.length = wanteds.length) :
    List.Forall₂ (fun kept own => kept <:+ own) (List.zipWith keepTail owns wanteds) owns := by
  induction owns generalizing wanteds with
  | nil => exact List.Forall₂.nil
  | cons own owns ih =>
      cases wanteds with
      | nil => cases hGroups
      | cons wanted wanteds =>
          exact List.Forall₂.cons (keepTail_suffix own wanted) (ih (Nat.succ.inj hGroups))

/-! ### The descriptors -/

theorem blockDescs_length (peer : ShardPeer) (numBlocks region block : Nat) :
    (blockDescs peer numBlocks region block).length = peer.descsPerBlock := by
  unfold blockDescs
  dsimp only
  split
  · rename_i hOne
    rw [hOne, List.length_singleton]
  · rw [List.length_map, List.length_range]

theorem length_flatMap_blockDescs (peer : ShardPeer) (numBlocks region : Nat) (blocks : List Nat) :
    (blocks.flatMap (blockDescs peer numBlocks region)).length =
      blocks.length * peer.descsPerBlock := by
  induction blocks with
  | nil => simp
  | cons block blocks ih =>
      rw [List.flatMap_cons, List.length_append, blockDescs_length, ih, List.length_cons,
        Nat.succ_mul, Nat.add_comm]

/-- The blocks of a region's group. -/
def blocksOf (blockIds : BlockIds) (region : Nat × Nat) : List Nat := blockIds.getD region.1 []

theorem blockDescsIdsForShard_ok {peer : ShardPeer} {numBlocks : Nat} {blockIds : BlockIds}
    (hRegions : ∀ group ∈ peer.regionGroupIds, group < blockIds.length) :
    blockDescsIdsForShard peer numBlocks blockIds =
      .ok (peer.regionGroupIds.zipIdx.flatMap fun region =>
        (blocksOf blockIds region).flatMap (blockDescs peer numBlocks region.2)) := by
  unfold blockDescsIdsForShard
  have hRegion : peer.regionGroupIds.zipIdx.mapM (regionDescs peer numBlocks blockIds) =
      .ok (peer.regionGroupIds.zipIdx.map fun region =>
        (blocksOf blockIds region).flatMap (blockDescs peer numBlocks region.2)) := by
    apply mapM_eq_map
    intro region hMem
    have hBound := hRegions region.1 (List.fst_mem_of_mem_zipIdx hMem)
    rw [regionDescs, blocksOf, List.getElem?_eq_getElem hBound, List.getD_eq_getElem _ _ hBound]
  rw [hRegion]
  rfl

/-- The descriptor pairs of a peer: region by region, our `i`-th kept block with the consumer's
`i`-th block, piece by piece. -/
def pairedDescs (worker : PushWorker) (kept wanted : BlockIds) (peer : ShardPeer) :
    List (Nat × Nat) :=
  peer.regionGroupIds.zipIdx.flatMap fun region =>
    ((blocksOf kept region).zip (blocksOf wanted region)).flatMap fun blocks =>
      (blockDescs peer worker.numBlocks region.2 blocks.1).zip
        (blockDescs peer worker.dstNumBlocks region.2 blocks.2)

theorem SameLengths.blocksOf {kept wanted : BlockIds} (hSame : SameLengths kept wanted)
    (region : Nat × Nat) : (blocksOf kept region).length = (blocksOf wanted region).length := by
  unfold KvTransfer.blocksOf
  generalize region.1 = group
  induction hSame generalizing group with
  | nil => rfl
  | cons hHead _ ih =>
      cases group with
      | zero => exact hHead
      | succ group => exact ih group

/-- The regions of a peer, each laid out in as many descriptors on either side. -/
theorem SameLengths.descs {kept wanted : BlockIds}
    (hSame : SameLengths kept wanted) (worker : PushWorker) (peer : ShardPeer) (regions : List (Nat × Nat)) :
    (regions.flatMap fun region =>
        (KvTransfer.blocksOf kept region).flatMap
          (blockDescs peer worker.numBlocks region.2)).length =
      (regions.flatMap fun region =>
        (KvTransfer.blocksOf wanted region).flatMap
          (blockDescs peer worker.dstNumBlocks region.2)).length ∧
    (regions.flatMap fun region =>
        (KvTransfer.blocksOf kept region).flatMap (blockDescs peer worker.numBlocks region.2)).zip
      (regions.flatMap fun region =>
        (KvTransfer.blocksOf wanted region).flatMap
          (blockDescs peer worker.dstNumBlocks region.2)) =
      regions.flatMap fun region =>
        ((KvTransfer.blocksOf kept region).zip (KvTransfer.blocksOf wanted region)).flatMap
          fun blocks => (blockDescs peer worker.numBlocks region.2 blocks.1).zip
            (blockDescs peer worker.dstNumBlocks region.2 blocks.2) := by
  induction regions with
  | nil => exact ⟨rfl, rfl⟩
  | cons region regions ih =>
      have hBlocks := hSame.blocksOf region
      have hHead : ((KvTransfer.blocksOf kept region).flatMap
          (blockDescs peer worker.numBlocks region.2)).length =
          ((KvTransfer.blocksOf wanted region).flatMap
            (blockDescs peer worker.dstNumBlocks region.2)).length := by
        rw [length_flatMap_blockDescs, length_flatMap_blockDescs, hBlocks]
      simp only [List.flatMap_cons, List.length_append]
      refine ⟨by omega, ?_⟩
      rw [List.zip_append hHead, ih.2,
        zip_flatMap (blockDescs_length peer worker.numBlocks region.2)
          (blockDescs_length peer worker.dstNumBlocks region.2) hBlocks]

/-- Each write of a submission pairs our kept blocks with the consumer's. -/
def PairsPeer (worker : PushWorker) (kept wanted : BlockIds) (attempt : Attempt) (peer : ShardPeer) :
    Prop :=
  attempt.globalRank = peer.globalRank ∧
    attempt.localDescs.length = attempt.remoteDescs.length ∧
    attempt.localDescs.zip attempt.remoteDescs = pairedDescs worker kept wanted peer

theorem writeShards_ok (worker : PushWorker) {kept wanted : BlockIds}
    (hSame : SameLengths kept wanted) {peers : List ShardPeer}
    (hRegions : ∀ peer ∈ peers, ∀ group ∈ peer.regionGroupIds, group < kept.length)
    (done : List Attempt) :
    ∃ attempts, worker.writeShards kept wanted peers done = .ok (done ++ attempts) ∧
      List.Forall₂ (PairsPeer worker kept wanted) attempts peers := by
  induction peers generalizing done with
  | nil => exact ⟨[], by rw [List.append_nil]; rfl, List.Forall₂.nil⟩
  | cons peer peers ih =>
      have hKept := hRegions peer List.mem_cons_self
      have hWanted : ∀ group ∈ peer.regionGroupIds, group < wanted.length := fun group hMem =>
        hSame.length_eq ▸ hKept group hMem
      obtain ⟨hLength, hZip⟩ := hSame.descs worker peer peer.regionGroupIds.zipIdx
      simp only [PushWorker.writeShards, blockDescsIdsForShard_ok hWanted,
        blockDescsIdsForShard_ok hKept]
      have hRest : ∀ other ∈ peers, ∀ group ∈ other.regionGroupIds, group < kept.length :=
        fun other hMem => hRegions other (List.mem_cons_of_mem _ hMem)
      generalize hLocal : (peer.regionGroupIds.zipIdx.flatMap fun region =>
        (blocksOf kept region).flatMap (blockDescs peer worker.numBlocks region.2)) = localDescs
        at hLength hZip ⊢
      generalize hRemote : (peer.regionGroupIds.zipIdx.flatMap fun region =>
        (blocksOf wanted region).flatMap (blockDescs peer worker.dstNumBlocks region.2)) =
          remoteDescs at hLength hZip ⊢
      let attempt : Attempt :=
        ⟨peer.globalRank, localDescs, remoteDescs, worker.accepts peer.globalRank⟩
      have hPeer : PairsPeer worker kept wanted attempt peer := ⟨rfl, hLength, hZip⟩
      obtain ⟨attempts, hAttempts, hPairs⟩ := ih hRest (done ++ [attempt])
      refine ⟨attempt :: attempts, ?_, List.Forall₂.cons hPeer hPairs⟩
      rw [if_neg (not_not.2 hLength), hAttempts, List.append_assoc, List.singleton_append]

/-! ### What is written -/

/-- The push writes exactly the consumer's blocks: in each group the kept list is the end of ours
and as long as the consumer's, every write pairs the two lists in order, and nothing is submitted
for a consumer that registered nothing. -/
def WritesExactly (worker : PushWorker) (owns remotes : BlockIds) : Prop :=
  ∃ outcome, worker.xferBlocksForReq owns remotes = .ok outcome ∧
    SameLengths outcome.localBlockIds (worker.wanted remotes) ∧
    List.Forall₂ (fun kept own => kept <:+ own) outcome.localBlockIds owns ∧
    ((worker.wanted remotes).flatten = [] →
      outcome.localBlockIds.flatten = [] ∧ ∀ attempts, outcome.action ≠ .submitted attempts) ∧
    ∀ attempts, outcome.action = .submitted attempts →
      List.Forall₂ (PairsPeer worker outcome.localBlockIds (worker.wanted remotes)) attempts
        worker.peers

/-- What is promised of a request: an exact write when the consumer registered no more than we
hold, and else an exception before anything is submitted. -/
def PushesRight (worker : PushWorker) (owns remotes : BlockIds) : Prop :=
  (NoLonger owns (worker.wanted remotes) → WritesExactly worker owns remotes) ∧
    (¬ NoLonger owns (worker.wanted remotes) → ∃ error,
      worker.xferBlocksForReq owns remotes = .error ⟨error, []⟩)

/-- Whether the code trims at all: a whole-engine peer whose blocks are split is left to upstream. -/
def PushWorker.Trims (worker : PushWorker) : Prop :=
  worker.peers ≠ [] ∨ worker.physicalBlocksPerLogical = 1

/-- No group is empty on the consumer's side only; where nothing is trimmed the lists have one
length. -/
def TrimmedRight (worker : PushWorker) (owns remotes : BlockIds) : Prop :=
  (worker.Trims → NoLonger owns (worker.wanted remotes) →
    EmptyTogether owns (worker.wanted remotes)) ∧
  (¬ worker.Trims → SameLengths owns (worker.wanted remotes))

theorem SameLengths.flatten_eq_nil {kept wanted : BlockIds} (hSame : SameLengths kept wanted) :
    kept.flatten = [] ↔ wanted.flatten = [] := by
  induction hSame with
  | nil => rfl
  | cons hHead _ ih =>
      rw [List.flatten_cons, List.flatten_cons, List.append_eq_nil_iff, List.append_eq_nil_iff, ih,
        ← List.length_eq_zero_iff, hHead, List.length_eq_zero_iff]

theorem sum_lengths_eq_zero {groups : BlockIds} :
    (groups.map List.length).sum = 0 ↔ groups.flatten = [] := by
  rw [← List.length_flatten, List.length_eq_zero_iff]

theorem wanted_of_one {worker : PushWorker} (remotes : BlockIds)
    (hOne : ∀ ids, worker.toKernelBlockIds 1 ids = ids)
    (hPhysical : worker.physicalBlocksPerLogical = 1) : worker.wanted remotes = remotes := by
  unfold PushWorker.wanted
  rw [hPhysical]
  conv_rhs => rw [← List.map_id remotes]
  exact List.map_congr_left fun ids _ => hOne ids

theorem xferBlocksForReq_error {worker : PushWorker} {owns remotes : BlockIds}
    (hGroups : owns.length = remotes.length)
    (hOne : ∀ ids, worker.toKernelBlockIds 1 ids = ids)
    (hRatio : worker.peers ≠ [] → worker.blockSizeRatio = 1) (hTrims : worker.Trims)
    (hLonger : ¬ NoLonger owns (worker.wanted remotes)) :
    ∃ error, worker.xferBlocksForReq owns remotes = .error ⟨error, []⟩ := by
  have hWanted : owns.length = (worker.wanted remotes).length := by
    rw [hGroups, PushWorker.wanted, List.length_map]
  obtain ⟨group, numRemote, numLocal, hError⟩ :=
    trimToConsumerBlocks_error 0 hWanted hLonger
  apply Exists.intro (PushError.consumerHoldsMore group numRemote numLocal)
  by_cases hPeers : worker.peers = []
  · have hPhysical : worker.physicalBlocksPerLogical = 1 := hTrims.resolve_left (not_not.2 hPeers)
    rw [wanted_of_one _ hOne hPhysical] at hError
    simp only [PushWorker.xferBlocksForReq, if_pos hPeers, if_pos hPhysical, hError]
  · simp only [PushWorker.xferBlocksForReq, if_neg hPeers, hRatio hPeers, hError]
    rfl

/-- On either route that trims, what is left of our lists is the trim of them. -/
theorem localBlockIds_of_trims {worker : PushWorker} {owns remotes : BlockIds}
    (hOne : ∀ ids, worker.toKernelBlockIds 1 ids = ids)
    (hRatio : worker.peers ≠ [] → worker.blockSizeRatio = 1) (hTrims : worker.Trims)
    (hFits : NoLonger owns (worker.wanted remotes)) {outcome : PushOutcome}
    (hOutcome : worker.xferBlocksForReq owns remotes = .ok outcome) :
    outcome.localBlockIds = List.zipWith keepTail owns (worker.wanted remotes) := by
  have hTrim := trimToConsumerBlocks_ok 0 hFits
  by_cases hPeers : worker.peers = []
  · have hPhysical : worker.physicalBlocksPerLogical = 1 := hTrims.resolve_left (not_not.2 hPeers)
    rw [wanted_of_one _ hOne hPhysical] at hTrim ⊢
    simp only [PushWorker.xferBlocksForReq, if_pos hPeers, if_pos hPhysical, hTrim] at hOutcome
    cases hOutcome
    rfl
  · simp only [PushWorker.xferBlocksForReq, if_neg hPeers, hRatio hPeers, hTrim] at hOutcome
    split at hOutcome
    · rename_i hNe
      exact absurd rfl hNe
    · split at hOutcome
      · cases hOutcome
        rfl
      · cases hWrites : worker.writeShards (List.zipWith keepTail owns (worker.wanted remotes))
          (worker.wanted remotes) worker.peers [] with
        | error failure =>
            rw [hWrites] at hOutcome
            cases hOutcome
        | ok attempts =>
            rw [hWrites] at hOutcome
            cases hOutcome
            rfl

theorem writesExactly_of_emptyTogether {worker : PushWorker} {owns remotes : BlockIds}
    (hGroups : owns.length = remotes.length)
    (hOne : ∀ ids, worker.toKernelBlockIds 1 ids = ids)
    (hRatio : worker.peers ≠ [] → worker.blockSizeRatio = 1)
    (hRegistered : ∀ peer ∈ worker.peers, ∀ group ∈ peer.regionGroupIds, group < owns.length)
    (hTrims : worker.Trims) (hFits : NoLonger owns (worker.wanted remotes))
    (hEmpty : EmptyTogether owns (worker.wanted remotes)) : WritesExactly worker owns remotes := by
  have hWanted : owns.length = (worker.wanted remotes).length := by
    rw [hGroups, PushWorker.wanted, List.length_map]
  have hTrim := trimToConsumerBlocks_ok 0 hFits
  have hSame := (sameLengths_trimmed hFits).2 hEmpty
  have hSuffix := suffixes_trimmed hWanted
  by_cases hPeers : worker.peers = []
  · have hPhysical : worker.physicalBlocksPerLogical = 1 := hTrims.resolve_left (not_not.2 hPeers)
    have hId := wanted_of_one remotes hOne hPhysical
    refine ⟨⟨List.zipWith keepTail owns remotes, remotes, .delegated⟩, ?_, ?_, ?_, ?_, ?_⟩
    · rw [hId] at hTrim
      simp only [PushWorker.xferBlocksForReq, if_pos hPeers, if_pos hPhysical, hTrim]
    · rw [hId] at hSame ⊢
      exact hSame
    · rw [hId] at hSuffix
      exact hSuffix
    · intro hNone
      rw [hId] at hSame hNone
      exact ⟨hSame.flatten_eq_nil.2 hNone, fun attempts => PushAction.noConfusion⟩
    · intro attempts hSubmitted
      cases hSubmitted
  · by_cases hNone : (worker.wanted remotes).flatten = []
    · have hKept := hSame.flatten_eq_nil.2 hNone
      refine ⟨⟨_, worker.wanted remotes, .nothing⟩, ?_, hSame, hSuffix, ?_, ?_⟩
      · simp only [PushWorker.xferBlocksForReq, if_neg hPeers, hRatio hPeers, hTrim,
          sum_lengths_eq_zero.2 hKept]
        rfl
      · intro _
        exact ⟨hKept, fun attempts => PushAction.noConfusion⟩
      · intro attempts hSubmitted
        cases hSubmitted
    · have hSum : ((List.zipWith keepTail owns (worker.wanted remotes)).map List.length).sum ≠ 0 :=
        fun hZero => hNone (hSame.flatten_eq_nil.1 (sum_lengths_eq_zero.1 hZero))
      have hRegions : ∀ peer ∈ worker.peers, ∀ group ∈ peer.regionGroupIds,
          group < (List.zipWith keepTail owns (worker.wanted remotes)).length := by
        intro peer hPeer group hGroup
        rw [List.length_zipWith, ← hWanted, Nat.min_self]
        exact hRegistered peer hPeer group hGroup
      obtain ⟨attempts, hAttempts, hPairs⟩ := writeShards_ok worker hSame hRegions []
      refine ⟨⟨_, worker.wanted remotes, .submitted attempts⟩, ?_, hSame, hSuffix, ?_, ?_⟩
      · simp only [PushWorker.xferBlocksForReq, if_neg hPeers, hRatio hPeers, hTrim, if_neg hSum,
          hAttempts, List.nil_append]
        rfl
      · intro hNil
        exact absurd hNil hNone
      · intro others hSubmitted
        cases hSubmitted
        exact hPairs

/-- Where the lists are trimmed, an exact write needs that no group is empty on one side only. -/
theorem emptyTogether_of_writesExactly {worker : PushWorker} {owns remotes : BlockIds}
    (hOne : ∀ ids, worker.toKernelBlockIds 1 ids = ids)
    (hRatio : worker.peers ≠ [] → worker.blockSizeRatio = 1) (hTrims : worker.Trims)
    (hFits : NoLonger owns (worker.wanted remotes)) (hExact : WritesExactly worker owns remotes) :
    EmptyTogether owns (worker.wanted remotes) := by
  obtain ⟨outcome, hOutcome, hSame, -⟩ := hExact
  rw [localBlockIds_of_trims hOne hRatio hTrims hFits hOutcome] at hSame
  exact (sameLengths_trimmed hFits).1 hSame

theorem xferBlocksForReq_untrimmed {worker : PushWorker} (owns remotes : BlockIds)
    (hTrims : ¬ worker.Trims) :
    worker.xferBlocksForReq owns remotes = .ok ⟨owns, remotes, .delegated⟩ := by
  have hPeers : worker.peers = [] := by_contra fun hSome => hTrims (.inl hSome)
  have hPhysical : worker.physicalBlocksPerLogical ≠ 1 := fun hOne => hTrims (.inr hOne)
  rw [PushWorker.xferBlocksForReq, if_pos hPeers, if_neg hPhysical]

theorem SameLengths.noLonger {owns wanteds : BlockIds} (hSame : SameLengths owns wanteds) :
    NoLonger owns wanteds :=
  hSame.imp fun _ _ hLength => Nat.le_of_eq hLength.symm

/-- Where nothing is trimmed, the write is right for lists of one length only. -/
theorem pushesRight_untrimmed {worker : PushWorker} {owns remotes : BlockIds}
    (hTrims : ¬ worker.Trims) :
    PushesRight worker owns remotes ↔ SameLengths owns (worker.wanted remotes) := by
  have hOutcome := xferBlocksForReq_untrimmed owns remotes hTrims
  constructor
  · rintro ⟨hExact, hRefused⟩
    by_cases hFits : NoLonger owns (worker.wanted remotes)
    · obtain ⟨outcome, hOk, hSame, -⟩ := hExact hFits
      rw [hOutcome] at hOk
      cases hOk
      exact hSame
    · obtain ⟨error, hError⟩ := hRefused hFits
      rw [hOutcome] at hError
      cases hError
  · intro hSame
    constructor
    · intro _
      refine ⟨_, hOutcome, hSame, ?_, ?_, ?_⟩
      · exact List.forall₂_same.2 fun own _ => List.suffix_refl own
      · intro hNone
        exact ⟨hSame.flatten_eq_nil.2 hNone, fun attempts => PushAction.noConfusion⟩
      · intro attempts hSubmitted
        cases hSubmitted
    · intro hLonger
      exact absurd hSame.noLonger hLonger

/-- A consumer served by one rank, with one region of eight blocks on either side. -/
def oneRegionWorker : PushWorker where
  peers := [⟨0, [0], 1⟩]
  numBlocks := 8
  dstNumBlocks := 8
  blockSizeRatio := 1
  physicalBlocksPerLogical := 1
  toKernelBlockIds ratio ids := ids.flatMap fun id =>
    (List.range ratio).map fun piece => id * ratio + piece
  accepts _ := true

theorem oneRegionWorker_toKernel (ids : List Nat) : oneRegionWorker.toKernelBlockIds 1 ids = ids := by
  induction ids with
  | nil => rfl
  | cons id ids ih =>
      show (id * 1 + 0) :: oneRegionWorker.toKernelBlockIds 1 ids = id :: ids
      rw [ih, Nat.mul_one, Nat.add_zero]

end VllmRbln.KvTransfer
