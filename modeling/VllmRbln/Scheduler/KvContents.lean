import VllmRbln.Common.Dict
import VllmRbln.Scheduler.Admissions
import VllmRbln.Scheduler.IndexSafety
import VllmRbln.SubBlock.Contents
import Mathlib.Data.List.Infix

/-! The KV a step computes on. In an engine that is synchronous, drafts nothing and has no
connector, every slot up to a running request's computed tokens holds the request's own
prefix, also where the slot was another request's block or a copy of one. -/
namespace VllmRbln.Scheduler

set_option linter.unusedSectionVars false

open SubBlock SubBlock.Manager Run HashChain

variable {H X : Type} [DecidableEq H]

/-- Steps are synchronous, no token is drafted, and no KV comes from elsewhere. -/
structure Config.Plain (cfg : Config) : Prop where
  sync : cfg.asyncScheduling = false
  undrafted : cfg.numSpecTokens = 0
  unconnected : cfg.hasConnector = false

abbrev State.tokens (s : State H) (id : ReqId) : List Token := (s.requests id).allTokenIds

abbrev State.computed (s : State H) (id : ReqId) : Nat := (s.requests id).numComputedTokens

/-- The requests of such an engine: below the length limit while they live, without drafts
and without placeholders. -/
structure Undrafted (cfg : Config) (requests : ReqId → Request) : Prop where
  short : ∀ id, (requests id).status ≠ .unknown → (requests id).status ≠ .finished →
    (requests id).numTokens < cfg.maxModelLen
  drafts : ∀ id, (requests id).specTokenIds = []
  placeholders : ∀ id, (requests id).numOutputPlaceholders = 0

/-- The blocks over device slots that hold what the requests have computed: computed blocks
are hashed, the blocks of a running request reach as far as its computed tokens, no step in
flight has drafts, and every release so far was safe. -/
structure KvHeld (cfg : Config) (hashing : Hashing H X) (subBlockSize : Nat)
    (slots : BlockId → Nat → Option (List Token)) (s : State H) : Prop where
  contents : Contents cfg hashing subBlockSize slots s.tokens s.computed s.kv
  closed : ∀ id group i b, (s.kv.reqToBlocks id group)[i]? = some b →
    (i + 1) * cfg.blockSize group ≤ s.computed id → s.kv.blockHash b ≠ none
  covered : ∀ id, (s.requests id).status = .running → ∀ group < cfg.numGroups,
    s.computed id ≤ (s.kv.reqToBlocks id group).length * cfg.blockSize group
  flying : ∀ output ∈ s.inFlight, ∀ id, output.scheduledSpecDecodeTokens id = []
  releases : s.ReleasesSafe cfg subBlockSize

/-- The blocks and the requests together. -/
structure KvOk (cfg : Config) (hashing : Hashing H X) (subBlockSize : Nat)
    (slots : BlockId → Nat → Option (List Token)) (s : State H) : Prop
    extends KvHeld cfg hashing subBlockSize slots s where
  undrafted : Undrafted cfg s.requests

variable {cfg : Config} {hashing : Hashing H X} {subBlockSize : Nat}
  {slots : BlockId → Nat → Option (List Token)} {s s' : State H} {id : ReqId} {request : Request}

theorem Undrafted.update {requests : ReqId → Request} (hOk : Undrafted cfg requests)
    (hShort : request.status ≠ .unknown → request.status ≠ .finished →
      request.numTokens < cfg.maxModelLen)
    (hDrafts : request.specTokenIds = []) (hPlaceholders : request.numOutputPlaceholders = 0) :
    Undrafted cfg (Function.update requests id request) := by
  constructor <;> intro other <;> by_cases hEq : other = id
  · subst hEq
    simpa using hShort
  · simpa [hEq] using hOk.short other
  · subst hEq
    simpa using hDrafts
  · simpa [hEq] using hOk.drafts other
  · subst hEq
    simpa using hPlaceholders
  · simpa [hEq] using hOk.placeholders other

theorem tokens_update (hRequests : s'.requests = Function.update s.requests id request)
    (hTokens : request.allTokenIds = s.tokens id) : s'.tokens = s.tokens := by
  funext other
  rw [State.tokens, hRequests]
  by_cases hEq : other = id
  · rw [hEq, Function.update_self, hTokens]
  · rw [Function.update_of_ne hEq]

theorem computed_update (hRequests : s'.requests = Function.update s.requests id request)
    {other : ReqId} (hNe : other ≠ id) : s'.computed other = s.computed other := by
  rw [State.computed, hRequests, Function.update_of_ne hNe]

/-- An edit takes no hash away. -/
theorem edits_hashed {requests : ReqId → Request} {limit : ReqId → Nat} {kv kv' : Manager H}
    (hEdits : Edits cfg hashing subBlockSize requests limit kv kv') {b : BlockId}
    (hHash : kv.blockHash b ≠ none) : kv'.blockHash b ≠ none := by
  have hUpdate : ∀ {mid : Manager H} {block : BlockId} {hash : BlockHash H},
      mid.blockHash b ≠ none → Function.update mid.blockHash block (some hash) b ≠ none := by
    intro mid block hash hMid
    by_cases hEq : b = block
    · simp [hEq]
    · simpa [hEq] using hMid
  induction hEdits with
  | refl => exact hHash
  | tail _ hEdit ih =>
      cases hEdit with
      | hash => exact hUpdate ih
      | mark => exact hUpdate ih
      | subHashes => exact ih
      | indexCached => exact ih
      | indexPartial => exact ih
      | pending => exact ih
      | forget => exact ih

/-- An indexed block without a hash is not computed to its end, so every release is safe. -/
theorem KvHeld.marksAll (hOk : KvHeld cfg hashing subBlockSize slots s) (id : ReqId) :
    MarksAll cfg subBlockSize s.kv id (s.requests id) := by
  intro group hGroup i b hBlock hContains hNone
  obtain ⟨hashes, hHashes⟩ := Option.isSome_iff_exists.mp hContains
  obtain ⟨hNe, -⟩ := hOk.contents.indexed group b hashes hHashes
  have hWithin := hOk.contents.within id group i b hashes hBlock hHashes
  have hOpen : s.computed id < (i + 1) * cfg.blockSize group := by
    by_contra hNot
    exact hOk.closed id group i b hBlock (Nat.not_lt.mp hNot) hNone
  have hOne : 1 * subBlockSize ≤ hashes.length * subBlockSize :=
    Nat.mul_le_mul_right _ (List.length_pos_iff.mpr hNe)
  have hQuotient : (s.requests id).numComputedTokens / cfg.blockSize group = i :=
    Nat.div_eq_of_lt_le (le_trans (Nat.le_add_right _ _) hWithin) hOpen
  have hSplit := Nat.div_add_mod' (s.requests id).numComputedTokens (cfg.blockSize group)
  rw [hQuotient] at hSplit
  unfold State.computed at hWithin
  exact ⟨hQuotient.symm, by omega⟩

/-- What the blocks hold reads four maps of the manager. -/
theorem KvOk.keep (hOk : KvOk cfg hashing subBlockSize slots s)
    (hBlocks : s'.kv.reqToBlocks = s.kv.reqToBlocks) (hHash : s'.kv.blockHash = s.kv.blockHash)
    (hIndex : s'.kv.index = s.kv.index) (hHashes : s'.kv.reqSubHashes = s.kv.reqSubHashes)
    (hRequests : s'.requests = s.requests) (hInFlight : s'.inFlight = s.inFlight)
    (hReleases : s'.releases = s.releases) : KvOk cfg hashing subBlockSize slots s' := by
  have hTokens : s'.tokens = s.tokens := by
    funext other
    rw [State.tokens, hRequests]
  have hComputed : s'.computed = s.computed := by
    funext other
    rw [State.computed, hRequests]
  refine ⟨⟨?_, ?_, ?_, ?_, ?_⟩, ?_⟩
  · rw [hTokens, hComputed]
    exact hOk.contents.congr hBlocks hHash hIndex hHashes
  · rw [hBlocks, hComputed, hHash]
    exact hOk.closed
  · rw [hBlocks, hComputed, hRequests]
    exact hOk.covered
  · rw [hInFlight]
    exact hOk.flying
  · unfold State.ReleasesSafe
    rw [hReleases]
    exact hOk.releases
  · rw [hRequests]
    exact hOk.undrafted

/-- One request changes, not in its tokens or in what it has computed. -/
theorem KvOk.modified (hOk : KvOk cfg hashing subBlockSize slots s) (hKv : s'.kv = s.kv)
    (hRequests : s'.requests = Function.update s.requests id request)
    (hInFlight : s'.inFlight = s.inFlight) (hReleases : s'.releases = s.releases)
    (hTokens : request.allTokenIds = s.tokens id)
    (hComputed : request.numComputedTokens = s.computed id)
    (hRunning : request.status = .running → ∀ group < cfg.numGroups,
      s.computed id ≤ (s.kv.reqToBlocks id group).length * cfg.blockSize group)
    (hUndrafted : Undrafted cfg s'.requests) : KvOk cfg hashing subBlockSize slots s' := by
  have hComputedSame : s'.computed = s.computed := by
    funext other
    by_cases hEq : other = id
    · rw [hEq, State.computed, hRequests, Function.update_self, hComputed]
    · exact computed_update hRequests hEq
  refine ⟨⟨?_, ?_, ?_, ?_, ?_⟩, hUndrafted⟩
  · rw [tokens_update hRequests hTokens, hComputedSame, hKv]
    exact hOk.contents
  · rw [hComputedSame, hKv]
    exact hOk.closed
  · intro other hStatus
    rw [hComputedSame, hKv]
    rw [hRequests] at hStatus
    by_cases hEq : other = id
    · rw [hEq, Function.update_self] at hStatus
      exact hEq ▸ hRunning hStatus
    · rw [Function.update_of_ne hEq] at hStatus
      exact hOk.covered other hStatus
  · rw [hInFlight]
    exact hOk.flying
  · unfold State.ReleasesSafe
    rw [hReleases]
    exact hOk.releases

/-- A request gives its blocks back and stops running. -/
theorem KvHeld.released (hOk : KvHeld cfg hashing subBlockSize slots s)
    (hSize : cfg.subBlockSize = some subBlockSize) {mode : FreeMode} (hMode : mode ≠ .delayed)
    (hKv : s'.kv = (s.freeRequestBlocks cfg hashing mode id).kv)
    (hReleases : s'.releases = (s.freeRequestBlocks cfg hashing mode id).releases)
    (hRequests : s'.requests = Function.update s.requests id request)
    (hInFlight : s'.inFlight = s.inFlight) (hTokens : request.allTokenIds = s.tokens id)
    (hComputed : request.numComputedTokens ≤ s.computed id) (hStatus : request.status ≠ .running)
    (hUndrafted : Undrafted cfg s'.requests) : KvOk cfg hashing subBlockSize slots s' := by
  have hSettled : Edits cfg hashing subBlockSize s.requests (fun _ => 0) s.kv
      (s.kv.settle cfg hashing id (s.requests id)) := edits_settle hSize s.kv id
  have hPopped : Contents cfg hashing subBlockSize slots s.tokens s'.computed
      ((s.kv.settle cfg hashing id (s.requests id)).popBlocks id) := by
    refine hOk.contents.release hSize rfl rfl (fun other hNe => computed_update hRequests hNe) ?_
    rw [State.computed, hRequests, Function.update_self]
    exact le_trans hComputed (hOk.contents.fits id)
  have hBlocks : s'.kv.reqToBlocks = Function.update s.kv.reqToBlocks id Blocks.empty := by
    rw [hKv, State.freeRequestBlocks_reqToBlocks, if_neg hMode]
  have hParts : s'.kv.blockHash = (s.kv.settle cfg hashing id (s.requests id)).blockHash ∧
      s'.kv.index = (s.kv.settle cfg hashing id (s.requests id)).index ∧
      s'.kv.reqSubHashes = (s.kv.settle cfg hashing id (s.requests id)).reqSubHashes ∧
      s'.releases = s.releases ++ [⟨s.kv, id, s.requests id⟩] := by
    rw [hKv, hReleases]
    cases mode with
    | delayed => exact absurd rfl hMode
    | now => exact ⟨rfl, rfl, rfl, rfl⟩
    | deferred => exact ⟨rfl, rfl, rfl, rfl⟩
  obtain ⟨hHash, hIndex, hHashes, hAppended⟩ := hParts
  refine ⟨⟨?_, ?_, ?_, ?_, ?_⟩, hUndrafted⟩
  · rw [tokens_update hRequests hTokens]
    refine hPopped.congr ?_ hHash hIndex hHashes
    rw [hBlocks, ← hSettled.reqToBlocks]
    rfl
  · intro other group i b hBlock hFull
    rw [hBlocks] at hBlock
    by_cases hEq : other = id
    · subst hEq
      simp [Blocks.empty] at hBlock
    · rw [Function.update_of_ne hEq] at hBlock
      rw [computed_update hRequests hEq] at hFull
      rw [hHash]
      exact edits_hashed hSettled (hOk.closed other group i b hBlock hFull)
  · intro other hRuns group hGroup
    rw [hRequests] at hRuns
    by_cases hEq : other = id
    · rw [hEq, Function.update_self] at hRuns
      exact absurd hRuns hStatus
    · rw [Function.update_of_ne hEq] at hRuns
      rw [computed_update hRequests hEq, hBlocks, Function.update_of_ne hEq]
      exact hOk.covered other hRuns group hGroup
  · rw [hInFlight]
    exact hOk.flying
  · intro release hMem
    rw [hAppended] at hMem
    rcases List.mem_append.mp hMem with hOld | hNew
    · exact hOk.releases release hOld
    · rw [List.mem_singleton.mp hNew]
      exact hOk.marksAll id

/-! ### Copies and writes -/

/-- Slots of a block that is no destination stay. -/
theorem foldl_copySlots_of_notMem {ops : List KVCacheCopyOp} {b : BlockId}
    (hNot : b ∉ ops.map (·.dstBlockId)) (slots : BlockId → Nat → Option (List Token)) (t : Nat) :
    ops.foldl copySlots slots b t = slots b t := by
  induction ops generalizing slots with
  | nil => rfl
  | cons op ops ih =>
      simp only [List.map_cons, List.mem_cons, not_or] at hNot
      rw [List.foldl_cons, ih hNot.2, copySlots, if_neg (fun hBoth => hNot.1 hBoth.1)]

/-- A slot that copies change is one that an operation writes. -/
theorem foldl_copySlots_ne {ops : List KVCacheCopyOp} {b : BlockId} {t : Nat}
    {slots : BlockId → Nat → Option (List Token)} (hNe : ops.foldl copySlots slots b t ≠ slots b t) :
    ∃ op ∈ ops, op.dstBlockId = b ∧ t < op.numTokens := by
  induction ops generalizing slots with
  | nil => exact absurd rfl hNe
  | cons op ops ih =>
      rw [List.foldl_cons] at hNe
      by_cases hHead : b = op.dstBlockId ∧ t < op.numTokens
      · exact ⟨op, List.mem_cons_self, hHead.1.symm, hHead.2⟩
      · have hSame : copySlots slots op b t = slots b t := by rw [copySlots, if_neg hHead]
        rw [← hSame] at hNe
        obtain ⟨other, hMem, hDst⟩ := ih hNe
        exact ⟨other, List.mem_cons_of_mem _ hMem, hDst⟩

/-- Operations that do not collide all read what was there before any of them. -/
theorem foldl_copySlots_dst {ops : List KVCacheCopyOp} (hDisjoint : OpsDisjoint ops)
    {op : KVCacheCopyOp} (hMem : op ∈ ops) (slots : BlockId → Nat → Option (List Token)) {t : Nat}
    (hLt : t < op.numTokens) :
    ops.foldl copySlots slots op.dstBlockId t = slots op.srcBlockId t := by
  obtain ⟨hNodup, hSources⟩ := hDisjoint
  obtain ⟨before, after, rfl⟩ := List.append_of_mem hMem
  have hSrc : op.srcBlockId ∉ before.map (·.dstBlockId) := by
    intro hIn
    obtain ⟨other, hOther, hEq⟩ := List.mem_map.mp hIn
    refine hSources other (List.mem_append_left _ hOther) ?_
    rw [hEq]
    exact List.mem_map_of_mem hMem
  have hDst : op.dstBlockId ∉ after.map (·.dstBlockId) := by
    rw [List.map_append, List.map_cons] at hNodup
    exact (List.nodup_cons.mp (List.nodup_append.mp hNodup).2.1).1
  rw [List.foldl_append, List.foldl_cons, foldl_copySlots_of_notMem hDst, copySlots,
    if_pos ⟨rfl, hLt⟩, foldl_copySlots_of_notMem hSrc]

/-- After a batch of writes a slot is as before, or holds what one of them put there. -/
theorem foldl_writeSlot (writes : List (BlockId × Nat × Option (List Token)))
    (slots : BlockId → Nat → Option (List Token)) (b : BlockId) (t : Nat) :
    (writes.foldl writeSlot slots b t = slots b t ∧ ∀ write ∈ writes, ¬ (b = write.1 ∧ t = write.2.1)) ∨
      ∃ write ∈ writes, b = write.1 ∧ t = write.2.1 ∧ writes.foldl writeSlot slots b t = write.2.2 := by
  induction writes generalizing slots with
  | nil => exact .inl ⟨rfl, by simp⟩
  | cons write writes ih =>
      rw [List.foldl_cons]
      rcases ih (writeSlot slots write) with ⟨hSame, hNone⟩ | ⟨other, hMem, hBlock, hSlot, hValue⟩
      · by_cases hHere : b = write.1 ∧ t = write.2.1
        · refine .inr ⟨write, List.mem_cons_self, hHere.1, hHere.2, ?_⟩
          rw [hSame, writeSlot, if_pos hHere]
        · refine .inl ⟨by rw [hSame, writeSlot, if_neg hHere], ?_⟩
          intro other hMem
          rcases List.mem_cons.mp hMem with rfl | hMem
          · exact hHere
          · exact hNone other hMem
      · exact .inr ⟨other, List.mem_cons_of_mem _ hMem, hBlock, hSlot, hValue⟩

/-! ### Within a call -/

/-- A copy operation brings a running request the tokens that it starts computing after. -/
def CopyRight (cfg : Config) (slots : BlockId → Nat → Option (List Token)) (s : State H)
    (op : KVCacheCopyOp) (id : ReqId) : Prop :=
  ∃ i, (s.requests id).status = .running ∧
    (s.kv.reqToBlocks id op.groupId)[i]? = some op.dstBlockId ∧
    i * cfg.blockSize op.groupId + op.numTokens = s.computed id ∧
    op.numTokens < cfg.blockSize op.groupId ∧
    Filled slots op.srcBlockId op.numTokens (i * cfg.blockSize op.groupId) (s.tokens id)

/-- The step, over the device as it was before the call: the copies pending so far make
the blocks hold what the requests count as computed, each copy reads the right slots when
its turn comes, and the scheduled tokens fit the requests and their blocks. -/
structure KvStep (cfg : Config) (hashing : Hashing H X) (subBlockSize : Nat)
    (slots : BlockId → Nat → Option (List Token)) (locals : Locals H) : Prop where
  index : IndexOk cfg subBlockSize locals
  device : locals.st.slots = slots
  kv : KvOk cfg hashing subBlockSize (locals.st.kv.pendingCopyOps.foldl copySlots slots) locals.st
  rows : ∀ row ∈ locals.numScheduledTokens,
    locals.st.computed row.1 + row.2 ≤ (locals.st.requests row.1).numTokens ∧
      ∀ group < cfg.numGroups, locals.st.computed row.1 + row.2 ≤
        (locals.st.kv.reqToBlocks row.1 group).length * cfg.blockSize group
  undrafted : ∀ id, locals.scheduledSpecDecodeTokens id = []
  copies : ∀ before op after, locals.st.kv.pendingCopyOps = before ++ op :: after →
    ∃ id ∈ locals.scheduledNewReqs ++ locals.scheduledResumedReqs,
      CopyRight cfg (before.foldl copySlots slots) locals.st op id

/-- Fresh blocks of a state whose releases were all safe are in no index. -/
theorem newBlocks_fresh {skipped : List ReqId} {matched : List BlockId}
    (hQueues : Queues cfg s skipped) (hLedger : Ledger cfg s matched)
    (hSafe : SafeIndex cfg subBlockSize s) (hReleases : s.ReleasesSafe cfg subBlockSize)
    {hits newBlocks : Blocks} {numTokens : Nat}
    (hNew : NewBlocks cfg s.kv id hits numTokens newBlocks) :
    ∀ b ∈ allBlocks cfg newBlocks, s.kv.blockHash b = none →
      ∀ group, (s.kv.index group).blockHashes b = none := by
  intro b hMem hNone group
  by_contra hSome
  have hContains : (s.kv.index group).contains b = true := by
    simpa [SubBlockIndex.contains, Option.isSome_iff_ne_none] using hSome
  rcases hSafe.noStale hQueues hLedger hReleases group b hContains with hPos | hHash
  · rw [(hNew.refCnt_eq_zero hMem).1] at hPos
    exact absurd hPos (by simp)
  · exact hHash hNone

/-- An allocation covers the tokens it was asked for. -/
theorem newBlocks_cover (hSize : cfg.subBlockSize = some subBlockSize) {kv : Manager H}
    {hits newBlocks : Blocks} {numTokens : Nat}
    (hNew : NewBlocks cfg kv id hits numTokens newBlocks) {group : Nat}
    (hGroup : group < cfg.numGroups) : min numTokens cfg.maxModelLen ≤
      ((kv.reqToBlocks id group).length + (hits group).length + (newBlocks group).length) *
        cfg.blockSize group := by
  have hWindow := (cfg.subBlockSize_fits subBlockSize hSize).2.2 group
  have hPos := cfg.blockSize_pos group
  have hCount := hNew.length group hGroup
  simp only [newBlockCount, hWindow, Bool.false_eq_true, if_false] at hCount
  have hCeil := Nat.lt_mul_div_succ (min numTokens cfg.maxModelLen + cfg.blockSize group - 1) hPos
  rw [Nat.mul_add, Nat.mul_one, Nat.mul_comm] at hCeil
  refine le_trans (by omega) (Nat.mul_le_mul_right (cfg.blockSize group)
    (show (min numTokens cfg.maxModelLen + cfg.blockSize group - 1) / cfg.blockSize group ≤ _
      by omega))

/-- A running request only gets blocks behind the ones it has. -/
theorem KvOk.grant (hOk : KvOk cfg hashing subBlockSize slots s) {skipped : List ReqId} {matched : List BlockId}
    (hQueues : Queues cfg s skipped) (hLedger : Ledger cfg s matched)
    (hSafe : SafeIndex cfg subBlockSize s) {newBlocks : Blocks} {numTokens : Nat}
    (hRuns : (s.requests id).status = .running)
    (hNew : NewBlocks cfg s.kv id Blocks.empty numTokens newBlocks) :
    KvOk cfg hashing subBlockSize slots
      { s with kv := giveBlocks cfg s.kv id Blocks.empty newBlocks } := by
  have hUnlisted := hLedger.unlisted hQueues hNew
  have hCovered := hOk.covered id hRuns
  have hBlocks : (giveBlocks cfg s.kv id Blocks.empty newBlocks).reqToBlocks =
      Function.update s.kv.reqToBlocks id fun group =>
        s.kv.reqToBlocks id group ++ newBlocks group := by
    rw [giveBlocks_reqToBlocks]
    simp [Blocks.empty]
  refine ⟨⟨?_, ?_, ?_, hOk.flying, hOk.releases⟩, hOk.undrafted⟩
  · refine Contents.giveBlocks (hOk.contents.congr ?_ rfl rfl rfl) hNew hUnlisted
      (newBlocks_fresh hQueues hLedger hSafe hOk.releases hNew) (fun _ _ => rfl) ?_
    · simp [listing, Blocks.empty]
    · simpa [Blocks.empty] using hCovered
  · intro other group i b hBlock hFull
    rw [hBlocks] at hBlock
    have hOld : (s.kv.reqToBlocks other group)[i]? = some b := by
      by_cases hEq : other = id
      · subst hEq
        rw [Function.update_self, List.getElem?_append] at hBlock
        split at hBlock
        · exact hBlock
        · -- a block that is computed to its end is no new one
          rename_i hGe
          have hGroup : group < cfg.numGroups := by
            by_contra hNot
            rw [hNew.groups group (Nat.not_lt.mp hNot)] at hBlock
            simp at hBlock
          have hLe := le_trans hFull (hCovered group hGroup)
          exact absurd (Nat.le_of_mul_le_mul_right hLe (cfg.blockSize_pos group)) (by omega)
      · rwa [Function.update_of_ne hEq] at hBlock
    rw [giveBlocks_blockHash, if_neg]
    · exact hOk.closed other group i b hOld hFull
    · exact fun hMem => hUnlisted b hMem other group (List.mem_of_getElem? hOld)
  · intro other hStatus group hGroup
    have hOld := hOk.covered other hStatus group hGroup
    rw [hBlocks]
    by_cases hEq : other = id
    · subst hEq
      rw [Function.update_self, List.length_append, Nat.add_mul]
      exact le_trans hOld (Nat.le_add_right _ _)
    · rw [Function.update_of_ne hEq]
      exact hOld

/-- What a running request is scheduled stays within its tokens and below the limit. -/
theorem runningTokens_le {tokenBudget numNewTokens : Nat} (hDrafts : request.specTokenIds = [])
    (hPlaceholders : request.numOutputPlaceholders = 0)
    (hTokens : (numNewTokens : Int) = request.runningTokens cfg tokenBudget) :
    request.numComputedTokens + numNewTokens ≤ request.numTokens ∧
      request.numComputedTokens + numNewTokens < cfg.maxModelLen := by
  have hDemand : request.runningDemand = (request.numTokens : Int) - request.numComputedTokens := by
    simp [Request.runningDemand, Request.numTokensWithSpec, hDrafts, hPlaceholders]
  unfold Request.runningTokens at hTokens
  rw [hDemand] at hTokens
  dsimp only at hTokens
  split at hTokens <;> omega

/-- Before the first admission no copy is pending. -/
theorem KvStep.noCopies {locals : Locals H} (hStep : KvStep cfg hashing subBlockSize slots locals)
    (hOk : RunningOk cfg locals) : locals.st.kv.pendingCopyOps = [] := by
  rcases hStep.index.1.guarded with hNil | hNew | hResumed
  · exact hNil
  · exact absurd hOk.noNew hNew
  · exact absurd hOk.noResumed hResumed

theorem kv_running (hashing : Hashing H X) (up : Upstream H)
    (hSize : cfg.subBlockSize = some subBlockSize) :
    RunningRule cfg hashing up (KvStep cfg hashing subBlockSize slots) where
  pass hOk hStep hIndex hBudget hPassed :=
    ⟨(index_running hashing up hSize).pass hOk hStep.index hIndex hBudget hPassed, hStep.device,
      hStep.kv, hStep.rows, hStep.undrafted, hStep.copies⟩
  preempt {locals locals' id} hOk hStep hVictim hPre := by
    have hRuns := (hOk.queues.request id).running.mp (victim_mem hVictim)
    have hKv : locals'.st.kv = (locals.st.freeRequestBlocks cfg hashing
        (.ofPreempted cfg (up.deferFree id)) id).kv := by
      rw [hPre.st]
      rfl
    have hOps : locals'.st.kv.pendingCopyOps = locals.st.kv.pendingCopyOps := by
      rw [hKv, State.freeRequestBlocks_pendingCopyOps]
    have hRequests : locals'.st.requests = Function.update locals.st.requests id
        { locals.st.requests id with
          status := .preempted
          numComputedTokens := 0
          specTokenIds := []
          numPreemptions := (locals.st.requests id).numPreemptions + 1 } := by
      rw [hPre.st]
      rfl
    refine ⟨(index_running hashing up hSize).preempt hOk hStep.index hVictim hPre, ?_, ?_, ?_, ?_, ?_⟩
    · rw [hPre.st]
      exact hStep.device
    · rw [hOps]
      refine hStep.kv.released hSize (Queues.FreeMode.ofPreempted_ne cfg _) hKv (by rw [hPre.st]; rfl)
        hRequests (by rw [hPre.st]; rfl) rfl (Nat.zero_le _) (by simp) ?_
      rw [hRequests]
      refine hStep.kv.undrafted.update (fun _ _ => ?_) rfl (hStep.kv.undrafted.placeholders id)
      exact hStep.kv.undrafted.short id (by simp [hRuns]) (by simp [hRuns])
    · intro row hRow
      rw [hPre.numScheduledTokens, List.mem_filter] at hRow
      have hNe : row.1 ≠ id := by simpa using hRow.2
      have hBlocks : locals'.st.kv.reqToBlocks row.1 = locals.st.kv.reqToBlocks row.1 := by
        rw [hKv, State.freeRequestBlocks_reqToBlocks,
          if_neg (Queues.FreeMode.ofPreempted_ne cfg _), Function.update_of_ne hNe]
      rw [State.computed, hPre.requests_of_ne hNe, hBlocks]
      exact hStep.rows row hRow.1
    · intro other
      by_cases hEq : other = id
      · rw [hEq, hPre.droppedDrafts, hStep.undrafted id, ite_self]
      · rw [hPre.scheduledSpecDecodeTokens other hEq]
        exact hStep.undrafted other
    · intro before op after hSplit
      rw [hOps, hStep.noCopies hOk] at hSplit
      simp at hSplit
  grant {id numNewTokens start locals kv newBlocks} hStart hStep hGranted := by
    obtain ⟨hKv, hNew⟩ := allocateSlots_spec hGranted.alloc
    have hOk := hGranted.round.ok
    have hRuns := (hOk.queues.request id).running.mp hGranted.round.running
    have hOps : kv.pendingCopyOps = locals.st.kv.pendingCopyOps := by
      rw [hKv, giveBlocks_pendingCopyOps]
    have hFits : locals.st.computed id + numNewTokens ≤ (locals.st.requests id).numTokens ∧
        locals.st.computed id + numNewTokens < cfg.maxModelLen :=
      runningTokens_le (hStep.kv.undrafted.drafts id) (hStep.kv.undrafted.placeholders id)
        (hGranted.request ▸ hGranted.tokens)
    have hGiven : KvOk cfg hashing subBlockSize (kv.pendingCopyOps.foldl copySlots slots)
        { locals.st with kv := kv } := by
      rw [hOps, hKv]
      exact hStep.kv.grant hOk.queues hStep.index.1.ledger hStep.index.2 hRuns hNew
    refine ⟨(index_running hashing up hSize).grant hStart.index hStep.index hGranted, hStep.device,
      ?_, ?_, ?_, ?_⟩
    · refine hGiven.modified rfl rfl rfl rfl rfl rfl (fun _ => hGiven.covered id hRuns) ?_
      refine hGiven.undrafted.update (fun _ _ => ?_) rfl (hGiven.undrafted.placeholders id)
      exact hGiven.undrafted.short id (by simp [hRuns]) (by simp [hRuns])
    · intro row hRow
      have hBlocks : (locals.grantRunning id numNewTokens kv newBlocks).st.kv.reqToBlocks =
          kv.reqToBlocks := rfl
      have hSame : ∀ other, (locals.grantRunning id numNewTokens kv newBlocks).st.computed other =
          locals.st.computed other ∧
          ((locals.grantRunning id numNewTokens kv newBlocks).st.requests other).numTokens =
            (locals.st.requests other).numTokens := by
        intro other
        by_cases hEq : other = id
        · subst hEq
          simp [Locals.grantRunning, Locals.scheduleRunning, State.modifyRequest, State.computed,
            Request.numTokens]
        · simp [Locals.grantRunning, Locals.scheduleRunning, State.modifyRequest, State.computed,
            hEq]
      rw [(hSame row.1).1, (hSame row.1).2, hBlocks, hKv, giveBlocks_reqToBlocks]
      rcases List.mem_append.mp hRow with hOld | hLast
      · have hNe : row.1 ≠ id := by
          intro hEq
          have hKey := hOk.books.mem_iff.mp (List.mem_map_of_mem hOld)
          rw [hOk.scheduledReqs_eq, hEq] at hKey
          exact hGranted.round.unscheduled hKey
        rw [Function.update_of_ne hNe]
        exact hStep.rows row hOld
      · rw [List.mem_singleton.mp hLast]
        refine ⟨hFits.1, fun group hGroup => ?_⟩
        have hCover := newBlocks_cover hSize hNew hGroup
        rw [Function.update_self, List.length_append, List.length_append, ← Nat.add_assoc]
        change locals.st.computed id + numNewTokens ≤ _
        have hAsked : locals.st.computed id + numNewTokens ≤
            min (locals.st.computed id + numNewTokens + cfg.numLookaheadTokens) cfg.maxModelLen := by
          omega
        exact le_trans hAsked hCover
    · intro other
      by_cases hEq : other = id
      · subst hEq
        simp [Locals.grantRunning, Locals.scheduleRunning, Request.scheduledDrafts,
          hStep.kv.undrafted.drafts other]
      · simpa [Locals.grantRunning, Locals.scheduleRunning, hEq] using hStep.undrafted other
    · intro before op after hSplit
      change kv.pendingCopyOps = _ at hSplit
      rw [hOps, hStep.noCopies hOk] at hSplit
      simp at hSplit

/-- Nothing that the step's slots depend on changes. -/
theorem KvStep.keep {locals locals' : Locals H} (hStep : KvStep cfg hashing subBlockSize slots locals)
    (hIndex : IndexOk cfg subBlockSize locals') (hSlots : locals'.st.slots = locals.st.slots)
    (hKv : KvOk cfg hashing subBlockSize (locals.st.kv.pendingCopyOps.foldl copySlots slots) locals'.st)
    (hOps : locals'.st.kv.pendingCopyOps = locals.st.kv.pendingCopyOps)
    (hBlocks : locals'.st.kv.reqToBlocks = locals.st.kv.reqToBlocks)
    (hTokens : locals'.st.tokens = locals.st.tokens)
    (hComputed : locals'.st.computed = locals.st.computed)
    (hRunning : ∀ other, (locals.st.requests other).status = .running →
      (locals'.st.requests other).status = .running)
    (hNew : locals'.scheduledNewReqs = locals.scheduledNewReqs)
    (hResumed : locals'.scheduledResumedReqs = locals.scheduledResumedReqs)
    (hRows : ∀ row ∈ locals'.numScheduledTokens, row ∈ locals.numScheduledTokens)
    (hDrafts : ∀ other, locals'.scheduledSpecDecodeTokens other = []) :
    KvStep cfg hashing subBlockSize slots locals' := by
  refine ⟨hIndex, hSlots.trans hStep.device, hOps ▸ hKv, fun row hRow => ?_, hDrafts,
    fun before op after hSplit => ?_⟩
  · obtain ⟨hFits, hCover⟩ := hStep.rows row (hRows row hRow)
    have hLength : (locals'.st.requests row.1).numTokens = (locals.st.requests row.1).numTokens :=
      congrArg List.length (congrFun hTokens row.1)
    rw [hComputed, hLength, hBlocks]
    exact ⟨hFits, hCover⟩
  · rw [hOps] at hSplit
    obtain ⟨id, hMem, i, hStatus, hRest⟩ := hStep.copies before op after hSplit
    refine ⟨id, by rw [hNew, hResumed]; exact hMem, i, hRunning id hStatus, ?_⟩
    rw [hBlocks, hTokens, hComputed]
    exact hRest

/-- Looking for cached tokens records hashes and pins blocks. -/
theorem KvStep.looked {locals locals' : Locals H} {numLocal : Nat}
    (hStep : KvStep cfg hashing subBlockSize slots locals)
    (hSize : cfg.subBlockSize = some subBlockSize) (hIndex : IndexOk cfg subBlockSize locals')
    (hLooked : Looked cfg hashing id numLocal locals locals') :
    KvStep cfg hashing subBlockSize slots locals' := by
  have hRecorded : KvOk cfg hashing subBlockSize
      (locals.st.kv.pendingCopyOps.foldl copySlots slots) { locals.st with
        kv := locals.st.kv.getOrComputeSubHashes hashing subBlockSize id (locals.st.requests id) } :=
    ⟨⟨hStep.kv.contents.getOrComputeSubHashes rfl, hStep.kv.closed, hStep.kv.covered,
      hStep.kv.flying, hStep.kv.releases⟩, hStep.kv.undrafted⟩
  cases hLooked with
  | untouched => exact hStep
  | hashed hOther =>
      cases hSize.symm.trans hOther
      exact hStep.keep hIndex rfl hRecorded rfl rfl rfl rfl (fun _ h => h) rfl rfl
        (fun _ h => h) hStep.undrafted
  | outdone hOther =>
      cases hSize.symm.trans hOther
      exact hStep.keep hIndex rfl (hRecorded.keep rfl rfl rfl rfl rfl rfl rfl) rfl rfl rfl rfl
        (fun _ h => h) rfl rfl (fun _ h => h) hStep.undrafted
  | matched hOther hMatch =>
      cases hSize.symm.trans hOther
      exact hStep.keep hIndex rfl (hRecorded.keep rfl rfl rfl rfl rfl rfl rfl) rfl rfl rfl rfl
        (fun _ h => h) rfl rfl (fun _ h => h) hStep.undrafted

theorem Looked.blockHash {locals locals' : Locals H} {numLocal : Nat}
    (hLooked : Looked cfg hashing id numLocal locals locals') :
    locals'.st.kv.blockHash = locals.st.kv.blockHash := by
  cases hLooked <;> rfl

section Seated

variable {up : Upstream H} {numNewTokens : Nat} {start locals : Locals H}
  {found : Locals.Computed} {kv : Manager H} {newBlocks : Blocks} {ops : List KVCacheCopyOp}

/-- The copies of a request that is seated: one a group, into the block after the hits,
from a block that holds the same tokens. -/
structure SeatCopies (cfg : Config) (slots : BlockId → Nat → Option (List Token))
    (tokens : List Token) (blocks : Blocks) (numLocal numSubBlock : Nat)
    (ops : List KVCacheCopyOp) : Prop where
  groups : ∀ op ∈ ops, op.groupId < cfg.numGroups
  every : 0 < numSubBlock → ∀ group < cfg.numGroups, ∃ op ∈ ops, op.groupId = group
  numTokens : ∀ op ∈ ops, op.numTokens = numSubBlock
  within : ∀ group < cfg.numGroups, numSubBlock < cfg.blockSize group
  dst : ∀ op ∈ ops, (blocks op.groupId)[numLocal / cfg.blockSize op.groupId]? = some op.dstBlockId
  src : ∀ op ∈ ops, Filled slots op.srcBlockId numSubBlock numLocal tokens

theorem Seated.seatCopies
    (hSeated : Seated cfg hashing up id numNewTokens start locals found kv newBlocks ops)
    (hSize : cfg.subBlockSize = some subBlockSize) (hFree : CollisionFree hashing.hashBlockTokens)
    (hContents : Contents cfg hashing subBlockSize slots locals.st.tokens locals.st.computed
      locals.st.kv)
    (hReady : (locals.st.requests id).status = .waiting ∨
      (locals.st.requests id).status = .preempted) :
    SeatCopies cfg slots (locals.st.tokens id) (kv.reqToBlocks id) found.numLocal found.numSubBlock
      ops := by
  have hSub := hSeated.search.numSubBlock
  cases hMatch : locals.subBlockMatch with
  | none =>
      have hNil : ops = [] := by
        have hOps := hSeated.ops
        rw [Locals.MatchOps, hMatch] at hOps
        exact hOps
      rw [hMatch] at hSub
      simp only [Option.map_none, Option.getD_none] at hSub
      rw [hNil, hSub]
      refine ⟨by simp, fun hPos => absurd hPos (Nat.lt_irrefl 0), by simp,
        fun group _ => cfg.blockSize_pos group, by simp, by simp⟩
  | some subBlockMatch =>
      obtain ⟨hSources, hFresh, hEach⟩ := hSeated.copies hMatch hReady
      obtain ⟨size, hOther, hPartial, hKv⟩ :=
        hSeated.search.looked.partialMatch hSeated.noMatch hMatch
      cases hSize.symm.trans hOther
      obtain ⟨matched, numMatched, hForall, hGroupMatches, hTokens, hPos, hLeast, -⟩ :=
        hPartial.exists_found
      have hOps : kv.copyOps subBlockMatch = some ops := by
        have hOps := hSeated.ops
        rw [Locals.MatchOps, hMatch] at hOps
        exact hOps
      obtain ⟨-, hLength, hGet⟩ := copyOps_spec hOps
      have hMatched : matched.length = cfg.numGroups := by
        simpa using hForall.length_eq.symm
      have hOpsLength : ops.length = cfg.numGroups := by
        rw [hLength, hGroupMatches, List.length_map, hMatched]
      have hNumSub : found.numSubBlock = numMatched * subBlockSize := by
        rw [hSub, hMatch]
        exact hTokens
      have hRecorded : Contents cfg hashing subBlockSize slots locals.st.tokens locals.st.computed
          (start.st.kv.getOrComputeSubHashes hashing subBlockSize id (start.st.requests id)) := by
        rw [hKv] at hContents
        exact hContents.congr rfl rfl rfl rfl
      -- what each group found
      have hGroup : ∀ {group : Nat} (hLt : group < cfg.numGroups), MatchesGroup cfg subBlockSize
          (start.st.kv.getOrComputeSubHashes hashing subBlockSize id (start.st.requests id))
          ((start.st.kv.getOrComputeSubHashes hashing subBlockSize id
            (start.st.requests id)).reqSubHashes id) found.numLocal group
          (matched.get ⟨group, hMatched ▸ hLt⟩) := by
        intro group hLt
        have hItem := List.Forall₂.get hForall (i := group) (by simpa using hLt) (hMatched ▸ hLt)
        simpa using hItem
      have hWithin : ∀ {group : Nat} (hLt : group < cfg.numGroups), found.numSubBlock ≤
          (matched.get ⟨group, hMatched ▸ hLt⟩).2.2 * subBlockSize ∧
          (matched.get ⟨group, hMatched ▸ hLt⟩).2.2 * subBlockSize < cfg.blockSize group := by
        intro group hLt
        rw [hNumSub]
        refine ⟨Nat.mul_le_mul_right _ (hLeast _ (List.get_mem ..)), ?_⟩
        rw [← blockSize_eq hSize hLt]
        exact Nat.mul_lt_mul_of_pos_right (hGroup hLt).2.2.1
          (cfg.subBlockSize_fits subBlockSize hSize).1
      refine ⟨hFresh.groups_lt, fun _ group hLt => ?_, fun op hMem => ?_, fun group hLt =>
        lt_of_le_of_lt (hWithin hLt).1 (hWithin hLt).2, fun op hMem => (hEach op hMem).2,
        fun op hMem => ?_⟩
      · have hIn : group ∈ ops.map (·.groupId) := by
          rw [hFresh.groups, List.mem_range, hOpsLength]
          exact hLt
        obtain ⟨op, hMem, hEq⟩ := List.mem_map.mp hIn
        exact ⟨op, hMem, hEq⟩
      · rw [(hEach op hMem).1, hSub, hMatch]
        rfl
      · obtain ⟨i, hOp⟩ := List.mem_iff_getElem?.mp hMem
        obtain ⟨groupMatch, hGroupMatch, hIndex, hSrc, -, -⟩ := hGet i op hOp
        have hLt : i < cfg.numGroups := by
          have := (List.getElem?_eq_some_iff.mp hOp).1
          omega
        have hFound : groupMatch.1 = (matched.get ⟨i, hMatched ▸ hLt⟩).1 := by
          rw [hGroupMatches, List.getElem?_map,
            List.getElem?_eq_getElem (show i < matched.length from hMatched ▸ hLt)] at hGroupMatch
          simp only [Option.map_some, Option.some.injEq] at hGroupMatch
          rw [← hGroupMatch]
          rfl
        have hFirst : (matched.get ⟨i, hMatched ▸ hLt⟩).2.1 * cfg.blockSize i = found.numLocal := by
          rw [(hGroup hLt).1, ← hSeated.search.hits.length i hLt,
            Nat.mul_div_cancel _ (cfg.blockSize_pos i)]
        rw [hSrc, hFound, ← hFirst]
        exact (hRecorded.source hSize hFree hLt (hGroup hLt)).mono (hWithin hLt).1

/-- A seated request counts the hits and the copied tokens as computed, and the copies make
its blocks hold them. -/
theorem SeatCopies.contents {tokens : ReqId → List Token} {computed : ReqId → Nat}
    {hits : Blocks} {numLocal numSubBlock : Nat}
    (hCopies : SeatCopies cfg slots (tokens id) (kv.reqToBlocks id) numLocal numSubBlock ops)
    (hContents : Contents cfg hashing subBlockSize slots tokens
      (Function.update computed id numLocal) kv)
    (hHits : ∀ group < cfg.numGroups, (hits group).length * cfg.blockSize group = numLocal)
    (hDisjoint : OpsDisjoint ops) (hFits : numLocal + numSubBlock ≤ (tokens id).length) :
    Contents cfg hashing subBlockSize (ops.foldl copySlots slots) tokens
      (Function.update computed id (numLocal + numSubBlock)) kv := by
  have hWhole : ∀ {group : Nat}, group < cfg.numGroups →
      numLocal / cfg.blockSize group * cfg.blockSize group = numLocal := by
    intro group hGroup
    rw [← hHits group hGroup, Nat.mul_div_cancel _ (cfg.blockSize_pos group)]
  refine hContents.write (fun other => ?_) (fun other => ?_) (fun b t hNe => ?_)
    (fun other group i b hBlock t hLt hFrom hTo => ?_)
  · by_cases hEq : other = id
    · simp [hEq]
    · simp [hEq]
  · by_cases hEq : other = id
    · simpa [hEq] using hFits
    · have hOld := hContents.fits other
      rw [Function.update_of_ne hEq] at hOld ⊢
      exact hOld
  · obtain ⟨op, hMem, hDst, hLt⟩ := foldl_copySlots_ne hNe
    have hGroup := hCopies.groups op hMem
    refine ⟨id, op.groupId, numLocal / cfg.blockSize op.groupId, hDst ▸ hCopies.dst op hMem, ?_, ?_⟩
    · rw [hCopies.numTokens op hMem] at hLt
      exact lt_trans hLt (hCopies.within _ hGroup)
    · rw [Function.update_self, hWhole hGroup]
      exact Nat.le_add_right _ _
  · by_cases hEq : other = id
    · subst hEq
      rw [Function.update_self] at hFrom hTo
      have hGroup : group < cfg.numGroups := group_lt_of_listed hContents hBlock
      have hShort := hCopies.within group hGroup
      have hFirst := hWhole hGroup
      -- a copied position lies in the block after the hits
      have hIndex : i = numLocal / cfg.blockSize group := by
        have hLow : numLocal / cfg.blockSize group ≤ i := by
          by_contra hNot
          have hLe := Nat.mul_le_mul_right (cfg.blockSize group) (Nat.succ_le_of_lt (Nat.not_le.mp hNot))
          rw [Nat.succ_mul] at hLe
          omega
        have hHigh : i ≤ numLocal / cfg.blockSize group := by
          by_contra hNot
          have hLe := Nat.mul_le_mul_right (cfg.blockSize group) (Nat.succ_le_of_lt (Nat.not_le.mp hNot))
          rw [Nat.succ_mul] at hLe
          omega
        omega
      subst hIndex
      rw [hFirst] at hFrom hTo ⊢
      obtain ⟨op, hMem, rfl⟩ := hCopies.every (by omega) group hGroup
      have hDst := hCopies.dst op hMem
      rw [hBlock, Option.some.injEq] at hDst
      rw [hDst, foldl_copySlots_dst hDisjoint hMem slots (by rw [hCopies.numTokens op hMem]; omega)]
      exact hCopies.src op hMem t (by omega)
    · rw [Function.update_of_ne hEq] at hFrom hTo
      omega

/-- What is known of a request when it is seated: it had no blocks and nothing computed,
and starts after its hits and copies. -/
structure SeatStart (cfg : Config) (hashing : Hashing H X) (locals : Locals H) (id : ReqId)
    (found : Locals.Computed) : Prop where
  computed : locals.st.computed id = 0
  blocks : locals.st.kv.reqToBlocks id = Blocks.empty
  hits : CachedHits cfg hashing locals.st.kv id (locals.st.requests id) found.hits found.numLocal
  numComputedTokens : found.numComputedTokens = found.numLocal + found.numSubBlock
  fits : found.numLocal + found.numSubBlock ≤ (locals.st.tokens id).length
  short : (locals.st.requests id).status ≠ .unknown ∧ (locals.st.requests id).status ≠ .finished

theorem Seated.seatStart
    (hSeated : Seated cfg hashing up id numNewTokens start locals found kv newBlocks ops)
    (hPlain : cfg.Plain) (hReady : (locals.st.requests id).status = .waiting ∨
      (locals.st.requests id).status = .preempted) : SeatStart cfg hashing locals id found := by
  have hWaits : (locals.st.requests id).status.isWaiting = true := by
    rcases hReady with hStatus | hStatus <;> rw [hStatus] <;> rfl
  obtain ⟨-, hZero, hEmpty⟩ :=
    (hSeated.ok.queues.request id).waiting_blocks hPlain.unconnected hWaits
  obtain ⟨_, _, _, _, hLocals, -, -⟩ := hSeated.search.looked.keeps
  have hRequests : locals.st.requests = start.st.requests := by rw [hLocals]
  have hHits := hSeated.search.hits
  have hExternal := hSeated.search.numExternal hPlain.unconnected
  rw [← hRequests] at hHits
  rcases hSeated.search.computed with ⟨-, hSum, hLe⟩ | ⟨hNonzero, -⟩
  · refine ⟨hZero, hEmpty, ⟨hHits.short, hHits.length, ?_, hHits.groups⟩, by omega, ?_, ?_⟩
    · rw [hSeated.search.looked.blockHash]
      exact hHits.hash
    · rw [← hRequests] at hLe
      exact le_trans (by omega) hLe
    · rcases hReady with hStatus | hStatus <;> rw [hStatus] <;> simp
  · rw [← hRequests] at hNonzero
    exact absurd hZero hNonzero

/-- The blocks of a seated request. -/
theorem SeatStart.blocks_eq (hSeat : SeatStart cfg hashing locals id found)
    (hKv : kv = giveBlocks cfg locals.st.kv id found.hits newBlocks) :
    kv.reqToBlocks = Function.update locals.st.kv.reqToBlocks id fun group =>
      found.hits group ++ newBlocks group := by
  rw [hKv, giveBlocks_reqToBlocks, hSeat.blocks]
  simp [Blocks.empty]

theorem KvOk.seat {matched : List BlockId} {skipped : List ReqId} {numTokens : Nat}
    (hOk : KvOk cfg hashing subBlockSize slots locals.st)
    (hSize : cfg.subBlockSize = some subBlockSize) (hFree : CollisionFree hashing.hashBlockTokens)
    (hQueues : Queues cfg locals.st skipped) (hLedger : Ledger cfg locals.st matched)
    (hSafe : SafeIndex cfg subBlockSize locals.st) (hSeat : SeatStart cfg hashing locals id found)
    (hKv : kv = giveBlocks cfg locals.st.kv id found.hits newBlocks)
    (hNew : NewBlocks cfg locals.st.kv id found.hits numTokens newBlocks)
    (hCopies : SeatCopies cfg slots (locals.st.tokens id) (kv.reqToBlocks id) found.numLocal
      found.numSubBlock ops) (hDisjoint : OpsDisjoint ops)
    (hCover : ∀ group < cfg.numGroups, found.numComputedTokens ≤
      (kv.reqToBlocks id group).length * cfg.blockSize group)
    (hRequests : s.requests = Function.update locals.st.requests id
      { locals.st.requests id with
        status := .running
        numComputedTokens := found.numComputedTokens })
    (hBlocks : s.kv.reqToBlocks = kv.reqToBlocks) (hHash : s.kv.blockHash = kv.blockHash)
    (hIndex : s.kv.index = kv.index) (hHashes : s.kv.reqSubHashes = kv.reqSubHashes)
    (hInFlight : s.inFlight = locals.st.inFlight) (hReleases : s.releases = locals.st.releases) :
    KvOk cfg hashing subBlockSize (ops.foldl copySlots slots) s := by
  have hUnlisted := hLedger.unlisted hQueues hNew
  have hListing := hSeat.blocks_eq hKv
  have hTaken := hOk.contents.takeHits hSize hFree rfl hSeat.hits
  have hGiven : Contents cfg hashing subBlockSize slots locals.st.tokens
      (Function.update locals.st.computed id found.numLocal) kv := by
    rw [hKv]
    refine Contents.giveBlocks ?_ hNew hUnlisted
      (newBlocks_fresh hQueues hLedger hSafe hOk.releases hNew) hSeat.hits.groups
      fun group hGroup => ?_
    · refine hTaken.congr ?_ rfl rfl rfl
      simp [listing, hSeat.blocks, Blocks.empty]
    · rw [hSeat.blocks, Function.update_self]
      simp [Blocks.empty, hSeat.hits.length group hGroup]
  have hCopied := hCopies.contents hGiven hSeat.hits.length hDisjoint hSeat.fits
  have hComputed : s.computed =
      Function.update locals.st.computed id (found.numLocal + found.numSubBlock) := by
    funext other
    rw [State.computed, hRequests]
    by_cases hEq : other = id
    · subst hEq
      simp [hSeat.numComputedTokens]
    · simp [hEq]
  refine ⟨⟨?_, ?_, ?_, ?_, ?_⟩, ?_⟩
  · rw [tokens_update hRequests rfl, hComputed]
    exact hCopied.congr hBlocks hHash hIndex hHashes
  · intro other group i b hBlock hFull
    rw [hBlocks, hListing] at hBlock
    rw [hComputed] at hFull
    rw [hHash, hKv, giveBlocks_blockHash]
    by_cases hEq : other = id
    · subst hEq
      rw [Function.update_self] at hBlock hFull
      -- what a copy fills is no whole block
      have hGroup : group < cfg.numGroups := by
        by_contra hNot
        rw [hSeat.hits.groups group (Nat.not_lt.mp hNot), hNew.groups group (Nat.not_lt.mp hNot)]
          at hBlock
        simp at hBlock
      have hShort := hCopies.within group hGroup
      have hHits := hSeat.hits.length group hGroup
      have hLt : i < (found.hits group).length := by
        refine Nat.lt_of_mul_lt_mul_right (a := cfg.blockSize group) ?_
        rw [Nat.add_mul, Nat.one_mul] at hFull
        omega
      rw [List.getElem?_append_left hLt] at hBlock
      have hMem := List.mem_of_getElem? hBlock
      rw [if_neg, hSeat.hits.hash group hGroup i b hBlock]
      · simp
      · exact fun hFresh => (hNew.refCnt_eq_zero hFresh).2 (mem_allBlocks.mpr ⟨group, hGroup, hMem⟩)
    · rw [Function.update_of_ne hEq] at hBlock hFull
      rw [if_neg]
      · exact hOk.closed other group i b hBlock hFull
      · exact fun hMem => hUnlisted b hMem other group (List.mem_of_getElem? hBlock)
  · intro other hStatus group hGroup
    rw [hBlocks, hComputed]
    by_cases hEq : other = id
    · subst hEq
      rw [Function.update_self, ← hSeat.numComputedTokens]
      exact hCover group hGroup
    · rw [hRequests, Function.update_of_ne hEq] at hStatus
      rw [Function.update_of_ne hEq, hListing, Function.update_of_ne hEq]
      exact hOk.covered other hStatus group hGroup
  · rw [hInFlight]
    exact hOk.flying
  · unfold State.ReleasesSafe
    rw [hReleases]
    exact hOk.releases
  · rw [hRequests]
    exact hOk.undrafted.update (fun _ _ => hOk.undrafted.short id hSeat.short.1 hSeat.short.2)
      (hOk.undrafted.drafts id) (hOk.undrafted.placeholders id)

/-- An entry of two lists in a row is in the first, or in the second behind all of the first. -/
private theorem append_eq_cons {α : Type*} {xs ys before after : List α} {x : α}
    (hSplit : xs ++ ys = before ++ x :: after) :
    (∃ late, xs = before ++ x :: late) ∨
      ∃ early, before = xs ++ early ∧ ys = early ++ x :: after := by
  rcases List.append_eq_append_iff.mp hSplit with ⟨early, hBefore, hYs⟩ | ⟨late, hXs, hLate⟩
  · exact .inr ⟨early, hBefore, hYs⟩
  · cases late with
    | nil => exact .inr ⟨[], by simpa using hXs.symm, by simpa using hLate.symm⟩
    | cons first late =>
        obtain ⟨rfl, -⟩ := List.cons_eq_cons.mp hLate
        exact .inl ⟨late, hXs⟩

/-- The right copy stays right while other requests get blocks. -/
theorem CopyRight.seat {op : KVCacheCopyOp} {other : ReqId}
    (hRight : CopyRight cfg slots locals.st op other)
    (hStatus : (locals.st.requests id).status ≠ .running)
    (hRequests : s.requests = Function.update locals.st.requests id request)
    (hBlocks : ∀ other, other ≠ id → s.kv.reqToBlocks other = locals.st.kv.reqToBlocks other) :
    CopyRight cfg slots s op other := by
  obtain ⟨i, hRuns, hRest⟩ := hRight
  have hNe : other ≠ id := fun hEq => hStatus (hEq ▸ hRuns)
  have hSame : s.requests other = locals.st.requests other := by
    rw [hRequests, Function.update_of_ne hNe]
  refine ⟨i, hSame ▸ hRuns, ?_⟩
  rw [hBlocks other hNe, State.computed, State.tokens, hSame]
  exact hRest

theorem KvStep.seat (hStep : KvStep cfg hashing subBlockSize slots locals)
    (hSeated : Seated cfg hashing up id numNewTokens start locals found kv newBlocks ops)
    (hSize : cfg.subBlockSize = some subBlockSize) (hFree : CollisionFree hashing.hashBlockTokens)
    (hPlain : cfg.Plain) (hReady : (locals.st.requests id).status = .waiting ∨
      (locals.st.requests id).status = .preempted)
    (hGuard : ¬ ((locals.st.requests id).isPrefill = true ∧
      (locals.scheduledNewReqs ≠ [] ∨ locals.scheduledResumedReqs ≠ [])))
    (hTokens : numNewTokens ≤ (locals.st.requests id).numTokens - found.numComputedTokens)
    (hIndex : IndexOk cfg subBlockSize
      ((locals.seatWaiting kv ops).admitWaiting id found.numComputedTokens numNewTokens)) :
    KvStep cfg hashing subBlockSize slots
      ((locals.seatWaiting kv ops).admitWaiting id found.numComputedTokens numNewTokens) := by
  obtain ⟨hKv, hNew⟩ := allocateSlots_spec hSeated.alloc
  have hSeat := hSeated.seatStart hPlain hReady
  have hRuns : (locals.st.requests id).status ≠ .running := by
    rcases hReady with hStatus | hStatus <;> simp [hStatus]
  have hPending : kv.pendingCopyOps = locals.st.kv.pendingCopyOps := by
    rw [hKv, giveBlocks_pendingCopyOps]
  obtain ⟨-, hAll⟩ := hStep.index.1.seat_ops hSeated hReady hGuard
  have hDisjoint : OpsDisjoint ops := by
    refine ⟨?_, fun op hMem hIn => hAll.2 op (List.mem_append_right _ hMem) ?_⟩
    · have hNodup := hAll.1
      rw [List.map_append] at hNodup
      exact (List.nodup_append.mp hNodup).2.1
    · rw [sources, List.map_append]
      exact List.mem_append_right _ hIn
  have hCopies := hSeated.seatCopies hSize hFree hStep.kv.contents hReady
  have hFits : found.numComputedTokens + numNewTokens ≤ (locals.st.requests id).numTokens := by
    have hLe : found.numComputedTokens ≤ (locals.st.requests id).numTokens :=
      le_trans hSeat.numComputedTokens.le hSeat.fits
    omega
  have hListing := hSeat.blocks_eq hKv
  have hCover : ∀ group < cfg.numGroups, found.numComputedTokens + numNewTokens ≤
      (kv.reqToBlocks id group).length * cfg.blockSize group := by
    intro group hGroup
    have hAsked := newBlocks_cover hSize hNew hGroup
    have hShort := hStep.kv.undrafted.short id hSeat.short.1 hSeat.short.2
    rw [hSeat.blocks, Blocks.empty, List.length_nil, Nat.zero_add] at hAsked
    rw [hListing, Function.update_self, List.length_append]
    refine le_trans ?_ hAsked
    unfold Locals.Computed.numSlots
    omega
  have hRequests : ((locals.seatWaiting kv ops).admitWaiting id found.numComputedTokens
      numNewTokens).st.requests = Function.update locals.st.requests id
        { locals.st.requests id with
          status := .running
          numComputedTokens := found.numComputedTokens } := rfl
  have hBlocks : ((locals.seatWaiting kv ops).admitWaiting id found.numComputedTokens
      numNewTokens).st.kv.reqToBlocks = kv.reqToBlocks := rfl
  have hSlots : (kv.pendingCopyOps ++ ops).foldl copySlots slots =
      ops.foldl copySlots (locals.st.kv.pendingCopyOps.foldl copySlots slots) := by
    rw [hPending, List.foldl_append]
  refine ⟨hIndex, hStep.device, ?_, fun row hRow => ?_, hStep.undrafted,
    fun before op after hSplit => ?_⟩
  · change KvOk cfg hashing subBlockSize ((kv.pendingCopyOps ++ ops).foldl copySlots slots) _
    rw [hSlots]
    exact hStep.kv.seat hSize hFree hSeated.ok.queues hStep.index.1.ledger hStep.index.2 hSeat hKv
      hNew hCopies hDisjoint (fun group hGroup => le_trans (Nat.le_add_right _ _) (hCover group hGroup))
      hRequests hBlocks rfl rfl rfl rfl rfl
  · rw [State.computed, hRequests, hBlocks]
    rcases List.mem_append.mp hRow with hOld | hLast
    · -- the other rows belong to requests that run already
      have hRunning := hSeated.ok.books.running _
        (hSeated.ok.books.mem_iff.mp (List.mem_map_of_mem hOld))
      have hNe : row.1 ≠ id := fun hEq =>
        hRuns (hEq ▸ (hSeated.ok.queues.request row.1).running.mp hRunning)
      rw [Function.update_of_ne hNe, hListing, Function.update_of_ne hNe]
      exact hStep.rows row hOld
    · rw [List.mem_singleton.mp hLast, Function.update_self]
      exact ⟨hFits, hCover⟩
  · change kv.pendingCopyOps ++ ops = before ++ op :: after at hSplit
    have hOther : ∀ other, other ≠ id → kv.reqToBlocks other = locals.st.kv.reqToBlocks other :=
      fun other hNe => by rw [hListing, Function.update_of_ne hNe]
    rcases append_eq_cons hSplit with ⟨late, hOld⟩ | ⟨early, hBefore, hOps⟩
    · obtain ⟨other, hAdmitted, hRight⟩ := hStep.copies before op late (hPending ▸ hOld)
      exact ⟨other, mem_admitWaiting.mpr (.inr hAdmitted), hRight.seat hRuns hRequests hOther⟩
    · -- one of the request's own copies
      have hMem : op ∈ ops := hOps ▸ List.mem_append_right _ List.mem_cons_self
      have hGroup := hCopies.groups op hMem
      have hWhole : found.numLocal / cfg.blockSize op.groupId * cfg.blockSize op.groupId =
          found.numLocal := by
        rw [← hSeat.hits.length op.groupId hGroup, Nat.mul_div_cancel _ (cfg.blockSize_pos _)]
      have hNot : op.srcBlockId ∉ early.map (·.dstBlockId) := by
        intro hIn
        obtain ⟨other, hEarly, hEq⟩ := List.mem_map.mp hIn
        refine hDisjoint.2 other (hOps ▸ List.mem_append_left _ hEarly) ?_
        rw [hEq]
        exact List.mem_map_of_mem hMem
      refine ⟨id, mem_admitWaiting.mpr (.inl rfl), found.numLocal / cfg.blockSize op.groupId,
        by rw [hRequests]; simp, hCopies.dst op hMem, ?_, ?_, fun t hLt => ?_⟩
      · rw [hWhole, hCopies.numTokens op hMem, State.computed, hRequests, Function.update_self,
          ← hSeat.numComputedTokens]
      · rw [hCopies.numTokens op hMem]
        exact hCopies.within _ hGroup
      · rw [hWhole, hBefore, List.foldl_append, foldl_copySlots_of_notMem hNot, hPending,
          tokens_update hRequests rfl]
        exact hCopies.src op hMem t (hCopies.numTokens op hMem ▸ hLt)

end Seated

/-- Pushing the decodes out gives them no drafts back, since they had none. -/
theorem KvStep.evict {locals : Locals H} (hStep : KvStep cfg hashing subBlockSize slots locals)
    (hNodup : locals.scheduledRunningReqs.Nodup)
    (hIndex : IndexOk cfg subBlockSize (locals.evictDecodes cfg)) :
    KvStep cfg hashing subBlockSize slots (locals.evictDecodes cfg) := by
  rw [evictDecodes_eq cfg hNodup] at hIndex ⊢
  have hRequests : (locals.withoutDecodes cfg locals.scheduledRunningReqs).st.requests =
      locals.st.requests := by
    funext other
    simp only [Locals.withoutDecodes, hStep.undrafted other]
    split
    · exact congrArg (fun drafts => { locals.st.requests other with specTokenIds := drafts })
        (hStep.kv.undrafted.drafts other).symm
    · rfl
  refine hStep.keep hIndex rfl (hStep.kv.keep rfl rfl rfl rfl hRequests rfl rfl) rfl rfl ?_ ?_
    (fun other hRuns => ?_) rfl rfl (fun row hRow => List.mem_of_mem_filter hRow) fun other => ?_
  · funext other
    exact congrArg Request.allTokenIds (congrFun hRequests other)
  · funext other
    exact congrArg Request.numComputedTokens (congrFun hRequests other)
  · exact (congrArg Request.status (congrFun hRequests other)).trans hRuns
  · simp only [Locals.withoutDecodes]
    split
    · rfl
    · exact hStep.undrafted other

/-- A blocked request that may go on waits for nothing but its turn. -/
theorem KvStep.promote {locals : Locals H} (hStep : KvStep cfg hashing subBlockSize slots locals)
    (hPlain : cfg.Plain) (hOk : WaitingOk cfg locals)
    (hMem : id ∈ locals.st.waiting ++ locals.st.skippedWaiting)
    (hBlocked : (locals.st.requests id).isBlocked = true) (numLoadedTokens : Nat)
    (hIndex : IndexOk cfg subBlockSize (locals.promoteRequest cfg hashing id numLoadedTokens)) :
    KvStep cfg hashing subBlockSize slots (locals.promoteRequest cfg hashing id numLoadedTokens) := by
  have hWaits : (locals.st.requests id).status.isWaiting = true :=
    hOk.queues.queued id (List.mem_append_left _ hMem)
  have hLocal := ((hOk.queues.request id).waiting_blocks hPlain.unconnected hWaits).1
  have hEq : locals.promoteRequest cfg hashing id numLoadedTokens = { locals with
      st := locals.st.modifyRequest id fun _ =>
        { locals.st.requests id with status := (locals.st.requests id).readyStatus } } := by
    unfold Locals.promoteRequest
    dsimp only
    rw [if_neg hLocal]
  have hReady : (locals.st.requests id).readyStatus ≠ .running := by
    unfold Request.readyStatus
    split <;> simp
  rw [hEq] at hIndex ⊢
  have hLive : (locals.st.requests id).status ≠ .unknown ∧
      (locals.st.requests id).status ≠ .finished ∧ (locals.st.requests id).status ≠ .running := by
    refine ⟨?_, ?_, ?_⟩ <;> intro hStatus <;> rw [hStatus] at hWaits <;> cases hWaits
  refine hStep.keep hIndex rfl (hStep.kv.modified rfl rfl rfl rfl rfl rfl
    (fun hRuns => absurd hRuns hReady) ?_) rfl rfl (tokens_update rfl rfl) ?_ (fun other hRuns => ?_)
    rfl rfl (fun _ h => h) hStep.undrafted
  · exact hStep.kv.undrafted.update (fun _ _ => hStep.kv.undrafted.short id hLive.1 hLive.2.1)
      (hStep.kv.undrafted.drafts id) (hStep.kv.undrafted.placeholders id)
  · funext other
    by_cases hSame : other = id
    · subst hSame
      simp [State.computed, State.modifyRequest]
    · exact computed_update rfl hSame
  · have hNe : other ≠ id := fun hSame => hLive.2.2 (hSame ▸ hRuns)
    simpa [State.modifyRequest, hNe] using hRuns

theorem waitingTokens_le_own (numComputedTokens : Nat) (request : Request) :
    request.waitingTokens cfg numComputedTokens ≤ request.numTokens - numComputedTokens := by
  unfold Request.waitingTokens
  dsimp only
  split <;> omega

theorem kv_waiting (hashing : Hashing H X) (up : Upstream H)
    (hSize : cfg.subBlockSize = some subBlockSize) (hFree : CollisionFree hashing.hashBlockTokens)
    (hPlain : cfg.Plain) : WaitingRule cfg hashing up (KvStep cfg hashing subBlockSize slots)
      (KvStep cfg hashing subBlockSize slots) where
  last hStep := hStep
  skip hOk hStep hNone hMem :=
    hStep.keep ((index_waiting hashing up hSize).skip hOk hStep.index hNone hMem) rfl
      (hStep.kv.keep rfl rfl rfl rfl rfl rfl rfl) rfl rfl rfl rfl (fun _ h => h) rfl rfl
      (fun _ h => h) hStep.undrafted
  promote numLoadedTokens hOk hStep hNone hMem hBlocked hLoaded :=
    hStep.promote hPlain hOk hMem hBlocked numLoadedTokens
      ((index_waiting hashing up hSize).promote numLoadedTokens hOk hStep.index hNone hMem hBlocked
        hLoaded)
  look hOk hStep hNone hMem hFound := hStep.looked hSize
    ((index_waiting hashing up hSize).look hOk hStep.index hNone hMem hFound) hFound.looked
  await _ _ hSeated hAsync _ := by
    have hConnected := hSeated.search.loadKvAsync hAsync
    rw [hPlain.unconnected] at hConnected
    cases hConnected
  join {start locals id found kv newBlocks ops} hStart hStep hSeated hSync hReady hOne hDecode
      hGuard := by
    have hIndex := (index_waiting hashing up hSize).join hStart.index hStep.index hSeated hSync
      hReady hOne hDecode hGuard
    rw [hOne] at hSeated
    have hSeat := hStep.seat hSeated hSize hFree hPlain hReady hGuard
      (le_trans hOne.ge (waitingTokens_le_own _ _))
      ⟨hIndex.1.keep rfl rfl rfl rfl rfl rfl rfl rfl rfl, hIndex.2⟩
    exact hSeat.keep hIndex rfl (hSeat.kv.keep rfl rfl rfl rfl rfl rfl rfl) rfl rfl rfl rfl
      (fun _ h => h) rfl rfl (fun _ h => h) hSeat.undrafted
  alone {start locals id found kv newBlocks ops} hStart hStep hSeated hSync hReady hTokens hPrefill
      hGuard := by
    have hIndex := (index_waiting hashing up hSize).alone hStart.index hStep.index hSeated hSync
      hReady hTokens hPrefill hGuard
    refine KvStep.evict ?_ (hSeated.startRunning _ _).scheduledRunning_nodup hIndex
    exact hStep.seat hSeated hSize hFree hPlain hReady hGuard (waitingTokens_le_own _ _)
      ⟨hStep.index.1.startRunning hSeated hReady hGuard _ _,
        (SafeIndex.seat hStep.index hSeated).modified rfl rfl rfl rfl⟩

theorem KvStep.leave {locals : Locals H} (hStep : KvStep cfg hashing subBlockSize slots locals) :
    KvStep cfg hashing subBlockSize slots (locals.leaveWaitingLoop cfg) := by
  have hIndex := hStep.index.leave
  unfold Locals.leaveWaitingLoop at hIndex ⊢
  dsimp only at hIndex ⊢
  split at hIndex
  · exact hStep.keep hIndex rfl (hStep.kv.keep rfl rfl rfl rfl rfl rfl rfl) rfl rfl rfl rfl
      (fun _ h => h) rfl rfl (fun _ h => h) hStep.undrafted
  · exact hStep.keep hIndex rfl (hStep.kv.keep rfl rfl rfl rfl rfl rfl rfl) rfl rfl rfl rfl
      (fun _ h => h) rfl rfl (fun _ h => h) hStep.undrafted

/-- The state between two calls, over the device as it is. -/
structure KvSafe (cfg : Config) (hashing : Hashing H X) (subBlockSize : Nat) (s : State H) :
    Prop where
  index : IndexSafe cfg subBlockSize s
  kv : KvOk cfg hashing subBlockSize s.slots s

theorem KvSafe.loops (hSize : cfg.subBlockSize = some subBlockSize)
    (hFree : CollisionFree hashing.hashBlockTokens) (hPlain : cfg.Plain) {up : Upstream H}
    (hQueues : Queues cfg s []) (hSafe : KvSafe cfg hashing subBlockSize s) {locals : Locals H}
    (hLoops : Locals.loops cfg hashing up s = some locals) :
    KvStep cfg hashing subBlockSize s.slots locals := by
  refine (loops_rule (KvStep cfg hashing subBlockSize s.slots) (kv_running hashing up hSize)
    (kv_waiting hashing up hSize hFree hPlain) hQueues ?_ (fun _ _ h _ => h) (fun _ _ h _ _ => h)
    (fun _ _ h => h.leave) hLoops).2
  refine ⟨⟨hSafe.index.1.start, hSafe.index.2⟩, rfl, ?_, by simp [Locals.start],
    fun _ => rfl, fun before op after hSplit => ?_⟩
  · change KvOk cfg hashing subBlockSize (s.kv.pendingCopyOps.foldl copySlots s.slots) s
    rw [hSafe.index.1.drained]
    exact hSafe.kv
  · change s.kv.pendingCopyOps = _ at hSplit
    rw [hSafe.index.1.drained] at hSplit
    simp at hSplit

/-! ### The forward pass -/

theorem mem_forwardWrites {blocks : Blocks} {numNewTokens : Nat}
    {write : BlockId × Nat × Option (List Token)} :
    write ∈ forwardWrites cfg blocks request numNewTokens ↔ ∃ group < cfg.numGroups,
      ∃ offset < numNewTokens, ∃ block,
        (blocks group)[(request.numComputedTokens + offset) / cfg.blockSize group]? = some block ∧
        write = (block, (request.numComputedTokens + offset) % cfg.blockSize group,
          some (request.allTokenIds.take (request.numComputedTokens + offset + 1))) := by
  simp only [forwardWrites, List.mem_flatMap, List.mem_filterMap, List.mem_range,
    Option.map_eq_some_iff, @eq_comm _ write]

/-- The tokens scheduled for a request, none if it is not in the step. -/
def Locals.numNewTokens (locals : Locals H) (id : ReqId) : Nat :=
  (locals.numScheduledTokens.lookup id).getD 0

theorem finish_computed (cfg : Config) (hashing : Hashing H X) (locals : Locals H) (id : ReqId) :
    (locals.finish cfg hashing).computed id = locals.st.computed id + locals.numNewTokens id := by
  simp only [State.computed, Locals.finish, Locals.numNewTokens]
  cases hRow : locals.numScheduledTokens.lookup id with
  | none => simp
  | some numNewTokens => simp [(advanceRequest_keeps ..).2.2.2]

theorem finish_tokens (cfg : Config) (hashing : Hashing H X) (locals : Locals H) :
    (locals.finish cfg hashing).tokens = locals.st.tokens := by
  funext id
  simp only [State.tokens, Locals.finish]
  split
  · exact (advanceRequest_keeps ..).2.2.1
  · rfl

/-- The forward pass fills every scheduled position, and nothing else. -/
theorem KvStep.executed {locals : Locals H}
    (hStep : KvStep cfg hashing subBlockSize slots locals) : Contents cfg hashing subBlockSize (locals.executedSlots cfg)
      locals.st.tokens (fun id => locals.st.computed id + locals.numNewTokens id) locals.st.kv := by
  have hContents := hStep.kv.contents
  have hRows : ∀ {id : ReqId}, 0 < locals.numNewTokens id →
      (id, locals.numNewTokens id) ∈ locals.numScheduledTokens := by
    intro id hPos
    unfold Locals.numNewTokens at hPos ⊢
    cases hRow : locals.numScheduledTokens.lookup id with
    | none =>
        rw [hRow] at hPos
        exact absurd hPos (Nat.lt_irrefl 0)
    | some numNewTokens => exact Dict.mem_of_lookup hRow
  -- every write is one scheduled position of one request
  set writes := locals.numScheduledTokens.flatMap fun row => forwardWrites cfg
    (locals.st.kv.reqToBlocks row.1) (locals.st.requests row.1) row.2 with hWrites
  have hWrite : ∀ {write : BlockId × Nat × Option (List Token)}, write ∈ writes →
      ∃ (id : ReqId) (group i t : Nat), t < cfg.blockSize group ∧
        locals.st.computed id ≤ i * cfg.blockSize group + t ∧
        (locals.st.kv.reqToBlocks id group)[i]? = some write.1 ∧ write.2.1 = t ∧
        write.2.2 = some ((locals.st.tokens id).take (i * cfg.blockSize group + t + 1)) := by
    intro write hMem
    obtain ⟨row, hRow, hMem⟩ := List.mem_flatMap.mp hMem
    obtain ⟨group, hGroup, offset, hOffset, block, hBlock, rfl⟩ := mem_forwardWrites.mp hMem
    have hSplit := Nat.div_add_mod' ((locals.st.requests row.1).numComputedTokens + offset)
      (cfg.blockSize group)
    refine ⟨row.1, group, _, _, Nat.mod_lt _ (cfg.blockSize_pos group), ?_, hBlock, rfl, ?_⟩
    · rw [hSplit]
      exact Nat.le_add_right _ _
    · rw [hSplit]
  have hExecuted : locals.executedSlots cfg =
      writes.foldl writeSlot (locals.st.kv.pendingCopyOps.foldl copySlots slots) := by
    rw [← hStep.device]
    rfl
  rw [hExecuted]
  refine hContents.write (fun id => Nat.le_add_right _ _) (fun id => ?_) (fun b t hNe => ?_)
    (fun id group i b hBlock t hLt hFrom hTo => ?_)
  · by_cases hPos : 0 < locals.numNewTokens id
    · exact (hStep.rows _ (hRows hPos)).1
    · rw [Nat.eq_zero_of_not_pos hPos, Nat.add_zero]
      exact hContents.fits id
  · rcases foldl_writeSlot writes (locals.st.kv.pendingCopyOps.foldl copySlots slots) b t with
      ⟨hSame, -⟩ | ⟨write, hMem, hBlock, hSlot, -⟩
    · exact absurd hSame hNe
    · obtain ⟨id, group, i, t', hLt, hFrom, hListed, hAt, -⟩ := hWrite hMem
      rw [← hBlock] at hListed
      rw [← hSlot] at hAt
      subst hAt
      exact ⟨id, group, i, hListed, hLt, hFrom⟩
  · rcases foldl_writeSlot writes (locals.st.kv.pendingCopyOps.foldl copySlots slots) b t with
      ⟨-, hNone⟩ | ⟨write, hMem, hBlock', hSlot, hValue⟩
    · -- the position is scheduled, so it is written
      have hRow : (id, locals.numNewTokens id) ∈ locals.numScheduledTokens := hRows (by omega)
      have hPosition : (locals.st.requests id).numComputedTokens +
          (i * cfg.blockSize group + t - (locals.st.requests id).numComputedTokens) =
            i * cfg.blockSize group + t := Nat.add_sub_cancel' hFrom
      have hQuotient : (i * cfg.blockSize group + t) / cfg.blockSize group = i :=
        Nat.div_eq_of_lt_le (Nat.le_add_right _ _) (by rw [Nat.add_mul, Nat.one_mul]; omega)
      have hRemainder : (i * cfg.blockSize group + t) % cfg.blockSize group = t := by
        exact Nat.mul_add_mod_of_lt hLt
      have hMem : (b, t, some ((locals.st.tokens id).take (i * cfg.blockSize group + t + 1))) ∈
          forwardWrites cfg (locals.st.kv.reqToBlocks id) (locals.st.requests id)
            (locals.numNewTokens id) := by
        refine mem_forwardWrites.mpr ⟨group, group_lt_of_listed hContents hBlock, _,
          (Nat.sub_lt_iff_lt_add' hFrom).mpr hTo, b, ?_, ?_⟩
        · rw [hPosition, hQuotient]
          exact hBlock
        · rw [hPosition, hRemainder]
      exact (hNone _ (List.mem_flatMap.mpr ⟨_, hRow, hMem⟩) ⟨rfl, rfl⟩).elim
    · obtain ⟨id', group', i', t', hLt', hFrom', hListed, hAt, hHolds⟩ := hWrite hMem
      rw [← hBlock'] at hListed
      rw [← hSlot] at hAt
      subst hAt
      have hOpen : locals.st.computed id' < (i' + 1) * cfg.blockSize group' := by
        rw [Nat.add_mul, Nat.one_mul]
        omega
      obtain ⟨rfl, rfl, rfl⟩ := (hContents.alone id' group' i' b hListed hOpen).2 id group i hBlock
      rw [hValue, hHolds]

/-- Caching hashes every whole block below the token count. -/
theorem cacheBlocks_hash {kv : Manager H} {numTokens group i : Nat} {b : BlockId}
    (hGroup : group < cfg.numGroups) (hWindow : cfg.slidingWindow group = false)
    (hBlock : (kv.reqToBlocks id group)[i]? = some b)
    (hFull : (i + 1) * cfg.blockSize group ≤ numTokens) :
    (kv.cacheBlocks cfg hashing id request numTokens).blockHash b ≠ none := by
  have hKeeps : ∀ (mid : Manager H) (block : BlockId) (hash : BlockHash H),
      mid.blockHash b ≠ none → (mid.cacheBlock block hash).blockHash b ≠ none := by
    intro mid block hash hMid
    unfold cacheBlock
    split
    · exact hMid
    · by_cases hEq : b = block
      · simp [hEq]
      · simpa [hEq] using hMid
  have hHere : ∀ (mid : Manager H) (hash : BlockHash H), (mid.cacheBlock b hash).blockHash b ≠ none := by
    intro mid hash
    unfold cacheBlock
    split
    · rename_i hSome
      simpa [Option.isSome_iff_ne_none] using hSome
    · simp
  have hIn : group ∈ (List.range cfg.numGroups).filter fun group => ¬ cfg.slidingWindow group := by
    simp [hGroup, hWindow]
  refine foldl_reaches (fun mid : Manager H => mid.reqToBlocks = kv.reqToBlocks)
    (fun mid => mid.blockHash b ≠ none) hIn (fun mid other _ hMid => ?_)
    (fun mid hMid => ?_) (fun mid other _ hMid => ?_) rfl
  · refine foldl_invariant (fun last : Manager H => last.reqToBlocks = kv.reqToBlocks)
      (fun last block _ hLast => ?_) hMid
    rw [ownership_reqToBlocks (ownership_cacheBlock ..), hLast]
  · have hLt : i < numTokens / cfg.blockSize group :=
      (Nat.le_div_iff_mul_le (cfg.blockSize_pos group)).mpr hFull
    have hRow : (b, i) ∈ ((mid.reqToBlocks id group).take (numTokens / cfg.blockSize group)).zipIdx := by
      rw [List.mem_zipIdx_iff_getElem?, List.getElem?_take, if_pos hLt, hMid]
      exact hBlock
    exact foldl_reaches (fun _ => True) (fun last : Manager H => last.blockHash b ≠ none) hRow
      (fun _ _ _ _ => trivial) (fun last _ => hHere last _)
      (fun last block _ hLast => hKeeps last block.1 _ hLast) trivial
  · exact foldl_invariant (fun last : Manager H => last.blockHash b ≠ none)
      (fun last block _ hLast => hKeeps last block.1 _ hLast) hMid

theorem cacheScheduled_eq (hSize : cfg.subBlockSize = some subBlockSize)
    (requests : ReqId → Request) (rows : List (ReqId × Nat)) (kv : Manager H) (id : ReqId) :
    cacheScheduled cfg hashing requests rows kv id =
      (kv.cacheBlocks cfg hashing id (requests id)
        (min ((requests id).numComputedTokens + (rows.lookup id).getD 0)
          (requests id).numTokens)).scheduleSubBlockIndexing cfg id (requests id) := by
  unfold cacheScheduled
  rw [hSize]

theorem scheduleSubBlockIndexing_blockHash (kv : Manager H) :
    (kv.scheduleSubBlockIndexing cfg id request).blockHash = kv.blockHash := by
  unfold scheduleSubBlockIndexing
  split <;> rfl

/-- Once the step is fixed, every whole block that it computes is hashed. -/
theorem KvStep.cached {locals : Locals H} (hStep : KvStep cfg hashing subBlockSize slots locals)
    (hOk : LoopsOk cfg locals) (hSize : cfg.subBlockSize = some subBlockSize) {group i : Nat}
    {b : BlockId} (hBlock : (locals.st.kv.reqToBlocks id group)[i]? = some b)
    (hFull : (i + 1) * cfg.blockSize group ≤ locals.st.computed id + locals.numNewTokens id) :
    (locals.scheduledReqs.foldl (cacheScheduled cfg hashing locals.st.requests
      locals.numScheduledTokens) locals.st.kv).blockHash b ≠ none := by
  by_cases hOld : (i + 1) * cfg.blockSize group ≤ locals.st.computed id
  · exact edits_hashed (edits_cacheScheduled hashing subBlockSize locals)
      (hStep.kv.closed id group i b hBlock hOld)
  have hKey : id ∈ locals.numScheduledTokens.map Prod.fst := by
    by_contra hNot
    have hNone : locals.numScheduledTokens.lookup id = none := Dict.lookup_eq_none.mpr hNot
    rw [Locals.numNewTokens, hNone, Option.getD_none] at hFull
    exact hOld hFull
  have hFits : locals.st.computed id + locals.numNewTokens id ≤ (locals.st.requests id).numTokens := by
    have hExecuted := hStep.executed.fits id
    exact hExecuted
  refine foldl_reaches (fun kv : Manager H => kv.reqToBlocks = locals.st.kv.reqToBlocks)
    (fun kv => kv.blockHash b ≠ none) (hOk.books.mem_iff.mp hKey) (fun kv other _ hKv => ?_)
    (fun kv hKv => ?_) (fun kv other _ hKv => ?_) rfl
  · rw [cacheScheduled_eq hSize, ownership_reqToBlocks (ownership_scheduleSubBlockIndexing ..),
      ownership_reqToBlocks (ownership_cacheBlocks ..), hKv]
  · rw [cacheScheduled_eq hSize, scheduleSubBlockIndexing_blockHash]
    have hGroup := group_lt_of_listed hStep.kv.contents hBlock
    refine cacheBlocks_hash hGroup ((cfg.subBlockSize_fits subBlockSize hSize).2.2 group)
      (hKv ▸ hBlock) ?_
    exact le_trans hFull (le_min le_rfl hFits)
  · rw [cacheScheduled_eq hSize, scheduleSubBlockIndexing_blockHash]
    have hEdits : Edits cfg hashing subBlockSize locals.st.requests
        (fun other => min ((locals.st.requests other).numComputedTokens +
          (locals.numScheduledTokens.lookup other).getD 0) (locals.st.requests other).numTokens) kv
        (kv.cacheBlocks cfg hashing other (locals.st.requests other)
          (min ((locals.st.requests other).numComputedTokens +
            (locals.numScheduledTokens.lookup other).getD 0) (locals.st.requests other).numTokens)) :=
      edits_cacheBlocks kv other (locals.st.requests other) rfl le_rfl
    exact edits_hashed hEdits hKv

/-- The end of a call leaves a request undrafted and moves its computed tokens. -/
theorem advanceRequest_plain (hPlain : cfg.Plain) (numNewTokens : Nat) (drafts : List Token)
    (request : Request) : (advanceRequest cfg numNewTokens drafts request).specTokenIds =
      request.specTokenIds ∧ (advanceRequest cfg numNewTokens drafts request).numOutputPlaceholders =
        request.numOutputPlaceholders := by
  unfold advanceRequest
  simp [hPlain.sync]

theorem KvStep.finish {locals : Locals H} (hStep : KvStep cfg hashing subBlockSize slots locals)
    (hOk : LoopsOk cfg locals) (hSize : cfg.subBlockSize = some subBlockSize)
    (hPlain : cfg.Plain) : KvSafe cfg hashing subBlockSize (locals.finish cfg hashing) := by
  have hComputed : (locals.finish cfg hashing).computed =
      fun id => locals.st.computed id + locals.numNewTokens id :=
    funext fun id => finish_computed cfg hashing locals id
  have hTokens := finish_tokens cfg hashing locals
  refine ⟨hStep.index.finish hashing hOk.noMatch, ⟨?_, ?_, ?_, ?_, hStep.kv.releases⟩, ?_⟩
  · rw [hTokens, hComputed]
    have hCached : Contents cfg hashing subBlockSize (locals.executedSlots cfg) locals.st.tokens
        (fun id => locals.st.computed id + locals.numNewTokens id)
        (locals.scheduledReqs.foldl (cacheScheduled cfg hashing locals.st.requests
          locals.numScheduledTokens) locals.st.kv) := by
      refine foldl_invariant (Contents cfg hashing subBlockSize (locals.executedSlots cfg)
        locals.st.tokens fun id => locals.st.computed id + locals.numNewTokens id)
        (fun kv id _ hKv => ?_) hStep.executed
      rw [cacheScheduled_eq hSize]
      have hBlocks : Contents cfg hashing subBlockSize (locals.executedSlots cfg) locals.st.tokens
          (fun id => locals.st.computed id + locals.numNewTokens id)
          (kv.cacheBlocks cfg hashing id (locals.st.requests id)
            (min (locals.st.computed id + locals.numNewTokens id)
              (locals.st.requests id).numTokens)) :=
        hKv.cacheBlocks rfl (Nat.min_le_left _ _)
      unfold scheduleSubBlockIndexing
      split
      · exact hBlocks
      · exact hBlocks.congr rfl rfl rfl rfl
    exact hCached.congr rfl rfl rfl rfl
  · intro id group i b hBlock hFull
    rw [finish_reqToBlocks] at hBlock
    rw [hComputed] at hFull
    exact hStep.cached hOk hSize hBlock hFull
  · intro id hStatus group hGroup
    rw [(finish_request cfg hashing locals id).1] at hStatus
    rw [hComputed, finish_reqToBlocks]
    dsimp only
    unfold Locals.numNewTokens
    cases hRow : locals.numScheduledTokens.lookup id with
    | none => exact hStep.kv.covered id hStatus group hGroup
    | some numNewTokens => exact (hStep.rows _ (Dict.mem_of_lookup hRow)).2 group hGroup
  · intro output hMem
    rcases List.mem_append.mp hMem with hOld | hLast
    · exact hStep.kv.flying output hOld
    · rw [List.mem_singleton.mp hLast]
      exact hStep.undrafted
  · have hRequest : ∀ id, ((locals.finish cfg hashing).requests id).specTokenIds =
        (locals.st.requests id).specTokenIds ∧
        ((locals.finish cfg hashing).requests id).numOutputPlaceholders =
          (locals.st.requests id).numOutputPlaceholders := by
      intro id
      simp only [Locals.finish]
      split
      · exact advanceRequest_plain hPlain ..
      · exact ⟨rfl, rfl⟩
    constructor <;> intro id
    · rw [(finish_request cfg hashing locals id).1]
      intro hKnown hUnfinished
      have hShort := hStep.kv.undrafted.short id hKnown hUnfinished
      exact lt_of_eq_of_lt (congrArg List.length (congrFun hTokens id)) hShort
    · rw [(hRequest id).1, hStep.kv.undrafted.drafts]
    · rw [(hRequest id).2, hStep.kv.undrafted.placeholders]

/-! ### Runs -/

/-- Without drafts an output appends at most one token, and takes nothing back. -/
theorem afterOutput_plain (hPlain : cfg.Plain) (result : RunnerOutput) {output : SchedulerOutput}
    (hDrafts : output.scheduledSpecDecodeTokens id = []) (request : Request) :
    ∃ more, (request.afterOutput cfg result output id).1 =
        { request with allTokenIds := request.allTokenIds ++ more } ∧
      ((request.afterOutput cfg result output id).2 = false →
        request.numTokens < cfg.maxModelLen →
          request.numTokens + more.length < cfg.maxModelLen) := by
  have hReject : (if result.generated output id = [] then 0
      else (output.scheduledSpecDecodeTokens id).length + 1 -
        (result.generated output id).length) = 0 := by
    unfold RunnerOutput.generated
    rw [hDrafts]
    split <;> simp
  unfold Request.afterOutput
  dsimp only
  rw [hReject]
  unfold Request.receive RunnerOutput.generated
  rw [hDrafts, hPlain.sync]
  have hSame : request.reject 0 = request := rfl
  rw [hSame]
  simp only [List.length_nil, List.take_zero, Bool.false_eq_true, if_false]
  split
  · simp only [Request.appendTokens]
    split
    · exact ⟨_, rfl, by simp⟩
    · rename_i hGoes
      refine ⟨_, rfl, fun _ _ => ?_⟩
      simp only [Request.stopped, decide_eq_true_eq, not_or, Nat.not_le] at hGoes
      simpa [Request.numTokens] using hGoes.1
  · exact ⟨[], by simp [Request.appendTokens], fun _ hShort => by simpa using hShort⟩

theorem KvHeld.received (hOk : KvHeld cfg hashing subBlockSize slots s) {more : List Token}
    (hKv : s'.kv = s.kv)
    (hRequests : s'.requests = Function.update s.requests id
      { s.requests id with allTokenIds := (s.requests id).allTokenIds ++ more })
    (hInFlight : s'.inFlight = s.inFlight) (hReleases : s'.releases = s.releases) :
    KvHeld cfg hashing subBlockSize slots s' := by
  have hComputed : s'.computed = s.computed := by
    funext other
    by_cases hEq : other = id
    · rw [hEq, State.computed, hRequests, Function.update_self]
    · exact computed_update hRequests hEq
  have hStatus : ∀ other, (s'.requests other).status = (s.requests other).status := by
    intro other
    rw [hRequests]
    by_cases hEq : other = id
    · rw [hEq, Function.update_self]
    · rw [Function.update_of_ne hEq]
  constructor
  · rw [hComputed, hKv]
    refine hOk.contents.grow fun other => ?_
    rw [State.tokens, State.tokens, hRequests]
    by_cases hEq : other = id
    · rw [hEq, Function.update_self]
      exact List.prefix_append _ _
    · rw [Function.update_of_ne hEq]
  · rw [hComputed, hKv]
    exact hOk.closed
  · intro other hRuns
    rw [hComputed, hKv]
    exact hOk.covered other (hStatus other ▸ hRuns)
  · rw [hInFlight]
    exact hOk.flying
  · unfold State.ReleasesSafe
    rw [hReleases]
    exact hOk.releases

theorem KvHeld.freeRequest (hOk : KvHeld cfg hashing subBlockSize slots s)
    (hSize : cfg.subBlockSize = some subBlockSize) (hPlain : cfg.Plain) {mode : FreeMode}
    (hDelayed : mode = .delayed → cfg.hasConnector = true)
    (hUndrafted : Undrafted cfg
      (Function.update s.requests id { s.requests id with status := .finished })) :
    KvOk cfg hashing subBlockSize slots (s.freeRequest cfg hashing mode id) := by
  have hMode : mode ≠ .delayed := by
    intro hEq
    have hConnected := hDelayed hEq
    rw [hPlain.unconnected] at hConnected
    cases hConnected
  have hPopped : KvHeld cfg hashing subBlockSize slots (s.popWaiting id) :=
    ⟨hOk.contents, hOk.closed, hOk.covered, hOk.flying, hOk.releases⟩
  exact hPopped.released hSize hMode rfl rfl rfl rfl rfl le_rfl (by simp) hUndrafted

theorem Undrafted.finish (hOk : Undrafted cfg s.requests) (id : ReqId) :
    Undrafted cfg (Function.update s.requests id { s.requests id with status := .finished }) :=
  hOk.update (fun _ hUnfinished => absurd rfl hUnfinished) (hOk.drafts id) (hOk.placeholders id)

theorem receiveOutput_plain (hashing : Hashing H X) (hPlain : cfg.Plain) (result : RunnerOutput)
    {output : SchedulerOutput} (hDrafts : output.scheduledSpecDecodeTokens id = []) (s : State H) :
    (s.receiveOutput cfg hashing result output id).kv = s.kv ∧
      ∃ more, (s.receiveOutput cfg hashing result output id).requests =
          Function.update s.requests id
            { s.requests id with allTokenIds := (s.requests id).allTokenIds ++ more } ∧
        (((s.requests id).afterOutput cfg result output id).2 = false →
          (s.requests id).numTokens < cfg.maxModelLen →
            (s.requests id).numTokens + more.length < cfg.maxModelLen) := by
  obtain ⟨more, hReceived, hShort⟩ := afterOutput_plain hPlain result hDrafts (s.requests id)
  refine ⟨?_, more, congrArg (Function.update s.requests id) hReceived, hShort⟩
  simp [State.receiveOutput, hPlain.sync]

/-- One request of a processed step takes its token, and leaves if it stops. -/
theorem kv_settle (hashing : Hashing H X) (hSize : cfg.subBlockSize = some subBlockSize)
    (hPlain : cfg.Plain) (result : RunnerOutput) {output : SchedulerOutput}
    (hDrafts : ∀ id, output.scheduledSpecDecodeTokens id = []) :
    SettleRule cfg hashing result output
      fun _ s => KvOk cfg hashing subBlockSize slots s ∧ s.slots = slots where
  pass _ hInv _ := hInv
  receive {s id todo} _ hInv _ hKnown hUnfinished hGoes := by
    obtain ⟨hOk, hSlots⟩ := hInv
    obtain ⟨hKv, more, hRequests, hShort⟩ :=
      receiveOutput_plain hashing hPlain result (hDrafts id) s
    refine ⟨⟨hOk.toKvHeld.received hKv hRequests rfl rfl, ?_⟩, hSlots⟩
    rw [hRequests]
    refine hOk.undrafted.update (fun _ _ => ?_) (hOk.undrafted.drafts id)
      (hOk.undrafted.placeholders id)
    have hLess := hShort hGoes (hOk.undrafted.short id hKnown hUnfinished)
    simpa [Request.numTokens] using hLess
  stop {s id todo mode} _ hInv _ _ _ hDelayed := by
    obtain ⟨hOk, hSlots⟩ := hInv
    obtain ⟨hKv, more, hRequests, -⟩ := receiveOutput_plain hashing hPlain result (hDrafts id) s
    refine ⟨(hOk.toKvHeld.received hKv hRequests rfl rfl).freeRequest hSize hPlain hDelayed ?_,
      hSlots⟩
    -- a stopped request may have reached the limit, but it lives no longer
    rw [hRequests, Function.update_idem, Function.update_self]
    exact hOk.undrafted.update (fun _ hUnfinished => absurd rfl hUnfinished)
      (hOk.undrafted.drafts id) (hOk.undrafted.placeholders id)

theorem KvOk.settleOutput (hOk : KvOk cfg hashing subBlockSize slots s)
    (hSize : cfg.subBlockSize = some subBlockSize) (output : SchedulerOutput) :
    KvOk cfg hashing subBlockSize slots (s.settleOutput cfg hashing output) := by
  have hEdits : Edits cfg hashing subBlockSize s.requests (fun _ => 0) s.kv
      (s.kv.doPendingIndexing cfg hashing subBlockSize s.requests) := edits_doPendingIndexing s.kv
  have hContents : Contents cfg hashing subBlockSize slots s.tokens s.computed
      (s.kv.doPendingIndexing cfg hashing subBlockSize s.requests) :=
    hOk.contents.doPendingIndexing hSize (fun _ => rfl) fun _ => rfl
  simp only [State.settleOutput, hSize]
  refine ⟨⟨hContents.congr rfl rfl rfl rfl, ?_, ?_, hOk.flying, hOk.releases⟩, hOk.undrafted⟩
  · intro id group i b hBlock hFull
    have hListed : ((s.kv.doPendingIndexing cfg hashing subBlockSize s.requests).reqToBlocks id
        group)[i]? = some b := hBlock
    rw [hEdits.reqToBlocks] at hListed
    exact edits_hashed hEdits (hOk.closed id group i b hListed hFull)
  · intro id hRuns group hGroup
    change s.computed id ≤ ((s.kv.doPendingIndexing cfg hashing subBlockSize s.requests).reqToBlocks
      id group).length * _
    rw [hEdits.reqToBlocks]
    exact hOk.covered id hRuns group hGroup

theorem kv_run (hashing : Hashing H X) (hSize : cfg.subBlockSize = some subBlockSize)
    (hFree : CollisionFree hashing.hashBlockTokens) (hPlain : cfg.Plain) :
    RunRule cfg hashing (fun _ => True) (KvSafe cfg hashing subBlockSize) where
  initial := by
    refine ⟨(index_run hashing hSize).initial, ⟨⟨Contents.initial _ _ _ fun _ => le_rfl, ?_, ?_, ?_, ?_⟩,
      ?_⟩⟩
    · simp [State.initial, Manager.initial, Blocks.empty]
    · simp [State.initial, Request.unknown]
    · simp [State.initial]
    · simp [State.initial, State.ReleasesSafe]
    · constructor <;> simp [State.initial, Request.unknown]
  add {s s' id new} hQueues hSafe hAdd := by
    refine ⟨(index_run hashing hSize).add hQueues hSafe.index hAdd, ?_⟩
    obtain ⟨hNew, -, hLength, -, waiting, skippedWaiting, -, rfl⟩ := addRequest_cases hAdd
    have hUnknown : (s.requests id).status = .unknown := by
      by_contra hKnown
      exact hNew (hQueues.mem_ids hKnown)
    have hNil : (s.requests id).allTokenIds = [] :=
      List.length_eq_zero_iff.mp ((hQueues.request id).unknown_tokens hUnknown)
    have hZero : s.computed id = 0 := by
      have hFits := hSafe.kv.contents.fits id
      rw [State.tokens, hNil] at hFits
      exact Nat.le_zero.mp hFits
    have hWaits : new.toRequest.status ≠ .running := by
      unfold NewRequest.toRequest
      dsimp only
      split <;> simp
    have hComputed : ∀ other, (Function.update s.requests id new.toRequest other).numComputedTokens =
        s.computed other := by
      intro other
      by_cases hEq : other = id
      · subst hEq
        rw [Function.update_self, hZero]
        rfl
      · rw [Function.update_of_ne hEq]
    refine ⟨⟨?_, ?_, ?_, hSafe.kv.flying, hSafe.kv.releases⟩, ?_⟩
    · have hGrown : Contents cfg hashing subBlockSize s.slots
          (fun other => (Function.update s.requests id new.toRequest other).allTokenIds)
          s.computed s.kv := by
        refine hSafe.kv.contents.grow fun other => ?_
        by_cases hEq : other = id
        · subst hEq
          rw [State.tokens, hNil]
          exact List.nil_prefix
        · rw [Function.update_of_ne hEq]
      rw [← funext hComputed] at hGrown
      exact hGrown
    · intro other group i b hBlock hFull
      exact hSafe.kv.closed other group i b hBlock ((hComputed other).symm ▸ hFull)
    · intro other hRuns group hGroup
      change (Function.update s.requests id new.toRequest other).status = _ at hRuns
      rw [State.computed, hComputed other]
      by_cases hEq : other = id
      · rw [hEq, Function.update_self] at hRuns
        exact absurd hRuns hWaits
      · rw [Function.update_of_ne hEq] at hRuns
        exact hSafe.kv.covered other hRuns group hGroup
    · exact hSafe.kv.undrafted.update (fun _ _ => hLength) rfl rfl
  schedule {s up locals} _ hQueues hSafe _ hLoops hOk _ :=
    (hSafe.loops hSize hFree hPlain hQueues hLoops).finish hOk hSize hPlain
  update {s result output inFlight} hQueues hSafe hInFlight hPopped hAdmitted := by
    refine ⟨(index_run hashing hSize).update hQueues hSafe.index hInFlight hPopped hAdmitted, ?_⟩
    have hFlying : ∀ other ∈ inFlight, ∀ id, other.scheduledSpecDecodeTokens id = [] :=
      fun other hMem => hSafe.kv.flying other (hInFlight ▸ List.mem_cons_of_mem _ hMem)
    have hOk : KvOk cfg hashing subBlockSize s.slots { s with inFlight := inFlight } :=
      ⟨⟨hSafe.kv.contents, hSafe.kv.closed, hSafe.kv.covered, hFlying, hSafe.kv.releases⟩,
        hSafe.kv.undrafted⟩
    have hDrafts : ∀ id, output.scheduledSpecDecodeTokens id = [] :=
      hSafe.kv.flying output (hInFlight ▸ List.mem_cons_self)
    obtain ⟨-, hUpdated, hSlots⟩ :=
      settle_rule (kv_settle hashing hSize hPlain result hDrafts) hPopped hAdmitted ⟨hOk, rfl⟩
    have hSettled : KvOk cfg hashing subBlockSize s.slots _ := hUpdated.settleOutput hSize output
    have hSame : ∀ mid : State H, (mid.settleOutput cfg hashing output).slots = mid.slots := by
      intro mid
      simp only [State.settleOutput, hSize]
    rw [hSame, hSlots]
    exact hSettled
  drafts {s} drafts hQueues hSafe := by
    refine ⟨(index_run hashing hSize).drafts drafts hQueues hSafe.index, ?_⟩
    unfold setDrafts
    dsimp only
    split
    · exact hSafe.kv
    · rename_i hLive
      obtain ⟨hKnown, hUnfinished⟩ := not_or.mp hLive
      have hNone : (if (s.requests drafts.1).isPrefillChunk then []
          else drafts.2.take cfg.numSpecTokens) = [] := by
        rw [hPlain.undrafted, List.take_zero, ite_self]
      refine hSafe.kv.modified rfl rfl rfl rfl rfl rfl (hSafe.kv.covered drafts.1) ?_
      exact hSafe.kv.undrafted.update (fun _ _ => hSafe.kv.undrafted.short _ hKnown hUnfinished)
        hNone (hSafe.kv.undrafted.placeholders _)
  free {s id mode} hQueues hSafe hKnown hUnfinished hDelayed :=
    ⟨(index_run hashing hSize).free hQueues hSafe.index hKnown hUnfinished hDelayed,
      hSafe.kv.toKvHeld.freeRequest hSize hPlain hDelayed (hSafe.kv.undrafted.finish id)⟩
  releaseDeferred hQueues hSafe hDeferred :=
    ⟨(index_run hashing hSize).releaseDeferred hQueues hSafe.index hDeferred,
      hSafe.kv.keep rfl rfl rfl rfl rfl rfl rfl⟩
  freeDelayed {s id} hQueues hSafe hFinished := by
    refine ⟨(index_run hashing hSize).freeDelayed hQueues hSafe.index hFinished, ?_⟩
    have hSame : s.requests = Function.update s.requests id (s.requests id) :=
      (Function.update_eq_self id s.requests).symm
    exact hSafe.kv.toKvHeld.released hSize (by simp) rfl rfl hSame rfl rfl le_rfl (by simp [hFinished])
      hSafe.kv.undrafted

theorem Config.small_plain : Config.small.Plain := ⟨rfl, rfl, rfl⟩

end VllmRbln.Scheduler
