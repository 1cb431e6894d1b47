import VllmRbln.Common.Tally
import VllmRbln.Scheduler.Runs
import Mathlib.Data.List.Pairwise

/-! Who holds a reference to a block. A block is referenced by the block lists of
requests, by the partial match at hand, by copy operations that are pending or in flight,
and by block lists whose free is deferred; nothing else counts. -/
namespace VllmRbln.Scheduler

set_option linter.unusedSectionVars false

open SubBlock Run Tally

variable {H X : Type} [DecidableEq H]

def sources (ops : List KVCacheCopyOp) : List BlockId := ops.map (·.srcBlockId)

/-- The blocks the manager lists for a request. -/
def State.held (cfg : Config) (s : State H) (id : ReqId) : List BlockId :=
  Manager.allBlocks cfg (s.kv.reqToBlocks id)

/-- Sources of copy operations that are not released yet. -/
def State.outstanding (s : State H) : List BlockId :=
  sources s.kv.pendingCopyOps ++ s.inFlight.flatMap fun output => sources output.kvCacheCopyOps

/-- The references of a state, `matched` being the sources of matches not applied yet. -/
structure Ledger (cfg : Config) (s : State H) (matched : List BlockId) : Prop where
  refCnt : ∀ b, s.kv.refCnt b = tally s.ids (s.held cfg) b +
    (matched ++ s.outstanding ++ s.deferredFrees.flatten).count b
  pins : s.pins.Perm (s.unpins ++ (matched ++ s.outstanding))

/-! ### How the operations move references -/

theorem allBlocks_empty (cfg : Config) : Manager.allBlocks cfg Blocks.empty = [] := by
  simp [Manager.allBlocks, Blocks.empty]

theorem count_allBlocks_append (cfg : Config) (blocks more : Blocks) (b : BlockId) :
    (Manager.allBlocks cfg fun group => blocks group ++ more group).count b =
      (Manager.allBlocks cfg blocks).count b + (Manager.allBlocks cfg more).count b := by
  unfold Manager.allBlocks
  induction List.range cfg.numGroups with
  | nil => rfl
  | cons group groups ih =>
      simp only [List.flatMap_cons, List.count_append] at ih ⊢
      omega

/-- Nothing that the ledger reads changes. -/
theorem Ledger.keep {cfg : Config} {s s' : State H} {matched : List BlockId}
    (hLedger : Ledger cfg s matched) (hOwn : s'.kv.ownership = s.kv.ownership)
    (hIds : s'.ids = s.ids) (hInFlight : s'.inFlight = s.inFlight)
    (hDeferred : s'.deferredFrees = s.deferredFrees) (hPins : s'.pins = s.pins)
    (hUnpins : s'.unpins = s.unpins) : Ledger cfg s' matched := by
  have hHeld : s'.held cfg = s.held cfg := by
    funext id
    unfold State.held
    rw [Manager.ownership_reqToBlocks hOwn]
  have hOutstanding : s'.outstanding = s.outstanding := by
    unfold State.outstanding
    rw [Manager.ownership_pendingCopyOps hOwn, hInFlight]
  constructor
  · intro b
    rw [Manager.ownership_refCnt hOwn, hIds, hHeld, hOutstanding, hDeferred]
    exact hLedger.refCnt b
  · rw [hPins, hUnpins, hOutstanding]
    exact hLedger.pins

theorem freeRequestBlocks_refCnt (cfg : Config) (hashing : Hashing H X) (mode : FreeMode)
    (s : State H) (id : ReqId) (b : BlockId) :
    (s.freeRequestBlocks cfg hashing mode id).kv.refCnt b =
      if mode = .now then s.kv.refCnt b - (s.held cfg id).count b else s.kv.refCnt b := by
  have hSettle := Manager.ownership_settle cfg hashing s.kv id (s.requests id)
  have hRef := Manager.ownership_refCnt hSettle
  have hBlocks := Manager.ownership_reqToBlocks hSettle
  cases mode <;> simp [State.freeRequestBlocks, Manager.popBlocksForFree, Manager.free,
    Manager.popBlocks, Manager.freeBlocks, hRef, hBlocks, State.held]

theorem freeRequestBlocks_deferredFrees (cfg : Config) (hashing : Hashing H X) (mode : FreeMode)
    (s : State H) (id : ReqId) :
    (s.freeRequestBlocks cfg hashing mode id).deferredFrees =
      if mode = .deferred then s.deferredFrees ++ [s.held cfg id] else s.deferredFrees := by
  have hBlocks := Manager.ownership_reqToBlocks
    (Manager.ownership_settle cfg hashing s.kv id (s.requests id))
  cases mode <;> simp [State.freeRequestBlocks, Manager.popBlocksForFree, hBlocks, State.held]

theorem freeRequestBlocks_held (cfg : Config) (hashing : Hashing H X) (mode : FreeMode)
    (s : State H) (id : ReqId) : (s.freeRequestBlocks cfg hashing mode id).held cfg =
      if mode = .delayed then s.held cfg else Function.update (s.held cfg) id [] := by
  funext other
  unfold State.held
  rw [State.freeRequestBlocks_reqToBlocks]
  split
  · rfl
  · by_cases hEq : other = id
    · rw [hEq, Function.update_self, Function.update_self, allBlocks_empty]
    · rw [Function.update_of_ne hEq, Function.update_of_ne hEq]

/-- A request's blocks go back to the pool, to the deferred ones, or stay. -/
theorem Ledger.freeRequestBlocks {cfg : Config} (hashing : Hashing H X) (mode : FreeMode)
    {s : State H} {matched : List BlockId} (hLedger : Ledger cfg s matched)
    (hNodup : s.ids.Nodup) {id : ReqId} (hMem : id ∈ s.ids) :
    Ledger cfg (s.freeRequestBlocks cfg hashing mode id) matched := by
  have hOutstanding : (s.freeRequestBlocks cfg hashing mode id).outstanding = s.outstanding := by
    unfold State.outstanding
    rw [State.freeRequestBlocks_pendingCopyOps]
    rfl
  constructor
  · intro b
    rw [freeRequestBlocks_refCnt, freeRequestBlocks_held, freeRequestBlocks_deferredFrees,
      hOutstanding]
    have hBalance := hLedger.refCnt b
    have hMove := tally_update hNodup hMem (s.held cfg) [] b
    have hIds : (s.freeRequestBlocks cfg hashing mode id).ids = s.ids := rfl
    rw [hIds]
    cases mode with
    | now =>
        simp only [if_true, reduceCtorEq, if_false]
        simp only [List.count_nil] at hMove
        omega
    | deferred =>
        simp only [reduceCtorEq, if_false, if_true, List.flatten_append, List.flatten_singleton]
        simp only [List.count_nil] at hMove
        simp only [List.count_append] at hBalance ⊢
        omega
    | delayed =>
        simp only [if_true, reduceCtorEq, if_false]
        exact hBalance
  · rw [hOutstanding]
    exact hLedger.pins

/-- A request gets hits and new blocks. -/
theorem Ledger.giveBlocks {cfg : Config} {s s' : State H} {matched : List BlockId}
    (hLedger : Ledger cfg s matched) (hNodup : s.ids.Nodup) {id : ReqId} (hMem : id ∈ s.ids)
    {hits newBlocks : Blocks}
    (hRef : s'.kv.refCnt = (Manager.giveBlocks cfg s.kv id hits newBlocks).refCnt)
    (hBlocks : s'.kv.reqToBlocks = (Manager.giveBlocks cfg s.kv id hits newBlocks).reqToBlocks)
    (hOps : s'.kv.pendingCopyOps = s.kv.pendingCopyOps) (hIds : s'.ids = s.ids)
    (hInFlight : s'.inFlight = s.inFlight) (hDeferred : s'.deferredFrees = s.deferredFrees)
    (hPins : s'.pins = s.pins) (hUnpins : s'.unpins = s.unpins) : Ledger cfg s' matched := by
  have hOutstanding : s'.outstanding = s.outstanding := by
    unfold State.outstanding
    rw [hOps, hInFlight]
  have hHeld : s'.held cfg = Function.update (s.held cfg) id (Manager.allBlocks cfg fun group =>
      s.kv.reqToBlocks id group ++ (hits group ++ newBlocks group)) := by
    funext other
    unfold State.held
    rw [hBlocks, Manager.giveBlocks_reqToBlocks]
    by_cases hEq : other = id
    · rw [hEq, Function.update_self, Function.update_self]
    · rw [Function.update_of_ne hEq, Function.update_of_ne hEq]
  constructor
  · intro b
    have hBalance := hLedger.refCnt b
    have hMove := tally_update hNodup hMem (s.held cfg) (Manager.allBlocks cfg fun group =>
      s.kv.reqToBlocks id group ++ (hits group ++ newBlocks group)) b
    rw [count_allBlocks_append, count_allBlocks_append] at hMove
    rw [hRef, Manager.giveBlocks_refCnt, hIds, hHeld, hOutstanding, hDeferred]
    have hSelf : (s.held cfg id).count b = (Manager.allBlocks cfg (s.kv.reqToBlocks id)).count b :=
      rfl
    omega
  · rw [hPins, hUnpins, hOutstanding]
    exact hLedger.pins

/-! ### Where the copy operations of a match go -/

private theorem forall₂_of_mapM {α β : Type} {f : α → Option β} {items : List α}
    {results : List β} (hMap : items.mapM f = some results) :
    List.Forall₂ (fun item result => f item = some result) items results := by
  induction items generalizing results with
  | nil =>
      simp only [List.mapM_nil, Option.pure_def, Option.some.injEq] at hMap
      exact hMap ▸ .nil
  | cons item items ih =>
      simp only [List.mapM_cons, Option.bind_eq_bind, Option.bind_eq_some_iff, Option.pure_def,
        Option.some.injEq] at hMap
      obtain ⟨result, hResult, rest, hRest, rfl⟩ := hMap
      exact .cons hResult (ih hRest)

/-- One operation a group, from the matched source to the block at the matched index. -/
theorem copyOps_spec {kv : Manager H} {subBlockMatch : SubBlockMatch} {ops : List KVCacheCopyOp}
    (hOps : kv.copyOps subBlockMatch = some ops) :
    sources ops = subBlockMatch.srcBlocks ∧ ops.length = subBlockMatch.groupMatches.length ∧
      ∀ (i : Nat) (op : KVCacheCopyOp), ops[i]? = some op → ∃ groupMatch,
        subBlockMatch.groupMatches[i]? = some groupMatch ∧ op.groupId = i ∧
        op.srcBlockId = groupMatch.1 ∧ op.numTokens = subBlockMatch.numTokens ∧
        (kv.reqToBlocks subBlockMatch.request i)[groupMatch.2]? = some op.dstBlockId := by
  have hForall := forall₂_of_mapM hOps
  have hLength := hForall.length_eq
  rw [List.length_zipIdx] at hLength
  have hGet : ∀ (i : Nat) (op : KVCacheCopyOp), ops[i]? = some op → ∃ groupMatch,
      subBlockMatch.groupMatches[i]? = some groupMatch ∧ op.groupId = i ∧
      op.srcBlockId = groupMatch.1 ∧ op.numTokens = subBlockMatch.numTokens ∧
      (kv.reqToBlocks subBlockMatch.request i)[groupMatch.2]? = some op.dstBlockId := by
    intro i op hOp
    obtain ⟨hLt, hEq⟩ := List.getElem?_eq_some_iff.mp hOp
    have hLt' : i < subBlockMatch.groupMatches.length := by omega
    have hItem := List.Forall₂.get hForall (i := i) (by simpa using hLt') hLt
    simp only [List.get_eq_getElem, List.getElem_zipIdx, Nat.zero_add, hEq,
      Option.map_eq_some_iff] at hItem
    obtain ⟨dst, hDst, rfl⟩ := hItem
    exact ⟨_, List.getElem?_eq_getElem hLt', rfl, rfl, rfl, hDst⟩
  refine ⟨?_, hLength.symm, hGet⟩
  refine List.ext_getElem? fun i => ?_
  simp only [sources, SubBlockMatch.srcBlocks, List.getElem?_map]
  cases hOp : ops[i]? with
  | none =>
      have hNone : subBlockMatch.groupMatches[i]? = none := by
        rw [List.getElem?_eq_none_iff] at hOp ⊢
        omega
      rw [hNone]
      rfl
  | some op =>
      obtain ⟨groupMatch, hMatch, -, hSrc, -⟩ := hGet i op hOp
      rw [hMatch]
      simp [hSrc]

/-- The search left a match behind: what it promises, and that it is pinned. -/
theorem Looked.partialMatch {cfg : Config} {hashing : Hashing H X} {id : ReqId} {numLocal : Nat}
    {start locals : Locals H} (hLooked : Looked cfg hashing id numLocal start locals)
    (hNone : start.subBlockMatch = none) {subBlockMatch : SubBlockMatch}
    (hSome : locals.subBlockMatch = some subBlockMatch) :
    ∃ subBlockSize, cfg.subBlockSize = some subBlockSize ∧
      Manager.PartialMatch cfg subBlockSize (start.st.kv.getOrComputeSubHashes hashing subBlockSize
        id (start.st.requests id)) id (start.st.requests id) numLocal subBlockMatch ∧
      locals.st.kv = (start.st.kv.getOrComputeSubHashes hashing subBlockSize id
        (start.st.requests id)).touch subBlockMatch.srcBlocks := by
  cases hLooked with
  | untouched => rw [hNone] at hSome; cases hSome
  | hashed hSize =>
      have hSome : start.subBlockMatch = some subBlockMatch := hSome
      rw [hNone] at hSome
      cases hSome
  | outdone hSize =>
      have hSome : start.subBlockMatch = some subBlockMatch := hSome
      rw [hNone] at hSome
      cases hSome
  | matched hSize hMatch =>
      cases hSome
      exact ⟨_, hSize, hMatch, rfl⟩

/-- Destinations are fresh: each is the first new block of its group. -/
structure FreshCopies (cfg : Config) (newBlocks : Blocks) (ops : List KVCacheCopyOp) : Prop where
  groups : ops.map (·.groupId) = List.range ops.length
  groups_lt : ∀ op ∈ ops, op.groupId < cfg.numGroups
  dst : ∀ op ∈ ops, (newBlocks op.groupId)[0]? = some op.dstBlockId

section Seated

variable {cfg : Config} {hashing : Hashing H X} {up : Upstream H} {id : ReqId} {numNewTokens : Nat}
  {start locals : Locals H} {found : Locals.Computed} {kv : Manager H} {newBlocks : Blocks}
  {ops : List KVCacheCopyOp} {subBlockMatch : SubBlockMatch}

/-- A request with a partial match is new to the manager. -/
theorem Seated.blocks_empty (hSeated : Seated cfg hashing up id numNewTokens start locals found kv
    newBlocks ops) (hSome : locals.subBlockMatch = some subBlockMatch)
    (hReady : (locals.st.requests id).status = .waiting ∨
      (locals.st.requests id).status = .preempted) :
    locals.st.kv.reqToBlocks id = Blocks.empty := by
  obtain ⟨subBlockSize, hSize, hMatch, -⟩ := hSeated.search.looked.partialMatch hSeated.noMatch hSome
  obtain ⟨_, _, _, _, hLocals, hBlocks, -⟩ := hSeated.search.looked.keeps
  have hRequests : locals.st.requests = start.st.requests := by rw [hLocals]
  have hSame : locals.st.kv.reqToBlocks = start.st.kv.reqToBlocks := by rw [hLocals]; exact hBlocks
  rw [hRequests] at hReady
  rw [hSame]
  have hRequest := hSeated.started.queues.request id
  rcases hSeated.search.computed with ⟨hZero, -⟩ | ⟨-, -, hEq, -⟩
  · rcases hReady with hWaiting | hPreempted
    · obtain ⟨matched, numMatched, -, -, -, hPos, -, hShort⟩ := hMatch.exists_found
      have hSub := (cfg.subBlockSize_fits subBlockSize hSize).1
      have hOne := Nat.mul_pos hPos hSub
      exact hRequest.new_blocks (by rw [hWaiting]; rfl) hZero (by omega)
    · have hNo : cfg.hasConnector = false := by
        by_contra hConnector
        exact hSeated.search.resumes (by simp [hSome]) ⟨by simpa using hConnector, hPreempted⟩
      exact (hRequest.waiting_blocks hNo (by rw [hPreempted]; rfl)).2.2
  · rw [hEq, hSeated.noMatch] at hSome
    cases hSome

/-- The operations of a match: its sources, its token count, and in every group the
block after the hits, which is new. -/
theorem Seated.copies (hSeated : Seated cfg hashing up id numNewTokens start locals found kv
    newBlocks ops) (hSome : locals.subBlockMatch = some subBlockMatch)
    (hReady : (locals.st.requests id).status = .waiting ∨
      (locals.st.requests id).status = .preempted) :
    sources ops = subBlockMatch.srcBlocks ∧ FreshCopies cfg newBlocks ops ∧
      ∀ op ∈ ops, op.numTokens = subBlockMatch.numTokens ∧
        (kv.reqToBlocks id op.groupId)[found.numLocal / cfg.blockSize op.groupId]? =
          some op.dstBlockId := by
  have hEmpty := hSeated.blocks_empty hSome hReady
  obtain ⟨subBlockSize, -, hMatch, -⟩ := hSeated.search.looked.partialMatch hSeated.noMatch hSome
  obtain ⟨matched, numMatched, hForall, hGroupMatches, -, -, -, -⟩ := hMatch.exists_found
  have hOps : kv.copyOps subBlockMatch = some ops := by
    have hOps := hSeated.ops
    rw [Locals.MatchOps, hSome] at hOps
    exact hOps
  obtain ⟨hSources, hLength, hGet⟩ := copyOps_spec hOps
  have hMatchedLength : matched.length = cfg.numGroups := by
    simpa using hForall.length_eq.symm
  have hOpsLength : ops.length = cfg.numGroups := by
    rw [hLength, hGroupMatches, List.length_map, hMatchedLength]
  obtain ⟨hKv, -⟩ := Manager.allocateSlots_spec hSeated.alloc
  -- each operation, by its position in the list
  have hOne : ∀ (i : Nat) (op : KVCacheCopyOp), ops[i]? = some op → op.groupId = i ∧
      i < cfg.numGroups ∧ op.numTokens = subBlockMatch.numTokens ∧
      (kv.reqToBlocks id i)[found.numLocal / cfg.blockSize i]? = some op.dstBlockId ∧
      (newBlocks i)[0]? = some op.dstBlockId := by
    intro i op hOp
    obtain ⟨hLt, -⟩ := List.getElem?_eq_some_iff.mp hOp
    obtain ⟨groupMatch, hGroupMatch, hGroup, -, hTokens, hDst⟩ := hGet i op hOp
    have hLtGroups : i < cfg.numGroups := by omega
    have hMatched : i < matched.length := by omega
    have hItem := List.Forall₂.get hForall (i := i) (by simpa using hLtGroups) hMatched
    simp only [List.get_eq_getElem, List.getElem_range] at hItem
    have hIndex : groupMatch.2 = found.numLocal / cfg.blockSize i := by
      rw [hGroupMatches, List.getElem?_map, List.getElem?_eq_getElem hMatched] at hGroupMatch
      simp only [Option.map_some, Option.some.injEq] at hGroupMatch
      rw [← hGroupMatch]
      exact hItem.1
    rw [hMatch.request_eq, hIndex] at hDst
    refine ⟨hGroup, hLtGroups, hTokens, hDst, ?_⟩
    have hHits := hSeated.search.hits.length i hLtGroups
    have hLen : found.numLocal / cfg.blockSize i = (found.hits i).length := by
      rw [← hHits, Nat.mul_div_cancel _ (cfg.blockSize_pos i)]
    rw [hKv, Manager.giveBlocks_reqToBlocks, Function.update_self, hEmpty, hLen] at hDst
    simpa [Blocks.empty, List.getElem?_append_right] using hDst
  have hAll : ∀ op ∈ ops, op.groupId < cfg.numGroups ∧ op.numTokens = subBlockMatch.numTokens ∧
      (kv.reqToBlocks id op.groupId)[found.numLocal / cfg.blockSize op.groupId]? =
        some op.dstBlockId ∧ (newBlocks op.groupId)[0]? = some op.dstBlockId := by
    intro op hMem
    obtain ⟨i, hOp⟩ := List.mem_iff_getElem?.mp hMem
    obtain ⟨hGroup, hRest⟩ := hOne i op hOp
    rw [hGroup]
    exact hRest
  refine ⟨hSources, ⟨?_, fun op hMem => (hAll op hMem).1, fun op hMem => (hAll op hMem).2.2.2⟩,
    fun op hMem => ⟨(hAll op hMem).2.1, (hAll op hMem).2.2.1⟩⟩
  refine List.ext_getElem (by simp) fun i hLt hLt' => ?_
  have hLt : i < ops.length := by simpa using hLt
  rw [List.getElem_map, List.getElem_range]
  exact (hOne i _ (List.getElem?_eq_getElem hLt)).1

end Seated

/-- No destination of the list is written twice or read. -/
def OpsDisjoint (ops : List KVCacheCopyOp) : Prop :=
  (ops.map (·.dstBlockId)).Nodup ∧ ∀ op ∈ ops, op.dstBlockId ∉ sources ops

theorem OpsDisjoint.nil : OpsDisjoint [] := ⟨List.nodup_nil, by simp⟩

/-- Fresh destinations collide neither with each other nor with referenced sources. -/
theorem FreshCopies.disjoint {cfg : Config} {newBlocks : Blocks} {ops : List KVCacheCopyOp}
    (hFresh : FreshCopies cfg newBlocks ops) (hNodup : (Manager.allBlocks cfg newBlocks).Nodup)
    (hSources : ∀ b ∈ sources ops, b ∉ Manager.allBlocks cfg newBlocks) : OpsDisjoint ops := by
  have hMem : ∀ op ∈ ops, op.dstBlockId ∈ newBlocks op.groupId := fun op hOp =>
    List.mem_of_getElem? (hFresh.dst op hOp)
  have hGroups : (ops.map (·.groupId)).Nodup := by
    rw [hFresh.groups]
    exact List.nodup_range
  refine ⟨List.Nodup.map_on ?_ hGroups.of_map, fun op hOp hSource => ?_⟩
  · intro op hOp other hOther hEq
    refine List.inj_on_of_nodup_map hGroups hOp hOther ?_
    by_contra hNe
    rw [Manager.allBlocks, List.nodup_flatMap] at hNodup
    have : Std.Symm (Function.onFun List.Disjoint newBlocks) :=
      ⟨fun _ _ hDisjoint _ hMem hOther => hDisjoint hOther hMem⟩
    have hDisjoint := hNodup.2.forall
      (List.mem_range.mpr (hFresh.groups_lt op hOp))
      (List.mem_range.mpr (hFresh.groups_lt other hOther)) hNe
    exact hDisjoint (hMem op hOp) (hEq ▸ hMem other hOther)
  · exact hSources _ hSource (Manager.mem_allBlocks.mpr
      ⟨op.groupId, hFresh.groups_lt op hOp, hMem op hOp⟩)

/-! ### Within a call -/

/-- Sources of the match at hand. -/
def Locals.matched (locals : Locals H) : List BlockId :=
  (locals.subBlockMatch.map SubBlockMatch.srcBlocks).getD []

/-- The references within a call. A copy is only pending once a request was admitted in
the step, which bars a second one. -/
structure RefsOk (cfg : Config) (locals : Locals H) : Prop where
  ledger : Ledger cfg locals.st locals.matched
  guarded : locals.st.kv.pendingCopyOps = [] ∨ locals.scheduledNewReqs ≠ [] ∨
    locals.scheduledResumedReqs ≠ []
  pending : OpsDisjoint locals.st.kv.pendingCopyOps
  flying : ∀ output ∈ locals.st.inFlight, OpsDisjoint output.kvCacheCopyOps

/-- Neither the references nor the lists of admitted requests change. -/
theorem RefsOk.keep {cfg : Config} {locals locals' : Locals H} (hRefs : RefsOk cfg locals)
    (hOwn : locals'.st.kv.ownership = locals.st.kv.ownership)
    (hIds : locals'.st.ids = locals.st.ids) (hInFlight : locals'.st.inFlight = locals.st.inFlight)
    (hDeferred : locals'.st.deferredFrees = locals.st.deferredFrees)
    (hPins : locals'.st.pins = locals.st.pins) (hUnpins : locals'.st.unpins = locals.st.unpins)
    (hNew : locals'.scheduledNewReqs = locals.scheduledNewReqs)
    (hResumed : locals'.scheduledResumedReqs = locals.scheduledResumedReqs)
    (hMatch : locals'.subBlockMatch = locals.subBlockMatch) : RefsOk cfg locals' := by
  have hOps := Manager.ownership_pendingCopyOps hOwn
  refine ⟨?_, ?_, hOps ▸ hRefs.pending, hInFlight ▸ hRefs.flying⟩
  · rw [Locals.matched, hMatch]
    exact hRefs.ledger.keep hOwn hIds hInFlight hDeferred hPins hUnpins
  · rw [hOps, hNew, hResumed]
    exact hRefs.guarded

theorem refs_running (cfg : Config) (hashing : Hashing H X) (up : Upstream H) :
    RunningRule cfg hashing up (RefsOk cfg) where
  pass _ hRefs _ _ _ := hRefs.keep rfl rfl rfl rfl rfl rfl rfl rfl rfl
  preempt {locals locals' id} hOk hRefs hVictim hPre := by
    have hFreed := hRefs.ledger.freeRequestBlocks hashing (.ofPreempted cfg (up.deferFree id))
      hOk.queues.ids_nodup (hOk.queues.mem_ids_of_running (victim_mem hVictim))
    have hOps : locals'.st.kv.pendingCopyOps = locals.st.kv.pendingCopyOps := by
      rw [hPre.st]
      exact State.freeRequestBlocks_pendingCopyOps ..
    refine ⟨?_, ?_, hOps ▸ hRefs.pending, ?_⟩
    · rw [Locals.matched, hPre.subBlockMatch, hPre.st]
      exact hFreed.keep rfl rfl rfl rfl rfl rfl
    · rw [hOps, hPre.scheduledNewReqs, hPre.scheduledResumedReqs]
      exact hRefs.guarded
    · rw [hPre.st]
      exact hRefs.flying
  grant {id numNewTokens start locals kv newBlocks} _ hRefs hGranted := by
    obtain ⟨hKv, -⟩ := Manager.allocateSlots_spec hGranted.alloc
    have hQueues := hGranted.round.ok.queues
    have hOps : kv.pendingCopyOps = locals.st.kv.pendingCopyOps := by
      rw [hKv, Manager.giveBlocks_pendingCopyOps]
    have hRefCnt : kv.refCnt =
        (Manager.giveBlocks cfg locals.st.kv id Blocks.empty newBlocks).refCnt := by rw [hKv]
    have hBlocks : kv.reqToBlocks =
        (Manager.giveBlocks cfg locals.st.kv id Blocks.empty newBlocks).reqToBlocks := by rw [hKv]
    refine ⟨?_, ?_, hOps ▸ hRefs.pending, hRefs.flying⟩
    · exact hRefs.ledger.giveBlocks hQueues.ids_nodup
        (hQueues.mem_ids_of_running hGranted.round.running) hRefCnt hBlocks hOps rfl rfl rfl rfl rfl
    · have hGuarded := hRefs.guarded
      rw [← hOps] at hGuarded
      exact hGuarded

/-- A pinned block is referenced. -/
theorem Ledger.refCnt_pos {cfg : Config} {s : State H} {matched : List BlockId}
    (hLedger : Ledger cfg s matched) {b : BlockId}
    (hMem : b ∈ matched ++ s.outstanding ++ s.deferredFrees.flatten) : 0 < s.kv.refCnt b := by
  have hBalance := hLedger.refCnt b
  have hCount := List.count_pos_iff.mpr hMem
  omega

theorem Ledger.refCnt_pos_of_held {cfg : Config} {s : State H} {matched : List BlockId}
    (hLedger : Ledger cfg s matched) {id : ReqId} (hId : id ∈ s.ids) {b : BlockId}
    (hMem : b ∈ s.held cfg id) : 0 < s.kv.refCnt b := by
  have hBalance := hLedger.refCnt b
  have hTally := tally_pos hId hMem
  omega

section Seated

variable {cfg : Config} {hashing : Hashing H X} {up : Upstream H} {id : ReqId} {numNewTokens : Nat}
  {start locals : Locals H} {found : Locals.Computed} {kv : Manager H} {newBlocks : Blocks}
  {ops : List KVCacheCopyOp}

/-- Seating a request moves the match's pins to its copy operations. -/
theorem RefsOk.seat (hRefs : RefsOk cfg locals)
    (hSeated : Seated cfg hashing up id numNewTokens start locals found kv newBlocks ops)
    (hSources : sources ops = locals.matched) : Ledger cfg (locals.seatWaiting kv ops).st [] := by
  obtain ⟨hKv, -⟩ := Manager.allocateSlots_spec hSeated.alloc
  have hQueues := hSeated.ok.queues
  have hOps : kv.pendingCopyOps = locals.st.kv.pendingCopyOps := by
    rw [hKv, Manager.giveBlocks_pendingCopyOps]
  have hGiven : Ledger cfg { locals.st with kv := kv } locals.matched :=
    hRefs.ledger.giveBlocks hQueues.ids_nodup (hQueues.mem_ids_of_queued hSeated.queued_locals)
      (by rw [hKv]) (by rw [hKv]) hOps rfl rfl rfl rfl rfl
  generalize hMid : ({ locals.st with kv := kv } : State H) = mid at hGiven
  have hOutstanding : (sources ops ++ mid.outstanding).Perm
      (locals.seatWaiting kv ops).st.outstanding := by
    rw [← hMid]
    unfold State.outstanding sources Locals.seatWaiting
    simp only [List.map_append]
    rw [← List.append_assoc]
    exact List.perm_append_comm.append_right _
  have hHeld : (locals.seatWaiting kv ops).st.held cfg = mid.held cfg := by
    rw [← hMid]
    rfl
  have hRef : (locals.seatWaiting kv ops).st.kv.refCnt = mid.kv.refCnt := by
    rw [← hMid]
    rfl
  have hIds : (locals.seatWaiting kv ops).st.ids = mid.ids := by
    rw [← hMid]
    rfl
  have hDeferred : (locals.seatWaiting kv ops).st.deferredFrees = mid.deferredFrees := by
    rw [← hMid]
    rfl
  constructor
  · intro b
    have hBalance := hGiven.refCnt b
    have hCount := hOutstanding.count_eq b
    rw [← hSources] at hBalance
    rw [hHeld, hRef, hIds, hDeferred]
    simp only [List.count_append, List.nil_append] at hBalance hCount ⊢
    omega
  · have hPins := hGiven.pins
    rw [← hSources] at hPins
    have hSame : (locals.seatWaiting kv ops).st.pins = mid.pins ∧
        (locals.seatWaiting kv ops).st.unpins = mid.unpins := by
      rw [← hMid]
      exact ⟨rfl, rfl⟩
    rw [hSame.1, hSame.2]
    exact hPins.trans (hOutstanding.append_left _)

/-- The copy operations after a request is seated: nothing new without a match, and the
operations of the match alone with one. -/
theorem RefsOk.seat_ops (hRefs : RefsOk cfg locals)
    (hSeated : Seated cfg hashing up id numNewTokens start locals found kv newBlocks ops)
    (hReady : (locals.st.requests id).status = .waiting ∨
      (locals.st.requests id).status = .preempted)
    (hGuard : ¬ ((locals.st.requests id).isPrefill = true ∧
      (locals.scheduledNewReqs ≠ [] ∨ locals.scheduledResumedReqs ≠ []))) :
    sources ops = locals.matched ∧ OpsDisjoint (kv.pendingCopyOps ++ ops) := by
  obtain ⟨hKv, hNew⟩ := Manager.allocateSlots_spec hSeated.alloc
  have hOps : kv.pendingCopyOps = locals.st.kv.pendingCopyOps := by
    rw [hKv, Manager.giveBlocks_pendingCopyOps]
  cases hMatch : locals.subBlockMatch with
  | none =>
      have hNil : ops = [] := by
        have hOps := hSeated.ops
        rw [Locals.MatchOps, hMatch] at hOps
        exact hOps
      rw [hNil, List.append_nil, hOps]
      exact ⟨by simp [sources, Locals.matched, hMatch], hRefs.pending⟩
  | some subBlockMatch =>
      obtain ⟨hSources, hFresh, -⟩ := hSeated.copies hMatch hReady
      have hMatched : locals.matched = subBlockMatch.srcBlocks := by simp [Locals.matched, hMatch]
      -- a request with a match still has its whole sequence to compute
      have hPrefill : (locals.st.requests id).isPrefill = true := by
        obtain ⟨subBlockSize, hSize, hPartial, -⟩ :=
          hSeated.search.looked.partialMatch hSeated.noMatch hMatch
        obtain ⟨_, _, _, _, hLocals, -, -⟩ := hSeated.search.looked.keeps
        have hRequests : locals.st.requests = start.st.requests := by rw [hLocals]
        obtain ⟨matched, numMatched, -, -, -, hPos, -, hShort⟩ := hPartial.exists_found
        have hSub := (cfg.subBlockSize_fits subBlockSize hSize).1
        have hOne := Nat.mul_pos hPos hSub
        rcases hSeated.search.computed with ⟨hZero, -⟩ | ⟨-, -, hEq, -⟩
        · rw [hRequests]
          simp only [Request.isPrefill, decide_eq_true_eq, hZero]
          omega
        · rw [hEq, hSeated.noMatch] at hMatch
          cases hMatch
      have hNone : locals.st.kv.pendingCopyOps = [] := by
        rcases hRefs.guarded with hNone | hAdmitted
        · exact hNone
        · exact absurd ⟨hPrefill, hAdmitted⟩ hGuard
      rw [hOps, hNone, List.nil_append]
      refine ⟨hSources.trans hMatched.symm, hFresh.disjoint hNew.nodup fun b hMem hIn => ?_⟩
      have hPos := hRefs.ledger.refCnt_pos (b := b) (by
        rw [hMatched, ← hSources]
        exact List.mem_append_left _ (List.mem_append_left _ hMem))
      rw [(hNew.refCnt_eq_zero hIn).1] at hPos
      exact absurd hPos (by simp)

end Seated

private theorem promoteRequest_refs {cfg : Config} (hashing : Hashing H X) {locals : Locals H}
    (hRefs : RefsOk cfg locals) (hNodup : locals.st.ids.Nodup) {id : ReqId}
    (hMem : id ∈ locals.st.ids) (numLoadedTokens : Nat) :
    RefsOk cfg (locals.promoteRequest cfg hashing id numLoadedTokens) := by
  unfold Locals.promoteRequest
  dsimp only
  split
  · split
    · have hModified : Ledger cfg (locals.st.modifyRequest id fun _ =>
          { locals.st.requests id with
            status := (locals.st.requests id).readyStatus
            numComputedTokens := min (min numLoadedTokens
              (locals.st.requests id).numComputedTokens)
                ((locals.st.requests id).numTokens - 1) }) locals.matched :=
        hRefs.ledger.keep rfl rfl rfl rfl rfl rfl
      have hOps := State.freeRequestBlocks_pendingCopyOps cfg hashing .now
        (locals.st.modifyRequest id fun _ =>
          { locals.st.requests id with
            status := (locals.st.requests id).readyStatus
            numComputedTokens := min (min numLoadedTokens
              (locals.st.requests id).numComputedTokens)
                ((locals.st.requests id).numTokens - 1) }) id
      refine ⟨hModified.freeRequestBlocks hashing .now hNodup hMem, ?_, ?_, hRefs.flying⟩
      · exact hOps ▸ hRefs.guarded
      · exact hOps ▸ hRefs.pending
    · have hSame := Manager.ownership_cacheBlocks cfg hashing locals.st.kv id (locals.st.requests id)
        (min numLoadedTokens (locals.st.requests id).numComputedTokens)
      exact hRefs.keep hSame rfl rfl rfl rfl rfl rfl rfl rfl
  · exact hRefs.keep rfl rfl rfl rfl rfl rfl rfl rfl rfl

/-- A search pins what it matches, and unpins at once what the connector outdid. -/
theorem RefsOk.looked {cfg : Config} {hashing : Hashing H X} {id : ReqId} {numLocal : Nat}
    {locals locals' : Locals H} (hRefs : RefsOk cfg locals) (hNone : locals.subBlockMatch = none)
    (hLooked : Looked cfg hashing id numLocal locals locals') : RefsOk cfg locals' := by
  have hMatched : locals.matched = [] := by simp [Locals.matched, hNone]
  have hLedger := hRefs.ledger
  rw [hMatched] at hLedger
  cases hLooked with
  | untouched => exact hRefs
  | hashed hSize => exact hRefs.keep rfl rfl rfl rfl rfl rfl rfl rfl rfl
  | @outdone subBlockSize found hSize =>
      refine ⟨⟨fun b => ?_, ?_⟩, hRefs.guarded, hRefs.pending, hRefs.flying⟩
      · have hBalance := hRefs.ledger.refCnt b
        have hRelease : locals.st.kv.refCnt b + found.srcBlocks.count b -
            found.srcBlocks.count b = locals.st.kv.refCnt b := by omega
        exact hRelease.trans hBalance
      · have hPins := hLedger.pins
        change (locals.st.pins ++ found.srcBlocks).Perm
          (locals.st.unpins ++ found.srcBlocks ++ (locals.matched ++ locals.st.outstanding))
        rw [hMatched, List.append_assoc]
        refine (hPins.append_right _).trans ?_
        rw [List.append_assoc]
        exact List.perm_append_comm.append_left _
  | @matched subBlockSize found hSize hMatch =>
      refine ⟨⟨fun b => ?_, ?_⟩, hRefs.guarded, hRefs.pending, hRefs.flying⟩
      · have hBalance := hLedger.refCnt b
        have hNew : locals.st.kv.refCnt b + found.srcBlocks.count b =
            tally locals.st.ids (locals.st.held cfg) b +
              (found.srcBlocks ++ locals.st.outstanding ++ locals.st.deferredFrees.flatten).count b := by
          simp only [List.count_append, List.nil_append] at hBalance ⊢
          omega
        exact hNew
      · have hPins := hLedger.pins
        change (locals.st.pins ++ found.srcBlocks).Perm
          (locals.st.unpins ++ (found.srcBlocks ++ locals.st.outstanding))
        refine (hPins.append_right _).trans ?_
        rw [List.nil_append, List.append_assoc]
        exact List.perm_append_comm.append_left _

theorem admitWaiting_admits (locals : Locals H) (id : ReqId)
    (numComputedTokens numNewTokens : Nat) :
    (locals.admitWaiting id numComputedTokens numNewTokens).scheduledNewReqs ≠ [] ∨
      (locals.admitWaiting id numComputedTokens numNewTokens).scheduledResumedReqs ≠ [] := by
  unfold Locals.admitWaiting
  by_cases hResumed : (locals.st.requests id).status = .preempted
  · right
    simp [hResumed]
  · left
    simp [hResumed]

section Seated

variable {cfg : Config} {hashing : Hashing H X} {up : Upstream H} {id : ReqId} {numNewTokens : Nat}
  {start locals : Locals H} {found : Locals.Computed} {kv : Manager H} {newBlocks : Blocks}
  {ops : List KVCacheCopyOp}

theorem RefsOk.startRunning (hRefs : RefsOk cfg locals)
    (hSeated : Seated cfg hashing up id numNewTokens start locals found kv newBlocks ops)
    (hReady : (locals.st.requests id).status = .waiting ∨
      (locals.st.requests id).status = .preempted)
    (hGuard : ¬ ((locals.st.requests id).isPrefill = true ∧
      (locals.scheduledNewReqs ≠ [] ∨ locals.scheduledResumedReqs ≠ [])))
    (numComputedTokens numTokens : Nat) :
    RefsOk cfg ((locals.seatWaiting kv ops).admitWaiting id numComputedTokens numTokens) := by
  obtain ⟨hSources, hDisjoint⟩ := hRefs.seat_ops hSeated hReady hGuard
  exact ⟨(hRefs.seat hSeated hSources).keep rfl rfl rfl rfl rfl rfl,
    .inr (admitWaiting_admits ..), hDisjoint, hRefs.flying⟩

end Seated

theorem refs_waiting (cfg : Config) (hashing : Hashing H X) (up : Upstream H) :
    WaitingRule cfg hashing up (RefsOk cfg) (RefsOk cfg) where
  last hInv := hInv
  skip _ hRefs _ _ := hRefs.keep rfl rfl rfl rfl rfl rfl rfl rfl rfl
  promote numLoadedTokens hOk hRefs _ hMem _ _ := promoteRequest_refs hashing hRefs
    hOk.queues.ids_nodup (hOk.queues.mem_ids_of_queued hMem) numLoadedTokens
  look _ hRefs hNone _ hFound := hRefs.looked hNone hFound.looked
  await {start locals id found kv newBlocks ops} _ hRefs hSeated hAsync hExternal := by
    -- an asynchronous load never comes with a match
    have hNone : locals.subBlockMatch = none := by
      by_contra hSome
      obtain ⟨subBlockMatch, hMatch⟩ := Option.ne_none_iff_exists'.mp hSome
      obtain ⟨subBlockSize, hSize, hPartial, -⟩ :=
        hSeated.search.looked.partialMatch hSeated.noMatch hMatch
      obtain ⟨matched, numMatched, -, -, hTokens, hPos, -, -⟩ := hPartial.exists_found
      have hSub := (cfg.subBlockSize_fits subBlockSize hSize).1
      have hOne := Nat.mul_pos hPos hSub
      have hZero := hSeated.search.external_wins hAsync hExternal
      rw [hSeated.search.numSubBlock, hMatch] at hZero
      simp only [Option.map_some, Option.getD_some] at hZero
      omega
    have hNil : ops = [] := by
      have hOps := hSeated.ops
      rw [Locals.MatchOps, hNone] at hOps
      exact hOps
    have hOps : kv.pendingCopyOps = locals.st.kv.pendingCopyOps := by
      rw [(Manager.allocateSlots_spec hSeated.alloc).1, Manager.giveBlocks_pendingCopyOps]
    have hSources : sources ops = locals.matched := by simp [hNil, sources, Locals.matched, hNone]
    have hSeat : ((locals.seatWaiting kv ops).awaitRemoteKv cfg id
        found.numComputedTokens).st.kv.pendingCopyOps = locals.st.kv.pendingCopyOps := by
      change kv.pendingCopyOps ++ ops = _
      rw [hNil, List.append_nil, hOps]
    exact ⟨(hRefs.seat hSeated hSources).keep rfl rfl rfl rfl rfl rfl, hSeat ▸ hRefs.guarded,
      hSeat ▸ hRefs.pending, hRefs.flying⟩
  join _ hRefs hSeated _ hReady _ _ hGuard :=
    (hRefs.startRunning hSeated hReady hGuard _ 1).keep rfl rfl rfl rfl rfl rfl rfl rfl rfl
  alone {start locals id found kv newBlocks ops} _ hRefs hSeated _ hReady _ _ hGuard := by
    have hAdmit := hRefs.startRunning hSeated hReady hGuard found.numComputedTokens
      ((locals.st.requests id).waitingTokens cfg found.numComputedTokens)
    rw [evictDecodes_eq cfg (hSeated.startRunning _ _).scheduledRunning_nodup]
    exact hAdmit.keep rfl rfl rfl rfl rfl rfl rfl rfl rfl

/-- A match that a break left is released. -/
theorem RefsOk.leave {cfg : Config} {locals : Locals H} (hRefs : RefsOk cfg locals) :
    RefsOk cfg (locals.leaveWaitingLoop cfg) := by
  unfold Locals.leaveWaitingLoop
  dsimp only
  split
  · rename_i hNone
    exact hRefs.keep rfl rfl rfl rfl rfl rfl rfl rfl hNone.symm
  · rename_i subBlockMatch hSome
    have hLedger := hRefs.ledger
    have hMatched : locals.matched = subBlockMatch.srcBlocks := by simp [Locals.matched, hSome]
    rw [hMatched] at hLedger
    refine ⟨⟨fun b => ?_, ?_⟩, hRefs.guarded, hRefs.pending, hRefs.flying⟩
    · have hBalance := hLedger.refCnt b
      have hNew : locals.st.kv.refCnt b - subBlockMatch.srcBlocks.count b =
          tally locals.st.ids (locals.st.held cfg) b +
            ([] ++ locals.st.outstanding ++ locals.st.deferredFrees.flatten).count b := by
        simp only [List.count_append, List.nil_append] at hBalance ⊢
        omega
      exact hNew
    · have hPins := hLedger.pins
      change locals.st.pins.Perm
        (locals.st.unpins ++ subBlockMatch.srcBlocks ++ ([] ++ locals.st.outstanding))
      rw [List.nil_append, List.append_assoc]
      exact hPins

/-! ### Runs -/

/-- The references between two calls: no match is at hand and no copy is pending. -/
structure RefsBalanced (cfg : Config) (s : State H) : Prop where
  ledger : Ledger cfg s []
  drained : s.kv.pendingCopyOps = []
  flying : ∀ output ∈ s.inFlight, OpsDisjoint output.kvCacheCopyOps

theorem RefsBalanced.keep {cfg : Config} {s s' : State H} (hRefs : RefsBalanced cfg s)
    (hOwn : s'.kv.ownership = s.kv.ownership) (hIds : s'.ids = s.ids)
    (hInFlight : s'.inFlight = s.inFlight) (hDeferred : s'.deferredFrees = s.deferredFrees)
    (hPins : s'.pins = s.pins) (hUnpins : s'.unpins = s.unpins) : RefsBalanced cfg s' :=
  ⟨hRefs.ledger.keep hOwn hIds hInFlight hDeferred hPins hUnpins,
    (Manager.ownership_pendingCopyOps hOwn).trans hRefs.drained, hInFlight ▸ hRefs.flying⟩

theorem RefsBalanced.start {cfg : Config} {up : Upstream H} {s : State H}
    (hRefs : RefsBalanced cfg s) : RefsOk cfg (Locals.start cfg up s) where
  ledger := hRefs.ledger
  guarded := .inl hRefs.drained
  pending := by
    change OpsDisjoint s.kv.pendingCopyOps
    rw [hRefs.drained]
    exact .nil
  flying := hRefs.flying

theorem RefsBalanced.loops {cfg : Config} {hashing : Hashing H X} {up : Upstream H} {s : State H}
    (hQueues : Queues cfg s []) (hRefs : RefsBalanced cfg s) {locals : Locals H}
    (hLoops : Locals.loops cfg hashing up s = some locals) : RefsOk cfg locals :=
  (loops_rule (RefsOk cfg) (refs_running cfg hashing up) (refs_waiting cfg hashing up) hQueues
    hRefs.start (fun _ _ h _ => h) (fun _ _ h _ _ => h) (fun _ _ h => h.leave) hLoops).2

/-- Draining hands the pending copies over to the step in flight. -/
theorem RefsOk.finish {cfg : Config} (hashing : Hashing H X) {locals : Locals H}
    (hRefs : RefsOk cfg locals) (hNone : locals.subBlockMatch = none) :
    RefsBalanced cfg (locals.finish cfg hashing) := by
  have hMatched : locals.matched = [] := by simp [Locals.matched, hNone]
  have hLedger := hRefs.ledger
  rw [hMatched] at hLedger
  have hHeld : (locals.finish cfg hashing).held cfg = locals.st.held cfg := by
    funext id
    unfold State.held
    rw [finish_reqToBlocks]
  have hOutstanding : (locals.finish cfg hashing).outstanding.Perm locals.st.outstanding := by
    change (sources [] ++ (locals.st.inFlight ++ [locals.output]).flatMap fun output =>
      sources output.kvCacheCopyOps).Perm _
    rw [List.flatMap_append]
    simp only [sources, List.map_nil, List.nil_append, List.flatMap_singleton]
    exact List.perm_append_comm
  refine ⟨⟨fun b => ?_, ?_⟩, rfl, fun output hMem => ?_⟩
  · have hBalance := hLedger.refCnt b
    have hCount := hOutstanding.count_eq b
    rw [finish_refCnt, hHeld]
    change _ = tally locals.st.ids _ b + ([] ++ (locals.finish cfg hashing).outstanding ++
      locals.st.deferredFrees.flatten).count b
    simp only [List.nil_append, List.count_append] at hBalance ⊢
    omega
  · exact hLedger.pins.trans (hOutstanding.symm.append_left _)
  · rcases List.mem_append.mp hMem with hMem | hMem
    · exact hRefs.flying output hMem
    · rw [List.mem_singleton.mp hMem]
      exact hRefs.pending

/-- The references while an output is processed: its copies are not released yet. -/
structure RefsUpdating (cfg : Config) (ops : List KVCacheCopyOp) (s : State H) : Prop where
  ledger : Ledger cfg s (sources ops)
  drained : s.kv.pendingCopyOps = []
  flying : ∀ output ∈ s.inFlight, OpsDisjoint output.kvCacheCopyOps

theorem RefsBalanced.popOutput {cfg : Config} {s : State H} (hRefs : RefsBalanced cfg s)
    {output : SchedulerOutput} {inFlight : List SchedulerOutput}
    (hInFlight : s.inFlight = output :: inFlight) :
    RefsUpdating cfg output.kvCacheCopyOps { s with inFlight := inFlight } := by
  have hOutstanding : s.outstanding = sources output.kvCacheCopyOps ++
      State.outstanding { s with inFlight := inFlight } := by
    unfold State.outstanding
    rw [hInFlight, List.flatMap_cons]
    simp [hRefs.drained, sources]
  refine ⟨⟨fun b => ?_, ?_⟩, hRefs.drained, fun other hMem => hRefs.flying other
    (hInFlight ▸ List.mem_cons_of_mem _ hMem)⟩
  · have hBalance := hRefs.ledger.refCnt b
    rw [hOutstanding, List.nil_append] at hBalance
    exact hBalance
  · have hPins := hRefs.ledger.pins
    rw [hOutstanding, List.nil_append] at hPins
    exact hPins

theorem RefsUpdating.settleOutput {cfg : Config} (hashing : Hashing H X) {subBlockSize : Nat}
    (hSize : cfg.subBlockSize = some subBlockSize) {output : SchedulerOutput} {s : State H}
    (hRefs : RefsUpdating cfg output.kvCacheCopyOps s) :
    RefsBalanced cfg (s.settleOutput cfg hashing output) := by
  have hOwn := Manager.ownership_doPendingIndexing cfg hashing subBlockSize s.kv s.requests
  simp only [State.settleOutput, hSize]
  have hHeld : State.held cfg { s with
      kv := (s.kv.doPendingIndexing cfg hashing subBlockSize s.requests).releaseCopyOps
        output.kvCacheCopyOps
      unpins := s.unpins ++ output.kvCacheCopyOps.map (·.srcBlockId) } = s.held cfg := by
    funext id
    exact congrArg (fun blocks => Manager.allBlocks cfg (blocks id))
      (Manager.ownership_reqToBlocks hOwn)
  have hOps : ((s.kv.doPendingIndexing cfg hashing subBlockSize s.requests).releaseCopyOps
      output.kvCacheCopyOps).pendingCopyOps = s.kv.pendingCopyOps := by
    have hSame := Manager.ownership_pendingCopyOps hOwn
    exact hSame
  have hOutstanding : State.outstanding { s with
      kv := (s.kv.doPendingIndexing cfg hashing subBlockSize s.requests).releaseCopyOps
        output.kvCacheCopyOps
      unpins := s.unpins ++ output.kvCacheCopyOps.map (·.srcBlockId) } = s.outstanding := by
    unfold State.outstanding
    rw [hOps]
  refine ⟨⟨fun b => ?_, ?_⟩, hOps.trans hRefs.drained, hRefs.flying⟩
  · have hBalance := hRefs.ledger.refCnt b
    have hRef := congrFun (Manager.ownership_refCnt hOwn) b
    rw [hHeld, hOutstanding]
    change (s.kv.doPendingIndexing cfg hashing subBlockSize s.requests).refCnt b -
      (sources output.kvCacheCopyOps).count b = tally s.ids (s.held cfg) b +
        ([] ++ s.outstanding ++ s.deferredFrees.flatten).count b
    rw [hRef]
    simp only [List.nil_append, List.count_append] at hBalance ⊢
    omega
  · have hPins := hRefs.ledger.pins
    rw [hOutstanding]
    change s.pins.Perm (s.unpins ++ sources output.kvCacheCopyOps ++ ([] ++ s.outstanding))
    rw [List.nil_append, List.append_assoc]
    exact hPins

theorem Ledger.freeRequest {cfg : Config} (hashing : Hashing H X) (mode : FreeMode)
    {s : State H} {matched : List BlockId} (hLedger : Ledger cfg s matched)
    (hNodup : s.ids.Nodup) {id : ReqId} (hMem : id ∈ s.ids) :
    Ledger cfg (s.freeRequest cfg hashing mode id) matched := by
  have hPopped : Ledger cfg (s.popWaiting id) matched := hLedger.keep rfl rfl rfl rfl rfl rfl
  exact (hPopped.freeRequestBlocks hashing mode hNodup hMem).keep rfl rfl rfl rfl rfl rfl

theorem refs_update (cfg : Config) (hashing : Hashing H X) (result : RunnerOutput)
    (output : SchedulerOutput) :
    UpdateRule cfg hashing result output (RefsUpdating cfg output.kvCacheCopyOps) where
  receive {s id} _ hRefs _ _ _ := by
    have hOwn : (s.receiveOutput cfg hashing result output id).kv.ownership = s.kv.ownership := by
      unfold State.receiveOutput
      dsimp only
      split
      · exact Manager.ownership_cacheBlocks ..
      · rfl
    exact ⟨hRefs.ledger.keep hOwn rfl rfl rfl rfl rfl,
      (Manager.ownership_pendingCopyOps hOwn).trans hRefs.drained, hRefs.flying⟩
  free hQueues hRefs hKnown _ _ :=
    ⟨hRefs.ledger.freeRequest hashing _ hQueues.ids_nodup (hQueues.mem_ids hKnown),
      (State.freeRequestBlocks_pendingCopyOps ..).trans hRefs.drained, hRefs.flying⟩

theorem refs_run {cfg : Config} (hashing : Hashing H X) {subBlockSize : Nat}
    (hSize : cfg.subBlockSize = some subBlockSize) : 
    RunRule cfg hashing (fun _ => True) (RefsBalanced cfg) where
  initial := ⟨⟨fun _ => rfl, .refl _⟩, rfl, by simp [State.initial]⟩
  add {s s' id new} hQueues hRefs hAdd := by
    obtain ⟨hNew, -, -, -, waiting, skippedWaiting, -, rfl⟩ := addRequest_cases hAdd
    have hUnknown : (s.requests id).status = .unknown := by
      by_contra hKnown
      exact hNew (hQueues.mem_ids hKnown)
    have hEmpty : s.held cfg id = [] := by
      unfold State.held
      rw [(hQueues.request id).unknown_blocks hUnknown, allBlocks_empty]
    refine ⟨⟨fun b => ?_, hRefs.ledger.pins⟩, hRefs.drained, hRefs.flying⟩
    have hBalance := hRefs.ledger.refCnt b
    have hTally : tally (s.ids ++ [id]) (s.held cfg) b = tally s.ids (s.held cfg) b := by
      simp [hEmpty]
    rw [← hTally] at hBalance
    exact hBalance
  schedule _ hQueues hRefs _ hLoops hOk _ := (hRefs.loops hQueues hLoops).finish hashing hOk.noMatch
  update {s result output inFlight} _ hRefs hInFlight hPopped hAdmitted :=
    (update_rule (refs_update cfg hashing result output) hPopped hAdmitted
      (hRefs.popOutput hInFlight)).2.settleOutput hashing hSize
  drafts {s} drafts _ hRefs := by
    unfold setDrafts
    dsimp only
    split
    · exact hRefs
    · exact hRefs.keep rfl rfl rfl rfl rfl rfl
  free hQueues hRefs hKnown _ _ :=
    ⟨hRefs.ledger.freeRequest hashing _ hQueues.ids_nodup (hQueues.mem_ids hKnown),
      (State.freeRequestBlocks_pendingCopyOps ..).trans hRefs.drained, hRefs.flying⟩
  releaseDeferred {s blocks rest} _ hRefs hDeferred := by
    refine ⟨⟨fun b => ?_, hRefs.ledger.pins⟩, hRefs.drained, hRefs.flying⟩
    have hBalance := hRefs.ledger.refCnt b
    change s.kv.refCnt b - blocks.count b = tally s.ids (s.held cfg) b +
      ([] ++ s.outstanding ++ rest.flatten).count b
    rw [hDeferred] at hBalance
    simp only [List.nil_append, List.flatten_cons, List.count_append] at hBalance ⊢
    omega
  freeDelayed hQueues hRefs hFinished :=
    ⟨hRefs.ledger.freeRequestBlocks hashing .now hQueues.ids_nodup
      (hQueues.mem_ids (by rw [hFinished]; simp)),
      (State.freeRequestBlocks_pendingCopyOps ..).trans hRefs.drained, hRefs.flying⟩

/-- References are conserved: in every state of every run, between calls and after any
number of rounds of the two loops within one, the count of a block is the number of times
it is listed, matched, to be copied from or deferred; every pin is either outstanding or
released once; and the copies of one step do not interfere. Only a connector keeps the
blocks of a finished request. -/
theorem refCnt_conserved {cfg : Config} {hashing : Hashing H X} {subBlockSize : Nat}
    (hSize : cfg.subBlockSize = some subBlockSize) {actions : List (Action H)} {s : State H}
    (run : Reaches cfg hashing actions s) :
    Ledger cfg s [] ∧ (∀ output ∈ s.inFlight, OpsDisjoint output.kvCacheCopyOps) ∧
      (∀ id, s.held cfg id ≠ [] → (s.requests id).status ≠ .finished ∨ cfg.hasConnector = true) ∧
      ∀ (up : Upstream H) (budget : DecodeBatchBudget) (rounds moreRounds : Nat)
        (middle locals : Locals H),
        loop (Locals.runningRound cfg hashing up budget) rounds (Locals.start cfg up s) =
          some middle →
        (locals = middle ∨ ¬ middle.skipsWaiting up ∧
          loop (Locals.waitingRound cfg hashing up budget) moreRounds middle = some locals) →
        Ledger cfg locals.st locals.matched ∧ OpsDisjoint locals.st.kv.pendingCopyOps := by
  obtain ⟨hQueues, hRefs⟩ := run_rule (refs_run hashing hSize) (fun _ _ => trivial) run
  refine ⟨hRefs.ledger, hRefs.flying, fun id hHeld => ?_, ?_⟩
  · by_contra hNot
    simp only [not_or, not_not, Bool.not_eq_true] at hNot
    refine hHeld ?_
    unfold State.held
    rw [(hQueues.request id).finished_blocks hNot.2 hNot.1, allBlocks_empty]
  · intro up budget rounds moreRounds middle locals hRunning hLocals
    obtain ⟨hOk, hMiddle⟩ := running_rule (refs_running cfg hashing up) hQueues hRefs.start hRunning
    rcases hLocals with rfl | ⟨hEnters, hWaiting⟩
    · exact ⟨hMiddle.ledger, hMiddle.pending⟩
    · have hLast := (waitingLoop_rule (refs_waiting cfg hashing up) hOk hEnters hMiddle hWaiting).2
      exact ⟨hLast.ledger, hLast.pending⟩

/-- The second request copies half a block of the first one, which is pinned for it. -/
theorem refCnt_conserved_small : ∃ s, Reaches Config.small Hashing.free
      [.addRequest 0 (.plain [1, 2, 3] 8), .schedule (.plain .small),
        .updateFromOutput (.constant 5), .addRequest 1 (.plain [1, 2, 6, 7] 8),
        .schedule (.plain .small)] s ∧
    s.outstanding = [1] ∧ s.kv.refCnt 1 = 2 ∧ Ledger Config.small s [] := by
  obtain ⟨s, run, hHolds⟩ := Reaches.exists_of_any Config.small Hashing.free
    [.addRequest 0 (.plain [1, 2, 3] 8), .schedule (.plain .small),
      .updateFromOutput (.constant 5), .addRequest 1 (.plain [1, 2, 6, 7] 8),
      .schedule (.plain .small)]
    (fun s => decide (s.outstanding = [1]) && decide (s.kv.refCnt 1 = 2)) (by decide +kernel)
  simp only [Bool.and_eq_true, decide_eq_true_eq] at hHolds
  exact ⟨s, run, hHolds.1, hHolds.2, (refCnt_conserved rfl run).1⟩

/-- Two steps may be in flight, and a connector consumes KV. -/
def Config.deferring : Config :=
  { Config.small with hasConnector := true, deferBlockFree := true, maxConcurrentBatches := 2 }

/-- A request aborted while its step is in flight leaves a reference that no request, no
match and no copy accounts for. -/
theorem refCnt_deferred : ∃ s, Reaches Config.deferring Hashing.free
      [.addRequest 0 (.plain [1, 2, 3] 8),
        .schedule { Upstream.plain .deferring with connectorMatch := fun _ _ _ => some (0, false) },
        .finishRequest 0 false true] s ∧
    ¬ ∀ b, s.kv.refCnt b = tally s.ids (s.held Config.deferring) b + s.outstanding.count b := by
  obtain ⟨s, run, hHolds⟩ := Reaches.exists_of_any Config.deferring Hashing.free
    [.addRequest 0 (.plain [1, 2, 3] 8),
      .schedule { Upstream.plain .deferring with connectorMatch := fun _ _ _ => some (0, false) },
      .finishRequest 0 false true]
    (fun s => decide (s.kv.refCnt 1 = 1 ∧ tally s.ids (s.held Config.deferring) 1 = 0 ∧
      s.outstanding.count 1 = 0)) (by decide +kernel)
  simp only [decide_eq_true_eq] at hHolds
  refine ⟨s, run, fun hAll => ?_⟩
  have hOne := hAll 1
  omega

end VllmRbln.Scheduler
