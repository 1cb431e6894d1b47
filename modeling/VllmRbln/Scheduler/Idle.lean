import VllmRbln.Scheduler.References
import VllmRbln.Scheduler.Phase
import Mathlib.Data.List.Perm.Subperm

/-! Admission of the head waiting request by an idle engine. With nothing running and
nothing to copy, every block of the pool is free, so the only blocks an admission cannot
use are those its own partial match pins. -/
namespace VllmRbln.Scheduler

set_option linter.unusedSectionVars false

open SubBlock Run

variable {H X : Type} [DecidableEq H]

/-! ### Requests have tokens and fit the model -/

/-- A request with a token, and room for one more. -/
structure Request.Sized (cfg : Config) (request : Request) : Prop where
  pos : 0 < request.numTokens
  fits : request.numTokens < cfg.maxModelLen

def SizedOk (cfg : Config) (s : State H) : Prop :=
  ∀ id, (s.requests id).status ≠ .unknown → (s.requests id).status ≠ .finished →
    (s.requests id).Sized cfg

section Sized

variable {cfg : Config} {s s' : State H}

theorem SizedOk.change (hSized : SizedOk cfg s) (id : ReqId)
    (hOthers : ∀ other, other ≠ id → s'.requests other = s.requests other)
    (hSelf : (s'.requests id).status ≠ .unknown → (s'.requests id).status ≠ .finished →
      (s'.requests id).Sized cfg) : SizedOk cfg s' := by
  intro other hKnown hUnfinished
  by_cases hEq : other = id
  · subst hEq
    exact hSelf hKnown hUnfinished
  · rw [hOthers other hEq] at hKnown hUnfinished ⊢
    exact hSized other hKnown hUnfinished

theorem SizedOk.keep (hSized : SizedOk cfg s)
    (hSame : ∀ id, (s'.requests id).core = (s.requests id).core) : SizedOk cfg s' := by
  intro id hKnown hUnfinished
  obtain ⟨hStatus, -, -, hTokens⟩ := Request.core_eq_iff.mp (hSame id)
  have hOld := hSized id (hStatus ▸ hKnown) (hStatus ▸ hUnfinished)
  exact ⟨hTokens ▸ hOld.pos, hTokens ▸ hOld.fits⟩

end Sized

theorem sized_running (cfg : Config) (hashing : Hashing H X) (up : Upstream H) :
    RunningRule cfg hashing up fun locals => SizedOk cfg locals.st where
  pass _ hSized _ _ _ := hSized
  preempt {locals locals' id} hOk hSized hVictim hPre := by
    refine hSized.change id (fun other hNe => hPre.requests_of_ne hNe) fun _ _ => ?_
    have hStatus := (hOk.queues.request id).running.mp (victim_mem hVictim)
    have hOld := hSized id (by simp [hStatus]) (by simp [hStatus])
    rw [hPre.st]
    simp only [State.preemptRequest, State.modifyRequest, Function.update_self]
    exact ⟨hOld.pos, hOld.fits⟩
  grant {id numNewTokens start locals kv newBlocks} _ hSized _ := by
    refine hSized.keep fun other => ?_
    by_cases hEq : other = id
    · subst hEq
      simp [Locals.grantRunning, Locals.scheduleRunning, State.modifyRequest, Request.core,
        Request.numTokens]
    · simp [Locals.grantRunning, Locals.scheduleRunning, State.modifyRequest, hEq]

/-- A queued request changes its status and its computed tokens. -/
theorem SizedOk.queued {cfg : Config} {s s' : State H} {skipped : List ReqId} (hSized : SizedOk cfg s)
    (hQueues : Queues cfg s skipped) {id : ReqId} (hMem : id ∈ s.waiting ++ s.skippedWaiting)
    {status : RequestStatus} {numComputedTokens : Nat}
    (hRequests : s'.requests = Function.update s.requests id
      { s.requests id with status := status, numComputedTokens := numComputedTokens }) :
    SizedOk cfg s' := by
  refine hSized.change id (fun other hNe => ?_) fun _ _ => ?_
  · rw [hRequests, Function.update_of_ne hNe]
  · obtain ⟨hKnown, hUnfinished⟩ := hQueues.live_of_queued hMem
    have hOld := hSized id hKnown hUnfinished
    rw [hRequests, Function.update_self]
    exact ⟨hOld.pos, hOld.fits⟩

theorem sized_waiting (cfg : Config) (hashing : Hashing H X) (up : Upstream H) :
    WaitingRule cfg hashing up (fun locals => SizedOk cfg locals.st)
      fun locals => SizedOk cfg locals.st where
  last hSized := hSized
  skip _ hSized _ _ := hSized.keep fun _ => rfl
  promote {locals id} numLoadedTokens hOk hSized _ hMem _ _ := by
    obtain ⟨_, _, hRequests, -⟩ := promoteRequest_requests cfg hashing locals id numLoadedTokens
    exact hSized.queued hOk.queues hMem hRequests
  look _ hSized _ _ hFound := by
    obtain ⟨_, _, _, _, rfl, -⟩ := hFound.looked.keeps
    exact hSized
  await _ hSized hSeated _ _ := hSized.queued hSeated.ok.queues hSeated.queued_locals rfl
  join _ hSized hSeated _ _ _ _ _ := hSized.queued hSeated.ok.queues hSeated.queued_locals rfl
  alone {start locals id found kv newBlocks ops} _ hSized hSeated _ _ _ _ _ := by
    rw [evictDecodes_eq cfg (hSeated.startRunning _ _).scheduledRunning_nodup]
    have hEntered : SizedOk cfg ((locals.seatWaiting kv ops).admitWaiting id found.numComputedTokens
        ((locals.st.requests id).waitingTokens cfg found.numComputedTokens)).st :=
      hSized.queued hSeated.ok.queues hSeated.queued_locals rfl
    refine hEntered.keep fun other => ?_
    simp only [Locals.withoutDecodes]
    split <;> rfl

theorem leaveWaitingLoop_requests (cfg : Config) (locals : Locals H) :
    (locals.leaveWaitingLoop cfg).st.requests = locals.st.requests := by
  unfold Locals.leaveWaitingLoop
  dsimp only
  split <;> rfl

/-- A request that goes on after an output is still sized. -/
theorem Request.Sized.afterOutput {cfg : Config} {result : RunnerOutput} {output : SchedulerOutput}
    {id : ReqId} {request : Request} (hSized : request.Sized cfg)
    (hGoes : (request.afterOutput cfg result output id).2 = false) :
    (request.afterOutput cfg result output id).1.Sized cfg := by
  unfold Request.afterOutput at hGoes ⊢
  dsimp only at hGoes ⊢
  obtain ⟨hEq, hFits⟩ := receive_goes hGoes
  rw [hEq]
  have hPos := hSized.pos
  by_cases hNil : result.generated output id = []
  · rw [hNil]
    simp only [List.append_nil, Request.reject]
    exact ⟨hPos, hSized.fits⟩
  · have hShort := hFits hNil
    simp only [Request.reject, Request.numTokens] at hShort hPos
    constructor <;> simp only [Request.reject, Request.numTokens, List.length_append] <;> omega

theorem sized_settle (cfg : Config) (hashing : Hashing H X) (result : RunnerOutput)
    (output : SchedulerOutput) :
    SettleRule cfg hashing result output fun _ s => SizedOk cfg s where
  pass _ hSized _ := hSized
  receive {s id todo} _ hSized _ hKnown hUnfinished hGoes := by
    refine hSized.change id (fun other hNe => Function.update_of_ne hNe ..) fun _ _ => ?_
    have hSelf : (s.receiveOutput cfg hashing result output id).requests id =
        ((s.requests id).afterOutput cfg result output id).1 := Function.update_self ..
    rw [hSelf]
    exact (hSized id hKnown hUnfinished).afterOutput hGoes
  stop {s id todo mode} _ hSized _ _ _ _ := by
    refine hSized.change id (fun other hNe => ?_) fun _ hStill => ?_
    · simp [State.freeRequest, State.modifyRequest, State.freeRequestBlocks, State.popWaiting,
        State.receiveOutput, hNe]
    · exact absurd (by simp [State.freeRequest, State.modifyRequest]) hStill

theorem sized_run (cfg : Config) (hashing : Hashing H X) :
    RunRule cfg hashing (fun _ => True) (SizedOk cfg) where
  initial _ hKnown := absurd rfl hKnown
  add {s s' id new} _ hSized hAdd := by
    obtain ⟨-, hPrompt, hFits, -, _, _, -, rfl⟩ := addRequest_cases hAdd
    refine hSized.change id (fun other hNe => Function.update_of_ne hNe ..) fun _ _ => ?_
    simp only [Function.update_self]
    exact ⟨List.length_pos_iff.mpr hPrompt, hFits⟩
  schedule {s up locals} _ hQueues hSized _ hLoops _ _ := by
    have hLocals := (loops_rule (fun locals => SizedOk cfg locals.st) (sized_running cfg hashing up)
      (sized_waiting cfg hashing up) hQueues hSized (fun _ _ h _ => h) (fun _ _ h _ _ => h)
      (fun mid _ h => h.keep fun _ => by rw [leaveWaitingLoop_requests]) hLoops).2
    intro id hKnown hUnfinished
    cases hLookup : locals.numScheduledTokens.lookup id with
    | none =>
        simp only [Locals.finish, hLookup] at hKnown hUnfinished ⊢
        exact hLocals id hKnown hUnfinished
    | some numNewTokens =>
        obtain ⟨hStatus, -, hTokens, -⟩ := advanceRequest_keeps cfg numNewTokens
          (locals.scheduledSpecDecodeTokens id) (locals.st.requests id)
        simp only [Locals.finish, hLookup, hStatus] at hKnown hUnfinished ⊢
        have hOld := hLocals id hKnown hUnfinished
        constructor
        · rw [Request.numTokens, hTokens]
          exact hOld.pos
        · rw [Request.numTokens, hTokens]
          exact hOld.fits
  update {s result output inFlight} _ hSized _ hPopped hAdmitted := by
    have hDone := (settle_rule (sized_settle cfg hashing result output) hPopped hAdmitted hSized).2
    unfold State.settleOutput
    split
    · exact hDone
    · exact hDone
  drafts {s} drafts _ hSized := by
    unfold setDrafts
    dsimp only
    split
    · exact hSized
    · refine hSized.keep fun other => ?_
      by_cases hEq : other = drafts.1
      · subst hEq
        simp [State.modifyRequest, Request.core, Request.numTokens]
      · simp [State.modifyRequest, hEq]
  free {s id mode} _ hSized _ _ _ := by
    refine hSized.change id (fun other hNe => Function.update_of_ne hNe ..) fun _ hStill => ?_
    exact absurd (by simp [State.freeRequest, State.modifyRequest]) hStill
  releaseDeferred _ hSized _ := hSized
  freeDelayed _ hSized _ := hSized

/-! ### A pool that hands out its free blocks -/

/-- Segments dealt in turn are a stretch of the queue. -/
theorem flatMap_deal (counts : Nat → Nat) (queue : List BlockId) (n : Nat) :
    (List.range n).flatMap (fun group =>
        (queue.drop ((List.range group).map counts).sum).take (counts group)) =
      queue.take ((List.range n).map counts).sum := by
  induction n with
  | zero => simp
  | succ n ih =>
      rw [List.range_succ, List.flatMap_append, ih, List.map_append, List.sum_append, List.take_add]
      simp

theorem allBlocks_dealBlocks (cfg : Config) (counts : Nat → Nat) (queue : List BlockId) :
    Manager.allBlocks cfg (Manager.dealBlocks cfg counts queue) =
      queue.take ((List.range cfg.numGroups).map counts).sum := by
  rw [← flatMap_deal]
  unfold Manager.allBlocks
  refine List.flatMap_congr fun group hMem => ?_
  simp [Manager.dealBlocks, List.mem_range.mp hMem]

theorem sum_map_range_le (counts : Nat → Nat) {m n : Nat} (hLe : m ≤ n) :
    ((List.range m).map counts).sum ≤ ((List.range n).map counts).sum := by
  obtain ⟨k, rfl⟩ := Nat.exists_eq_add_of_le hLe
  rw [List.range_add, List.map_append, List.sum_append]
  exact Nat.le_add_right _ _

/-- Touching the hits takes out of the queue at most the hits that were free. -/
theorem freeBlockIds_touch (cfg : Config) (kv : Manager H) (hits : List BlockId) :
    (kv.freeBlockIds cfg).length ≤ ((kv.touch hits).freeBlockIds cfg).length +
      hits.countP (fun b => kv.refCnt b = 0) := by
  have hSplit : kv.freeBlockIds cfg ⊆ (kv.touch hits).freeBlockIds cfg ++
      hits.filter (fun b => kv.refCnt b = 0) := by
    intro b hFree
    obtain ⟨hLt, hNull, hZero⟩ := Manager.mem_freeBlockIds.mp hFree
    rw [List.mem_append]
    by_cases hHit : b ∈ hits
    · exact .inr (List.mem_filter.mpr ⟨hHit, by simpa using hZero⟩)
    · refine .inl (Manager.mem_freeBlockIds.mpr ⟨hLt, hNull, ?_⟩)
      simp [Manager.touch, hZero, List.count_eq_zero_of_not_mem hHit]
  have hNodup : (kv.freeBlockIds cfg).Nodup := List.nodup_range.filter _
  have hLength := (hNodup.subperm hSplit).length_le
  rw [List.length_append, ← List.countP_eq_length_filter] at hLength
  exact hLength

section Pool

variable {cfg : Config} {kv : Manager H} {id : ReqId} {numTokens : Nat} {wholeTokens : Option Nat}
  {hits : Blocks} {freeQueue : Manager H → List BlockId}

/-- When the queue is made of the free blocks, the count decides. -/
theorem allocateSlots_isSome_iff (hQueue : ∀ kv, (freeQueue kv).Perm (kv.freeBlockIds cfg)) :
    (kv.allocateSlots cfg id numTokens wholeTokens hits freeQueue).isSome = true ↔
      (∀ n ∈ wholeTokens, Manager.numBlocksToAllocate cfg kv id hits n ≤
        (kv.freeBlockIds cfg).length) ∧
      Manager.numBlocksToAllocate cfg kv id hits numTokens ≤ (kv.freeBlockIds cfg).length := by
  unfold Manager.allocateSlots
  dsimp only
  split
  · rename_i hWhole
    simp only [Option.any_eq_true, decide_eq_true_eq] at hWhole
    obtain ⟨n, hMem, hLess⟩ := hWhole
    simp only [Option.isSome_none, Bool.false_eq_true, false_iff, not_and]
    intro hAll
    exact absurd (hAll n hMem) (Nat.not_le.mpr hLess)
  rename_i hWhole
  have hFits : ∀ n ∈ wholeTokens, Manager.numBlocksToAllocate cfg kv id hits n ≤
      (kv.freeBlockIds cfg).length := by
    intro n hMem
    by_contra hNot
    exact hWhole ((Option.any_eq_true _ _).mpr ⟨n, hMem, by simpa using hNot⟩)
  split
  · rename_i hLess
    simp only [Option.isSome_none, Bool.false_eq_true, false_iff, not_and]
    intro _
    exact Nat.not_le.mpr hLess
  rename_i hEnough
  have hEnough := Nat.le_of_not_lt hEnough
  have hPerm := hQueue (kv.touch (Manager.allBlocks cfg hits))
  have hSum : ((List.range cfg.numGroups).map
      (Manager.newBlockCount cfg kv id hits numTokens)).sum ≤
        (freeQueue (kv.touch (Manager.allBlocks cfg hits))).length := by
    have hTouch := freeBlockIds_touch cfg kv (Manager.allBlocks cfg hits)
    rw [hPerm.length_eq]
    unfold Manager.numBlocksToAllocate at hEnough
    omega
  have hValid : Manager.validNewBlocks cfg kv id hits numTokens
      (Manager.dealBlocks cfg (Manager.newBlockCount cfg kv id hits numTokens)
        (freeQueue (kv.touch (Manager.allBlocks cfg hits)))) = true := by
    simp only [Manager.validNewBlocks, decide_eq_true_eq, allBlocks_dealBlocks]
    refine ⟨fun group hMem => ?_, ?_, fun b hMem => ?_⟩
    · have hLt := List.mem_range.mp hMem
      have hUpTo := sum_map_range_le (Manager.newBlockCount cfg kv id hits numTokens)
        (Nat.succ_le_of_lt hLt)
      rw [List.range_succ, List.map_append, List.sum_append] at hUpTo
      simp only [List.map_cons, List.map_nil, List.sum_cons, List.sum_nil, Nat.add_zero] at hUpTo
      simp only [Manager.dealBlocks, hLt, if_true, List.length_take, List.length_drop]
      omega
    · exact (hPerm.nodup_iff.mpr (List.nodup_range.filter _)).sublist (List.take_sublist _ _)
    · exact hPerm.mem_iff.mp (List.mem_of_mem_take hMem)
  rw [if_pos hValid]
  simp only [Option.isSome_some, true_iff]
  exact ⟨hFits, hEnough⟩

end Pool

/-! ### A waiting round does not raise -/

section Round

variable {cfg : Config} {hashing : Hashing H X} {up : Upstream H} {id : ReqId}
  {locals locals' : Locals H}

/-- What is found in the cache leaves a token to compute. -/
theorem Looked.short {hits : Blocks} {numLocal : Nat}
    (hLooked : Looked cfg hashing id numLocal locals locals')
    (hHits : Manager.CachedHits cfg hashing locals.st.kv id (locals.st.requests id) hits numLocal)
    (hNone : locals.subBlockMatch = none) (hPos : 0 < (locals.st.requests id).numTokens) :
    numLocal + (locals'.subBlockMatch.map (·.numTokens)).getD 0 + 1 ≤
      (locals.st.requests id).numTokens := by
  have hShort := hHits.short
  cases hLooked with
  | untouched => simp only [hNone, Option.map_none, Option.getD_none]; omega
  | hashed _ => simp only [hNone, Option.map_none, Option.getD_none]; omega
  | outdone _ => simp only [hNone, Option.map_none, Option.getD_none]; omega
  | matched _ hMatch =>
      obtain ⟨_, _, -, -, hTokens, -, -, hLess⟩ := hMatch.exists_found
      simp only [Option.map_some, Option.getD_some, hTokens]
      exact hLess

variable (hashing up) in
/-- Without a connector the search always ends, with something local. -/
theorem findComputed_local (hConnector : cfg.hasConnector = false)
    (hNone : locals.subBlockMatch = none)
    (hZero : (locals.st.requests id).numComputedTokens = 0)
    (hPos : 0 < (locals.st.requests id).numTokens) :
    ∃ locals' found, locals.findComputed cfg hashing up id = some (locals', some found) ∧
      Found cfg hashing up id locals locals' found ∧ found.loadKvAsync = false ∧
      found.numComputedTokens + 1 ≤ (locals.st.requests id).numTokens ∧
      (found.hits, found.numLocal) = locals.st.kv.getComputedBlocks cfg hashing id
        (locals.st.requests id) (up.foundBlocks locals.st.kv id) ∧
      locals' = locals.trySubBlockMatch cfg hashing up id found.numLocal 0 ∧
      found.numComputedTokens = found.numLocal +
        (locals'.subBlockMatch.map (·.numTokens)).getD 0 := by
  have hShort := (trySubBlockMatch_looked cfg hashing up locals id
    (locals.st.kv.getComputedBlocks cfg hashing id (locals.st.requests id)
      (up.foundBlocks locals.st.kv id)).2 0).short (Manager.getComputedBlocks_spec rfl) hNone hPos
  have hSome : ∃ found, locals.findComputed cfg hashing up id =
      some (locals.trySubBlockMatch cfg hashing up id (locals.st.kv.getComputedBlocks cfg hashing id
        (locals.st.requests id) (up.foundBlocks locals.st.kv id)).2 0, some found) ∧
      found.loadKvAsync = false ∧ found.numComputedTokens + 1 ≤ (locals.st.requests id).numTokens ∧
      (found.hits, found.numLocal) = locals.st.kv.getComputedBlocks cfg hashing id
        (locals.st.requests id) (up.foundBlocks locals.st.kv id) ∧
      found.numComputedTokens = found.numLocal + ((locals.trySubBlockMatch cfg hashing up id
        found.numLocal 0).subBlockMatch.map (·.numTokens)).getD 0 := by
    unfold Locals.findComputed
    simp only [hZero, ne_eq, not_true_eq_false, if_false, hConnector, Bool.false_eq_true, false_and,
      Nat.lt_irrefl, and_false, decide_false, Bool.not_false, Bool.and_true, Nat.add_zero]
    rw [if_neg (by omega)]
    exact ⟨_, rfl, rfl, hShort, rfl, rfl⟩
  obtain ⟨found, hFind, hSync, hLess, hHits, hSum⟩ := hSome
  have hLocal : (locals.st.kv.getComputedBlocks cfg hashing id (locals.st.requests id)
      (up.foundBlocks locals.st.kv id)).2 = found.numLocal := by rw [← hHits]
  rw [hLocal] at hFind
  rcases findComputed_spec hNone hFind with ⟨hEq, -⟩ | ⟨found', hEq, hFound⟩
  · cases hEq
  · cases hEq
    exact ⟨_, found, hFind, hFound, hSync, hLess, hHits, rfl, hSum⟩

private theorem mapM_isSome {α β : Type} {f : α → Option β} {items : List α}
    (hAll : ∀ item ∈ items, ∃ result, f item = some result) : ∃ results, items.mapM f = some results := by
  induction items with
  | nil => exact ⟨[], rfl⟩
  | cons item items ih =>
      obtain ⟨result, hResult⟩ := hAll item List.mem_cons_self
      obtain ⟨results, hResults⟩ := ih fun other hMem => hAll other (List.mem_cons_of_mem _ hMem)
      exact ⟨result :: results, by simp [List.mapM_cons, hResult, hResults]⟩

/-- The block after the hits exists once slots for one more token are allocated. -/
theorem giveBlocks_getElem? {kv kv' : Manager H} {hits newBlocks : Blocks} {numTokens numLocal : Nat}
    {wholeTokens : Option Nat} {freeQueue : Manager H → List BlockId} {group : Nat}
    (hAlloc : kv.allocateSlots cfg id numTokens wholeTokens hits freeQueue = some (kv', newBlocks))
    (hEmpty : kv.reqToBlocks id = Blocks.empty) (hWindow : cfg.slidingWindow group = false)
    (hLt : group < cfg.numGroups) (hMore : numLocal < numTokens) (hFits : numLocal < cfg.maxModelLen) :
    ∃ block, (kv'.reqToBlocks id group)[numLocal / cfg.blockSize group]? = some block := by
  obtain ⟨rfl, hNew⟩ := Manager.allocateSlots_spec hAlloc
  have hLength := hNew.length group hLt
  simp only [Manager.newBlockCount, hWindow, Bool.false_eq_true, if_false, hEmpty, Blocks.empty,
    List.length_nil, Nat.zero_add] at hLength
  have hPos := cfg.blockSize_pos group
  have hIndex : numLocal / cfg.blockSize group <
      (min numTokens cfg.maxModelLen + cfg.blockSize group - 1) / cfg.blockSize group := by
    rw [Nat.div_lt_iff_lt_mul hPos]
    have hCeil := Nat.lt_mul_div_succ (min numTokens cfg.maxModelLen + cfg.blockSize group - 1) hPos
    rw [Nat.mul_comm, Nat.add_mul] at hCeil
    omega
  have hBound : numLocal / cfg.blockSize group <
      (Function.update kv.reqToBlocks id (fun group =>
        kv.reqToBlocks id group ++ (hits group ++ newBlocks group)) id group).length := by
    simp only [Function.update_self, hEmpty, Blocks.empty, List.nil_append, List.length_append]
    omega
  rw [Manager.giveBlocks_reqToBlocks]
  exact ⟨_, List.getElem?_eq_getElem hBound⟩

variable (up) in
/-- Allocation may fail, but a match is never left without a destination. -/
theorem allocateWaiting_total {found : Locals.Computed} {numNewTokens : Nat}
    (hLooked : Looked cfg hashing id found.numLocal locals locals')
    (hNone : locals.subBlockMatch = none)
    (hEmpty : locals.st.kv.reqToBlocks id = Blocks.empty)
    (hMore : found.numLocal < found.numSlots cfg numNewTokens)
    (hFits : found.numLocal < cfg.maxModelLen) :
    ∃ result, locals'.allocateWaiting cfg up id found numNewTokens = some result := by
  have hSlots : found.numSlots cfg numNewTokens = found.numComputedTokens + numNewTokens +
    (if found.loadKvAsync ∧ cfg.useEagle then 0 else cfg.numLookaheadTokens) := rfl
  unfold Locals.allocateWaiting
  dsimp only
  rw [← hSlots]
  split
  · exact ⟨_, rfl⟩
  rename_i kv newBlocks hAlloc
  split
  · exact ⟨_, rfl⟩
  rename_i subBlockMatch hSome
  obtain ⟨subBlockSize, hSize, hMatch, -⟩ := hLooked.partialMatch hNone hSome
  obtain ⟨matched, -, hForall, hGroups, -⟩ := hMatch.exists_found
  obtain ⟨_, _, _, _, hLocals, hBlocks, -⟩ := hLooked.keeps
  have hEmpty' : locals'.st.kv.reqToBlocks id = Blocks.empty := by
    rw [hLocals]
    exact (congrFun hBlocks id).trans hEmpty
  have hOps : ∃ ops, kv.copyOps subBlockMatch = some ops := by
    refine mapM_isSome fun item hItem => ?_
    have hGet : subBlockMatch.groupMatches[item.2]? = some item.1 :=
      List.mk_mem_zipIdx_iff_getElem?.mp hItem
    rw [hGroups, List.getElem?_map, Option.map_eq_some_iff] at hGet
    obtain ⟨groupMatch, hGet, hItem⟩ := hGet
    obtain ⟨hLt, hGet⟩ := List.getElem?_eq_some_iff.mp hGet
    have hGroup : item.2 < cfg.numGroups := by
      have hLength := hForall.length_eq
      rw [List.length_range] at hLength
      omega
    have hIndex := List.Forall₂.get hForall (i := item.2) (by simpa using hGroup) hLt
    simp only [List.get_eq_getElem, List.getElem_range, hGet] at hIndex
    obtain ⟨block, hBlock⟩ := giveBlocks_getElem? hAlloc hEmpty'
      ((cfg.subBlockSize_fits subBlockSize hSize).2.2 item.2) hGroup hMore hFits
    rw [← hItem, hMatch.request_eq, hIndex.1, hBlock]
    exact ⟨_, rfl⟩
  obtain ⟨ops, hOps⟩ := hOps
  simp [Manager.applySubBlockMatch, hOps]

/-- A request that is looked at without a connector is admitted or left. -/
theorem tryAdmit_total {found : Locals.Computed} (hOk : WaitingOk cfg locals)
    (hConnector : cfg.hasConnector = false) (hBudget : 0 < cfg.maxNumScheduledTokens)
    (hNone : locals.subBlockMatch = none)
    (hMem : id ∈ locals.st.waiting ++ locals.st.skippedWaiting)
    (hReady : (locals.st.requests id).isBlocked = false)
    (hSized : (locals.st.requests id).Sized cfg)
    (hFound : Found cfg hashing up id locals locals' found) (hSync : found.loadKvAsync = false)
    (hShort : found.numComputedTokens + 1 ≤ (locals.st.requests id).numTokens) :
    ∃ next, locals'.tryAdmit cfg up id found = some next := by
  have hWaits := hOk.queues.queued id (List.mem_append_left _ hMem)
  obtain ⟨-, hZero, hEmpty⟩ := (hOk.queues.request id).waiting_blocks hConnector hWaits
  obtain ⟨_, _, _, _, hLocals, -⟩ := hFound.looked.keeps
  have hSame : locals'.st.requests id = locals.st.requests id := by rw [hLocals]
  have hSum : found.numLocal ≤ found.numComputedTokens := by
    rcases hFound.computed with ⟨-, hSum, -⟩ | ⟨hSome, -⟩
    · omega
    · exact absurd hZero hSome
  have hStatus : (locals'.st.requests id).status = .waiting ∨
      (locals'.st.requests id).status = .preempted := by
    rw [hSame]
    cases hCase : (locals.st.requests id).status <;>
      simp_all [RequestStatus.isWaiting, Request.isBlocked]
  have hTokens : (locals.st.requests id).waitingTokens cfg found.numComputedTokens ≠ 0 ∧
      ((locals.st.requests id).numTokens ≤ found.numComputedTokens + 1 →
        (locals.st.requests id).waitingTokens cfg found.numComputedTokens = 1) := by
    unfold Request.waitingTokens
    dsimp only
    split <;> omega
  have hFits := hSized.fits
  unfold Locals.tryAdmit
  simp only [hSync, Bool.false_eq_true, if_false, hSame]
  rw [if_neg hTokens.1]
  split
  · exact ⟨_, rfl⟩
  have hMore : found.numLocal < found.numSlots cfg
      ((locals.st.requests id).waitingTokens cfg found.numComputedTokens) := by
    have hPos := hTokens.1
    unfold Locals.Computed.numSlots
    omega
  obtain ⟨result, hAlloc⟩ := allocateWaiting_total up hFound.looked hNone hEmpty hMore
    (by omega)
  rw [hAlloc]
  cases result with
  | none => exact ⟨_, rfl⟩
  | some seated =>
      obtain ⟨kv, newBlocks, ops, -, -, rfl⟩ := allocateWaiting_spec hAlloc
      simp only [Locals.joinStep]
      have hInvalid : ¬ (((locals'.seatWaiting kv ops).st.requests id).status ≠ .waiting ∧
          ((locals'.seatWaiting kv ops).st.requests id).status ≠ .preempted) := fun hBoth =>
        hStatus.elim hBoth.1 hBoth.2
      rw [if_neg hInvalid]
      split
      · exact ⟨_, rfl⟩
      rename_i hDecode
      rw [admitWaiting_isPrefill, hSame] at hDecode
      rw [if_neg (not_not.mpr (hTokens.2 (by omega)))]
      exact ⟨_, rfl⟩

theorem waitingRound_total {budget : DecodeBatchBudget} (hOk : WaitingOk cfg locals)
    (hConnector : cfg.hasConnector = false) (hBudget : 0 < cfg.maxNumScheduledTokens)
    (hNone : locals.subBlockMatch = none) (hSized : SizedOk cfg locals.st) :
    ∃ next, locals.waitingRound cfg hashing up budget = some next := by
  unfold Locals.waitingRound
  split
  · exact ⟨_, rfl⟩
  rename_i id hPeek
  have hMem := peekWaiting_mem hPeek
  dsimp only
  split
  · exact ⟨_, rfl⟩
  split
  · exact ⟨_, rfl⟩
  rename_i ready hPromoted
  have hReady : WaitingOk cfg ready ∧ SizedOk cfg ready.st ∧ ready.subBlockMatch = none ∧
      id ∈ ready.st.waiting ++ ready.st.skippedWaiting ∧
      (ready.st.requests id).isBlocked = false := by
    split at hPromoted
    · rename_i hBlocked
      simp only [Option.map_eq_some_iff] at hPromoted
      obtain ⟨numLoadedTokens, hLoaded, rfl⟩ := hPromoted
      refine ⟨hOk.promote hashing hBlocked _, (sized_waiting cfg hashing up).promote _ hOk hSized
        hNone hMem hBlocked hLoaded, ?_, ?_, ?_⟩
      · obtain ⟨st, hEq, -⟩ := promoteRequest_eq cfg hashing locals id numLoadedTokens
        rw [hEq]
        exact hNone
      · obtain ⟨st, hEq, -, hWaiting, hSkipped⟩ :=
          promoteRequest_eq cfg hashing locals id numLoadedTokens
        rw [hEq]
        simpa [hWaiting, hSkipped] using hMem
      · have hWaits := hOk.queues.queued id (List.mem_append_left _ hMem)
        have hLocal := ((hOk.queues.request id).waiting_blocks hConnector hWaits).1
        unfold Locals.promoteRequest
        simp only [hLocal, if_false, State.modifyRequest, Function.update_self, Request.isBlocked,
          Request.readyStatus]
        split <;> simp
    · rename_i hFree
      cases hPromoted
      exact ⟨hOk, hSized, hNone, hMem, by simpa using hFree⟩
  obtain ⟨hOk, hSized, hNone, hMem, hReady⟩ := hReady
  have hSame : { ready with subBlockMatch := none } = ready := by rw [← hNone]
  rw [hSame]
  have hWaits := hOk.queues.queued id (List.mem_append_left _ hMem)
  have hZero := ((hOk.queues.request id).waiting_blocks hConnector hWaits).2.1
  obtain ⟨hKnown, hUnfinished⟩ := hOk.queues.live_of_queued hMem
  have hSizedId := hSized id hKnown hUnfinished
  obtain ⟨locals', found, hFind, hFound, hSync, hShort, -⟩ :=
    findComputed_local hashing up hConnector hNone hZero hSizedId.pos
  rw [hFind]
  exact tryAdmit_total hOk hConnector hBudget hNone hMem hReady hSizedId hFound hSync hShort

end Round

/-! ### Counting the blocks of the head request -/

/-- Blocks that the tokens take, over all groups. -/
def Config.wholeBlocks (cfg : Config) (numTokens : Nat) : Nat :=
  ((List.range cfg.numGroups).map fun group =>
    (min numTokens cfg.maxModelLen + cfg.blockSize group - 1) / cfg.blockSize group).sum

/-- All blocks but the null block. -/
def Config.usableBlocks (cfg : Config) : List BlockId := (List.range cfg.numBlocks).filter (· ≠ 0)

section Head

variable (cfg : Config) (hashing : Hashing H X) (subBlockSize : Nat) (up : Upstream H)
  (s : State H) (id : ReqId)

/-- The full blocks a lookup finds for a waiting request. -/
def State.cachedHits : Blocks × Nat :=
  s.kv.getComputedBlocks cfg hashing id (s.requests id) (up.foundBlocks s.kv id)

/-- The partial match past them. -/
def State.partialMatch : Option SubBlockMatch :=
  (s.kv.getComputedBlocksSubBlock cfg hashing subBlockSize up.choose id (s.requests id)
    (s.cachedHits cfg hashing up id).2).2

/-- The source blocks the match pins. -/
def State.pinned : List BlockId :=
  ((s.partialMatch cfg hashing subBlockSize up id).map (·.srcBlocks)).getD []

def State.numCached : Nat :=
  (s.cachedHits cfg hashing up id).2 +
    ((s.partialMatch cfg hashing subBlockSize up id).map (·.numTokens)).getD 0

/-- Tokens there must be blocks for: the whole sequence, and the first chunk with its
lookahead. -/
def State.numHeadTokens : Nat :=
  max (s.requests id).numTokens (s.numCached cfg hashing subBlockSize up id +
    (s.requests id).waitingTokens cfg (s.numCached cfg hashing subBlockSize up id) +
    cfg.numLookaheadTokens)

/-- The pool has the blocks of the request and, besides, the blocks its partial match
pins; a pinned block that is also a hit counts once. -/
def State.HeadFits : Prop :=
  cfg.wholeBlocks (s.numHeadTokens cfg hashing subBlockSize up id) +
      (cfg.usableBlocks.filter (· ∈ s.pinned cfg hashing subBlockSize up id)).length ≤
    cfg.usableBlocks.length + (Manager.allBlocks cfg (s.cachedHits cfg hashing up id).1).countP
      (· ∈ s.pinned cfg hashing subBlockSize up id)

instance : Decidable (s.HeadFits cfg hashing subBlockSize up id) :=
  inferInstanceAs (Decidable (_ ≤ _))

end Head

theorem sum_map_le {α : Type} {f g : α → Nat} {items : List α} (hLe : ∀ a ∈ items, f a ≤ g a) :
    (items.map f).sum ≤ (items.map g).sum := by
  induction items with
  | nil => rfl
  | cons a items ih =>
      simp only [List.map_cons, List.sum_cons]
      exact Nat.add_le_add (hLe a List.mem_cons_self)
        (ih fun b hMem => hLe b (List.mem_cons_of_mem _ hMem))

theorem Config.wholeBlocks_mono (cfg : Config) {m n : Nat} (hLe : m ≤ n) :
    cfg.wholeBlocks m ≤ cfg.wholeBlocks n :=
  sum_map_le fun _ _ => Nat.div_le_div_right (by omega)

private theorem sum_add_length {f total : Nat → Nat} {hits : Blocks} {groups : List Nat}
    (hEach : ∀ group ∈ groups, f group + (hits group).length = total group) :
    (groups.map f).sum + (groups.flatMap hits).length = (groups.map total).sum := by
  induction groups with
  | nil => rfl
  | cons group groups ih =>
      have hHead := hEach group List.mem_cons_self
      have hRest := ih fun other hMem => hEach other (List.mem_cons_of_mem _ hMem)
      simp only [List.map_cons, List.sum_cons, List.flatMap_cons, List.length_append]
      omega

section Count

variable {cfg : Config} {kv : Manager H} {id : ReqId} {hits : Blocks} {numLocal numTokens : Nat}
  {pinned : List BlockId}

/-- New blocks and hits together make up the whole. -/
theorem newBlockCount_add_hits (hEmpty : kv.reqToBlocks id = Blocks.empty)
    (hWindow : ∀ group, cfg.slidingWindow group = false)
    (hHits : ∀ group < cfg.numGroups, (hits group).length * cfg.blockSize group = numLocal)
    (hLe : numLocal ≤ min numTokens cfg.maxModelLen) :
    ((List.range cfg.numGroups).map (Manager.newBlockCount cfg kv id hits numTokens)).sum +
      (Manager.allBlocks cfg hits).length = cfg.wholeBlocks numTokens := by
  refine sum_add_length fun group hMem => ?_
  have hPos := cfg.blockSize_pos group
  have hLength := hHits group (List.mem_range.mp hMem)
  have hCovered : (hits group).length ≤
      (min numTokens cfg.maxModelLen + cfg.blockSize group - 1) / cfg.blockSize group := by
    rw [Nat.le_div_iff_mul_le hPos]
    omega
  simp only [Manager.newBlockCount, hWindow, Bool.false_eq_true, if_false, hEmpty, Blocks.empty,
    List.length_nil, Nat.zero_add]
  omega

/-- When only `pinned` blocks are referenced, the pool's test compares whole counts. -/
theorem numBlocksToAllocate_le_iff (hRefs : ∀ b, kv.refCnt b = pinned.count b)
    (hEmpty : kv.reqToBlocks id = Blocks.empty)
    (hWindow : ∀ group, cfg.slidingWindow group = false)
    (hHits : ∀ group < cfg.numGroups, (hits group).length * cfg.blockSize group = numLocal)
    (hLe : numLocal ≤ min numTokens cfg.maxModelLen) :
    Manager.numBlocksToAllocate cfg kv id hits numTokens ≤ (kv.freeBlockIds cfg).length ↔
      cfg.wholeBlocks numTokens + (cfg.usableBlocks.filter (· ∈ pinned)).length ≤
        cfg.usableBlocks.length + (Manager.allBlocks cfg hits).countP (· ∈ pinned) := by
  have hZero : ∀ b, kv.refCnt b = 0 ↔ b ∉ pinned := by
    intro b
    rw [hRefs, List.count_eq_zero]
  have hFree : (kv.freeBlockIds cfg).length + (cfg.usableBlocks.filter (· ∈ pinned)).length =
      cfg.usableBlocks.length := by
    have hSame : kv.freeBlockIds cfg = cfg.usableBlocks.filter (fun b => !decide (b ∈ pinned)) := by
      unfold Manager.freeBlockIds Config.usableBlocks
      rw [List.filter_filter]
      refine List.filter_congr fun b _ => ?_
      simp [hZero, and_comm]
    rw [hSame, Nat.add_comm]
    exact (List.length_eq_length_filter_add _).symm
  have hTouched : (Manager.allBlocks cfg hits).countP (fun b => kv.refCnt b = 0) +
      (Manager.allBlocks cfg hits).countP (· ∈ pinned) = (Manager.allBlocks cfg hits).length := by
    have hSame : (Manager.allBlocks cfg hits).countP (fun b => decide (kv.refCnt b = 0)) =
        (Manager.allBlocks cfg hits).countP (fun b => ¬ (decide (b ∈ pinned) = true)) :=
      List.countP_congr fun b _ => by simp [hZero]
    rw [hSame, Nat.add_comm]
    exact (List.length_eq_countP_add_countP _).symm
  have hWhole := newBlockCount_add_hits hEmpty hWindow hHits hLe
  unfold Manager.numBlocksToAllocate
  omega

end Count

/-! ### The first round -/

section First

variable {cfg : Config} {hashing : Hashing H X} {subBlockSize : Nat} {up : Upstream H} {s : State H}
  {id : ReqId}

variable (hashing up s id) in
/-- Without a connector a partial match is always kept. -/
theorem trySubBlockMatch_local (hSize : cfg.subBlockSize = some subBlockSize) :
    let looked := (Locals.start cfg up s).trySubBlockMatch cfg hashing up id
      (s.cachedHits cfg hashing up id).2 0
    looked.subBlockMatch = s.partialMatch cfg hashing subBlockSize up id ∧
      ∀ b, looked.st.kv.refCnt b =
        s.kv.refCnt b + (s.pinned cfg hashing subBlockSize up id).count b := by
  have hPos : 0 < subBlockSize := (cfg.subBlockSize_fits subBlockSize hSize).1
  unfold Locals.trySubBlockMatch State.pinned State.partialMatch
  have hStart : (Locals.start cfg up s).st = s := rfl
  simp only [hSize, hStart]
  cases hGet : s.kv.getComputedBlocksSubBlock cfg hashing subBlockSize up.choose id (s.requests id)
      (s.cachedHits cfg hashing up id).2 with
  | mk kv found =>
      rcases Manager.getComputedBlocksSubBlock_spec hPos hGet with ⟨rfl, hKv⟩ | ⟨found, rfl, rfl, -⟩
      · refine ⟨rfl, fun b => ?_⟩
        rcases hKv with rfl | rfl <;> rfl
      · simp only [Nat.zero_le, if_true, Option.map_some, Option.getD_some]
        exact ⟨trivial, fun _ => rfl⟩

/-- Nothing is running, nothing is held back and nothing is to be copied. -/
structure State.Idle (cfg : Config) (s : State H) : Prop where
  running : s.running = []
  outstanding : s.outstanding = []
  deferred : s.deferredFrees = []

/-- Then no block is referenced. -/
theorem State.Idle.refCnt (hIdle : s.Idle cfg) (hConnector : cfg.hasConnector = false)
    (hQueues : Queues cfg s []) (hLedger : Ledger cfg s []) (b : BlockId) : s.kv.refCnt b = 0 := by
  have hHeld : ∀ other ∈ s.ids, s.held cfg other = (fun _ => []) other := by
    intro other _
    have hRequest := hQueues.request other
    have hEmpty : s.kv.reqToBlocks other = Blocks.empty := by
      by_cases hWaits : (s.requests other).status.isWaiting = true
      · exact (hRequest.waiting_blocks hConnector hWaits).2.2
      · cases hStatus : (s.requests other).status with
        | unknown => exact hRequest.unknown_blocks hStatus
        | finished => exact hRequest.finished_blocks hConnector hStatus
        | running =>
            have hMem := hRequest.running.mpr hStatus
            rw [hIdle.running] at hMem
            cases hMem
        | waiting | waitingForRemoteKvs | waitingForStructuredOutput | preempted =>
            rw [hStatus] at hWaits
            exact absurd rfl hWaits
    unfold State.held
    rw [hEmpty, allBlocks_empty]
  have hTally : ∀ ids : List ReqId, Tally.tally ids (fun _ => ([] : List BlockId)) b = 0 := by
    intro ids
    induction ids with
    | nil => rfl
    | cons other ids ih => simpa using ih
  have hBalance := hLedger.refCnt b
  rw [Tally.tally_congr hHeld, hTally, hIdle.outstanding, hIdle.deferred] at hBalance
  simpa using hBalance

/-- What the first round does for the head request: it looks it up, and goes on when the
blocks are there. -/
theorem waitingRound_head (hSize : cfg.subBlockSize = some subBlockSize)
    (hConnector : cfg.hasConnector = false) (hBudget : 0 < cfg.maxNumScheduledTokens)
    (hRunning : 0 < cfg.maxNumRunningReqs) (hQueues : Queues cfg s []) (hSized : SizedOk cfg s)
    (hLedger : Ledger cfg s []) (hIdle : s.Idle cfg) (hPaused : up.pausedAll = false)
    (hQueue : ∀ kv, (up.freeQueue kv).Perm (kv.freeBlockIds cfg))
    (hHead : (Locals.start cfg up s).peekWaiting up = some id)
    (hReady : (s.requests id).isBlocked = false) {budget : DecodeBatchBudget}
    (hCap : 0 < budget.hardCap) :
    ∃ looked found, (Locals.start cfg up s).waitingRound cfg hashing up budget =
        looked.tryAdmit cfg up id found ∧
      Found cfg hashing up id (Locals.start cfg up s) looked found ∧ found.loadKvAsync = false ∧
      found.numComputedTokens + 1 ≤ (s.requests id).numTokens ∧
      ((looked.st.kv.allocateSlots cfg id (found.numSlots cfg ((s.requests id).waitingTokens cfg
        found.numComputedTokens)) (some (s.requests id).numTokens) found.hits
        up.freeQueue).isSome = true ↔ s.HeadFits cfg hashing subBlockSize up id) := by
  have hMem := peekWaiting_mem hHead
  have hWaits := hQueues.queued id (List.mem_append_left _ hMem)
  obtain ⟨-, hZero, hEmpty⟩ := (hQueues.request id).waiting_blocks hConnector hWaits
  obtain ⟨hKnown, hUnfinished⟩ := hQueues.live_of_queued hMem
  have hSizedId := hSized id hKnown hUnfinished
  have hNone : (Locals.start cfg up s).subBlockMatch = none := rfl
  obtain ⟨looked, found, hFind, hFound, hSync, hShort, hHits, hLooked, hSum⟩ :=
    findComputed_local hashing up hConnector hNone hZero hSizedId.pos
  have hHits : (found.hits, found.numLocal) = s.cachedHits cfg hashing up id := hHits
  refine ⟨looked, found, ?_, hFound, hSync, hShort, ?_⟩
  · unfold Locals.waitingRound
    rw [hHead]
    have hStatus : (s.requests id).status ≠ .waitingForRemoteKvs := by
      intro hRemote
      simp [Request.isBlocked, hRemote] at hReady
    have hGuard : ¬ ((Locals.start cfg up s).tokenBudget = 0 ∨
        (Locals.start cfg up s).st.running.length = cfg.maxNumRunningReqs ∨
        ¬ (budget.canAdmit (Locals.start cfg up s).admitted
          (((Locals.start cfg up s).st.requests id).status = .waitingForRemoteKvs)) = true) := by
      have hLength : s.running.length = 0 := by rw [hIdle.running]; rfl
      simp only [Locals.start, hPaused, Bool.false_eq_true, if_false, hLength,
        DecodeBatchBudget.canAdmit, hStatus, decide_false, false_and, not_false_eq_true, and_true,
        decide_eq_true_eq]
      omega
    have hReady' : ((Locals.start cfg up s).st.requests id).isBlocked = false := hReady
    simp only [hGuard, if_false, hReady', Bool.false_eq_true]
    have hSame : { Locals.start cfg up s with subBlockMatch := none } = Locals.start cfg up s := rfl
    rw [hSame, hFind]
  · have hLocal : found.numLocal = (s.cachedHits cfg hashing up id).2 := by rw [← hHits]
    have hFoundHits : found.hits = (s.cachedHits cfg hashing up id).1 := by rw [← hHits]
    rw [hLocal] at hLooked
    obtain ⟨hMatch, hRefCnt⟩ := trySubBlockMatch_local hashing up s id hSize
    rw [← hLooked] at hMatch hRefCnt
    have hRefs : ∀ b, looked.st.kv.refCnt b =
        (s.pinned cfg hashing subBlockSize up id).count b := by
      intro b
      rw [hRefCnt, hIdle.refCnt hConnector hQueues hLedger, Nat.zero_add]
    have hBlocks : looked.st.kv.reqToBlocks id = Blocks.empty := by
      obtain ⟨_, _, _, _, hEq, hSame, -⟩ := hFound.looked.keeps
      rw [hEq]
      exact (congrFun hSame id).trans hEmpty
    have hCached : found.numComputedTokens = s.numCached cfg hashing subBlockSize up id := by
      rw [hSum, hMatch, hLocal]
      rfl
    have hSlots : found.numSlots cfg ((s.requests id).waitingTokens cfg found.numComputedTokens) =
        s.numCached cfg hashing subBlockSize up id + (s.requests id).waitingTokens cfg
          (s.numCached cfg hashing subBlockSize up id) + cfg.numLookaheadTokens := by
      simp [Locals.Computed.numSlots, hSync, hCached]
    have hWindow := (cfg.subBlockSize_fits subBlockSize hSize).2.2
    have hFits := hSizedId.fits
    have hLe : found.numLocal ≤ found.numComputedTokens := by omega
    have hCount := fun n (hLe : found.numLocal ≤ min n cfg.maxModelLen) =>
      numBlocksToAllocate_le_iff hRefs hBlocks hWindow hFound.hits.length hLe
    rw [allocateSlots_isSome_iff hQueue, hSlots]
    have hShortLocal : found.numLocal < (s.requests id).numTokens := by
      have hShort : found.numComputedTokens + 1 ≤ (s.requests id).numTokens := hShort
      omega
    simp only [Option.mem_def, Option.some.injEq, forall_eq']
    rw [hCount _ (by omega), hCount _ (by omega)]
    unfold State.HeadFits State.numHeadTokens
    rw [hFoundHits]
    constructor
    · rintro ⟨hWhole, hChunk⟩
      rcases Nat.le_total (s.requests id).numTokens (s.numCached cfg hashing subBlockSize up id +
        (s.requests id).waitingTokens cfg (s.numCached cfg hashing subBlockSize up id) +
          cfg.numLookaheadTokens) with hOrder | hOrder
      · rw [Nat.max_eq_right hOrder]
        exact hChunk
      · rw [Nat.max_eq_left hOrder]
        exact hWhole
    · intro hBoth
      exact ⟨le_trans (Nat.add_le_add_right (cfg.wholeBlocks_mono (Nat.le_max_left _ _)) _) hBoth,
        le_trans (Nat.add_le_add_right (cfg.wholeBlocks_mono (Nat.le_max_right _ _)) _) hBoth⟩

end First

/-! ### The rest of the call -/

/-- The head request is in the step, and the step is within its bounds. -/
structure HeadIn (cfg : Config) (id : ReqId) (locals : Locals H) : Prop where
  sized : SizedOk cfg locals.st
  entered : id ∈ locals.scheduledNewReqs ++ locals.scheduledResumedReqs
  tokens : (locals.numScheduledTokens.map Prod.snd).sum + locals.tokenBudget ≤
    cfg.maxNumScheduledTokens
  running : locals.st.running.length ≤ cfg.maxNumRunningReqs

theorem admitWaiting_entered (locals : Locals H) (id : ReqId) (numComputedTokens numNewTokens : Nat)
    {other : ReqId}
    (hEntered : other = id ∨ other ∈ locals.scheduledNewReqs ++ locals.scheduledResumedReqs) :
    other ∈ (locals.admitWaiting id numComputedTokens numNewTokens).scheduledNewReqs ++
      (locals.admitWaiting id numComputedTokens numNewTokens).scheduledResumedReqs := by
  rw [List.mem_append] at hEntered
  simp only [Locals.admitWaiting, List.mem_append]
  split <;> simp only [List.mem_append, List.mem_singleton] <;> tauto

theorem headIn_waiting (cfg : Config) (hashing : Hashing H X) (up : Upstream H) (id : ReqId) :
    WaitingRule cfg hashing up (HeadIn cfg id) (HeadIn cfg id) where
  last hIn := hIn
  skip hOk hIn hNone hMem :=
    ⟨(sized_waiting cfg hashing up).skip hOk hIn.sized hNone hMem, hIn.entered, hIn.tokens, hIn.running⟩
  promote {locals other} numLoadedTokens hOk hIn hNone hMem hBlocked hPromote := by
    have hSized := (sized_waiting cfg hashing up).promote numLoadedTokens hOk hIn.sized hNone hMem
      hBlocked hPromote
    obtain ⟨st, hEq, hRunning, -⟩ := promoteRequest_eq cfg hashing locals other numLoadedTokens
    rw [hEq] at hSized ⊢
    exact ⟨hSized, hIn.entered, hIn.tokens, hRunning ▸ hIn.running⟩
  look hOk hIn hNone hMem hFound := by
    obtain ⟨_, _, _, _, rfl, -⟩ := hFound.looked.keeps
    exact ⟨hIn.sized, hIn.entered, hIn.tokens, hIn.running⟩
  await hStart hIn hSeated hAsync hExternal :=
    ⟨(sized_waiting cfg hashing up).await hStart.sized hIn.sized hSeated hAsync hExternal, hIn.entered,
      hIn.tokens, hIn.running⟩
  join {start locals other found kv newBlocks ops} hStart hIn hSeated hSync hReady hOne hDecode
      hGuard := by
    obtain ⟨_, _, _, _, hEq, -⟩ := hSeated.search.looked.keeps
    have hTokens := hIn.tokens
    have hRunning := hIn.running
    have hBudget : locals.tokenBudget ≠ 0 := by
      rw [hEq]
      exact hSeated.room.1
    have hRoom : locals.st.running.length ≠ cfg.maxNumRunningReqs := by
      rw [hEq]
      exact hSeated.room.2
    refine ⟨(sized_waiting cfg hashing up).join hStart.sized hIn.sized hSeated hSync hReady hOne
      hDecode hGuard, admitWaiting_entered _ other found.numComputedTokens 1 (.inr hIn.entered), ?_, ?_⟩
    · simp only [Locals.admitWaiting, Locals.seatWaiting, List.map_append, List.sum_append,
        List.map_cons, List.map_nil, List.sum_cons, List.sum_nil]
      omega
    · simp only [Locals.admitWaiting, Locals.seatWaiting, State.modifyRequest, State.popWaiting,
        List.length_append, List.length_singleton]
      omega
  alone {start locals other found kv newBlocks ops} _ hIn hSeated _ _ _ hLeft hGuard := by
    refine absurd ⟨hSeated.isPrefill (by omega), ?_⟩ hGuard
    rcases List.mem_append.mp hIn.entered with hNew | hResumed
    · exact .inl (List.ne_nil_of_mem hNew)
    · exact .inr (List.ne_nil_of_mem hResumed)

/-- Once the head request is in, every further round ends and keeps it in. -/
theorem waitingRound_headIn {cfg : Config} {hashing : Hashing H X} {up : Upstream H} {id : ReqId}
    {budget : DecodeBatchBudget} (hConnector : cfg.hasConnector = false)
    (hBudget : 0 < cfg.maxNumScheduledTokens) {locals : Locals H} (hOk : WaitingOk cfg locals)
    (hIn : HeadIn cfg id locals) (hNone : locals.subBlockMatch = none) :
    (∃ locals', locals.waitingRound cfg hashing up budget = some (.stop locals') ∧
        WaitingOk cfg locals' ∧ HeadIn cfg id locals') ∨
      ∃ locals', locals.waitingRound cfg hashing up budget = some (.more locals') ∧
        (WaitingOk cfg locals' ∧ HeadIn cfg id locals') ∧ locals'.subBlockMatch = none := by
  obtain ⟨next, hRound⟩ := waitingRound_total hOk hConnector hBudget hNone hIn.sized
  obtain ⟨locals', hOk', ⟨rfl, hIn'⟩ | ⟨rfl, hIn', hNone'⟩⟩ :=
    waitingRound_rule (headIn_waiting cfg hashing up id) hOk hIn hNone hRound
  · exact .inl ⟨locals', hRound, hOk', hIn'⟩
  · exact .inr ⟨locals', hRound, ⟨hOk', hIn'⟩, hNone'⟩

/-- The step of a call that scheduled the head request. -/
structure HeadDone (cfg : Config) (id : ReqId) (locals : Locals H) : Prop where
  scheduled : id ∈ locals.numScheduledTokens.map Prod.fst
  tokens : (locals.numScheduledTokens.map Prod.snd).sum ≤ cfg.maxNumScheduledTokens
  running : locals.st.running.length ≤ cfg.maxNumRunningReqs

theorem HeadIn.done {cfg : Config} {id : ReqId} {locals : Locals H} (hIn : HeadIn cfg id locals)
    (hBooks : Books locals) : HeadDone cfg id locals := by
  have hTokens := hIn.tokens
  have hEntered := hIn.entered
  refine ⟨?_, by omega, hIn.running⟩
  rw [hBooks.mem_iff, Locals.scheduledReqs, List.append_assoc]
  exact List.mem_append_right _ hEntered

section Admission

variable {cfg : Config} {hashing : Hashing H X} {up : Upstream H} {s : State H} {id : ReqId}

/-- The head request enters the step when its blocks are there. -/
theorem tryAdmit_head {looked : Locals H} {found : Locals.Computed} {next : Next (Locals H)}
    (hBudget : 0 < cfg.maxNumScheduledTokens) (hRunning : 0 < cfg.maxNumRunningReqs)
    (hPaused : up.pausedAll = false)
    (hQueues : Queues cfg s []) (hSized : SizedOk cfg s) (hIdle : s.running = [])
    (hMem : id ∈ s.waiting ++ s.skippedWaiting)
    (hFound : Found cfg hashing up id (Locals.start cfg up s) looked found)
    (hSync : found.loadKvAsync = false)
    (hAlloc : (looked.st.kv.allocateSlots cfg id (found.numSlots cfg ((s.requests id).waitingTokens
      cfg found.numComputedTokens)) (some (s.requests id).numTokens) found.hits
        up.freeQueue).isSome = true)
    (hTry : looked.tryAdmit cfg up id found = some next) :
    ∃ locals, WaitingOk cfg locals ∧ (next = .stop locals ∧ HeadDone cfg id locals ∨
      next = .more locals ∧ HeadIn cfg id locals ∧ locals.subBlockMatch = none) := by
  have hStart : WaitingOk cfg (Locals.start cfg up s) :=
    ⟨hQueues, ⟨by simp [Locals.start, Locals.scheduledReqs], by simp [Locals.start,
      Locals.scheduledReqs], by simp [Locals.start, Locals.scheduledReqs]⟩, rfl⟩
  have hOk := hStart.looked hFound.looked
  obtain ⟨_, _, _, _, hLooked, -⟩ := hFound.looked.keeps
  have hRequests : looked.st.requests = s.requests := by rw [hLooked]; rfl
  have hNoNew : looked.scheduledNewReqs = [] ∧ looked.scheduledResumedReqs = [] := by
    rw [hLooked]
    exact ⟨rfl, rfl⟩
  have hRows : looked.numScheduledTokens = [] := by rw [hLooked]; rfl
  have hTokens : looked.tokenBudget = cfg.maxNumScheduledTokens := by
    rw [hLooked]
    simp [Locals.start, hPaused]
  have hNone : looked.st.running = [] := by
    rw [hLooked]
    exact hIdle
  have hStartSized : SizedOk cfg (Locals.start cfg up s).st := hSized
  have hLookedSized : SizedOk cfg looked.st :=
    (sized_waiting cfg hashing up).look hStart hStartSized rfl hMem hFound
  rw [← hRequests] at hAlloc
  unfold Locals.tryAdmit at hTry
  simp only [hSync, Bool.false_eq_true, if_false] at hTry
  split at hTry
  · cases hTry
  rename_i hSome
  split at hTry
  · rename_i hGuard
    exact absurd hGuard.2 (by simp [hNoNew])
  rename_i hGuard
  split at hTry
  · cases hTry
  · rename_i hFails
    have hSlots : found.numSlots cfg ((looked.st.requests id).waitingTokens cfg
        found.numComputedTokens) = found.numComputedTokens + (looked.st.requests id).waitingTokens cfg
          found.numComputedTokens + (if found.loadKvAsync ∧ cfg.useEagle then 0
            else cfg.numLookaheadTokens) := rfl
    rw [hSlots] at hAlloc
    unfold Locals.allocateWaiting at hFails
    dsimp only at hFails
    split at hFails
    · rename_i hNoSlots
      rw [hNoSlots] at hAlloc
      cases hAlloc
    · split at hFails
      · cases hFails
      · split at hFails <;> cases hFails
  rename_i seated hSeats
  obtain ⟨kv, newBlocks, ops, hKv, hOps, rfl⟩ := allocateWaiting_spec hSeats
  have hRoom : (Locals.start cfg up s).tokenBudget ≠ 0 ∧
      (Locals.start cfg up s).st.running.length ≠ cfg.maxNumRunningReqs := by
    have hLength : (Locals.start cfg up s).st.running.length = 0 := congrArg List.length hIdle
    have hTokens : (Locals.start cfg up s).tokenBudget = cfg.maxNumScheduledTokens := by
      simp [Locals.start, hPaused]
    omega
  have hSeated : Seated cfg hashing up id ((looked.st.requests id).waitingTokens cfg
      found.numComputedTokens) (Locals.start cfg up s) looked found kv newBlocks ops :=
    ⟨hStart, rfl, hMem, hFound, hOk, hKv, hOps, hRoom⟩
  have hLe := (waitingTokens_le cfg (looked.st.requests id) found.numComputedTokens).2
  simp only [Locals.joinStep] at hTry
  split at hTry
  · cases hTry
  split at hTry
  · cases hTry
    refine ⟨_, (hSeated.startRunning _ _).evict, .inl ⟨rfl, ?_⟩⟩
    have hAlone := hSeated.aloneRows hNoNew
      ((looked.st.requests id).waitingTokens cfg found.numComputedTokens)
    refine ⟨by simp [hAlone], by simpa [hAlone] using hLe, ?_⟩
    rw [evictDecodes_eq cfg (hSeated.startRunning _ _).scheduledRunning_nodup]
    simpa [Locals.withoutDecodes, Locals.admitWaiting, Locals.seatWaiting, State.modifyRequest,
      State.popWaiting, hNone] using Nat.succ_le_of_lt hRunning
  · split at hTry
    · cases hTry
    rename_i hOne
    have hOne := not_not.mp hOne
    rw [hOne] at hTry
    have hAdmit := hSeated.startRunning found.numComputedTokens 1
    refine ⟨{ (looked.seatWaiting kv ops).admitWaiting id found.numComputedTokens 1 with
        admitted := looked.admitted + 1 },
      ⟨hAdmit.queues, hAdmit.books.congr rfl rfl rfl, hAdmit.noPreempted⟩,
      .inr ⟨(Option.some.inj hTry).symm,
        ⟨?_, admitWaiting_entered _ id found.numComputedTokens 1 (.inl rfl), ?_, ?_⟩, rfl⟩⟩
    · exact hLookedSized.queued hOk.queues hSeated.queued_locals rfl
    · simp only [Locals.admitWaiting, Locals.seatWaiting, hRows, hTokens, List.nil_append,
        List.map_cons, List.map_nil, List.sum_cons, List.sum_nil]
      omega
    · simpa [Locals.admitWaiting, Locals.seatWaiting, State.modifyRequest, State.popWaiting, hNone]
        using Nat.succ_le_of_lt hRunning

variable (hashing) in
/-- With nothing running, a call is its waiting loop. -/
theorem loops_idle (hIdle : s.running = []) (hPaused : up.pausedAll = false ∧ up.pausedNew = false)
    {budget : DecodeBatchBudget}
    (hForStep : budget = DecodeBatchBudget.forStep cfg (s.decodeDemand up.numReadyRemoteKv))
    (hCap : 0 < budget.hardCap) :
    Locals.loops cfg hashing up s = (loop (Locals.waitingRound cfg hashing up budget)
      (s.waiting.length + s.skippedWaiting.length + 1) (Locals.start cfg up s)).map
        (Locals.leaveWaitingLoop cfg) := by
  unfold Locals.loops
  rw [← hForStep]
  dsimp only
  rw [if_neg (Nat.pos_iff_ne_zero.mp hCap)]
  have hRound : (Locals.start cfg up s).runningRound cfg hashing up budget =
      some (.stop (Locals.start cfg up s)) := by
    unfold Locals.runningRound
    have hNone : (Locals.start cfg up s).st.running[(Locals.start cfg up s).reqIndex]? = none := by
      simp [Locals.start, hIdle]
    rw [hNone]
  simp only [loop, hRound, Option.bind_some, Locals.scheduleWaiting]
  have hGuard : ¬ ((Locals.start cfg up s).preemptedReqs ≠ [] ∨ up.pausedAll = true ∨
      up.pausedNew = true ∨ false = true) := by
    simp [Locals.start, hPaused]
  exact if_neg hGuard

theorem HeadDone.leave {locals : Locals H} (hDone : HeadDone cfg id locals) :
    HeadDone cfg id (locals.leaveWaitingLoop cfg) := by
  refine ⟨hDone.scheduled, hDone.tokens, ?_⟩
  have hSame : (locals.leaveWaitingLoop cfg).st.running = locals.st.running := by
    unfold Locals.leaveWaitingLoop
    dsimp only
    split <;> rfl
  rw [hSame]
  exact hDone.running

theorem HeadDone.consistent {locals : Locals H} (hDone : HeadDone cfg id locals)
    (hBooks : Books locals) : locals.consistent cfg = true := by
  simp only [Locals.consistent, decide_eq_true_eq]
  exact ⟨hDone.tokens, hDone.running, (hBooks.nodup.subperm hBooks.running).length_le⟩

end Admission

/-- A pool of three usable blocks. -/
def Config.tight : Config := { Config.small with numBlocks := 4 }

/-- A request of three tokens leaves half a block in the cache, and one that begins alike
arrives. -/
def tightRun (promptTokenIds : List Token) : List (Action SmallHash) :=
  [.addRequest 0 (.plain [1, 2, 3] 1), .schedule (.plain .tight), .updateFromOutput (.constant 5),
    .addRequest 1 (.plain promptTokenIds 2)]

end VllmRbln.Scheduler
