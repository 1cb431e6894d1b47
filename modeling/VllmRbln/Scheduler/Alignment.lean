import VllmRbln.Scheduler.Phase

/-! Chunks of a prefill start on multiples of the token budget. The compiled prefill
kernel writes a whole chunk into one KV block, so a chunk must not cross a block
boundary. -/
namespace VllmRbln.Scheduler

set_option linter.unusedSectionVars false

open SubBlock Run

variable {H X : Type} [DecidableEq H]

/-- The NIXL scheduler's `get_num_new_matched_tokens`: what the library reported, cut so
that the prefill of the rest starts on a chunk boundary. -/
def getNumNewMatchedTokens (maxNumBatchedTokens numPromptTokens numComputedTokens : Nat)
    (reported : Nat × Bool) : Nat × Bool :=
  let resume := numComputedTokens + reported.1
  if numPromptTokens ≤ resume then reported
  else
    let overshoot := resume % maxNumBatchedTokens
    if overshoot = 0 then reported
    else if reported.1 ≤ overshoot then (0, false)
    else (reported.1 - overshoot, reported.2)

/-- With `maxNumBatchedTokens` as the budget, a match leaves either nothing of the prompt
or a start on a boundary. -/
theorem getNumNewMatchedTokens_aligned {maxNumBatchedTokens numPromptTokens numComputedTokens : Nat}
    {reported : Nat × Bool}
    (hSome : (getNumNewMatchedTokens maxNumBatchedTokens numPromptTokens numComputedTokens
      reported).1 ≠ 0) :
    reported.1 ≠ 0 ∧
      (numPromptTokens ≤ numComputedTokens + (getNumNewMatchedTokens maxNumBatchedTokens
          numPromptTokens numComputedTokens reported).1 ∨
        maxNumBatchedTokens ∣ numComputedTokens + (getNumNewMatchedTokens maxNumBatchedTokens
          numPromptTokens numComputedTokens reported).1) := by
  unfold getNumNewMatchedTokens at hSome ⊢
  dsimp only at hSome ⊢
  split at hSome
  · rename_i hCovers
    rw [if_pos hCovers]
    exact ⟨hSome, .inl hCovers⟩
  rename_i hRest
  rw [if_neg hRest]
  split at hSome
  · rename_i hZero
    rw [if_pos hZero]
    exact ⟨hSome, .inr (Nat.dvd_of_mod_eq_zero hZero)⟩
  rename_i hOver
  rw [if_neg hOver]
  split at hSome
  · exact absurd rfl hSome
  rename_i hLess
  rw [if_neg hLess]
  refine ⟨by omega, .inr ?_⟩
  have hStart : numComputedTokens + (reported.1 - (numComputedTokens + reported.1) %
      maxNumBatchedTokens) = numComputedTokens + reported.1 -
        (numComputedTokens + reported.1) % maxNumBatchedTokens := by
    omega
  dsimp only
  rw [hStart]
  exact Nat.dvd_sub_mod _

/-- The connector is the NIXL one and its transfers do not fail: what the library
reports it reports once, and never past the prompt. -/
structure Upstream.Nixl (cfg : Config) (up : Upstream H) : Prop where
  matched : ∀ id request numComputedTokens answer,
    up.connectorMatch id request numComputedTokens = some answer → ∃ reported,
      answer = getNumNewMatchedTokens cfg.maxNumScheduledTokens request.numPromptTokens
        numComputedTokens reported ∧
      (reported.1 ≠ 0 → numComputedTokens + reported.1 ≤ request.numPromptTokens) ∧
      (0 < request.numPreemptions → reported.1 = 0)
  loaded : ∀ id request numLoadedTokens, up.promote id request = some numLoadedTokens →
    request.numComputedTokens ≤ numLoadedTokens

/-- The budget is one chunk: it divides every block, and sub-blocks are chunks. -/
structure Config.Chunked (cfg : Config) : Prop where
  threshold : cfg.longPrefillTokenThreshold = 0
  groups : 0 < cfg.numGroups
  divides : ∀ blockSize ∈ cfg.blockSizes, cfg.maxNumScheduledTokens ∣ blockSize
  subBlock : ∀ subBlockSize ∈ cfg.subBlockSize, subBlockSize = cfg.maxNumScheduledTokens

theorem Config.Chunked.pos {cfg : Config} (hChunked : cfg.Chunked) :
    0 < cfg.maxNumScheduledTokens := by
  have hMem := cfg.blockSize_mem hChunked.groups
  exact Nat.pos_of_dvd_of_pos (hChunked.divides _ hMem) (cfg.blockSizes_pos _ hMem)

/-- A chunk that starts on a boundary lies inside one block. -/
theorem Config.Chunked.inside {cfg : Config} (hChunked : cfg.Chunked) {start : Nat}
    (hStart : cfg.maxNumScheduledTokens ∣ start) {group : Nat} (hLt : group < cfg.numGroups) :
    start / cfg.blockSize group =
      (start + cfg.maxNumScheduledTokens - 1) / cfg.blockSize group := by
  have hPos := hChunked.pos
  obtain ⟨perBlock, hBlock⟩ := hChunked.divides _ (cfg.blockSize_mem hLt)
  obtain ⟨k, rfl⟩ := hStart
  have hChunk : (cfg.maxNumScheduledTokens * k + cfg.maxNumScheduledTokens - 1) /
      cfg.maxNumScheduledTokens = k := by
    rw [Nat.add_sub_assoc hPos, Nat.mul_add_div hPos, Nat.div_eq_of_lt (by omega), Nat.add_zero]
  rw [hBlock, ← Nat.div_div_eq_div_mul, ← Nat.div_div_eq_div_mul, hChunk,
    Nat.mul_div_cancel_left k hPos]

/-! ### Requests -/

/-- A request whose next chunk starts on a boundary. One that waits again starts over,
and one that never ran has its prompt alone. -/
structure Request.Aligned (chunk : Nat) (request : Request) : Prop where
  start : request.isPrefill = true → chunk ∣ request.numComputedTokens
  resumed : request.status.isWaiting → 0 < request.numPreemptions → request.numComputedTokens = 0
  fresh : request.status.isWaiting → request.numPreemptions = 0 →
    request.numTokens = request.numPromptTokens

theorem Request.Aligned.congr {chunk : Nat} {request request' : Request}
    (hAligned : request.Aligned chunk) (hCore : request'.core = request.core)
    (hPrompt : request'.numPromptTokens = request.numPromptTokens) : request'.Aligned chunk := by
  obtain ⟨hStatus, hPreemptions, hComputed, hTokens⟩ := Request.core_eq_iff.mp hCore
  refine ⟨fun hPrefill => ?_, fun hWaits hAgain => ?_, fun hWaits hNever => ?_⟩
  · rw [hComputed]
    exact hAligned.start (Request.isPrefill_congr hComputed hTokens ▸ hPrefill)
  · rw [hComputed]
    exact hAligned.resumed (hStatus ▸ hWaits) (hPreemptions ▸ hAgain)
  · rw [hTokens, hPrompt]
    exact hAligned.fresh (hStatus ▸ hWaits) (hPreemptions ▸ hNever)

/-- The requests of a state, as long as none was admitted with a step of its own still
in flight. -/
def CleanAligned (chunk : Nat) (s : State H) : Prop :=
  s.staleAdmissions = [] → ∀ id, (s.requests id).status ≠ .unknown →
    (s.requests id).status ≠ .finished → (s.requests id).Aligned chunk

/-- One request changes. -/
theorem CleanAligned.change {chunk : Nat} {s s' : State H} (hAligned : CleanAligned chunk s)
    (id : ReqId) (hStale : s'.staleAdmissions = [] → s.staleAdmissions = [])
    (hOthers : ∀ other, other ≠ id → s'.requests other = s.requests other)
    (hSelf : s'.staleAdmissions = [] → (s'.requests id).status ≠ .unknown →
      (s'.requests id).status ≠ .finished → (s'.requests id).Aligned chunk) :
    CleanAligned chunk s' := by
  intro hClean other hKnown hUnfinished
  by_cases hEq : other = id
  · subst hEq
    exact hSelf hClean hKnown hUnfinished
  · rw [hOthers other hEq] at hKnown hUnfinished ⊢
    exact hAligned (hStale hClean) other hKnown hUnfinished

/-- Nothing that alignment reads changes. -/
theorem CleanAligned.keep {chunk : Nat} {s s' : State H} (hAligned : CleanAligned chunk s)
    (hStale : s'.staleAdmissions = s.staleAdmissions)
    (hSame : ∀ id, (s'.requests id).core = (s.requests id).core ∧
      (s'.requests id).numPromptTokens = (s.requests id).numPromptTokens) :
    CleanAligned chunk s' := by
  intro hClean id hKnown hUnfinished
  obtain ⟨hCore, hPrompt⟩ := hSame id
  have hStatus := (Request.core_eq_iff.mp hCore).1
  exact (hAligned (hStale ▸ hClean) id (hStatus ▸ hKnown) (hStatus ▸ hUnfinished)).congr hCore
    hPrompt

/-! ### The loops -/

theorem aligned_running (cfg : Config) (hashing : Hashing H X) (up : Upstream H) (chunk : Nat) :
    RunningRule cfg hashing up fun locals => CleanAligned chunk locals.st where
  pass _ hInv _ _ _ := hInv
  preempt {locals locals' id} hOk hInv hVictim hPre := by
    refine hInv.change id (fun hClean => ?_) (fun other hNe => hPre.requests_of_ne hNe)
      fun _ _ _ => ?_
    · rw [hPre.st] at hClean
      exact hClean
    · have hSelf : locals'.st.requests id = { locals.st.requests id with
          status := .preempted
          numComputedTokens := 0
          specTokenIds := []
          numPreemptions := (locals.st.requests id).numPreemptions + 1 } := by
        rw [hPre.st]
        exact Function.update_self ..
      rw [hSelf]
      exact ⟨fun _ => Nat.dvd_zero _, fun _ _ => rfl, fun _ hNever => absurd hNever (by simp)⟩
  grant {id numNewTokens start locals kv newBlocks} _ hInv _ := by
    refine hInv.keep rfl fun other => ?_
    by_cases hEq : other = id
    · subst hEq
      simp [Locals.grantRunning, Locals.scheduleRunning, State.modifyRequest, Request.core,
        Request.numTokens]
    · simp [Locals.grantRunning, Locals.scheduleRunning, State.modifyRequest, hEq]

section Search

variable {cfg : Config} {hashing : Hashing H X} {up : Upstream H} {id : ReqId}
  {locals locals' : Locals H} {found : Locals.Computed}

/-- Cached full blocks end on a boundary. -/
theorem Found.local_aligned (hFound : Found cfg hashing up id locals locals' found)
    (hChunked : cfg.Chunked) : cfg.maxNumScheduledTokens ∣ found.numLocal := by
  rw [← hFound.hits.length 0 hChunked.groups]
  exact Dvd.dvd.mul_left (hChunked.divides _ (cfg.blockSize_mem hChunked.groups)) _

/-- So do the copied sub-blocks. -/
theorem Found.subBlock_aligned (hFound : Found cfg hashing up id locals locals' found)
    (hChunked : cfg.Chunked) (hNone : locals.subBlockMatch = none) :
    cfg.maxNumScheduledTokens ∣ found.numSubBlock := by
  rw [hFound.numSubBlock]
  cases hFound.looked with
  | untouched => simp [hNone]
  | hashed hSize => simp [hNone]
  | outdone hSize => simp [hNone]
  | @matched subBlockSize subBlockMatch hSize hMatch =>
      obtain ⟨_, numMatched, -, -, hTokens, -⟩ := hMatch.exists_found
      rw [← hChunked.subBlock subBlockSize hSize]
      simp [hTokens]

/-- What the connector brings of a request's first prompt ends on one too, or covers the
prompt. -/
theorem Found.external_aligned (hFound : Found cfg hashing up id locals locals' found)
    (hUp : cfg.hasConnector = true → up.Nixl cfg) (hSome : found.numExternal ≠ 0) :
    (locals.st.requests id).numPreemptions = 0 ∧
      ((locals.st.requests id).numPromptTokens ≤ found.numLocal + found.numExternal ∨
        cfg.maxNumScheduledTokens ∣ found.numLocal + found.numExternal) := by
  have hConnector : cfg.hasConnector = true := by
    by_contra hNot
    exact hSome (hFound.numExternal (by simpa using hNot))
  obtain ⟨loadKvAsync, hMatch⟩ := hFound.external hSome
  obtain ⟨reported, hAnswer, -, hAgain⟩ := (hUp hConnector).matched _ _ _ _ hMatch
  have hCount : found.numExternal = (getNumNewMatchedTokens cfg.maxNumScheduledTokens
      (locals.st.requests id).numPromptTokens found.numLocal reported).1 := congrArg Prod.fst hAnswer
  rw [hCount] at hSome
  obtain ⟨hReported, hEnds⟩ := getNumNewMatchedTokens_aligned hSome
  rw [← hCount] at hEnds
  refine ⟨?_, hEnds⟩
  by_contra hPreempted
  exact hReported (hAgain (Nat.pos_of_ne_zero hPreempted))

/-- A request that is looked at resumes on a boundary, unless no prefill is left. -/
theorem Found.aligned (hFound : Found cfg hashing up id locals locals' found)
    (hChunked : cfg.Chunked) (hUp : cfg.hasConnector = true → up.Nixl cfg)
    (hNone : locals.subBlockMatch = none)
    (hAligned : (locals.st.requests id).Aligned cfg.maxNumScheduledTokens)
    (hWaits : (locals.st.requests id).status.isWaiting = true)
    (hLeft : found.numComputedTokens + 1 < (locals.st.requests id).numTokens) :
    cfg.maxNumScheduledTokens ∣ found.numComputedTokens := by
  rcases hFound.computed with ⟨-, hSum, -⟩ | ⟨-, -, -, hLoaded⟩
  · have hLocal := hFound.local_aligned hChunked
    have hSubBlock := hFound.subBlock_aligned hChunked hNone
    by_cases hZero : found.numExternal = 0
    · rw [hSum, hZero, Nat.add_zero]
      exact Nat.dvd_add hLocal hSubBlock
    · obtain ⟨hNever, hEnds⟩ := hFound.external_aligned hUp hZero
      rcases hEnds with hCovers | hEnds
      · have hPrompt := hAligned.fresh hWaits hNever
        omega
      · have hOrder : found.numComputedTokens =
            found.numLocal + found.numExternal + found.numSubBlock := by omega
        rw [hOrder]
        exact Nat.dvd_add hEnds hSubBlock
  · rw [hLoaded]
    refine hAligned.start ?_
    rw [Request.isPrefill_iff]
    omega

end Search

section Seated

variable {cfg : Config} {hashing : Hashing H X} {up : Upstream H} {id : ReqId} {numNewTokens : Nat}
  {start locals : Locals H} {found : Locals.Computed} {kv : Manager H} {newBlocks : Blocks}
  {ops : List KVCacheCopyOp}

/-- A seated request in its new status, with what was found for it. -/
theorem Seated.aligned
    (hSeated : Seated cfg hashing up id numNewTokens start locals found kv newBlocks ops)
    (hChunked : cfg.Chunked) (hUp : cfg.hasConnector = true → up.Nixl cfg)
    (hAligned : CleanAligned cfg.maxNumScheduledTokens locals.st)
    (hClean : locals.st.staleAdmissions = []) {status : RequestStatus}
    (hStatus : status = .running ∨ found.numExternal ≠ 0) :
    Request.Aligned cfg.maxNumScheduledTokens { locals.st.requests id with
      status := status, numComputedTokens := found.numComputedTokens } := by
  obtain ⟨_, _, _, _, hEq, -⟩ := hSeated.search.looked.keeps
  have hSame : locals.st.requests id = start.st.requests id := by rw [hEq]
  have hMem := hSeated.queued_locals
  obtain ⟨hKnown, hUnfinished⟩ := hSeated.ok.queues.live_of_queued hMem
  have hOld := hAligned hClean id hKnown hUnfinished
  have hWaits := hSeated.ok.queues.queued id (List.mem_append_left _ hMem)
  refine ⟨fun hPrefill => ?_, fun hStill hAgain => ?_, fun hStill hNever => ?_⟩
  · rw [Request.isPrefill_iff] at hPrefill
    rw [hSame] at hOld hWaits hPrefill
    exact hSeated.search.aligned hChunked hUp hSeated.noMatch hOld hWaits hPrefill
  · rcases hStatus with rfl | hExternal
    · cases hStill
    · have hNever := (hSeated.search.external_aligned hUp hExternal).1
      rw [← hSame] at hNever
      exact absurd hAgain (by simp [hNever])
  · exact hOld.fresh hWaits hNever

end Seated

theorem aligned_waiting {cfg : Config} (hashing : Hashing H X) {up : Upstream H}
    (hChunked : cfg.Chunked) (hUp : cfg.hasConnector = true → up.Nixl cfg) :
    WaitingRule cfg hashing up (fun locals => CleanAligned cfg.maxNumScheduledTokens locals.st)
      fun locals => CleanAligned cfg.maxNumScheduledTokens locals.st where
  last hInv := hInv
  skip _ hInv _ _ := hInv.keep rfl fun _ => ⟨rfl, rfl⟩
  promote {locals id} numLoadedTokens hOk hInv _ hMem hBlocked hPromote := by
    obtain ⟨hKnown, hUnfinished⟩ := hOk.queues.live_of_queued hMem
    have hWaits := hOk.queues.queued id (List.mem_append_left _ hMem)
    obtain ⟨_, _, hRequests, -, -, hStale⟩ :=
      promoteRequest_requests cfg hashing locals id numLoadedTokens
    refine hInv.change id (fun hClean => hStale ▸ hClean) (fun other hNe => ?_) fun hClean _ _ => ?_
    · rw [hRequests, Function.update_of_ne hNe]
    have hOld := hInv (hStale ▸ hClean) id hKnown hUnfinished
    clear hRequests hStale
    unfold Locals.promoteRequest
    dsimp only
    split
    · -- a finished load keeps its count, short of the last token
      rename_i hRemote
      have hConnector : cfg.hasConnector = true := by
        by_contra hNot
        exact ((hOk.queues.request id).waiting_blocks (by simpa using hNot) hWaits).1 hRemote
      have hLoaded := (hUp hConnector).loaded _ _ _ hPromote
      have hAligned : Request.Aligned cfg.maxNumScheduledTokens { locals.st.requests id with
          status := (locals.st.requests id).readyStatus
          numComputedTokens := min (min numLoadedTokens (locals.st.requests id).numComputedTokens)
            ((locals.st.requests id).numTokens - 1) } := by
        refine ⟨fun hPrefill => ?_, fun _ hAgain => ?_, fun _ hNever => hOld.fresh hWaits hNever⟩
        · have hLeft := Request.isPrefill_iff.mp hPrefill
          change min _ _ + 1 < (locals.st.requests id).numTokens at hLeft
          have hSame : min (min numLoadedTokens (locals.st.requests id).numComputedTokens)
              ((locals.st.requests id).numTokens - 1) =
                (locals.st.requests id).numComputedTokens := by omega
          dsimp only
          rw [hSame]
          exact hOld.start (Request.isPrefill_iff.mpr (by omega))
        · have hZero := hOld.resumed hWaits hAgain
          simp [hZero]
      split
      · simpa [State.freeRequestBlocks, State.modifyRequest] using hAligned
      · simpa [State.modifyRequest] using hAligned
    · simp only [State.modifyRequest, Function.update_self]
      exact ⟨hOld.start, fun _ => hOld.resumed hWaits, fun _ => hOld.fresh hWaits⟩
  look {locals locals' id found} _ hInv _ _ hFound := by
    obtain ⟨_, _, _, _, rfl, -⟩ := hFound.looked.keeps
    exact hInv
  await {start locals id found kv newBlocks ops} _ hInv hSeated _ hExternal := by
    refine hInv.change id (fun hClean => hClean) (fun other hNe => Function.update_of_ne hNe ..)
      fun hClean _ _ => ?_
    have hSelf : ((locals.seatWaiting kv ops).awaitRemoteKv cfg id
        found.numComputedTokens).st.requests id = { locals.st.requests id with
          status := .waitingForRemoteKvs, numComputedTokens := found.numComputedTokens } :=
      Function.update_self ..
    rw [hSelf]
    exact hSeated.aligned hChunked hUp hInv hClean (.inr hExternal)
  join {start locals id found kv newBlocks ops} _ hInv hSeated _ _ _ _ _ := by
    refine hInv.change id (fun hClean => (admitWaiting_clean 1 hClean).1)
      (fun other hNe => Function.update_of_ne hNe ..) fun hClean _ _ => ?_
    have hSelf : ((locals.seatWaiting kv ops).admitWaiting id found.numComputedTokens 1).st.requests
        id = { locals.st.requests id with
          status := .running, numComputedTokens := found.numComputedTokens } :=
      Function.update_self ..
    dsimp only
    rw [hSelf]
    exact hSeated.aligned hChunked hUp hInv (admitWaiting_clean 1 hClean).1 (.inl rfl)
  alone {start locals id found kv newBlocks ops} _ hInv hSeated _ _ _ _ _ := by
    generalize (locals.st.requests id).waitingTokens cfg found.numComputedTokens = numTokens
      at hSeated ⊢
    rw [evictDecodes_eq cfg (hSeated.startRunning _ _).scheduledRunning_nodup]
    have hEntered : CleanAligned cfg.maxNumScheduledTokens ((locals.seatWaiting kv ops).admitWaiting
        id found.numComputedTokens numTokens).st := by
      refine hInv.change id (fun hClean => (admitWaiting_clean numTokens hClean).1)
        (fun other hNe => Function.update_of_ne hNe ..) fun hClean _ _ => ?_
      have hSelf : ((locals.seatWaiting kv ops).admitWaiting id found.numComputedTokens
          numTokens).st.requests id = { locals.st.requests id with
            status := .running, numComputedTokens := found.numComputedTokens } :=
        Function.update_self ..
      rw [hSelf]
      exact hSeated.aligned hChunked hUp hInv (admitWaiting_clean numTokens hClean).1 (.inl rfl)
    refine hEntered.keep rfl fun other => ?_
    simp only [Locals.withoutDecodes]
    split <;> exact ⟨rfl, rfl⟩

theorem CleanAligned.loops {cfg : Config} {hashing : Hashing H X} {up : Upstream H}
    (hChunked : cfg.Chunked) (hUp : cfg.hasConnector = true → up.Nixl cfg) {s : State H}
    (hQueues : Queues cfg s []) (hAligned : CleanAligned cfg.maxNumScheduledTokens s)
    {locals : Locals H} (hLoops : Locals.loops cfg hashing up s = some locals) :
    CleanAligned cfg.maxNumScheduledTokens locals.st := by
  refine (loops_rule (fun locals => CleanAligned cfg.maxNumScheduledTokens locals.st)
    (aligned_running cfg hashing up _) (aligned_waiting hashing hChunked hUp) hQueues hAligned
    (fun _ _ hInv _ => hInv) (fun _ _ hInv _ _ => hInv) (fun mid _ hInv => ?_) hLoops).2
  refine hInv.keep ?_ fun id => ?_
  · unfold Locals.leaveWaitingLoop
    dsimp only
    split <;> rfl
  · unfold Locals.leaveWaitingLoop
    dsimp only
    split <;> exact ⟨rfl, rfl⟩

/-- A chunk that is not the last has the whole budget, so the next one starts on a
boundary again. -/
theorem CleanAligned.finish {cfg : Config} (hashing : Hashing H X) (hChunked : cfg.Chunked)
    {locals : Locals H} (hAligned : CleanAligned cfg.maxNumScheduledTokens locals.st)
    (hStep : StepOk cfg locals) (hOk : LoopsOk cfg locals) :
    CleanAligned cfg.maxNumScheduledTokens (locals.finish cfg hashing) := by
  intro hClean id hKnown hUnfinished
  have hOld := hAligned hClean id
  cases hLookup : locals.numScheduledTokens.lookup id with
  | none =>
      have hSame : (locals.finish cfg hashing).requests id = locals.st.requests id := by
        simp [Locals.finish, hLookup]
      rw [hSame] at hKnown hUnfinished ⊢
      exact hOld hKnown hUnfinished
  | some numNewTokens =>
      have hSelf : (locals.finish cfg hashing).requests id = advanceRequest cfg numNewTokens
          (locals.scheduledSpecDecodeTokens id) (locals.st.requests id) := by
        simp [Locals.finish, hLookup]
      obtain ⟨hStatus, -, hTokens, hComputed⟩ := advanceRequest_keeps cfg numNewTokens
        (locals.scheduledSpecDecodeTokens id) (locals.st.requests id)
      have hRow := mem_of_lookup hLookup
      have hRuns := (hOk.queues.request id).running.mp
        (hOk.books.running id (hOk.books.mem_iff.mp (List.mem_map_of_mem hRow)))
      have hNotWaiting : ¬ ((locals.finish cfg hashing).requests id).status.isWaiting = true := by
        rw [hSelf, hStatus, hRuns]
        simp [RequestStatus.isWaiting]
      refine ⟨fun hPrefill => ?_, fun hWaits => absurd hWaits hNotWaiting,
        fun hWaits => absurd hWaits hNotWaiting⟩
      rw [hSelf, Request.isPrefill_iff, Request.numTokens, hTokens, hComputed] at hPrefill
      rw [hSelf, hComputed]
      rcases (hStep hClean).2 with ⟨only, numTokens, hRows, hChunk⟩ | hRows
      · rw [hRows, List.mem_singleton] at hRow
        cases hRow
        rw [hChunk.chunk hChunked.threshold hPrefill]
        exact Nat.dvd_add_self_right.mpr
          ((hOld (by simp [hRuns]) (by simp [hRuns])).start hChunk.prefill)
      · have hCovered := (hRows (id, numNewTokens) hRow).covered
        simp only [Request.numTokens] at hCovered
        omega

/-! ### Runs -/

/-- An output moves no start: a prefill takes no token, and a preempted request has
nothing to take back. -/
theorem aligned_settle (cfg : Config) (hashing : Hashing H X) (result : RunnerOutput)
    (output : SchedulerOutput) (chunk : Nat) :
    SettleRule cfg hashing result output fun todo s =>
      CleanUpdate cfg output todo s ∧ CleanAligned chunk s where
  pass hQueues hInv hGone := ⟨(phase_settle cfg hashing result output).pass hQueues hInv.1 hGone,
    hInv.2⟩
  receive {s id todo} hQueues hInv hAdmitted hKnown hUnfinished hGoes := by
    refine ⟨(phase_settle cfg hashing result output).receive hQueues hInv.1 hAdmitted hKnown
      hUnfinished hGoes, ?_⟩
    refine hInv.2.change id (fun hClean => hClean) (fun other hNe => Function.update_of_ne hNe ..)
      fun hClean _ _ => ?_
    have hSelf : (s.receiveOutput cfg hashing result output id).requests id =
        ((s.requests id).afterOutput cfg result output id).1 := Function.update_self ..
    rw [hSelf]
    have hOld := hInv.2 hClean id hKnown hUnfinished
    obtain ⟨hStatus, hPreemptions, hLess, -⟩ :=
      afterOutput_keeps cfg result output id (s.requests id)
    by_cases hRuns : (s.requests id).status = .running
    · have hNotWaiting : ¬ ((s.requests id).afterOutput cfg result output id).1.status.isWaiting =
          true := by
        rw [hStatus, hRuns]
        simp [RequestStatus.isWaiting]
      refine ⟨fun hPrefill => ?_, fun hWaits => absurd hWaits hNotWaiting,
        fun hWaits => absurd hWaits hNotWaiting⟩
      obtain ⟨hNodup, hKeys, hPhase⟩ := hInv.1 hClean
      have hNot := (List.nodup_cons.mp hNodup).1
      have hBefore : pendingUpdate output s.inFlight (id :: todo) id =
          pendingUpdate output s.inFlight todo id + output.pendingTokens id := by
        simp [pendingUpdate, hNot]
      have hLive := hPhase.live id hKnown hUnfinished
      have hPhased := hPhase.phased id ((hQueues.request id).running.mpr hRuns)
      rw [hBefore] at hLive hPhased
      obtain ⟨-, hStill⟩ := afterOutput_goes (hKeys id List.mem_cons_self) hLive hGoes
      obtain ⟨hWas, hSame⟩ := (hStill hPhased).2 hPrefill
      rw [hSame]
      exact hOld.start hWas
    · have hWaits : (s.requests id).status.isWaiting = true := by
        cases hCase : (s.requests id).status <;> simp_all [RequestStatus.isWaiting]
      have hAgain : 0 < (s.requests id).numPreemptions :=
        ((hAdmitted id List.mem_cons_self).resolve_left hRuns).resolve_left hUnfinished
      have hZero := hOld.resumed hWaits hAgain
      have hNothing : ((s.requests id).afterOutput cfg result output id).1.numComputedTokens = 0 := by
        omega
      refine ⟨fun _ => hNothing ▸ Nat.dvd_zero _, fun _ _ => hNothing, fun _ hNever => ?_⟩
      rw [hPreemptions] at hNever
      omega
  stop {s id todo mode} hQueues hInv hKnown hUnfinished hReceived hMode := by
    refine ⟨(phase_settle cfg hashing result output).stop hQueues hInv.1 hKnown hUnfinished hReceived
      hMode, ?_⟩
    refine hInv.2.change id (fun hClean => hClean) (fun other hNe => ?_) fun _ _ hStill => ?_
    · simp [State.freeRequest, State.modifyRequest, State.freeRequestBlocks, State.popWaiting,
        State.receiveOutput, hNe]
    · exact absurd (by simp [State.freeRequest, State.modifyRequest]) hStill

theorem aligned_run {cfg : Config} (hashing : Hashing H X) (hChunked : cfg.Chunked)
    (hNever : cfg.NeverOne) :
    RunRule cfg hashing (fun up => cfg.hasConnector = true → up.Nixl cfg) fun s =>
      CleanPhase cfg s ∧ CleanAligned cfg.maxNumScheduledTokens s where
  initial := ⟨(phase_run hashing hNever).initial, fun _ _ hKnown => absurd rfl hKnown⟩
  add {s s' id new} hQueues hInv hAdd := by
    refine ⟨(phase_run hashing hNever).add hQueues hInv.1 hAdd, ?_⟩
    obtain ⟨-, -, -, -, _, _, -, rfl⟩ := addRequest_cases hAdd
    refine hInv.2.change id (fun hClean => hClean) (fun other hNe => Function.update_of_ne hNe ..)
      fun _ _ _ => ?_
    simp only [Function.update_self]
    exact ⟨fun _ => Nat.dvd_zero _, fun _ _ => rfl, fun _ _ => rfl⟩
  schedule hUp hQueues hInv _ hLoops hOk _ := by
    have hStep := hInv.1.loops hNever hQueues hLoops
    exact ⟨hStep.finish hashing hOk, (hInv.2.loops hChunked hUp hQueues hLoops).finish hashing
      hChunked hStep hOk⟩
  update {s result output inFlight} hQueues hInv hInFlight hPopped hAdmitted := by
    refine ⟨(phase_run hashing hNever).update hQueues hInv.1 hInFlight hPopped hAdmitted, ?_⟩
    have hDone := (settle_rule (aligned_settle cfg hashing result output _) hPopped hAdmitted
      ⟨hInv.1.update hInFlight, hInv.2⟩).2
    unfold State.settleOutput
    split
    · exact hDone.2
    · exact hDone.2
  drafts {s} drafts hQueues hInv := by
    refine ⟨(phase_run hashing hNever).drafts drafts hQueues hInv.1, ?_⟩
    unfold setDrafts
    dsimp only
    split
    · exact hInv.2
    · refine hInv.2.keep rfl fun other => ?_
      by_cases hEq : other = drafts.1
      · subst hEq
        simp [State.modifyRequest, Request.core, Request.numTokens]
      · simp [State.modifyRequest, hEq]
  free {s id mode} hQueues hInv hKnown hUnfinished hMode := by
    refine ⟨(phase_run hashing hNever).free hQueues hInv.1 hKnown hUnfinished hMode, ?_⟩
    refine hInv.2.change id (fun hClean => hClean) (fun other hNe => Function.update_of_ne hNe ..)
      fun _ _ hStill => ?_
    exact absurd (by simp [State.freeRequest, State.modifyRequest]) hStill
  releaseDeferred hQueues hInv hBlocks :=
    ⟨(phase_run hashing hNever).releaseDeferred hQueues hInv.1 hBlocks, hInv.2⟩
  freeDelayed hQueues hInv hFinished :=
    ⟨(phase_run hashing hNever).freeDelayed hQueues hInv.1 hFinished, hInv.2⟩

/-- A row of the step that the scheduler or the runner takes for a prefill chunk. -/
def Locals.IsChunk (locals : Locals H) (id : ReqId) : Prop :=
  (locals.st.requests id).isPrefill = true ∨
    1 < numBaseTokens locals.numScheduledTokens locals.scheduledSpecDecodeTokens id

theorem StepPhase.isPrefill {cfg : Config} {locals : Locals H} (hStep : StepPhase cfg locals)
    {row : ReqId × Nat} (hRow : row ∈ locals.numScheduledTokens) (hChunk : locals.IsChunk row.1) :
    (locals.st.requests row.1).isPrefill = true := by
  rcases hChunk with hPrefill | hBase
  · exact hPrefill
  rcases hStep with ⟨id, numNewTokens, hRows, hPrefill⟩ | hRows
  · rw [hRows, List.mem_singleton] at hRow
    exact hRow ▸ hPrefill.prefill
  · cases hLookup : locals.numScheduledTokens.lookup row.1 with
    | none => exact absurd (List.mem_map_of_mem hRow) (notMem_keys_of_lookup hLookup)
    | some numNewTokens =>
        have hTokens : numNewTokens = (locals.scheduledSpecDecodeTokens row.1).length + 1 :=
          (hRows (row.1, numNewTokens) (mem_of_lookup hLookup)).tokens
        rw [numBaseTokens, hLookup, Option.getD_some] at hBase
        omega

/-- As long as no request is admitted while a step of it is in flight, every scheduled
prefill chunk starts on a multiple of the budget and lies inside one block. -/
theorem schedule_aligned {cfg : Config} {hashing : Hashing H X} (hChunked : cfg.Chunked)
    {actions : List (Action H)} {s : State H} (run : Reaches cfg hashing actions s)
    (hNixl : ∀ up, Action.schedule up ∈ actions → cfg.hasConnector = true → up.Nixl cfg)
    {up : Upstream H} (hUp : cfg.hasConnector = true → up.Nixl cfg) {s' : State H}
    (hStep : step cfg hashing s (.schedule up) = some s') (hClean : s'.staleAdmissions = []) :
    ∃ locals, Locals.loops cfg hashing up s = some locals ∧ s' = locals.finish cfg hashing ∧
      ∀ row ∈ locals.numScheduledTokens, locals.IsChunk row.1 →
        cfg.maxNumScheduledTokens ∣ (locals.st.requests row.1).numComputedTokens ∧
        ∀ group < cfg.numGroups,
          (locals.st.requests row.1).numComputedTokens / cfg.blockSize group =
            ((locals.st.requests row.1).numComputedTokens + cfg.maxNumScheduledTokens - 1) /
              cfg.blockSize group := by
  simp only [step] at hStep
  split at hStep
  case isFalse => cases hStep
  obtain ⟨locals, hLoops, -, rfl⟩ := schedule_cases hStep
  refine ⟨locals, hLoops, rfl, fun row hRow hChunk => ?_⟩
  suffices hStart : cfg.maxNumScheduledTokens ∣ (locals.st.requests row.1).numComputedTokens from
    ⟨hStart, fun group hLt => hChunked.inside hStart hLt⟩
  by_cases hOne : cfg.maxNumScheduledTokens = 1
  · rw [hOne]
    exact Nat.one_dvd _
  have hNever : cfg.NeverOne := ⟨hOne, by simp [hChunked.threshold]⟩
  obtain ⟨hQueues, hPhase, hAligned⟩ := run_rule (aligned_run hashing hChunked hNever) hNixl run
  have hPrefill := ((hPhase.loops hNever hQueues hLoops) hClean).2.isPrefill hRow hChunk
  have hOk := loops_ok hQueues hLoops
  have hRuns := (hOk.queues.request row.1).running.mp
    (hOk.books.running row.1 (hOk.books.mem_iff.mp (List.mem_map_of_mem hRow)))
  exact (hAligned.loops hChunked hUp hQueues hLoops hClean row.1 (by simp [hRuns])
    (by simp [hRuns])).start hPrefill

/-- A budget of one chunk a step. -/
def Config.chunked : Config := { Config.pipelined with maxNumScheduledTokens := 8 }

theorem Config.chunked_chunked : Config.chunked.Chunked where
  threshold := rfl
  groups := by decide
  divides := by decide
  subBlock := by simp [Config.chunked, Config.pipelined]

/-- A peer that has all but the last two tokens of every prompt. -/
def Upstream.nixl (cfg : Config) : Upstream SmallHash :=
  { Upstream.plain cfg with
    promote := fun _ request => some request.numComputedTokens
    connectorMatch := fun _ request numComputedTokens =>
      some (getNumNewMatchedTokens cfg.maxNumScheduledTokens request.numPromptTokens
        numComputedTokens (if request.numPreemptions = 0 then
          request.numPromptTokens - 2 - numComputedTokens else 0, true)) }

theorem Upstream.nixl_nixl (cfg : Config) : (Upstream.nixl cfg).Nixl cfg where
  matched id request numComputedTokens answer hMatch := by
    refine ⟨_, (Option.some.inj hMatch).symm, ?_, ?_⟩
    · dsimp only
      split <;> omega
    · intro hAgain
      dsimp only
      rw [if_neg (by omega)]
  loaded id request numLoadedTokens hPromote := (Option.some.inj hPromote).le

/-- Thirteen tokens of a prompt are offered and eight are loaded, so the one chunk left
starts at eight. -/
theorem schedule_aligned_small : ∃ s s' locals,
    Reaches { Config.chunked with hasConnector := true } Hashing.free
      [.addRequest 0 (.plain (List.replicate 15 1) 8),
        .schedule (.nixl { Config.chunked with hasConnector := true })] s ∧
    step { Config.chunked with hasConnector := true } Hashing.free s
      (.schedule (.nixl { Config.chunked with hasConnector := true })) = some s' ∧
    Locals.loops { Config.chunked with hasConnector := true } Hashing.free
      (.nixl { Config.chunked with hasConnector := true }) s = some locals ∧
    ∀ row ∈ locals.numScheduledTokens, locals.IsChunk row.1 →
      8 ∣ (locals.st.requests row.1).numComputedTokens := by
  obtain ⟨s, run, hHolds⟩ := Reaches.exists_of_any { Config.chunked with hasConnector := true }
    Hashing.free [.addRequest 0 (.plain (List.replicate 15 1) 8),
      .schedule (.nixl { Config.chunked with hasConnector := true })]
    (fun s => (step { Config.chunked with hasConnector := true } Hashing.free s
      (.schedule (.nixl { Config.chunked with hasConnector := true }))).any fun s' : State SmallHash =>
        decide (s'.staleAdmissions = [] ∧ (s'.requests 0).numComputedTokens = 15)) (by decide +kernel)
  obtain ⟨s', hStep, hClean⟩ := (Option.any_eq_true _ _).mp hHolds
  simp only [decide_eq_true_eq] at hClean
  obtain ⟨locals, hLoops, -, hAligned⟩ := schedule_aligned
    ⟨rfl, by decide, by decide, by simp [Config.chunked, Config.pipelined]⟩ run
    (fun up hMem _ => by
      have hUp : up = .nixl { Config.chunked with hasConnector := true } := by simpa using hMem
      exact hUp ▸ Upstream.nixl_nixl _)
    (fun _ => Upstream.nixl_nixl _) hStep hClean.1
  exact ⟨s, s', locals, run, hStep, hLoops, fun row hRow hChunk => (hAligned row hRow hChunk).1⟩

/-- Request 2 is preempted with a step in flight and resumes before that step is
processed. -/
def misalignedRun : List (Action SmallHash) :=
  let schedule := .schedule (.plain .chunked)
  let update := .updateFromOutput (.constant 7)
  [.addRequest 0 (.plain (List.replicate 15 1) 16), schedule, update, schedule, update,
    .addRequest 1 (.plain [1, 2] 16), schedule, update,
    .addRequest 2 { NewRequest.plain [1, 3] 16 with priority := 1 }, schedule, update,
    .addRequest 3 (.plain [1, 4] 16), schedule, update,
    .addRequest 4 (.plain [1, 5] 16), schedule, update,
    schedule, schedule, update, schedule, .finishRequest 0 false false, schedule, update,
    .addRequest 5 (.plain [1, 6] 16), schedule, update, update, schedule]

/-- It is then a prefill that starts at its fourth token, and the chunk written from there
crosses into the next block. -/
theorem schedule_misaligned : Config.chunked.Chunked ∧ ∃ s s' locals,
    Reaches Config.chunked Hashing.free misalignedRun s ∧
    step Config.chunked Hashing.free s (.schedule (.plain .chunked)) = some s' ∧
    Locals.loops Config.chunked Hashing.free (.plain .chunked) s = some locals ∧
    s' = locals.finish .chunked Hashing.free ∧
    (2, 2) ∈ locals.numScheduledTokens ∧ locals.IsChunk 2 ∧
    (locals.st.requests 2).numComputedTokens = 3 ∧ ¬ Config.chunked.maxNumScheduledTokens ∣ 3 ∧
    3 / Config.chunked.blockSize 0 ≠
      (3 + Config.chunked.maxNumScheduledTokens - 1) / Config.chunked.blockSize 0 := by
  obtain ⟨s, run, hHolds⟩ := Reaches.exists_of_any Config.chunked Hashing.free misalignedRun
    (fun s => (step Config.chunked Hashing.free s (.schedule (.plain .chunked))).isSome &&
      (Locals.loops Config.chunked Hashing.free (.plain .chunked) s).any
        fun locals : Locals SmallHash => decide ((2, 2) ∈ locals.numScheduledTokens ∧
          (locals.st.requests 2).isPrefill = true ∧ (locals.st.requests 2).numComputedTokens = 3))
    (by decide +kernel)
  simp only [Bool.and_eq_true, Option.isSome_iff_exists, Option.any_eq_true,
    decide_eq_true_eq] at hHolds
  obtain ⟨⟨s', hStep⟩, locals, hLoops, hRow, hPrefill, hStart⟩ := hHolds
  have hSchedule := hStep
  simp only [step] at hSchedule
  split at hSchedule
  case isFalse => cases hSchedule
  obtain ⟨locals', hLoops', -, rfl⟩ := schedule_cases hSchedule
  rw [hLoops, Option.some.injEq] at hLoops'
  subst hLoops'
  exact ⟨Config.chunked_chunked, s, _, locals, run, hStep, hLoops, rfl, hRow, .inl hPrefill,
    hStart, by decide, by decide⟩

end VllmRbln.Scheduler
