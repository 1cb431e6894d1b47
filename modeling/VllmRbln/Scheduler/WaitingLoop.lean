import VllmRbln.Scheduler.RunningLoop

/-! What the waiting loop of `schedule()` can do, and the rule that lifts a property of
its moves to the whole loop: set a request aside, let a blocked one go on, look for its
cached tokens, and give it blocks to load into, to decode with or to prefill alone. -/
namespace VllmRbln.Scheduler

set_option linter.unusedSectionVars false

open SubBlock Run

variable {H X : Type} [DecidableEq H]

/-- The step during the waiting loop. -/
structure WaitingOk (cfg : Config) (locals : Locals H) : Prop where
  queues : Queues cfg locals.st locals.stepSkippedWaiting
  books : Books locals
  noPreempted : locals.preemptedReqs = []

/-- The step after both loops. -/
structure LoopsOk (cfg : Config) (locals : Locals H) : Prop where
  queues : Queues cfg locals.st []
  books : Books locals
  noMatch : locals.subBlockMatch = none

/-! ### Looking for cached tokens -/

/-- How the search for a partial match leaves the step: untouched, with the request's
hashes recorded, with a match that the connector outdid at once, or with a match
pinned. -/
inductive Looked (cfg : Config) (hashing : Hashing H X) (id : ReqId) (numLocal : Nat)
    (locals : Locals H) : Locals H → Prop
  | untouched : Looked cfg hashing id numLocal locals locals
  | hashed {subBlockSize : Nat} (hSize : cfg.subBlockSize = some subBlockSize) :
      Looked cfg hashing id numLocal locals { locals with
        st := { locals.st with
          kv := locals.st.kv.getOrComputeSubHashes hashing subBlockSize id (locals.st.requests id) } }
  | outdone {subBlockSize : Nat} {found : SubBlockMatch}
      (hSize : cfg.subBlockSize = some subBlockSize) :
      Looked cfg hashing id numLocal locals { locals with
        st := { locals.st with
          kv := ((locals.st.kv.getOrComputeSubHashes hashing subBlockSize id
            (locals.st.requests id)).touch found.srcBlocks).releaseSubBlockMatch found
          pins := locals.st.pins ++ found.srcBlocks
          unpins := locals.st.unpins ++ found.srcBlocks } }
  | matched {subBlockSize : Nat} {found : SubBlockMatch}
      (hSize : cfg.subBlockSize = some subBlockSize)
      (hMatch : Manager.PartialMatch cfg subBlockSize
        (locals.st.kv.getOrComputeSubHashes hashing subBlockSize id (locals.st.requests id)) id
        (locals.st.requests id) numLocal found) :
      Looked cfg hashing id numLocal locals { locals with
        st := { locals.st with
          kv := (locals.st.kv.getOrComputeSubHashes hashing subBlockSize id
            (locals.st.requests id)).touch found.srcBlocks
          pins := locals.st.pins ++ found.srcBlocks }
        subBlockMatch := some found }

theorem trySubBlockMatch_looked (cfg : Config) (hashing : Hashing H X) (up : Upstream H)
    (locals : Locals H) (id : ReqId) (numLocal numExternal : Nat) :
    Looked cfg hashing id numLocal locals
      (locals.trySubBlockMatch cfg hashing up id numLocal numExternal) := by
  unfold Locals.trySubBlockMatch
  split
  · exact .untouched
  rename_i subBlockSize hSize
  have hPos : 0 < subBlockSize := (cfg.subBlockSize_fits subBlockSize hSize).1
  split
  · rename_i kv hGet
    rcases Manager.getComputedBlocksSubBlock_spec hPos hGet with ⟨-, rfl | rfl⟩ | ⟨found, hEq, -⟩
    · exact .untouched
    · exact .hashed hSize
    · cases hEq
  · rename_i kv found hGet
    rcases Manager.getComputedBlocksSubBlock_spec hPos hGet with ⟨hEq, -⟩ | ⟨found', hEq, hKv, hMatch⟩
    · cases hEq
    cases hEq
    subst hKv
    dsimp only
    split
    · exact .matched hSize hMatch
    · exact .outdone hSize

/-- What a round knows about a request's cached tokens. Either nothing was computed for
it and the local, copied and external tokens add up, or a finished load has given it
its count. -/
structure Found (cfg : Config) (hashing : Hashing H X) (up : Upstream H) (id : ReqId)
    (locals locals' : Locals H) (found : Locals.Computed) : Prop where
  looked : Looked cfg hashing id found.numLocal locals locals'
  hits : Manager.CachedHits cfg hashing locals.st.kv id (locals.st.requests id) found.hits
    found.numLocal
  numSubBlock : found.numSubBlock = (locals'.subBlockMatch.map (·.numTokens)).getD 0
  numExternal : cfg.hasConnector = false → found.numExternal = 0
  external : found.numExternal ≠ 0 → ∃ loadKvAsync, up.connectorMatch id (locals.st.requests id)
    found.numLocal = some (found.numExternal, loadKvAsync)
  loadKvAsync : found.loadKvAsync = true → cfg.hasConnector = true
  external_wins : found.loadKvAsync = true → found.numExternal ≠ 0 → found.numSubBlock = 0
  resumes : locals'.subBlockMatch ≠ none →
    ¬ (cfg.hasConnector = true ∧ (locals.st.requests id).status = .preempted)
  computed : ((locals.st.requests id).numComputedTokens = 0 ∧ found.numComputedTokens =
      found.numLocal + found.numSubBlock + found.numExternal ∧
      found.numComputedTokens ≤ (locals.st.requests id).numTokens) ∨
    ((locals.st.requests id).numComputedTokens ≠ 0 ∧ found.hits = Blocks.empty ∧
      locals' = locals ∧ found.numComputedTokens = (locals.st.requests id).numComputedTokens)

theorem findComputed_spec {cfg : Config} {hashing : Hashing H X} {up : Upstream H} {id : ReqId}
    {locals locals' : Locals H} {computed : Option Locals.Computed}
    (hNone : locals.subBlockMatch = none)
    (hFind : locals.findComputed cfg hashing up id = some (locals', computed)) :
    (computed = none ∧ locals' = locals) ∨
      ∃ found, computed = some found ∧ Found cfg hashing up id locals locals' found := by
  unfold Locals.findComputed at hFind
  dsimp only at hFind
  split at hFind
  · rename_i hComputed
    simp only [Option.some.injEq, Prod.mk.injEq] at hFind
    obtain ⟨rfl, rfl⟩ := hFind
    exact .inr ⟨_, rfl, .untouched, .none .., by simp [hNone], by simp, by simp, by simp, by simp,
      by simp [hNone], .inr ⟨hComputed, rfl, rfl, rfl⟩⟩
  rename_i hZero
  split at hFind
  · simp only [Option.some.injEq, Prod.mk.injEq] at hFind
    exact .inl ⟨hFind.2.symm, hFind.1.symm⟩
  rename_i numExternal loadKvAsync hConnector
  have hHits : Manager.CachedHits cfg hashing locals.st.kv id (locals.st.requests id)
      (locals.st.kv.getComputedBlocks cfg hashing id (locals.st.requests id)
        (up.foundBlocks locals.st.kv id)).1
      (locals.st.kv.getComputedBlocks cfg hashing id (locals.st.requests id)
        (up.foundBlocks locals.st.kv id)).2 := Manager.getComputedBlocks_spec rfl
  have hLooked : Looked cfg hashing id (locals.st.kv.getComputedBlocks cfg hashing id
      (locals.st.requests id) (up.foundBlocks locals.st.kv id)).2 locals
      (if cfg.hasConnector = true ∧ (locals.st.requests id).status = .preempted then locals
        else locals.trySubBlockMatch cfg hashing up id (locals.st.kv.getComputedBlocks cfg hashing
          id (locals.st.requests id) (up.foundBlocks locals.st.kv id)).2 numExternal) := by
    split
    · exact .untouched
    · exact trySubBlockMatch_looked ..
  have hResumes : (if cfg.hasConnector = true ∧ (locals.st.requests id).status = .preempted
        then locals
        else locals.trySubBlockMatch cfg hashing up id (locals.st.kv.getComputedBlocks cfg hashing
          id (locals.st.requests id) (up.foundBlocks locals.st.kv id)).2
            numExternal).subBlockMatch ≠ none →
      ¬ (cfg.hasConnector = true ∧ (locals.st.requests id).status = .preempted) := by
    intro hSome hBoth
    rw [if_pos hBoth] at hSome
    exact hSome hNone
  generalize (if cfg.hasConnector = true ∧ (locals.st.requests id).status = .preempted then locals
    else locals.trySubBlockMatch cfg hashing up id (locals.st.kv.getComputedBlocks cfg hashing
      id (locals.st.requests id) (up.foundBlocks locals.st.kv id)).2 numExternal) = tried
    at hFind hLooked hResumes
  rw [Option.ite_none_left_eq_some] at hFind
  obtain ⟨hFits, hFind⟩ := hFind
  simp only [Option.some.injEq, Prod.mk.injEq] at hFind
  obtain ⟨rfl, rfl⟩ := hFind
  have hLocal : cfg.hasConnector = false → numExternal = 0 ∧ loadKvAsync = false := by
    intro hNo
    rw [hNo] at hConnector
    simp only [Bool.false_eq_true, if_false, Option.some.injEq, Prod.mk.injEq] at hConnector
    exact ⟨hConnector.1.symm, hConnector.2.symm⟩
  refine .inr ⟨_, rfl, hLooked, hHits, rfl, ?_, ?_, ?_, ?_, hResumes,
    .inl ⟨not_not.mp hZero, rfl, ?_⟩⟩
  · intro hNo
    simp [(hLocal hNo).1]
  · intro hExternal
    dsimp only at hExternal ⊢
    split at hExternal
    · exact absurd rfl hExternal
    · rename_i hLost
      have hConnected : cfg.hasConnector = true := by
        by_contra hNo
        exact hExternal (hLocal (by simpa using hNo)).1
      rw [if_pos hConnected] at hConnector
      rw [if_neg hLost]
      exact ⟨loadKvAsync, hConnector⟩
  · intro hAsync
    by_contra hNo
    rw [(hLocal (by simpa using hNo)).2] at hAsync
    cases hAsync
  · intro hAsync hExternal
    simp only [Bool.and_eq_true, Bool.not_eq_true', decide_eq_false_iff_not] at hAsync
    dsimp only at hExternal ⊢
    rw [if_neg (by simpa using hAsync.2)] at hExternal
    by_contra hSub
    exact hAsync.2 ⟨Nat.pos_of_ne_zero hSub, Nat.pos_of_ne_zero hExternal⟩
  · exact Nat.not_lt.mp hFits

/-! ### Seating a request -/

/-- The request's slots are allocated and its match is turned into copy operations. -/
def Locals.seatWaiting (locals : Locals H) (kv : Manager H) (ops : List KVCacheCopyOp) : Locals H :=
  { locals with
    st := { locals.st with kv := { kv with pendingCopyOps := kv.pendingCopyOps ++ ops } }
    subBlockMatch := none }

/-- The copy operations of the match at hand, if there is one. -/
def Locals.MatchOps (locals : Locals H) (kv : Manager H) (ops : List KVCacheCopyOp) : Prop :=
  match locals.subBlockMatch with
  | none => ops = []
  | some subBlockMatch => kv.copyOps subBlockMatch = some ops

/-- Tokens a waiting request's slots must hold. -/
def Locals.Computed.numSlots (cfg : Config) (found : Locals.Computed) (numNewTokens : Nat) : Nat :=
  found.numComputedTokens + numNewTokens +
    if found.loadKvAsync ∧ cfg.useEagle then 0 else cfg.numLookaheadTokens

/-- A round gives a waiting request its slots: `start` is the step when its cached
tokens were looked for, `locals` the step when they were known. -/
structure Seated (cfg : Config) (hashing : Hashing H X) (up : Upstream H) (id : ReqId)
    (numNewTokens : Nat) (start locals : Locals H) (found : Locals.Computed) (kv : Manager H)
    (newBlocks : Blocks) (ops : List KVCacheCopyOp) : Prop where
  started : WaitingOk cfg start
  noMatch : start.subBlockMatch = none
  queued : id ∈ start.st.waiting ++ start.st.skippedWaiting
  search : Found cfg hashing up id start locals found
  ok : WaitingOk cfg locals
  alloc : locals.st.kv.allocateSlots cfg id (found.numSlots cfg numNewTokens)
    (some (locals.st.requests id).numTokens) found.hits up.freeQueue = some (kv, newBlocks)
  ops : locals.MatchOps kv ops
  room : start.tokenBudget ≠ 0 ∧ start.st.running.length ≠ cfg.maxNumRunningReqs

theorem allocateWaiting_spec {cfg : Config} {up : Upstream H} {locals locals' : Locals H}
    {id : ReqId} {found : Locals.Computed} {numNewTokens : Nat}
    (hAlloc : locals.allocateWaiting cfg up id found numNewTokens = some (some locals')) :
    ∃ kv newBlocks ops, locals.st.kv.allocateSlots cfg id (found.numSlots cfg numNewTokens)
        (some (locals.st.requests id).numTokens) found.hits up.freeQueue = some (kv, newBlocks) ∧
      locals.MatchOps kv ops ∧ locals' = locals.seatWaiting kv ops := by
  unfold Locals.allocateWaiting at hAlloc
  dsimp only at hAlloc
  split at hAlloc
  · cases hAlloc
  rename_i kv newBlocks hKv
  split at hAlloc
  · rename_i hNone
    simp only [Option.some.injEq] at hAlloc
    refine ⟨kv, newBlocks, [], hKv, by simp [Locals.MatchOps, hNone], ?_⟩
    rw [← hAlloc]
    simp [Locals.seatWaiting, ← hNone]
  · rename_i subBlockMatch hSome
    split at hAlloc
    · cases hAlloc
    rename_i kv' hApply
    simp only [Manager.applySubBlockMatch, Option.map_eq_some_iff] at hApply
    obtain ⟨ops, hOps, rfl⟩ := hApply
    simp only [Option.some.injEq] at hAlloc
    exact ⟨kv, newBlocks, ops, hKv, by simpa [Locals.MatchOps, hSome] using hOps, hAlloc.symm⟩

/-! ### Evicting the decodes -/

/-- The pending delta of a request after a further one is parked. -/
def mergedDelta (cfg : Config) (pending : Option Blocks) (blockDelta : Blocks) : Option Blocks :=
  if ∀ group ∈ List.range cfg.numGroups, blockDelta group = [] then pending
  else some fun group => pending.getD Blocks.empty group ++ blockDelta group

/-- The decode batch that a prefill pushes out: every member gets its drafts back and
its new blocks are parked. -/
def Locals.withoutDecodes (cfg : Config) (locals : Locals H) (ids : List ReqId) : Locals H :=
  { locals with
    st := { locals.st with
      requests := fun id => if id ∈ ids then
        { locals.st.requests id with specTokenIds := locals.scheduledSpecDecodeTokens id }
        else locals.st.requests id
      pendingRunnerBlockDeltas := fun id => if id ∈ ids then
        mergedDelta cfg (locals.st.pendingRunnerBlockDeltas id) (locals.reqToNewBlocks id)
        else locals.st.pendingRunnerBlockDeltas id }
    reqToNewBlocks := fun id => if id ∈ ids then Blocks.empty else locals.reqToNewBlocks id
    numScheduledTokens := locals.numScheduledTokens.filter (·.1 ∉ ids)
    scheduledSpecDecodeTokens := fun id =>
      if id ∈ ids then [] else locals.scheduledSpecDecodeTokens id }

theorem addPendingRunnerBlockDelta_eq (cfg : Config) (s : State H) (id : ReqId)
    (blockDelta : Blocks) : s.addPendingRunnerBlockDelta cfg id blockDelta =
      { s with
        pendingRunnerBlockDeltas := Function.update s.pendingRunnerBlockDeltas id
          (mergedDelta cfg (s.pendingRunnerBlockDeltas id) blockDelta) } := by
  unfold State.addPendingRunnerBlockDelta mergedDelta
  split
  · simp
  · rfl

theorem foldl_evictScheduled (cfg : Config) (locals : Locals H) {ids : List ReqId}
    (hNodup : ids.Nodup) :
    ids.foldl (Locals.evictScheduled cfg) locals = locals.withoutDecodes cfg ids := by
  induction ids generalizing locals with
  | nil => simp [Locals.withoutDecodes]
  | cons id ids ih =>
      obtain ⟨hNot, hNodup⟩ := List.nodup_cons.mp hNodup
      rw [List.foldl_cons, ih _ hNodup]
      -- the rest of the list does not mention `id`, so the two updates commute
      simp only [Locals.withoutDecodes, Locals.evictScheduled, addPendingRunnerBlockDelta_eq,
        State.modifyRequest, Locals.mk.injEq, State.mk.injEq, true_and, and_true]
      refine ⟨⟨?_, ?_⟩, ?_, ?_, ?_⟩
      · funext other
        by_cases hEq : other = id
        · subst hEq; simp [hNot]
        · simp [hEq]
      · funext other
        by_cases hEq : other = id
        · subst hEq; simp [hNot]
        · simp [hEq]
      · funext other
        by_cases hEq : other = id
        · subst hEq; simp [hNot]
        · simp [hEq]
      · rw [List.filter_filter]
        refine List.filter_congr fun row _ => ?_
        simp [Bool.and_comm]
      · funext other
        by_cases hEq : other = id
        · subst hEq; simp [hNot]
        · simp [hEq]

theorem evictDecodes_eq (cfg : Config) {locals : Locals H}
    (hNodup : locals.scheduledRunningReqs.Nodup) : locals.evictDecodes cfg =
      { locals.withoutDecodes cfg locals.scheduledRunningReqs with
        scheduledRunningReqs := []
        admitted := 0
        tokenBudget := cfg.maxNumScheduledTokens } := by
  unfold Locals.evictDecodes
  rw [foldl_evictScheduled cfg locals hNodup]

/-! ### The moves keep the step in order -/

theorem Books.congr {locals locals' : Locals H} (hBooks : Books locals)
    (hScheduled : locals'.scheduledReqs = locals.scheduledReqs)
    (hTokens : locals'.numScheduledTokens = locals.numScheduledTokens)
    (hRunning : locals'.st.running = locals.st.running) : Books locals' where
  keys := by rw [hTokens, hScheduled]; exact hBooks.keys
  nodup := hScheduled ▸ hBooks.nodup
  running := by rw [hScheduled, hRunning]; exact hBooks.running

theorem WaitingOk.skip {cfg : Config} {locals : Locals H} (hOk : WaitingOk cfg locals) {id : ReqId}
    (hMem : id ∈ locals.st.waiting ++ locals.st.skippedWaiting) :
    WaitingOk cfg (locals.skipRequest cfg id) where
  queues := hOk.queues.skip hMem (State.prependRequest_perm ..)
  books := hOk.books.congr rfl rfl rfl
  noPreempted := hOk.noPreempted

/-- A request that goes on changes the state alone, and no queue. -/
theorem promoteRequest_eq (cfg : Config) (hashing : Hashing H X) (locals : Locals H) (id : ReqId)
    (numLoadedTokens : Nat) : ∃ st, locals.promoteRequest cfg hashing id numLoadedTokens =
      { locals with st := st } ∧ st.running = locals.st.running ∧ st.waiting = locals.st.waiting ∧
      st.skippedWaiting = locals.st.skippedWaiting := by
  unfold Locals.promoteRequest
  dsimp only
  split
  · split
    · exact ⟨_, rfl, rfl, rfl, rfl⟩
    · exact ⟨_, rfl, rfl, rfl, rfl⟩
  · exact ⟨_, rfl, rfl, rfl, rfl⟩

theorem WaitingOk.promote {cfg : Config} {locals : Locals H} (hOk : WaitingOk cfg locals)
    (hashing : Hashing H X) {id : ReqId} (hBlocked : (locals.st.requests id).isBlocked = true)
    (numLoadedTokens : Nat) :
    WaitingOk cfg (locals.promoteRequest cfg hashing id numLoadedTokens) := by
  have hQueues := hOk.queues.promote hashing hBlocked numLoadedTokens
  obtain ⟨st, hEq, hRunning, -, -⟩ := promoteRequest_eq cfg hashing locals id numLoadedTokens
  rw [hEq] at hQueues ⊢
  exact ⟨hQueues, hOk.books.congr rfl rfl hRunning, hOk.noPreempted⟩

/-- A search changes neither requests, queues nor block lists. -/
theorem Looked.keeps {cfg : Config} {hashing : Hashing H X} {id : ReqId} {numLocal : Nat}
    {locals locals' : Locals H} (hLooked : Looked cfg hashing id numLocal locals locals') :
    ∃ kv pins unpins subBlockMatch, locals' = { locals with
      st := { locals.st with kv := kv, pins := pins, unpins := unpins }
      subBlockMatch := subBlockMatch } ∧ kv.reqToBlocks = locals.st.kv.reqToBlocks ∧
      kv.pendingCopyOps = locals.st.kv.pendingCopyOps := by
  cases hLooked <;> exact ⟨_, _, _, _, rfl, rfl, rfl⟩

theorem WaitingOk.looked {cfg : Config} {hashing : Hashing H X} {id : ReqId} {numLocal : Nat}
    {locals locals' : Locals H} (hOk : WaitingOk cfg locals)
    (hLooked : Looked cfg hashing id numLocal locals locals') : WaitingOk cfg locals' := by
  obtain ⟨kv, pins, unpins, subBlockMatch, rfl, hBlocks, -⟩ := hLooked.keeps
  exact ⟨hOk.queues.keep rfl rfl (fun _ => rfl) hBlocks rfl rfl rfl, hOk.books.congr rfl rfl rfl,
    hOk.noPreempted⟩

section Seated

variable {cfg : Config} {hashing : Hashing H X} {up : Upstream H} {id : ReqId} {numNewTokens : Nat}
  {start locals : Locals H} {found : Locals.Computed} {kv : Manager H} {newBlocks : Blocks}
  {ops : List KVCacheCopyOp}

theorem Seated.queued_locals (hSeated : Seated cfg hashing up id numNewTokens start locals found kv
    newBlocks ops) : id ∈ locals.st.waiting ++ locals.st.skippedWaiting := by
  obtain ⟨_, _, _, _, rfl, -⟩ := hSeated.search.looked.keeps
  exact hSeated.queued

theorem Seated.blocks_of_ne (hSeated : Seated cfg hashing up id numNewTokens start locals found kv
    newBlocks ops) (other : ReqId) (hNe : other ≠ id) :
    kv.reqToBlocks other = locals.st.kv.reqToBlocks other := by
  rw [(Manager.allocateSlots_spec hSeated.alloc).1, giveBlocks_other hNe]

theorem Seated.groups (hSeated : Seated cfg hashing up id numNewTokens start locals found kv
    newBlocks ops) (group : Nat) (hLe : cfg.numGroups ≤ group) : kv.reqToBlocks id group = [] := by
  obtain ⟨hKv, hNew⟩ := Manager.allocateSlots_spec hSeated.alloc
  rw [hKv, Manager.giveBlocks_reqToBlocks, Function.update_self,
    (hSeated.ok.queues.request id).groups group hLe, hSeated.search.hits.groups group hLe,
    hNew.groups group hLe]
  rfl

theorem Seated.await (hSeated : Seated cfg hashing up id numNewTokens start locals found kv
    newBlocks ops) (hAsync : found.loadKvAsync = true) (numComputedTokens : Nat) :
    WaitingOk cfg ((locals.seatWaiting kv ops).awaitRemoteKv cfg id numComputedTokens) where
  queues := by
    refine hSeated.ok.queues.await (hSeated.search.loadKvAsync hAsync) hSeated.queued_locals
      (State.prependRequest_perm ..) rfl rfl rfl rfl rfl
      (fun other hNe => Function.update_of_ne hNe ..) ?_ ?_ hSeated.blocks_of_ne hSeated.groups
    · simp [Locals.awaitRemoteKv, State.modifyRequest]
    · simp [Locals.awaitRemoteKv, State.modifyRequest, Locals.seatWaiting, State.popWaiting]
  books := hSeated.ok.books.congr rfl rfl rfl
  noPreempted := hSeated.ok.noPreempted

theorem admitWaiting_scheduledReqs (locals : Locals H) (id : ReqId)
    (numComputedTokens numNewTokens : Nat) :
    (locals.admitWaiting id numComputedTokens numNewTokens).scheduledReqs.Perm
      (locals.scheduledReqs ++ [id]) := by
  unfold Locals.admitWaiting Locals.scheduledReqs
  by_cases hResumed : (locals.st.requests id).status = .preempted
  · simp [hResumed]
  · simp only [hResumed, decide_false, Bool.false_eq_true, if_false]
    simp only [List.append_assoc]
    have hSwap : ([id] ++ locals.scheduledResumedReqs).Perm (locals.scheduledResumedReqs ++ [id]) :=
      List.perm_append_comm
    exact (hSwap.append_left _).append_left _

theorem Seated.startRunning (hSeated : Seated cfg hashing up id numNewTokens start locals found kv
    newBlocks ops) (numComputedTokens numTokens : Nat) :
    WaitingOk cfg ((locals.seatWaiting kv ops).admitWaiting id numComputedTokens numTokens) where
  queues := by
    refine hSeated.ok.queues.startRunning hSeated.queued_locals rfl rfl rfl rfl rfl
      (fun other hNe => Function.update_of_ne hNe ..) ?_ hSeated.blocks_of_ne hSeated.groups
    simp [Locals.admitWaiting, State.modifyRequest]
  books := by
    have hPerm := admitWaiting_scheduledReqs (locals.seatWaiting kv ops) id numComputedTokens
      numTokens
    have hSame : (locals.seatWaiting kv ops).scheduledReqs = locals.scheduledReqs := rfl
    rw [hSame] at hPerm
    have hNot : id ∉ locals.scheduledReqs := fun hMem =>
      hSeated.ok.queues.notMem_running_of_queued hSeated.queued_locals
        (hSeated.ok.books.running id hMem)
    refine ⟨?_, ?_, ?_⟩
    · refine List.Perm.trans ?_ hPerm.symm
      simpa [Locals.admitWaiting, Locals.seatWaiting] using hSeated.ok.books.keys.append_right [id]
    · rw [hPerm.nodup_iff, List.nodup_append]
      refine ⟨hSeated.ok.books.nodup, by simp, fun other hOther last hLast => ?_⟩
      rw [List.mem_singleton.mp hLast]
      exact ne_of_mem_of_not_mem hOther hNot
    · intro other hOther
      change other ∈ locals.st.running ++ [id]
      rcases List.mem_append.mp (hPerm.mem_iff.mp hOther) with hOther | hOther
      · exact List.mem_append_left _ (hSeated.ok.books.running other hOther)
      · exact List.mem_append_right _ hOther
  noPreempted := hSeated.ok.noPreempted

end Seated

theorem WaitingOk.scheduledRunning_nodup {cfg : Config} {locals : Locals H}
    (hOk : WaitingOk cfg locals) : locals.scheduledRunningReqs.Nodup :=
  (List.nodup_append.mp (List.nodup_append.mp hOk.books.nodup).1).1

theorem WaitingOk.evict {cfg : Config} {locals : Locals H} (hOk : WaitingOk cfg locals) :
    WaitingOk cfg (locals.evictDecodes cfg) := by
  rw [evictDecodes_eq cfg hOk.scheduledRunning_nodup]
  have hRest : locals.scheduledReqs.filter (· ∉ locals.scheduledRunningReqs) =
      locals.scheduledNewReqs ++ locals.scheduledResumedReqs := by
    have hNodup := hOk.books.nodup
    rw [Locals.scheduledReqs, List.append_assoc] at hNodup
    rw [Locals.scheduledReqs, List.append_assoc, List.filter_append, List.filter_eq_nil_iff.mpr,
      List.filter_eq_self.mpr, List.nil_append]
    · intro other hOther
      simpa using fun hMem => (List.nodup_append.mp hNodup).2.2 other hMem other hOther rfl
    · simp
  refine ⟨?_, ⟨?_, ?_, ?_⟩, hOk.noPreempted⟩
  · refine hOk.queues.keep rfl rfl (fun other => ?_) rfl rfl rfl rfl
    simp only [Locals.withoutDecodes]
    split <;> rfl
  · have hKeys := hOk.books.keys.filter (· ∉ locals.scheduledRunningReqs)
    rw [List.filter_map, hRest] at hKeys
    exact hKeys
  · change (locals.scheduledNewReqs ++ locals.scheduledResumedReqs).Nodup
    rw [← hRest]
    exact hOk.books.nodup.filter _
  · intro other hOther
    refine hOk.books.running other ?_
    have hMem : other ∈ locals.scheduledNewReqs ++ locals.scheduledResumedReqs := hOther
    rw [Locals.scheduledReqs, List.append_assoc]
    exact List.mem_append_right _ hMem

/-- Leaving the loop puts the skipped requests back. -/
theorem WaitingOk.leave {cfg : Config} {locals : Locals H} (hOk : WaitingOk cfg locals) :
    LoopsOk cfg (locals.leaveWaitingLoop cfg) := by
  generalize hEq : locals.leaveWaitingLoop cfg = last
  have hSt : last.st.ids = locals.st.ids ∧ last.st.inFlight = locals.st.inFlight ∧
      last.st.requests = locals.st.requests ∧ last.st.running = locals.st.running ∧
      last.st.waiting = locals.st.waiting ∧
      last.st.kv.reqToBlocks = locals.st.kv.reqToBlocks ∧
      (last.st.skippedWaiting).Perm (locals.st.skippedWaiting ++ locals.stepSkippedWaiting) := by
    rw [← hEq]
    unfold Locals.leaveWaitingLoop
    dsimp only
    split <;> exact ⟨rfl, rfl, rfl, rfl, rfl, rfl, State.foldl_prependRequest_perm ..⟩
  obtain ⟨hIds, hInFlight, hRequests, hRunning, hWaiting, hBlocks, hPerm⟩ := hSt
  have hQueued : (last.st.waiting ++ last.st.skippedWaiting ++ []).Perm
      (locals.st.waiting ++ locals.st.skippedWaiting ++ locals.stepSkippedWaiting) := by
    rw [hWaiting, List.append_nil, List.append_assoc]
    exact hPerm.append_left _
  have hOld := hOk.queues
  refine ⟨⟨hIds ▸ hOld.ids_nodup, hRunning ▸ hOld.running_nodup, fun id hMem => ?_,
    hQueued.nodup_iff.mpr hOld.queued_nodup, fun id => ?_⟩, ?_, ?_⟩
  · rw [hRequests]
    exact hOld.queued id (hQueued.mem_iff.mp hMem)
  · exact (hOld.request id).congr (by rw [hRequests]) (by rw [hBlocks]) (by rw [hIds])
      (by rw [hRunning]) hInFlight
  · exact hOk.books.congr (hEq ▸ rfl) (hEq ▸ rfl) hRunning
  · exact hEq ▸ rfl

/-! ### The rule -/

/-- What a property of the step has to survive in the waiting loop: `Inv` holds at every
round, `Last` once the loop is left, which it is when a prefill has taken the step. -/
structure WaitingRule (cfg : Config) (hashing : Hashing H X) (up : Upstream H)
    (Inv Last : Locals H → Prop) : Prop where
  last : ∀ {locals}, Inv locals → Last locals
  skip : ∀ {locals id}, WaitingOk cfg locals → Inv locals → locals.subBlockMatch = none →
    id ∈ locals.st.waiting ++ locals.st.skippedWaiting → Inv (locals.skipRequest cfg id)
  promote : ∀ {locals id} (numLoadedTokens : Nat), WaitingOk cfg locals → Inv locals →
    locals.subBlockMatch = none → id ∈ locals.st.waiting ++ locals.st.skippedWaiting →
    (locals.st.requests id).isBlocked = true →
    up.promote id (locals.st.requests id) = some numLoadedTokens →
    Inv (locals.promoteRequest cfg hashing id numLoadedTokens)
  look : ∀ {locals locals' id found}, WaitingOk cfg locals → Inv locals →
    locals.subBlockMatch = none → id ∈ locals.st.waiting ++ locals.st.skippedWaiting →
    Found cfg hashing up id locals locals' found → Inv locals'
  await : ∀ {start locals id found kv newBlocks ops}, Inv start → Inv locals →
    Seated cfg hashing up id 0 start locals found kv newBlocks ops → found.loadKvAsync = true →
    found.numExternal ≠ 0 → Inv ((locals.seatWaiting kv ops).awaitRemoteKv cfg id found.numComputedTokens)
  join : ∀ {start locals id found kv newBlocks ops}, Inv start → Inv locals →
    Seated cfg hashing up id ((locals.st.requests id).waitingTokens cfg found.numComputedTokens)
      start locals found kv newBlocks ops → found.loadKvAsync = false →
    (locals.st.requests id).status = .waiting ∨ (locals.st.requests id).status = .preempted →
    (locals.st.requests id).waitingTokens cfg found.numComputedTokens = 1 →
    ¬ (found.numComputedTokens < (locals.st.requests id).numTokens - 1) →
    ¬ ((locals.st.requests id).isPrefill = true ∧
      (locals.scheduledNewReqs ≠ [] ∨ locals.scheduledResumedReqs ≠ [])) →
    Inv { (locals.seatWaiting kv ops).admitWaiting id found.numComputedTokens 1 with
      admitted := locals.admitted + 1 }
  alone : ∀ {start locals id found kv newBlocks ops}, Inv start → Inv locals →
    Seated cfg hashing up id ((locals.st.requests id).waitingTokens cfg found.numComputedTokens)
      start locals found kv newBlocks ops → found.loadKvAsync = false →
    (locals.st.requests id).status = .waiting ∨ (locals.st.requests id).status = .preempted →
    (locals.st.requests id).waitingTokens cfg found.numComputedTokens ≠ 0 →
    found.numComputedTokens < (locals.st.requests id).numTokens - 1 →
    ¬ ((locals.st.requests id).isPrefill = true ∧
      (locals.scheduledNewReqs ≠ [] ∨ locals.scheduledResumedReqs ≠ [])) →
    Last (((locals.seatWaiting kv ops).admitWaiting id found.numComputedTokens
      ((locals.st.requests id).waitingTokens cfg found.numComputedTokens)).evictDecodes cfg)

theorem peekWaiting_mem {up : Upstream H} {locals : Locals H} {id : ReqId}
    (hPeek : locals.peekWaiting up = some id) :
    id ∈ locals.st.waiting ++ locals.st.skippedWaiting := by
  unfold Locals.peekWaiting at hPeek
  split at hPeek
  · have hMem := List.mem_of_head? hPeek
    simpa [or_comm] using hMem
  · exact List.mem_append_left _ (List.mem_of_head? hPeek)

theorem admitWaiting_isPrefill (locals : Locals H) (kv : Manager H)
    (ops : List KVCacheCopyOp) (id : ReqId) (numComputedTokens numNewTokens : Nat) :
    (((locals.seatWaiting kv ops).admitWaiting id numComputedTokens numNewTokens).st.requests
      id).isPrefill = true ↔ numComputedTokens < (locals.st.requests id).numTokens - 1 := by
  simp [Locals.admitWaiting, State.modifyRequest, Request.isPrefill, Request.numTokens,
    Locals.seatWaiting, State.popWaiting]

/-- The part of a round after the search. -/
private theorem tryAdmit_rule {cfg : Config} {hashing : Hashing H X} {up : Upstream H}
    {Inv Last : Locals H → Prop} (rule : WaitingRule cfg hashing up Inv Last) {id : ReqId}
    {start locals : Locals H} {found : Locals.Computed} (hStart : WaitingOk cfg start)
    (hStartInv : Inv start) (hNone : start.subBlockMatch = none)
    (hMem : id ∈ start.st.waiting ++ start.st.skippedWaiting)
    (hFound : Found cfg hashing up id start locals found)
    (hRoom : start.tokenBudget ≠ 0 ∧ start.st.running.length ≠ cfg.maxNumRunningReqs)
    {next : Next (Locals H)} (hTry : locals.tryAdmit cfg up id found = some next) :
    ∃ locals', WaitingOk cfg locals' ∧ (next = .stop locals' ∧ Last locals' ∨
      next = .more locals' ∧ Inv locals' ∧ locals'.subBlockMatch = none) := by
  have hOk := hStart.looked hFound.looked
  have hInv := rule.look hStart hStartInv hNone hMem hFound
  unfold Locals.tryAdmit at hTry
  split at hTry
  · rename_i hAsync
    split at hTry
    · cases hTry
    rename_i hExternal
    split at hTry
    · cases hTry
    · exact ⟨locals, hOk, .inl ⟨(Option.some.inj hTry).symm, rule.last hInv⟩⟩
    · rename_i seated hAlloc
      obtain ⟨kv, newBlocks, ops, hKv, hOps, rfl⟩ := allocateWaiting_spec hAlloc
      have hSeated : Seated cfg hashing up id 0 start locals found kv newBlocks ops :=
        ⟨hStart, hNone, hMem, hFound, hOk, hKv, hOps, hRoom⟩
      exact ⟨_, hSeated.await hAsync _, .inr ⟨(Option.some.inj hTry).symm,
        rule.await hStartInv hInv hSeated hAsync hExternal, rfl⟩⟩
  rename_i hSync
  have hLocal : found.loadKvAsync = false := by simpa using hSync
  dsimp only at hTry
  split at hTry
  · cases hTry
  rename_i hTokens
  split at hTry
  · exact ⟨locals, hOk, .inl ⟨(Option.some.inj hTry).symm, rule.last hInv⟩⟩
  rename_i hGuard
  split at hTry
  · cases hTry
  · exact ⟨locals, hOk, .inl ⟨(Option.some.inj hTry).symm, rule.last hInv⟩⟩
  rename_i seated hAlloc
  obtain ⟨kv, newBlocks, ops, hKv, hOps, rfl⟩ := allocateWaiting_spec hAlloc
  have hSeated : Seated cfg hashing up id ((locals.st.requests id).waitingTokens cfg
      found.numComputedTokens) start locals found kv newBlocks ops :=
    ⟨hStart, hNone, hMem, hFound, hOk, hKv, hOps, hRoom⟩
  unfold Locals.joinStep at hTry
  dsimp only at hTry
  split at hTry
  · cases hTry
  rename_i hStatus
  have hReady : (locals.st.requests id).status = .waiting ∨
      (locals.st.requests id).status = .preempted := by
    by_contra hNot
    exact hStatus ⟨fun h => hNot (.inl h), fun h => hNot (.inr h)⟩
  split at hTry
  · rename_i hPrefill
    rw [admitWaiting_isPrefill] at hPrefill
    exact ⟨_, (hSeated.startRunning _ _).evict, .inl ⟨(Option.some.inj hTry).symm,
      rule.alone hStartInv hInv hSeated hLocal hReady hTokens hPrefill hGuard⟩⟩
  · rename_i hDecode
    rw [admitWaiting_isPrefill] at hDecode
    split at hTry
    · cases hTry
    rename_i hOne
    have hOne := not_not.mp hOne
    rw [hOne] at hTry
    have hAdmit := hSeated.startRunning found.numComputedTokens 1
    refine ⟨_, ?_, .inr ⟨(Option.some.inj hTry).symm,
      rule.join hStartInv hInv hSeated hLocal hReady hOne hDecode hGuard, rfl⟩⟩
    exact ⟨hAdmit.queues, hAdmit.books.congr rfl rfl rfl, hAdmit.noPreempted⟩

/-- What the moves preserve, a round preserves. -/
theorem waitingRound_rule {cfg : Config} {hashing : Hashing H X} {up : Upstream H}
    {budget : DecodeBatchBudget} {Inv Last : Locals H → Prop} (rule : WaitingRule cfg hashing up Inv Last)
    {locals : Locals H} (hOk : WaitingOk cfg locals) (hInv : Inv locals)
    (hNone : locals.subBlockMatch = none) {next : Next (Locals H)}
    (hRound : locals.waitingRound cfg hashing up budget = some next) :
    ∃ locals', WaitingOk cfg locals' ∧ (next = .stop locals' ∧ Last locals' ∨
      next = .more locals' ∧ Inv locals' ∧ locals'.subBlockMatch = none) := by
  unfold Locals.waitingRound at hRound
  split at hRound
  · exact ⟨locals, hOk, .inl ⟨(Option.some.inj hRound).symm, rule.last hInv⟩⟩
  rename_i id hPeek
  have hMem := peekWaiting_mem hPeek
  dsimp only at hRound
  split at hRound
  · exact ⟨locals, hOk, .inl ⟨(Option.some.inj hRound).symm, rule.last hInv⟩⟩
  rename_i hGuard
  simp only [not_or] at hGuard
  split at hRound
  · exact ⟨_, hOk.skip hMem,
      .inr ⟨(Option.some.inj hRound).symm, rule.skip hOk hInv hNone hMem, hNone⟩⟩
  rename_i ready hPromoted
  have hReady : WaitingOk cfg ready ∧ Inv ready ∧ ready.subBlockMatch = none ∧
      id ∈ ready.st.waiting ++ ready.st.skippedWaiting ∧
      ready.tokenBudget ≠ 0 ∧ ready.st.running.length ≠ cfg.maxNumRunningReqs := by
    split at hPromoted
    · rename_i hBlocked
      simp only [Option.map_eq_some_iff] at hPromoted
      obtain ⟨numLoadedTokens, hLoaded, rfl⟩ := hPromoted
      refine ⟨hOk.promote hashing hBlocked _,
        rule.promote _ hOk hInv hNone hMem hBlocked hLoaded, ?_, ?_, ?_⟩
      all_goals
        obtain ⟨st, hEq, hRunning, hWaiting, hSkipped⟩ :=
          promoteRequest_eq cfg hashing locals id numLoadedTokens
        rw [hEq]
      · exact hNone
      · simpa [hWaiting, hSkipped] using hMem
      · exact ⟨hGuard.1, hRunning ▸ hGuard.2.1⟩
    · cases hPromoted
      exact ⟨hOk, hInv, hNone, hMem, hGuard.1, hGuard.2.1⟩
  obtain ⟨hOk, hInv, hNone, hMem, hRoom⟩ := hReady
  have hSame : { ready with subBlockMatch := none } = ready := by rw [← hNone]
  rw [hSame] at hRound
  split at hRound
  · cases hRound
  · rename_i last hFind
    rcases findComputed_spec hNone hFind with ⟨-, rfl⟩ | ⟨found, hEq, -⟩
    · exact ⟨_, hOk.skip hMem,
        .inr ⟨(Option.some.inj hRound).symm, rule.skip hOk hInv hNone hMem, hNone⟩⟩
    · cases hEq
  · rename_i last found hFind
    rcases findComputed_spec hNone hFind with ⟨hEq, -⟩ | ⟨found', hEq, hFound⟩
    · cases hEq
    · cases hEq
      exact tryAdmit_rule rule hOk hInv hNone hMem hFound hRoom hRound

/-- The guard of the waiting loop. -/
def Locals.skipsWaiting (up : Upstream H) (locals : Locals H) : Prop :=
  locals.preemptedReqs ≠ [] ∨ up.pausedAll = true ∨ up.pausedNew = true ∨
    ∃ id ∈ locals.scheduledRunningReqs.head?, (locals.st.requests id).isPrefill = true

/-- The waiting loop is passed over, or run and left. -/
theorem scheduleWaiting_cases {cfg : Config} {hashing : Hashing H X} {up : Upstream H}
    {budget : DecodeBatchBudget} {locals locals' : Locals H}
    (hWaiting : locals.scheduleWaiting cfg hashing up budget = some locals') :
    (locals.skipsWaiting up ∧ locals' = locals) ∨ (¬ locals.skipsWaiting up ∧
      ∃ fuel last, loop (Locals.waitingRound cfg hashing up budget) fuel locals = some last ∧
        last.leaveWaitingLoop cfg = locals') := by
  unfold Locals.scheduleWaiting at hWaiting
  unfold Locals.skipsWaiting
  cases hScheduled : locals.scheduledRunningReqs with
  | nil =>
      simp only [hScheduled, Bool.false_eq_true, or_false] at hWaiting
      split at hWaiting
      · rename_i hGuard
        exact .inl ⟨by simpa using hGuard, (Option.some.inj hWaiting).symm⟩
      · rename_i hGuard
        exact .inr ⟨by simpa using hGuard, _, Option.map_eq_some_iff.mp hWaiting⟩
  | cons id ids =>
      simp only [hScheduled] at hWaiting
      split at hWaiting
      · rename_i hGuard
        exact .inl ⟨by simpa using hGuard, (Option.some.inj hWaiting).symm⟩
      · rename_i hGuard
        exact .inr ⟨by simpa using hGuard, _, Option.map_eq_some_iff.mp hWaiting⟩

/-- What the moves of the waiting loop preserve holds after any number of rounds. -/
theorem waitingLoop_rule {cfg : Config} {hashing : Hashing H X} {up : Upstream H}
    {budget : DecodeBatchBudget} {Inv Last : Locals H → Prop} (rule : WaitingRule cfg hashing up Inv Last)
    {locals last : Locals H} {fuel : Nat} (hOk : RunningOk cfg locals)
    (hEnters : ¬ locals.skipsWaiting up) (hInv : Inv locals)
    (hLoop : loop (Locals.waitingRound cfg hashing up budget) fuel locals = some last) :
    WaitingOk cfg last ∧ Last last := by
  have hNoPreempted : locals.preemptedReqs = [] := by
    by_contra hNot
    exact hEnters (.inl hNot)
  have hStart : WaitingOk cfg locals := ⟨hOk.noSkipped ▸ hOk.queues, hOk.books, hNoPreempted⟩
  refine loop_rule (fun locals => (WaitingOk cfg locals ∧ Inv locals) ∧
    locals.subBlockMatch = none) (fun locals => WaitingOk cfg locals ∧ Last locals)
    (fun _ h => ⟨h.1.1, rule.last h.1.2⟩) ?_ ?_ ⟨⟨hStart, hInv⟩, hOk.noMatch⟩ hLoop
  · rintro locals next ⟨⟨hOk, hInv⟩, hNone⟩ hRound
    obtain ⟨locals', hOk', ⟨hEq, hLast⟩ | ⟨hEq, -, -⟩⟩ :=
      waitingRound_rule rule hOk hInv hNone hRound <;> cases hEq
    exact ⟨hOk', hLast⟩
  · rintro locals next ⟨⟨hOk, hInv⟩, hNone⟩ hRound
    obtain ⟨locals', hOk', ⟨hEq, -⟩ | ⟨hEq, hInv', hNone'⟩⟩ :=
      waitingRound_rule rule hOk hInv hNone hRound <;> cases hEq
    exact ⟨⟨hOk', hInv'⟩, hNone'⟩

/-- What the moves of the waiting loop preserve holds when it is left, if it is entered
at all. -/
theorem waiting_rule {cfg : Config} {hashing : Hashing H X} {up : Upstream H}
    {budget : DecodeBatchBudget} {Inv Last Post : Locals H → Prop}
    (rule : WaitingRule cfg hashing up Inv Last)
    {locals locals' : Locals H} (hOk : RunningOk cfg locals)
    (hIdle : locals.skipsWaiting up → Post locals)
    (hEnter : ¬ locals.skipsWaiting up → Inv locals)
    (hLeave : ∀ last, WaitingOk cfg last → Last last → Post (last.leaveWaitingLoop cfg))
    (hWaiting : locals.scheduleWaiting cfg hashing up budget = some locals') :
    LoopsOk cfg locals' ∧ Post locals' := by
  rcases scheduleWaiting_cases hWaiting with ⟨hSkips, rfl⟩ | ⟨hSkips, fuel, last, hLoop, rfl⟩
  · exact ⟨⟨hOk.queues, hOk.books, hOk.noMatch⟩, hIdle hSkips⟩
  · have hLast := waitingLoop_rule rule hOk hSkips (hEnter hSkips) hLoop
    exact ⟨hLast.1.leave, hLeave last hLast.1 hLast.2⟩

end VllmRbln.Scheduler
