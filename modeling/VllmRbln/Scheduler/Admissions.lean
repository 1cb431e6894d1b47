import VllmRbln.Scheduler.BlockTables

/-! What one call does to each request: a `schedule()` call admits and preempts, every
other call at most finishes. A request that runs ran before or is admitted, and one that
no longer runs was preempted or is finished. -/
namespace VllmRbln.Scheduler

set_option linter.unusedSectionVars false

open SubBlock Run

variable {H X : Type} [DecidableEq H]

/-! ### Calls other than `schedule()` -/

/-- From `s` to `s'` the requests `finished` are finished, and nothing else leaves the
running queue or enters it. -/
structure Quiet (s s' : State H) (finished : List ReqId) : Prop where
  finishedReqIds : s'.finishedReqIds = s.finishedReqIds ++ finished
  runnerBlocks : s'.runnerBlocks = s.runnerBlocks
  numPreemptions : ∀ id, (s'.requests id).numPreemptions = (s.requests id).numPreemptions
  running : ∀ id, id ∈ s'.running ↔ id ∈ s.running ∧ id ∉ finished
  status : ∀ id, (s'.requests id).status = .finished ↔
    (s.requests id).status = .finished ∨ id ∈ finished

theorem Quiet.refl (s : State H) : Quiet s s [] where
  finishedReqIds := (List.append_nil _).symm
  runnerBlocks := rfl
  numPreemptions _ := rfl
  running := by simp
  status := by simp

theorem Quiet.trans {s s' s'' : State H} {finished more : List ReqId} (hFirst : Quiet s s' finished)
    (hSecond : Quiet s' s'' more) : Quiet s s'' (finished ++ more) where
  finishedReqIds := by
    rw [hSecond.finishedReqIds, hFirst.finishedReqIds, List.append_assoc]
  runnerBlocks := hSecond.runnerBlocks.trans hFirst.runnerBlocks
  numPreemptions id := (hSecond.numPreemptions id).trans (hFirst.numPreemptions id)
  running id := by
    rw [hSecond.running, hFirst.running, List.mem_append, not_or, and_assoc]
  status id := by
    rw [hSecond.status, hFirst.status, List.mem_append, or_assoc]

/-- No request starts, stops or is finished. -/
theorem Quiet.of_same {s s' : State H} (hFinishedIds : s'.finishedReqIds = s.finishedReqIds)
    (hRunner : s'.runnerBlocks = s.runnerBlocks) (hRunning : s'.running = s.running)
    (hPreemptions : ∀ id, (s'.requests id).numPreemptions = (s.requests id).numPreemptions)
    (hStatus : ∀ id, (s'.requests id).status = .finished ↔ (s.requests id).status = .finished) :
    Quiet s s' [] where
  finishedReqIds := by rw [hFinishedIds, List.append_nil]
  runnerBlocks := hRunner
  numPreemptions := hPreemptions
  running id := by simp [hRunning]
  status id := by simp [hStatus]

theorem quiet_freeRequest (cfg : Config) (hashing : Hashing H X) (mode : FreeMode) (s : State H)
    (id : ReqId) : Quiet s (s.freeRequest cfg hashing mode id) [id] where
  finishedReqIds := rfl
  runnerBlocks := rfl
  numPreemptions other := by
    by_cases hEq : other = id
    · subst hEq
      simp [State.freeRequest, State.modifyRequest, State.freeRequestBlocks, State.popWaiting]
    · simp [State.freeRequest, State.modifyRequest, State.freeRequestBlocks, State.popWaiting, hEq]
  running other := by
    change other ∈ s.running.filter (· ≠ id) ↔ other ∈ s.running ∧ other ∉ [id]
    simp
  status other := by
    by_cases hEq : other = id
    · subst hEq
      simp [State.freeRequest, State.modifyRequest]
    · simp [State.freeRequest, State.modifyRequest, State.freeRequestBlocks, State.popWaiting, hEq]

theorem quiet_addRequest {cfg : Config} {s s' : State H} {id : ReqId} {new : NewRequest}
    (hQueues : Queues cfg s []) (hAdd : addRequest cfg s id new = some s') : Quiet s s' [] := by
  obtain ⟨hNew, -, -, -, waiting, skippedWaiting, -, rfl⟩ := addRequest_cases hAdd
  have hUnknown : (s.requests id).status = .unknown := by
    by_contra hKnown
    exact hNew ((hQueues.request id).known.mpr hKnown)
  refine Quiet.of_same rfl rfl rfl ?_ ?_
  · intro other
    by_cases hEq : other = id
    · subst hEq
      have hZero := (hQueues.request other).new_fresh (by rw [hUnknown]; rfl)
      simp [hZero, NewRequest.toRequest, Request.unknown]
    · simp [hEq]
  · intro other
    by_cases hEq : other = id
    · subst hEq
      simp only [Function.update_self, hUnknown, NewRequest.toRequest]
      split <;> simp
    · simp [hEq]

theorem quiet_setDrafts (cfg : Config) (s : State H) (drafts : ReqId × List Token) :
    Quiet s (setDrafts cfg s drafts) [] := by
  unfold setDrafts
  dsimp only
  split
  · exact Quiet.refl s
  · refine Quiet.of_same rfl rfl rfl ?_ ?_ <;> intro other <;> by_cases hEq : other = drafts.1
    · subst hEq; simp [State.modifyRequest]
    · simp [State.modifyRequest, hEq]
    · subst hEq; simp [State.modifyRequest]
    · simp [State.modifyRequest, hEq]

theorem quiet_receiveOutput (cfg : Config) (hashing : Hashing H X) (result : RunnerOutput)
    (output : SchedulerOutput) (s : State H) (id : ReqId) :
    Quiet s (s.receiveOutput cfg hashing result output id) [] := by
  obtain ⟨hStatus, hPreemptions, -⟩ := afterOutput_keeps cfg result output id (s.requests id)
  refine Quiet.of_same rfl rfl rfl ?_ ?_ <;> intro other <;> by_cases hEq : other = id
  · subst hEq; simpa [State.receiveOutput] using hPreemptions
  · simp [State.receiveOutput, hEq]
  · subst hEq; simp [State.receiveOutput, hStatus]
  · simp [State.receiveOutput, hEq]

theorem quiet_update (cfg : Config) (hashing : Hashing H X) (result : RunnerOutput)
    (output : SchedulerOutput) (s : State H) :
    UpdateRule cfg hashing result output fun s' => ∃ finished, Quiet s s' finished where
  receive {s' id} _ hInv _ _ _ := by
    obtain ⟨finished, hQuiet⟩ := hInv
    exact ⟨_, hQuiet.trans (quiet_receiveOutput cfg hashing result output s' id)⟩
  free {s' id mode} _ hInv _ _ _ := by
    obtain ⟨finished, hQuiet⟩ := hInv
    exact ⟨_, hQuiet.trans (quiet_freeRequest cfg hashing mode s' id)⟩

theorem quiet_settleOutput (cfg : Config) (hashing : Hashing H X) (output : SchedulerOutput)
    (s : State H) : Quiet s (s.settleOutput cfg hashing output) [] := by
  unfold State.settleOutput
  split
  · exact Quiet.refl s
  · exact Quiet.of_same rfl rfl rfl (fun _ => rfl) (fun _ => Iff.rfl)

def Action.IsSchedule : Action H → Prop
  | .schedule _ => True
  | _ => False

/-- Every call but `schedule()` is quiet. -/
theorem step_quiet {cfg : Config} {hashing : Hashing H X} {s s' : State H} {action : Action H}
    (hQueues : Queues cfg s []) (hAction : ¬ action.IsSchedule)
    (hStep : step cfg hashing s action = some s') : ∃ finished, Quiet s s' finished := by
  cases action with
  | addRequest id new => exact ⟨_, quiet_addRequest hQueues hStep⟩
  | schedule up => exact absurd trivial hAction
  | updateFromOutput result =>
      obtain ⟨output, inFlight, hInFlight, rfl⟩ := updateFromOutput_cases hStep
      have hPopped := hQueues.popOutput hInFlight
      have hAdmitted : Admitted { s with inFlight := inFlight }
          (output.numScheduledTokens.map Prod.fst) :=
        hQueues.admitted (hInFlight ▸ List.mem_cons_self)
      have hStart : ∃ finished, Quiet s { s with inFlight := inFlight } finished :=
        ⟨[], Quiet.of_same rfl rfl rfl (fun _ => rfl) (fun _ => Iff.rfl)⟩
      obtain ⟨-, finished, hQuiet⟩ :=
        update_rule (quiet_update cfg hashing result output s) hPopped hAdmitted hStart
      exact ⟨_, hQuiet.trans (quiet_settleOutput cfg hashing output _)⟩
  | updateDraftTokenIds drafts =>
      cases hStep
      refine ⟨[], foldl_invariant (Quiet s · []) (fun middle next _ hQuiet => ?_) (Quiet.refl s)⟩
      exact hQuiet.trans (quiet_setDrafts cfg middle next)
  | finishRequest id delayFree defer =>
      simp only [step, finishRequest] at hStep
      split at hStep
      · cases hStep
      · cases hStep
        exact ⟨_, quiet_freeRequest cfg hashing _ s id⟩
  | releaseDeferred =>
      simp only [step, releaseDeferred] at hStep
      split at hStep
      · cases hStep
      · cases hStep
        exact ⟨_, Quiet.of_same rfl rfl rfl (fun _ => rfl) (fun _ => Iff.rfl)⟩
  | freeDelayed id =>
      simp only [step, freeDelayed] at hStep
      split at hStep
      · cases hStep
        exact ⟨_, Quiet.of_same rfl rfl rfl (fun _ => rfl) (fun _ => Iff.rfl)⟩
      · cases hStep

/-! ### One `schedule()` call -/

/-- The step so far against the state `s` that the call started in. -/
structure Since (s : State H) (locals : Locals H) : Prop where
  ids : locals.st.ids = s.ids
  runnerBlocks : locals.st.runnerBlocks = s.runnerBlocks
  numPreemptions : ∀ id, (s.requests id).numPreemptions ≤ (locals.st.requests id).numPreemptions
  finished : ∀ id, (locals.st.requests id).status = .finished → (s.requests id).status = .finished
  scheduled : ∀ id ∈ locals.scheduledRunningReqs, id ∈ s.running
  new : ∀ id ∈ locals.scheduledNewReqs, id ∉ s.running ∧ (s.requests id).numPreemptions = 0
  running : ∀ id ∈ locals.st.running,
    id ∈ s.running ∨ id ∈ locals.scheduledNewReqs ++ locals.scheduledResumedReqs
  kept : ∀ id ∈ s.running, id ∈ locals.st.running ∨ 0 < (locals.st.requests id).numPreemptions
  seated : ∀ id ∈ locals.scheduledNewReqs ++ locals.scheduledResumedReqs,
    locals.st.kv.reqToBlocks id 0 ≠ []

theorem Since.start (cfg : Config) (up : Upstream H) (s : State H) :
    Since s (Locals.start cfg up s) where
  ids := rfl
  runnerBlocks := rfl
  numPreemptions _ := le_rfl
  finished _ hFinished := hFinished
  scheduled := by simp [Locals.start]
  new := by simp [Locals.start]
  running _ hMem := .inl hMem
  kept _ hMem := .inl hMem
  seated := by simp [Locals.start]

/-- No request enters the step or the running queue, and none leaves that queue. -/
theorem Since.keep {s : State H} {locals locals' : Locals H} (hSince : Since s locals)
    (hBooks : Books locals) (hIds : locals'.st.ids = locals.st.ids)
    (hRunner : locals'.st.runnerBlocks = locals.st.runnerBlocks)
    (hRunning : locals'.st.running = locals.st.running)
    (hPreemptions : ∀ id,
      (locals'.st.requests id).numPreemptions = (locals.st.requests id).numPreemptions)
    (hFinished : ∀ id, (locals'.st.requests id).status = .finished →
      (locals.st.requests id).status = .finished)
    (hBlocks : ∀ id ∈ locals.st.running,
      locals'.st.kv.reqToBlocks id = locals.st.kv.reqToBlocks id)
    (hScheduled : ∀ id ∈ locals'.scheduledRunningReqs, id ∈ locals.scheduledRunningReqs)
    (hNew : locals'.scheduledNewReqs = locals.scheduledNewReqs)
    (hResumed : locals'.scheduledResumedReqs = locals.scheduledResumedReqs) : Since s locals' where
  ids := hIds.trans hSince.ids
  runnerBlocks := hRunner.trans hSince.runnerBlocks
  numPreemptions id := (hPreemptions id).symm ▸ hSince.numPreemptions id
  finished id hDone := hSince.finished id (hFinished id hDone)
  scheduled id hMem := hSince.scheduled id (hScheduled id hMem)
  new := hNew ▸ hSince.new
  running := by
    rw [hRunning, hNew, hResumed]
    exact hSince.running
  kept id hMem := by
    rw [hRunning, hPreemptions]
    exact hSince.kept id hMem
  seated id hMem := by
    rw [hNew, hResumed] at hMem
    have hRuns := hBooks.running id (by
      rw [Locals.scheduledReqs, List.append_assoc]
      exact List.mem_append_right _ hMem)
    rw [hBlocks id hRuns]
    exact hSince.seated id hMem

theorem since_running (cfg : Config) (hashing : Hashing H X) (up : Upstream H) (s : State H) :
    RunningRule cfg hashing up (Since s) where
  pass hOk hSince _ _ _ := hSince.keep hOk.books rfl rfl rfl (fun _ => rfl) (fun _ h => h)
    (fun _ _ => rfl) (fun _ h => h) rfl rfl
  preempt {locals locals' id} hOk hSince hVictim hPre := by
    have hRequest : (locals'.st.requests id).numPreemptions =
        (locals.st.requests id).numPreemptions + 1 ∧
          (locals'.st.requests id).status = .preempted := by
      rw [hPre.st]
      simp [State.preemptRequest, State.modifyRequest, State.freeRequestBlocks]
    have hRunning : locals'.st.running = locals.st.running.filter (· ≠ id) := by
      rw [hPre.st]
      rfl
    constructor
    case ids =>
      rw [hPre.st]
      exact hSince.ids
    case runnerBlocks =>
      rw [hPre.st]
      exact hSince.runnerBlocks
    case numPreemptions =>
      intro other
      by_cases hEq : other = id
      · rw [hEq, hRequest.1]
        exact Nat.le_succ_of_le (hSince.numPreemptions id)
      · rw [hPre.requests_of_ne hEq]
        exact hSince.numPreemptions other
    case finished =>
      intro other hDone
      have hNe : other ≠ id := by
        rintro rfl
        rw [hRequest.2] at hDone
        cases hDone
      rw [hPre.requests_of_ne hNe] at hDone
      exact hSince.finished other hDone
    case scheduled =>
      intro other hMem
      rw [hPre.scheduledRunningReqs] at hMem
      exact hSince.scheduled other (List.mem_of_mem_filter hMem)
    case new => simp [hPre.scheduledNewReqs, hOk.noNew]
    case running =>
      intro other hMem
      rw [hRunning] at hMem
      rw [hPre.scheduledNewReqs, hPre.scheduledResumedReqs]
      exact hSince.running other (List.mem_of_mem_filter hMem)
    case kept =>
      intro other hMem
      by_cases hEq : other = id
      · right
        rw [hEq, hRequest.1]
        exact Nat.succ_pos _
      · rw [hRunning, hPre.requests_of_ne hEq]
        exact (hSince.kept other hMem).imp_left fun hIn => by simp [hIn, hEq]
    case seated =>
      simp [hPre.scheduledNewReqs, hPre.scheduledResumedReqs, hOk.noNew, hOk.noResumed]
  grant {id numNewTokens start locals kv newBlocks} _ hSince hGranted := by
    have hRound := hGranted.round
    have hRequests : ∀ other, ((locals.grantRunning id numNewTokens kv newBlocks).st.requests
        other).numPreemptions = (locals.st.requests other).numPreemptions ∧
        ((locals.grantRunning id numNewTokens kv newBlocks).st.requests other).status =
          (locals.st.requests other).status := by
      intro other
      by_cases hEq : other = id
      · subst hEq
        simp [Locals.grantRunning, Locals.scheduleRunning, State.modifyRequest]
      · simp [Locals.grantRunning, Locals.scheduleRunning, State.modifyRequest, hEq]
    constructor
    case ids => exact hSince.ids
    case runnerBlocks => exact hSince.runnerBlocks
    case numPreemptions => exact fun other => (hRequests other).1 ▸ hSince.numPreemptions other
    case finished =>
      exact fun other hDone => hSince.finished other ((hRequests other).2 ▸ hDone)
    case scheduled =>
      intro other hMem
      rcases List.mem_append.mp hMem with hMem | hMem
      · exact hSince.scheduled other hMem
      · rw [List.mem_singleton.mp hMem]
        refine (hSince.running id hRound.running).resolve_right ?_
        simp [hRound.ok.noNew, hRound.ok.noResumed]
    case new => exact hSince.new
    case running => exact hSince.running
    case kept => exact fun other hMem => (hRequests other).1 ▸ hSince.kept other hMem
    case seated =>
      have hNone : (locals.grantRunning id numNewTokens kv newBlocks).scheduledNewReqs ++
          (locals.grantRunning id numNewTokens kv newBlocks).scheduledResumedReqs = [] := by
        simp [Locals.grantRunning, Locals.scheduleRunning, hRound.ok.noNew, hRound.ok.noResumed]
      rw [hNone]
      simp

section Seated

variable {cfg : Config} {hashing : Hashing H X} {up : Upstream H} {id : ReqId} {numNewTokens : Nat}
  {s : State H} {start locals : Locals H} {found : Locals.Computed} {kv : Manager H}
  {newBlocks : Blocks} {ops : List KVCacheCopyOp}

/-- Slots for one token or more take at least one block of a group that does not slide. -/
theorem Seated.blocks_ne_nil
    (hSeated : Seated cfg hashing up id numNewTokens start locals found kv newBlocks ops)
    (hTokens : numNewTokens ≠ 0) (hLen : 0 < cfg.maxModelLen) {group : Nat}
    (hGroup : group < cfg.numGroups) (hWindow : cfg.slidingWindow group = false) :
    kv.reqToBlocks id group ≠ [] := by
  obtain ⟨hKv, hNew⟩ := Manager.allocateSlots_spec hSeated.alloc
  have hCount := hNew.length group hGroup
  simp only [Manager.newBlockCount, hWindow, Bool.false_eq_true, if_false] at hCount
  have hSlots : 0 < min (found.numSlots cfg numNewTokens) cfg.maxModelLen := by
    unfold Locals.Computed.numSlots
    omega
  have hBlocks : 0 < (min (found.numSlots cfg numNewTokens) cfg.maxModelLen +
      cfg.blockSize group - 1) / cfg.blockSize group :=
    Nat.div_pos (by omega) (cfg.blockSize_pos group)
  rw [hKv, Manager.giveBlocks_reqToBlocks, Function.update_self]
  intro hNil
  simp only [List.append_eq_nil_iff] at hNil
  simp only [hNil.1, hNil.2.1, hNil.2.2, List.length_nil] at hCount
  omega

theorem mem_admitWaiting {other : ReqId} {numComputedTokens numTokens : Nat} :
    other ∈ (locals.admitWaiting id numComputedTokens numTokens).scheduledNewReqs ++
        (locals.admitWaiting id numComputedTokens numTokens).scheduledResumedReqs ↔
      other = id ∨ other ∈ locals.scheduledNewReqs ++ locals.scheduledResumedReqs := by
  by_cases hResumed : (locals.st.requests id).status = .preempted
  · simp only [Locals.admitWaiting, hResumed, decide_true, if_true, List.mem_append,
      List.mem_singleton]
    tauto
  · simp only [Locals.admitWaiting, hResumed, decide_false, Bool.false_eq_true, if_false,
      List.mem_append, List.mem_singleton]
    tauto

theorem mem_admitWaiting_new {other : ReqId} {numComputedTokens numTokens : Nat}
    (hMem : other ∈ (locals.admitWaiting id numComputedTokens numTokens).scheduledNewReqs) :
    other ∈ locals.scheduledNewReqs ∨
      other = id ∧ (locals.st.requests id).status ≠ .preempted := by
  by_cases hResumed : (locals.st.requests id).status = .preempted
  · simp only [Locals.admitWaiting, hResumed, decide_true, if_true] at hMem
    exact .inl hMem
  · simp only [Locals.admitWaiting, hResumed, decide_false, Bool.false_eq_true, if_false,
      List.mem_append, List.mem_singleton] at hMem
    exact hMem.imp_right fun hEq => ⟨hEq, hResumed⟩

/-- A request enters the step: one that is new has never run. -/
theorem Since.startRunning (hSince : Since s locals)
    (hSeated : Seated cfg hashing up id numNewTokens start locals found kv newBlocks ops)
    (hReady : (locals.st.requests id).status = .waiting ∨
      (locals.st.requests id).status = .preempted)
    (hBlocks : kv.reqToBlocks id 0 ≠ []) (numComputedTokens numTokens : Nat) :
    Since s ((locals.seatWaiting kv ops).admitWaiting id numComputedTokens numTokens) := by
  have hNotRunning := hSeated.ok.queues.notMem_running_of_queued hSeated.queued_locals
  have hRequests : ∀ other, (((locals.seatWaiting kv ops).admitWaiting id numComputedTokens
      numTokens).st.requests other).numPreemptions =
        (locals.st.requests other).numPreemptions := by
    intro other
    by_cases hEq : other = id
    · subst hEq
      simp [Locals.admitWaiting, State.modifyRequest, State.popWaiting, Locals.seatWaiting]
    · simp [Locals.admitWaiting, State.modifyRequest, State.popWaiting, Locals.seatWaiting, hEq]
  constructor
  case ids => exact hSince.ids
  case runnerBlocks => exact hSince.runnerBlocks
  case numPreemptions => exact fun other => (hRequests other).symm ▸ hSince.numPreemptions other
  case finished =>
    intro other hDone
    by_cases hEq : other = id
    · subst hEq
      simp [Locals.admitWaiting, State.modifyRequest] at hDone
    · refine hSince.finished other ?_
      simpa [Locals.admitWaiting, State.modifyRequest, State.popWaiting, Locals.seatWaiting, hEq]
        using hDone
  case scheduled => exact hSince.scheduled
  case new =>
    intro other hMem
    rcases mem_admitWaiting_new hMem with hMem | ⟨rfl, hNot⟩
    · exact hSince.new other hMem
    · have hFresh := (hSeated.ok.queues.request other).new_fresh (by
        rw [hReady.resolve_right hNot]
        rfl)
      refine ⟨fun hRan => ?_, Nat.le_zero.mp (hFresh ▸ hSince.numPreemptions other)⟩
      -- had it run when the call started, it would have been preempted since
      rcases hSince.kept other hRan with hRuns | hPreempted
      · exact hNotRunning hRuns
      · omega
  case running =>
    intro other hMem
    rw [mem_admitWaiting]
    rcases List.mem_append.mp hMem with hMem | hMem
    · exact (hSince.running other hMem).imp_right .inr
    · exact .inr (.inl (List.mem_singleton.mp hMem))
  case kept =>
    intro other hMem
    rw [hRequests]
    exact (hSince.kept other hMem).imp_left (List.mem_append_left _)
  case seated =>
    intro other hMem
    rcases mem_admitWaiting.mp hMem with rfl | hMem
    · exact hBlocks
    · have hRuns := hSeated.ok.books.running other (by
        rw [Locals.scheduledReqs, List.append_assoc]
        exact List.mem_append_right _ hMem)
      have hSame := hSeated.blocks_of_ne other (ne_of_mem_of_not_mem hRuns hNotRunning)
      change kv.reqToBlocks other 0 ≠ []
      rw [hSame]
      exact hSince.seated other hMem

end Seated

theorem promoteRequest_id (cfg : Config) (hashing : Hashing H X) (locals : Locals H) (id : ReqId)
    (numLoadedTokens : Nat) :
    let st := (locals.promoteRequest cfg hashing id numLoadedTokens).st
    st.ids = locals.st.ids ∧
      (st.requests id).numPreemptions = (locals.st.requests id).numPreemptions ∧
      (st.requests id).status = (locals.st.requests id).readyStatus := by
  unfold Locals.promoteRequest
  dsimp only
  split
  · split <;> simp [State.freeRequestBlocks, State.modifyRequest]
  · simp [State.modifyRequest]

theorem Since.evict {cfg : Config} {s : State H} {locals : Locals H} (hSince : Since s locals)
    (hOk : WaitingOk cfg locals) : Since s (locals.evictDecodes cfg) := by
  rw [evictDecodes_eq cfg hOk.scheduledRunning_nodup]
  refine hSince.keep hOk.books rfl rfl rfl (fun id => ?_) (fun id hDone => ?_) (fun _ _ => rfl)
    (by simp) rfl rfl
  · simp only [Locals.withoutDecodes]
    split <;> rfl
  · simp only [Locals.withoutDecodes] at hDone
    split at hDone <;> exact hDone

theorem since_waiting (cfg : Config) (hashing : Hashing H X) (up : Upstream H) {s : State H}
    (hGroup : 0 < cfg.numGroups) (hWindow : cfg.slidingWindow 0 = false)
    (hLen : ∀ id ∈ s.ids, 0 < cfg.maxModelLen) :
    WaitingRule cfg hashing up (Since s) (Since s) where
  last hSince := hSince
  skip hOk hSince _ _ := hSince.keep hOk.books rfl rfl rfl (fun _ => rfl) (fun _ h => h)
    (fun _ _ => rfl) (fun _ h => h) rfl rfl
  promote {locals id} numLoadedTokens hOk hSince _ hMem _ _ := by
    have hNotRunning := hOk.queues.notMem_running_of_queued hMem
    obtain ⟨st, hEq, hRunning, -, -⟩ := promoteRequest_eq cfg hashing locals id numLoadedTokens
    have hOthers := promoteRequest_tables cfg hashing locals id numLoadedTokens
    have hSelf := promoteRequest_id cfg hashing locals id numLoadedTokens
    rw [hEq] at hOthers hSelf ⊢
    refine hSince.keep hOk.books hSelf.1 hOthers.2.2.1 hRunning (fun other => ?_)
      (fun other hDone => ?_) (fun other hOther => (hOthers.2.2.2 other
        (ne_of_mem_of_not_mem hOther hNotRunning)).1) (fun _ h => h) rfl rfl
    · by_cases hSame : other = id
      · rw [hSame]
        exact hSelf.2.1
      · rw [(hOthers.2.2.2 other hSame).2]
    · have hNe : other ≠ id := by
        rintro rfl
        have hWaits := Queues.readyStatus_isWaiting (locals.st.requests other)
        rw [← hSelf.2.2, hDone] at hWaits
        cases hWaits
      rw [(hOthers.2.2.2 other hNe).2] at hDone
      exact hDone
  look {locals locals' id found} hOk hSince _ _ hFound := by
    obtain ⟨kv, pins, unpins, subBlockMatch, rfl, hBlocks, -⟩ := hFound.looked.keeps
    exact hSince.keep hOk.books rfl rfl rfl (fun _ => rfl) (fun _ h => h)
      (fun other _ => congrFun hBlocks other) (fun _ h => h) rfl rfl
  await {start locals id found kv newBlocks ops} _ hSince hSeated _ _ := by
    have hNotRunning := hSeated.ok.queues.notMem_running_of_queued hSeated.queued_locals
    refine hSince.keep hSeated.ok.books rfl rfl rfl (fun other => ?_) (fun other hDone => ?_)
      (fun other hOther => hSeated.blocks_of_ne other (ne_of_mem_of_not_mem hOther hNotRunning))
      (fun _ h => h) rfl rfl
    · by_cases hEq : other = id
      · subst hEq
        simp [Locals.awaitRemoteKv, State.modifyRequest, State.popWaiting, Locals.seatWaiting]
      · simp [Locals.awaitRemoteKv, State.modifyRequest, State.popWaiting, Locals.seatWaiting, hEq]
    · by_cases hEq : other = id
      · subst hEq
        simp [Locals.awaitRemoteKv, State.modifyRequest] at hDone
      · simpa [Locals.awaitRemoteKv, State.modifyRequest, State.popWaiting, Locals.seatWaiting, hEq]
          using hDone
  join {start locals id found kv newBlocks ops} _ hSince hSeated _ hReady hOne _ _ := by
    have hMem : id ∈ s.ids :=
      hSince.ids ▸ hSeated.ok.queues.mem_ids_of_queued hSeated.queued_locals
    have hBlocks := hSeated.blocks_ne_nil (by rw [hOne]; decide) (hLen id hMem) hGroup hWindow
    have hAdmit := hSince.startRunning hSeated hReady hBlocks found.numComputedTokens 1
    exact hAdmit.keep (hSeated.startRunning _ _).books rfl rfl rfl (fun _ => rfl) (fun _ h => h)
      (fun _ _ => rfl) (fun _ h => h) rfl rfl
  alone {start locals id found kv newBlocks ops} _ hSince hSeated _ hReady hTokens _ _ := by
    have hMem : id ∈ s.ids :=
      hSince.ids ▸ hSeated.ok.queues.mem_ids_of_queued hSeated.queued_locals
    have hBlocks := hSeated.blocks_ne_nil hTokens (hLen id hMem) hGroup hWindow
    exact (hSince.startRunning hSeated hReady hBlocks _ _).evict (hSeated.startRunning _ _)

theorem Since.leave {cfg : Config} {s : State H} {locals : Locals H} (hSince : Since s locals)
    (hOk : WaitingOk cfg locals) : Since s (locals.leaveWaitingLoop cfg) := by
  unfold Locals.leaveWaitingLoop
  dsimp only
  split <;> exact hSince.keep hOk.books rfl rfl rfl (fun _ => rfl) (fun _ h => h) (fun _ _ => rfl)
    (fun _ h => h) rfl rfl

theorem loops_since {cfg : Config} {hashing : Hashing H X} {up : Upstream H} {s : State H}
    (hQueues : Queues cfg s []) (hGroup : 0 < cfg.numGroups) (hWindow : cfg.slidingWindow 0 = false)
    (hLen : ∀ id ∈ s.ids, 0 < cfg.maxModelLen) {locals : Locals H}
    (hLoops : Locals.loops cfg hashing up s = some locals) : Since s locals :=
  (loops_rule (Since s) (since_running cfg hashing up s)
    (since_waiting cfg hashing up hGroup hWindow hLen) hQueues (Since.start cfg up s)
    (fun _ _ h _ => h) (fun _ _ h _ _ => h) (fun _ hOk h => h.leave hOk) hLoops).2

/-- The end of the call changes counts and drafts alone. -/
theorem finish_request (cfg : Config) (hashing : Hashing H X) (locals : Locals H) (id : ReqId) :
    ((locals.finish cfg hashing).requests id).status = (locals.st.requests id).status ∧
      ((locals.finish cfg hashing).requests id).numPreemptions =
        (locals.st.requests id).numPreemptions := by
  simp only [Locals.finish]
  split
  · exact ⟨(advanceRequest_keeps ..).1, (advanceRequest_keeps ..).2.1⟩
  · exact ⟨rfl, rfl⟩

/-- A request is only let in under a length limit. -/
theorem maxModelLen_run (cfg : Config) (hashing : Hashing H X) (hGroup : 0 < cfg.numGroups)
    (hWindow : cfg.slidingWindow 0 = false) :
    RunRule cfg hashing (fun _ => True) fun s : State H => ∀ id ∈ s.ids, 0 < cfg.maxModelLen where
  initial := by simp [State.initial]
  add {s s' id new} _ _ hAdd := by
    obtain ⟨-, -, hShort, -⟩ := addRequest_cases hAdd
    exact fun _ _ => Nat.zero_lt_of_lt hShort
  schedule {s up locals} _ hQueues hLen _ hLoops _ _ := by
    have hSince := loops_since hQueues hGroup hWindow hLen hLoops
    exact fun id hMem => hLen id (hSince.ids ▸ hMem)
  update {s result output inFlight} _ hLen _ hPopped hAdmitted := by
    have updates : UpdateRule cfg hashing result output fun s' : State H => s'.ids = s.ids :=
      { receive := fun _ hIds _ _ _ => hIds
        free := fun _ hIds _ _ _ => hIds }
    have hUpdated := (update_rule updates hPopped hAdmitted rfl).2
    intro id hMem
    refine hLen id (hUpdated ▸ ?_)
    unfold State.settleOutput at hMem
    split at hMem <;> exact hMem
  drafts {s} drafts _ hLen := by
    unfold setDrafts
    dsimp only
    split <;> exact hLen
  free _ hLen _ _ _ := hLen
  releaseDeferred _ hLen _ := hLen
  freeDelayed _ hLen _ := hLen

end VllmRbln.Scheduler
