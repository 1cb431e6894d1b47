import VllmRbln.Scheduler.Idle

/-! The life of a request in the scheduler. Until it finishes it stands in one queue, at one
place; when it has finished the runner is told so by one step's output, and no step is sent
for it from then on. -/
namespace VllmRbln.Scheduler

set_option linter.unusedSectionVars false

open SubBlock Run

variable {H X : Type} [DecidableEq H]

/-! ### No request is lost -/

/-- A request that waits is in a waiting queue, or set aside by the current call. -/
def Placed (s : State H) (skipped : List ReqId) : Prop :=
  ∀ id, (s.requests id).status.isWaiting → id ∈ s.waiting ++ s.skippedWaiting ++ skipped

section Placed

variable {cfg : Config} {s s' : State H} {skipped skipped' : List ReqId}

theorem Placed.keep (hPlaced : Placed s skipped)
    (hStatus : ∀ id, (s'.requests id).status = (s.requests id).status)
    (hWaiting : s'.waiting = s.waiting) (hSkipped : s'.skippedWaiting = s.skippedWaiting) :
    Placed s' skipped := by
  intro id hWaits
  rw [hStatus] at hWaits
  rw [hWaiting, hSkipped]
  exact hPlaced id hWaits

/-- One request moves: the others keep their status and their place. -/
theorem Placed.move (hPlaced : Placed s skipped) (id : ReqId)
    (hOthers : ∀ other, other ≠ id → (s'.requests other).status = (s.requests other).status)
    (hKept : ∀ other, other ≠ id → other ∈ s.waiting ++ s.skippedWaiting ++ skipped →
      other ∈ s'.waiting ++ s'.skippedWaiting ++ skipped')
    (hSelf : (s'.requests id).status.isWaiting →
      id ∈ s'.waiting ++ s'.skippedWaiting ++ skipped') : Placed s' skipped' := by
  intro other hWaits
  by_cases hEq : other = id
  · rw [hEq] at hWaits ⊢
    exact hSelf hWaits
  · rw [hOthers other hEq] at hWaits
    exact hKept other hEq (hPlaced other hWaits)

/-- Taking one request off the waiting queues leaves the others where they are. -/
theorem popWaiting_keeps {id other : ReqId} (hNe : other ≠ id)
    (hMem : other ∈ s.waiting ++ s.skippedWaiting ++ skipped) :
    other ∈ (s.popWaiting id).waiting ++ (s.popWaiting id).skippedWaiting ++ skipped := by
  simpa [State.popWaiting, hNe] using hMem

end Placed

theorem placed_running (cfg : Config) (hashing : Hashing H X) (up : Upstream H) :
    RunningRule cfg hashing up fun locals => Placed locals.st [] where
  pass _ hPlaced _ _ _ := hPlaced
  preempt {locals locals' id} _ hPlaced _ hPre := by
    have hPerm : locals'.st.waiting.Perm (id :: locals.st.waiting) := by
      rw [hPre.st]
      exact State.prependRequest_perm ..
    have hSkipped : locals'.st.skippedWaiting = locals.st.skippedWaiting := by
      rw [hPre.st]
      rfl
    apply hPlaced.move id
    · exact fun other hNe => by rw [hPre.requests_of_ne hNe]
    · intro other _ hMem
      rw [hSkipped]
      simp only [List.append_nil, List.mem_append, hPerm.mem_iff, List.mem_cons] at hMem ⊢
      exact hMem.imp_left .inr
    · intro _
      simp [hPerm.mem_iff]
  grant {id numNewTokens start locals kv newBlocks} _ hPlaced _ := by
    refine hPlaced.keep (fun other => ?_) (by rfl) (by rfl)
    by_cases hEq : other = id
    · subst hEq
      simp [Locals.grantRunning, Locals.scheduleRunning, State.modifyRequest]
    · simp [Locals.grantRunning, Locals.scheduleRunning, State.modifyRequest, hEq]

/-- A queued request changes in place, and still waits. -/
theorem Placed.queued {locals locals' : Locals H} {id : ReqId}
    (hPlaced : Placed locals.st locals.stepSkippedWaiting)
    (hMem : id ∈ locals.st.waiting ++ locals.st.skippedWaiting) {status : RequestStatus}
    {numComputedTokens : Nat}
    (hRequests : locals'.st.requests = Function.update locals.st.requests id
      { locals.st.requests id with status := status, numComputedTokens := numComputedTokens })
    (hWaiting : locals'.st.waiting = locals.st.waiting)
    (hSkipped : locals'.st.skippedWaiting = locals.st.skippedWaiting)
    (hAside : locals'.stepSkippedWaiting = locals.stepSkippedWaiting) :
    Placed locals'.st locals'.stepSkippedWaiting := by
  apply hPlaced.move id
  · intro other hNe
    rw [hRequests, Function.update_of_ne hNe]
  · intro other _ hOther
    rw [hWaiting, hSkipped, hAside]
    exact hOther
  · intro _
    rw [hWaiting, hSkipped]
    exact List.mem_append_left _ hMem

/-- A request that is admitted waits no longer. -/
theorem Placed.admit {locals : Locals H} (hPlaced : Placed locals.st locals.stepSkippedWaiting)
    (kv : Manager H) (ops : List KVCacheCopyOp) (id : ReqId) (numComputedTokens numNewTokens : Nat) :
    Placed ((locals.seatWaiting kv ops).admitWaiting id numComputedTokens numNewTokens).st
      locals.stepSkippedWaiting := by
  apply hPlaced.move id
  · intro other hNe
    exact congrArg Request.status (Function.update_of_ne hNe ..)
  · exact fun other hNe hMem => popWaiting_keeps hNe hMem
  · intro hWaits
    simp [Locals.admitWaiting, State.modifyRequest, RequestStatus.isWaiting] at hWaits

theorem placed_waiting (cfg : Config) (hashing : Hashing H X) (up : Upstream H) :
    WaitingRule cfg hashing up (fun locals => Placed locals.st locals.stepSkippedWaiting)
      fun locals => Placed locals.st locals.stepSkippedWaiting where
  last hPlaced := hPlaced
  skip {locals id} _ hPlaced _ _ := by
    have hPerm := State.prependRequest_perm cfg locals.st locals.stepSkippedWaiting id
    apply hPlaced.move id
    · exact fun _ _ => rfl
    · intro other hNe hMem
      have hKept := popWaiting_keeps hNe hMem
      simp only [Locals.skipRequest, List.mem_append, hPerm.mem_iff, List.mem_cons] at hKept ⊢
      exact hKept.imp_right .inr
    · intro _
      simp [Locals.skipRequest, hPerm.mem_iff]
  promote {locals id} numLoadedTokens _ hPlaced _ hMem _ _ := by
    obtain ⟨_, _, hRequests, -⟩ := promoteRequest_requests cfg hashing locals id numLoadedTokens
    obtain ⟨st, hEq, -, hWaiting, hSkipped⟩ :=
      promoteRequest_eq cfg hashing locals id numLoadedTokens
    apply hPlaced.queued hMem hRequests
    · rw [hEq, hWaiting]
    · rw [hEq, hSkipped]
    · rw [hEq]
  look _ hPlaced _ _ hFound := by
    obtain ⟨_, _, _, _, rfl, -⟩ := hFound.looked.keeps
    exact hPlaced
  await {start locals id found kv newBlocks ops} _ hPlaced _ _ _ := by
    have hPerm := State.prependRequest_perm cfg (((locals.seatWaiting kv ops).st.popWaiting
      id).modifyRequest id fun request => { request with
        status := .waitingForRemoteKvs, numComputedTokens := found.numComputedTokens })
      locals.stepSkippedWaiting id
    apply hPlaced.move id
    · intro other hNe
      exact congrArg Request.status (Function.update_of_ne hNe ..)
    · intro other hNe hMem
      have hKept := popWaiting_keeps hNe hMem
      simp only [Locals.awaitRemoteKv, List.mem_append] at hKept ⊢
      exact hKept.imp_right fun hAside => hPerm.mem_iff.mpr (List.mem_cons_of_mem _ hAside)
    · intro _
      exact List.mem_append_right _ (hPerm.mem_iff.mpr List.mem_cons_self)
  join {start locals id found kv newBlocks ops} _ hPlaced _ _ _ _ _ _ :=
    hPlaced.admit kv ops id found.numComputedTokens 1
  alone {start locals id found kv newBlocks ops} _ hPlaced hSeated _ _ _ _ _ := by
    rw [evictDecodes_eq cfg (hSeated.startRunning _ _).scheduledRunning_nodup]
    have hAdmitted := hPlaced.admit kv ops id found.numComputedTokens
      ((locals.st.requests id).waitingTokens cfg found.numComputedTokens)
    refine hAdmitted.keep (fun other => ?_) (by rfl) (by rfl)
    simp only [Locals.withoutDecodes]
    split <;> rfl

/-- Leaving the loop puts the requests set aside back. -/
theorem Placed.leave {locals : Locals H} (cfg : Config)
    (hPlaced : Placed locals.st locals.stepSkippedWaiting) :
    Placed (locals.leaveWaitingLoop cfg).st [] := by
  have hPerm : (locals.leaveWaitingLoop cfg).st.skippedWaiting.Perm
      (locals.st.skippedWaiting ++ locals.stepSkippedWaiting) := by
    unfold Locals.leaveWaitingLoop
    dsimp only
    split <;> exact State.foldl_prependRequest_perm ..
  have hWaiting : (locals.leaveWaitingLoop cfg).st.waiting = locals.st.waiting := by
    unfold Locals.leaveWaitingLoop
    dsimp only
    split <;> rfl
  intro id hWaits
  rw [leaveWaitingLoop_requests] at hWaits
  have hMem := hPlaced id hWaits
  rw [hWaiting, List.append_nil, List.mem_append, hPerm.mem_iff]
  simpa using hMem

/-- A request that ends waits no longer. -/
theorem Placed.free {cfg : Config} {s : State H} (hPlaced : Placed s []) (hashing : Hashing H X)
    (mode : FreeMode) (id : ReqId) : Placed (s.freeRequest cfg hashing mode id) [] := by
  apply hPlaced.move id
  · intro other hNe
    exact congrArg Request.status (Function.update_of_ne hNe ..)
  · exact fun other hNe hMem => popWaiting_keeps hNe hMem
  · intro hWaits
    simp [State.freeRequest, State.modifyRequest, RequestStatus.isWaiting] at hWaits

theorem placed_update (cfg : Config) (hashing : Hashing H X) (result : RunnerOutput)
    (output : SchedulerOutput) : UpdateRule cfg hashing result output fun s => Placed s [] where
  receive {s id} _ hPlaced _ _ _ := by
    refine hPlaced.keep (fun other => ?_) (by rfl) (by rfl)
    by_cases hEq : other = id
    · subst hEq
      simp [State.receiveOutput, (afterOutput_keeps cfg result output other (s.requests other)).1]
    · simp [State.receiveOutput, hEq]
  free _ hPlaced _ _ _ := hPlaced.free hashing _ _

theorem finish_status (cfg : Config) (hashing : Hashing H X) (locals : Locals H) (id : ReqId) :
    ((locals.finish cfg hashing).requests id).status = (locals.st.requests id).status := by
  simp only [Locals.finish]
  split
  · exact (advanceRequest_keeps ..).1
  · rfl

theorem placed_run (cfg : Config) (hashing : Hashing H X) :
    RunRule cfg hashing (fun _ => True) fun s => Placed s [] where
  initial id hWaits := by
    simp [State.initial, Request.unknown, RequestStatus.isWaiting] at hWaits
  add {s s' id new} _ hPlaced hAdd := by
    obtain ⟨-, -, -, -, waiting, skippedWaiting, hPerm, rfl⟩ := addRequest_cases hAdd
    apply hPlaced.move id
    · intro other hNe
      exact congrArg Request.status (Function.update_of_ne hNe ..)
    · intro other _ hMem
      rw [List.append_nil] at hMem ⊢
      exact hPerm.mem_iff.mpr (List.mem_cons_of_mem _ hMem)
    · intro _
      rw [List.append_nil]
      exact hPerm.mem_iff.mpr List.mem_cons_self
  schedule {s up locals} _ hQueues hPlaced _ hLoops _ _ := by
    have hLocals := (loops_rule (fun locals => Placed locals.st [])
      (placed_running cfg hashing up) (placed_waiting cfg hashing up) hQueues hPlaced
      (fun _ _ h _ => h) (fun mid hOk h _ _ => hOk.noSkipped ▸ h) (fun mid _ h => h.leave cfg)
      hLoops).2
    exact hLocals.keep (finish_status cfg hashing locals) rfl rfl
  update {s result output inFlight} _ hPlaced _ hPopped hAdmitted := by
    have hDone := (update_rule (placed_update cfg hashing result output) hPopped hAdmitted
      hPlaced).2
    unfold State.settleOutput
    split
    · exact hDone
    · exact hDone
  drafts {s} drafts _ hPlaced := by
    unfold setDrafts
    dsimp only
    split
    · exact hPlaced
    · refine hPlaced.keep (fun other => ?_) (by rfl) (by rfl)
      by_cases hEq : other = drafts.1
      · subst hEq
        simp [State.modifyRequest]
      · simp [State.modifyRequest, hEq]
  free _ hPlaced _ _ _ := hPlaced.free hashing _ _
  releaseDeferred _ hPlaced _ := hPlaced
  freeDelayed _ hPlaced _ := hPlaced

/-- No request is lost and none is doubled: the queues together hold each request that has
not finished, once. -/
theorem queues_hold_unfinished {cfg : Config} {hashing : Hashing H X} {actions : List (Action H)}
    {s : State H} (run : Reaches cfg hashing actions s) :
    (s.running ++ (s.waiting ++ s.skippedWaiting)).Nodup ∧
      ∀ id, id ∈ s.running ++ (s.waiting ++ s.skippedWaiting) ↔
        id ∈ s.ids ∧ (s.requests id).status ≠ .finished := by
  obtain ⟨hQueues, hPlaced⟩ := run_rule (placed_run cfg hashing) (fun _ _ => trivial) run
  have hNodup := hQueues.queued_nodup
  rw [List.append_nil] at hNodup
  refine ⟨List.nodup_append.mpr ⟨hQueues.running_nodup, hNodup, fun id hRuns other hWaits hEq => ?_⟩,
    fun id => ⟨fun hMem => ?_, fun ⟨hKnown, hUnfinished⟩ => ?_⟩⟩
  · exact hQueues.notMem_running_of_queued hWaits (hEq ▸ hRuns)
  · rcases List.mem_append.mp hMem with hRuns | hWaits
    · have hStatus := (hQueues.request id).running.mp hRuns
      exact ⟨hQueues.mem_ids_of_running hRuns, by simp [hStatus]⟩
    · exact ⟨hQueues.mem_ids_of_queued hWaits, (hQueues.live_of_queued hWaits).2⟩
  · have hNotUnknown := (hQueues.request id).known.mp hKnown
    by_cases hRuns : (s.requests id).status = .running
    · exact List.mem_append_left _ ((hQueues.request id).running.mpr hRuns)
    · have hWaits : (s.requests id).status.isWaiting = true := by
        cases hCase : (s.requests id).status <;> simp_all [RequestStatus.isWaiting]
      apply List.mem_append_right
      simpa using hPlaced id hWaits

/-- A prefill has the step for itself, and the other prompt waits. -/
theorem queues_hold_unfinished_small : ∃ s, Reaches Config.small Hashing.free
      [.addRequest 0 (.plain [1, 2, 3] 8), .addRequest 1 (.plain [1, 2, 4] 8),
        .schedule (.plain .small)] s ∧
    s.running = [0] ∧ s.waiting = [1] ∧ (s.running ++ (s.waiting ++ s.skippedWaiting)).Nodup := by
  obtain ⟨s, run, hHolds⟩ := Reaches.exists_of_any Config.small Hashing.free
    [.addRequest 0 (.plain [1, 2, 3] 8), .addRequest 1 (.plain [1, 2, 4] 8),
      .schedule (.plain .small)]
    (fun s => decide (s.running = [0] ∧ s.waiting = [1])) (by decide +kernel)
  obtain ⟨hRunning, hWaiting⟩ := of_decide_eq_true hHolds
  exact ⟨s, run, hRunning, hWaiting, (queues_hold_unfinished run).1⟩

/-! ### The end of a request is announced once -/

/-- The output that an action sends to the runner, in the state after it. -/
def Action.sends (action : Action H) (s : State H) : List SchedulerOutput :=
  match action with
  | .schedule _ => s.inFlight.getLast?.toList
  | _ => []

/-- The outputs of the `schedule()` calls of a run, oldest first. -/
def outputs (cfg : Config) (hashing : Hashing H X) : State H → List (Action H) →
    List SchedulerOutput
  | _, [] => []
  | s, action :: actions =>
      match step cfg hashing s action with
      | none => []
      | some s' => action.sends s' ++ outputs cfg hashing s' actions

/-- The requests that a list of outputs announces as finished. -/
def announced (sent : List SchedulerOutput) : List ReqId :=
  sent.flatMap (·.finishedReqIds)

/-- What the runner was told, and what the next output tells it, are the requests that have
finished. -/
structure Told (told : List ReqId) (s : State H) : Prop where
  nodup : (told ++ s.finishedReqIds).Nodup
  finished : ∀ id, id ∈ told ++ s.finishedReqIds ↔ (s.requests id).status = .finished

section Told

variable {cfg : Config} {s s' : State H} {told : List ReqId}

theorem Told.keep (hTold : Told told s) (hFinished : s'.finishedReqIds = s.finishedReqIds)
    (hStatus : ∀ id, (s'.requests id).status = .finished ↔ (s.requests id).status = .finished) :
    Told told s' where
  nodup := by
    rw [hFinished]
    exact hTold.nodup
  finished id := by
    rw [hFinished, hTold.finished, hStatus]

/-- A request that lives changes, and still lives. -/
theorem Told.live (hTold : Told told s) (id : ReqId)
    (hFinished : s'.finishedReqIds = s.finishedReqIds)
    (hOthers : ∀ other, other ≠ id → s'.requests other = s.requests other)
    (hBefore : (s.requests id).status ≠ .finished) (hAfter : (s'.requests id).status ≠ .finished) :
    Told told s' := by
  apply hTold.keep hFinished
  intro other
  by_cases hEq : other = id
  · subst hEq
    exact iff_of_false hAfter hBefore
  · rw [hOthers other hEq]

/-- A request that ends is noted for the next output. -/
theorem Told.free (hTold : Told told s) (hashing : Hashing H X) (mode : FreeMode) {id : ReqId}
    (hUnfinished : (s.requests id).status ≠ .finished) :
    Told told (s.freeRequest cfg hashing mode id) where
  nodup := by
    show (told ++ (s.finishedReqIds ++ [id])).Nodup
    rw [← List.append_assoc, List.nodup_append]
    refine ⟨hTold.nodup, List.nodup_singleton id, fun other hMem last hLast hEq => ?_⟩
    rw [List.mem_singleton.mp hLast] at hEq
    exact hUnfinished ((hTold.finished id).mp (hEq ▸ hMem))
  finished other := by
    show other ∈ told ++ (s.finishedReqIds ++ [id]) ↔ _
    rw [← List.append_assoc, List.mem_append, hTold.finished, List.mem_singleton]
    by_cases hEq : other = id
    · simp [hEq, State.freeRequest, State.modifyRequest]
    · simp [hEq, State.freeRequest, State.modifyRequest, State.freeRequestBlocks, State.popWaiting]

theorem Told.settle (hTold : Told told s) (hashing : Hashing H X) (output : SchedulerOutput) :
    Told told (s.settleOutput cfg hashing output) := by
  apply hTold.keep <;> unfold State.settleOutput
  · split <;> rfl
  · intro id
    split <;> rfl

end Told

theorem told_running (cfg : Config) (hashing : Hashing H X) (up : Upstream H)
    (told : List ReqId) : RunningRule cfg hashing up fun locals => Told told locals.st where
  pass _ hTold _ _ _ := hTold
  preempt {locals locals' id} hOk hTold hVictim hPre := by
    have hStatus := (hOk.queues.request id).running.mp (victim_mem hVictim)
    apply hTold.live id
    · rw [hPre.st]
      rfl
    · exact fun other hNe => hPre.requests_of_ne hNe
    · simp [hStatus]
    · rw [hPre.st]
      simp [State.preemptRequest, State.modifyRequest]
  grant {id numNewTokens start locals kv newBlocks} _ hTold _ := by
    refine hTold.keep (by rfl) fun other => ?_
    by_cases hEq : other = id
    · subst hEq
      simp [Locals.grantRunning, Locals.scheduleRunning, State.modifyRequest]
    · simp [Locals.grantRunning, Locals.scheduleRunning, State.modifyRequest, hEq]

theorem told_waiting (cfg : Config) (hashing : Hashing H X) (up : Upstream H)
    (told : List ReqId) :
    WaitingRule cfg hashing up (fun locals => Told told locals.st)
      fun locals => Told told locals.st where
  last hTold := hTold
  skip _ hTold _ _ := ⟨hTold.nodup, hTold.finished⟩
  promote {locals id} numLoadedTokens hOk hTold _ hMem _ _ := by
    have hStatus : ((locals.promoteRequest cfg hashing id numLoadedTokens).st.requests
        id).status = (locals.st.requests id).readyStatus := by
      unfold Locals.promoteRequest
      dsimp only
      split
      · split <;> simp [State.modifyRequest, State.freeRequestBlocks]
      · simp [State.modifyRequest]
    obtain ⟨_, _, hRequests, -⟩ := promoteRequest_requests cfg hashing locals id numLoadedTokens
    apply hTold.live id
    · unfold Locals.promoteRequest
      dsimp only
      split
      · split <;> rfl
      · rfl
    · intro other hNe
      rw [hRequests, Function.update_of_ne hNe]
    · exact (hOk.queues.live_of_queued hMem).2
    · rw [hStatus, Request.readyStatus]
      split <;> simp
  look _ hTold _ _ hFound := by
    obtain ⟨_, _, _, _, rfl, -⟩ := hFound.looked.keeps
    exact ⟨hTold.nodup, hTold.finished⟩
  await {start locals id found kv newBlocks ops} _ hTold hSeated _ _ := by
    refine hTold.live id (by rfl) (fun other hNe => Function.update_of_ne hNe ..)
      (hSeated.ok.queues.live_of_queued hSeated.queued_locals).2 ?_
    simp [Locals.awaitRemoteKv, State.modifyRequest]
  join {start locals id found kv newBlocks ops} _ hTold hSeated _ _ _ _ _ := by
    refine hTold.live id (by rfl) (fun other hNe => Function.update_of_ne hNe ..)
      (hSeated.ok.queues.live_of_queued hSeated.queued_locals).2 ?_
    simp [Locals.admitWaiting, State.modifyRequest]
  alone {start locals id found kv newBlocks ops} _ hTold hSeated _ _ _ _ _ := by
    rw [evictDecodes_eq cfg (hSeated.startRunning _ _).scheduledRunning_nodup]
    have hAdmitted : Told told ((locals.seatWaiting kv ops).admitWaiting id
        found.numComputedTokens
        ((locals.st.requests id).waitingTokens cfg found.numComputedTokens)).st := by
      refine hTold.live id (by rfl) (fun other hNe => Function.update_of_ne hNe ..)
        (hSeated.ok.queues.live_of_queued hSeated.queued_locals).2 ?_
      simp [Locals.admitWaiting, State.modifyRequest]
    refine hAdmitted.keep (by rfl) fun other => ?_
    simp only [Locals.withoutDecodes]
    split <;> rfl

theorem told_update (cfg : Config) (hashing : Hashing H X) (result : RunnerOutput)
    (output : SchedulerOutput) (told : List ReqId) :
    UpdateRule cfg hashing result output (Told told) where
  receive {s id} _ hTold _ _ hUnfinished := by
    refine hTold.live id (by rfl) (fun other hNe => Function.update_of_ne hNe ..) hUnfinished ?_
    simpa [State.receiveOutput, (afterOutput_keeps cfg result output id (s.requests id)).1]
      using hUnfinished
  free _ hTold _ hUnfinished _ := hTold.free hashing _ hUnfinished

/-- The loops of a call leave what is to be announced. -/
theorem Told.loops {cfg : Config} {hashing : Hashing H X} {up : Upstream H} {s : State H}
    {told : List ReqId} (hTold : Told told s) (hQueues : Queues cfg s []) {locals : Locals H}
    (hLoops : Locals.loops cfg hashing up s = some locals) : Told told locals.st := by
  refine (loops_rule (fun locals => Told told locals.st) (told_running cfg hashing up told)
    (told_waiting cfg hashing up told) hQueues hTold (fun _ _ h _ => h) (fun _ _ h _ _ => h)
    (fun mid _ h => ?_) hLoops).2
  refine h.keep ?_ fun id => by rw [leaveWaitingLoop_requests]
  unfold Locals.leaveWaitingLoop
  dsimp only
  split <;> rfl

/-- Every call keeps the account, and an output it sends is not about requests that are
already told of. -/
theorem Told.step {cfg : Config} {hashing : Hashing H X} {s s' : State H} {told : List ReqId}
    (hTold : Told told s) (hQueues : Queues cfg s []) {action : Action H}
    (hStep : step cfg hashing s action = some s') :
    Told (told ++ announced (action.sends s')) s' ∧ ∀ output ∈ action.sends s',
      ∀ id ∈ output.numScheduledTokens.map Prod.fst, id ∉ told ++ output.finishedReqIds := by
  cases action with
  | addRequest id new =>
      obtain ⟨hNew, -, -, -, waiting, skippedWaiting, -, rfl⟩ := addRequest_cases hStep
      have hUnknown : (s.requests id).status = .unknown := by
        by_contra hNot
        exact hNew ((hQueues.request id).known.mpr hNot)
      have hKept : Told told { s with
          requests := Function.update s.requests id new.toRequest
          ids := s.ids ++ [id]
          waiting := waiting
          skippedWaiting := skippedWaiting } := by
        refine hTold.live id (by rfl) (fun other hNe => Function.update_of_ne hNe ..)
          (by simp [hUnknown]) ?_
        simp only [Function.update_self, NewRequest.toRequest]
        split <;> simp
      simpa [Action.sends, announced] using hKept
  | schedule up =>
      simp only [Scheduler.step] at hStep
      split at hStep
      · obtain ⟨locals, hLoops, -, rfl⟩ := schedule_cases hStep
        have hOk := loops_ok hQueues hLoops
        have hLocals := hTold.loops hQueues hLoops
        have hSends : (Action.schedule up).sends (locals.finish cfg hashing) = [locals.output] := by
          simp [Action.sends, Locals.finish]
        have hOutput : locals.output.finishedReqIds = locals.st.finishedReqIds := rfl
        rw [hSends]
        refine ⟨⟨?_, fun id => ?_⟩, fun output hMem id hRow => ?_⟩
        · simpa [announced, Locals.finish, hOutput] using hLocals.nodup
        · rw [finish_status, ← hLocals.finished]
          simp [announced, Locals.finish, hOutput]
        · rw [List.mem_singleton.mp hMem] at hRow ⊢
          have hRuns := hOk.books.running id (hOk.books.mem_iff.mp hRow)
          rw [hOutput, hLocals.finished, (hOk.queues.request id).running.mp hRuns]
          simp
      · cases hStep
  | updateFromOutput result =>
      obtain ⟨output, inFlight, hInFlight, rfl⟩ := updateFromOutput_cases hStep
      have hAdmitted : Admitted { s with inFlight := inFlight }
          (output.numScheduledTokens.map Prod.fst) :=
        hQueues.admitted (hInFlight ▸ List.mem_cons_self)
      have hStart : Told told { s with inFlight := inFlight } := ⟨hTold.nodup, hTold.finished⟩
      have hDone := (update_rule (told_update cfg hashing result output told)
        (hQueues.popOutput hInFlight) hAdmitted hStart).2
      simpa [Action.sends, announced] using hDone.settle hashing output
  | updateDraftTokenIds drafts =>
      cases hStep
      have hKept : Told told (drafts.foldl (setDrafts cfg) s) := by
        refine foldl_invariant (Told told) (fun s row _ h => ?_) hTold
        unfold setDrafts
        dsimp only
        split
        · exact h
        · refine h.keep (by rfl) fun other => ?_
          by_cases hEq : other = row.1
          · subst hEq
            simp [State.modifyRequest]
          · simp [State.modifyRequest, hEq]
      simpa [Action.sends, announced] using hKept
  | finishRequest id delayFree defer =>
      simp only [Scheduler.step, finishRequest] at hStep
      split at hStep
      · cases hStep
      rename_i hLive
      cases hStep
      have hFreed : Told told (s.freeRequest cfg hashing (.ofFinished cfg delayFree defer) id) :=
        hTold.free hashing _ (not_or.mp hLive).2
      simpa [Action.sends, announced] using hFreed
  | releaseDeferred =>
      simp only [Scheduler.step, releaseDeferred] at hStep
      split at hStep
      · cases hStep
      cases hStep
      have hKept : Told told s := hTold
      simpa [Action.sends, announced] using ⟨hKept.nodup, hKept.finished⟩
  | freeDelayed id =>
      simp only [Scheduler.step, freeDelayed] at hStep
      split at hStep
      · cases hStep
        have hKept : Told told (s.freeRequestBlocks cfg hashing .now id) :=
          ⟨hTold.nodup, hTold.finished⟩
        simpa [Action.sends, announced] using hKept
      · cases hStep

theorem Action.sends_cases (action : Action H) (s : State H) :
    action.sends s = [] ∨ ∃ output, action.sends s = [output] := by
  unfold Action.sends
  split
  · cases s.inFlight.getLast? with
    | none => exact .inl rfl
    | some output => exact .inr ⟨output, rfl⟩
  · exact .inl rfl

/-- The account over the rest of a run. -/
theorem Told.run {cfg : Config} {hashing : Hashing H X} {past actions : List (Action H)}
    {s s' : State H} {told : List ReqId} (hTold : Told told s) (reached : Reaches cfg hashing past s)
    (run : runFrom (Scheduler.step cfg hashing) s actions = some s') :
    Told (told ++ announced (outputs cfg hashing s actions)) s' ∧
      ∀ before output after, outputs cfg hashing s actions = before ++ output :: after →
        ∀ id ∈ output.numScheduledTokens.map Prod.fst,
          id ∉ told ++ announced (before ++ [output]) := by
  induction actions generalizing past s told with
  | nil =>
      cases run
      simpa [outputs, announced] using hTold
  | cons action actions ih =>
      simp only [runFrom, Option.bind_eq_some_iff] at run
      obtain ⟨next, hStep, hRest⟩ := run
      obtain ⟨hQueues, -⟩ := run_rule (placed_run cfg hashing) (fun _ _ => trivial) reached
      obtain ⟨hNext, hSent⟩ := hTold.step hQueues hStep
      have hReached : Reaches cfg hashing (past ++ [action]) next := by
        unfold Reaches at reached ⊢
        rw [runFrom_append, reached]
        simp [runFrom, hStep]
      have hOutputs : outputs cfg hashing s (action :: actions) =
          action.sends next ++ outputs cfg hashing next actions := by
        simp only [outputs, hStep]
      obtain ⟨hLast, hLater⟩ := ih hNext hReached hRest
      rw [hOutputs]
      constructor
      · simpa [announced, List.flatMap_append, List.append_assoc] using hLast
      · rcases action.sends_cases next with hNone | ⟨first, hFirst⟩
        · simpa [hNone, announced] using hLater
        · rw [hFirst] at hSent hLater ⊢
          intro before output after hSplit id hRow
          cases before with
          | nil =>
              simp only [List.singleton_append, List.nil_append, List.cons.injEq] at hSplit
              rw [← hSplit.1] at hRow ⊢
              simpa [announced] using hSent first List.mem_cons_self id hRow
          | cons head before =>
              simp only [List.cons_append, List.cons.injEq] at hSplit
              obtain ⟨rfl, hSplit⟩ := hSplit
              simpa [announced, List.append_assoc] using hLater before output after hSplit id hRow

/-- The runner is told of each finished request once: by an output already sent, or by the
next one. No output schedules a request that it or an earlier one tells of. -/
theorem finished_announced_once {cfg : Config} {hashing : Hashing H X}
    {actions : List (Action H)} {s : State H} (run : Reaches cfg hashing actions s) :
    (announced (outputs cfg hashing State.initial actions) ++ s.finishedReqIds).Nodup ∧
      (∀ id, id ∈ announced (outputs cfg hashing State.initial actions) ++ s.finishedReqIds ↔
        (s.requests id).status = .finished) ∧
      ∀ before output after, outputs cfg hashing State.initial actions =
          before ++ output :: after →
        ∀ id ∈ output.numScheduledTokens.map Prod.fst, id ∉ announced (before ++ [output]) := by
  have hStart : Told [] (State.initial : State H) := by
    constructor
    · exact List.nodup_nil
    · intro id
      simp [State.initial, Request.unknown]
  have hReached : Reaches cfg hashing [] (State.initial : State H) := rfl
  obtain ⟨hTold, hNever⟩ := hStart.run hReached run
  exact ⟨hTold.nodup, hTold.finished, hNever⟩

/-- A request that stops after one token is announced by the next step. -/
theorem finished_announced_once_small : ∃ s, Reaches Config.small Hashing.free
      [.addRequest 0 (.plain [1, 2, 3] 1), .schedule (.plain .small),
        .updateFromOutput (.constant 5), .schedule (.plain .small)] s ∧
    0 ∈ announced (outputs Config.small Hashing.free State.initial
      [.addRequest 0 (.plain [1, 2, 3] 1), .schedule (.plain .small),
        .updateFromOutput (.constant 5), .schedule (.plain .small)]) := by
  obtain ⟨s, run, hHolds⟩ := Reaches.exists_of_any Config.small Hashing.free
    [.addRequest 0 (.plain [1, 2, 3] 1), .schedule (.plain .small),
      .updateFromOutput (.constant 5), .schedule (.plain .small)]
    (fun s => decide ((s.requests 0).status = .finished ∧ s.finishedReqIds = []))
    (by decide +kernel)
  obtain ⟨hFinished, hTold⟩ := of_decide_eq_true hHolds
  have hMem := ((finished_announced_once run).2.1 0).mpr hFinished
  rw [hTold, List.append_nil] at hMem
  exact ⟨s, run, hMem⟩

end VllmRbln.Scheduler
