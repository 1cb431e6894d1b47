import VllmRbln.Scheduler.Runs

/-! The runner's block tables against the manager's. Blocks given to a decode that a
prefill then pushes out of the step are parked in `pendingRunnerBlockDeltas`; what the
runner has and what is parked for it always make up the manager's list. -/
namespace VllmRbln.Scheduler

set_option linter.unusedSectionVars false

open SubBlock Run

variable {H X : Type} [DecidableEq H]

/-- The runner has the table of `id` up to the blocks `owed`. -/
def Owes (s : State H) (id : ReqId) (owed : Blocks) : Prop :=
  ∃ table, s.runnerBlocks id = some table ∧
    ∀ group, s.kv.reqToBlocks id group = table group ++ owed group

def State.parked (s : State H) (id : ReqId) : Blocks :=
  (s.pendingRunnerBlockDeltas id).getD Blocks.empty

/-- Between two calls: a running request is owed what is parked for it, and nothing is
parked for another. -/
structure TablesAgree (s : State H) : Prop where
  idle : ∀ id, id ∉ s.running → s.pendingRunnerBlockDeltas id = none
  finished : ∀ id ∈ s.finishedReqIds, (s.requests id).status = .finished
  parked : ∀ id ∈ s.running, Owes s id (s.parked id)

/-- Within a call: a running request in the step is also owed its new blocks, and one
admitted in the step is to be sent its whole table. -/
structure TablesOk (locals : Locals H) : Prop where
  idle : ∀ id, id ∉ locals.st.running → locals.st.pendingRunnerBlockDeltas id = none
  finished : ∀ id ∈ locals.st.finishedReqIds, (locals.st.requests id).status = .finished
  parked : ∀ id ∈ locals.st.running, id ∉ locals.scheduledReqs →
    Owes locals.st id (locals.st.parked id)
  running : ∀ id ∈ locals.scheduledRunningReqs, Owes locals.st id
    fun group => locals.st.parked id group ++ locals.reqToNewBlocks id group
  admitted : ∀ id ∈ locals.scheduledNewReqs ++ locals.scheduledResumedReqs,
    locals.reqToNewBlocks id = locals.st.kv.reqToBlocks id ∧
      locals.st.pendingRunnerBlockDeltas id = none

theorem Owes.congr {s s' : State H} {id : ReqId} {owed owed' : Blocks} (hOwes : Owes s id owed)
    (hRunner : s'.runnerBlocks id = s.runnerBlocks id)
    (hBlocks : s'.kv.reqToBlocks id = s.kv.reqToBlocks id) (hOwed : owed' = owed) :
    Owes s' id owed' := by
  obtain ⟨table, hTable, hSplit⟩ := hOwes
  exact ⟨table, hRunner.trans hTable, fun group => by rw [hBlocks, hSplit, hOwed]⟩

theorem parked_congr {s s' : State H} {id : ReqId}
    (hPending : s'.pendingRunnerBlockDeltas id = s.pendingRunnerBlockDeltas id) :
    s'.parked id = s.parked id := by
  unfold State.parked
  rw [hPending]

/-- A change that leaves the tables, the runner and the step alone. -/
theorem TablesOk.keep {locals locals' : Locals H} (hTables : TablesOk locals)
    (hRunning : locals'.st.running = locals.st.running)
    (hPending : locals'.st.pendingRunnerBlockDeltas = locals.st.pendingRunnerBlockDeltas)
    (hFinishedIds : locals'.st.finishedReqIds = locals.st.finishedReqIds)
    (hFinished : ∀ id, (locals.st.requests id).status = .finished →
      (locals'.st.requests id).status = .finished)
    (hRunner : locals'.st.runnerBlocks = locals.st.runnerBlocks)
    (hBlocks : ∀ id ∈ locals.st.running,
      locals'.st.kv.reqToBlocks id = locals.st.kv.reqToBlocks id)
    (hBooks : Books locals) (hScheduledRunning : locals'.scheduledRunningReqs =
      locals.scheduledRunningReqs) (hNew : locals'.scheduledNewReqs = locals.scheduledNewReqs)
    (hResumed : locals'.scheduledResumedReqs = locals.scheduledResumedReqs)
    (hNewBlocks : locals'.reqToNewBlocks = locals.reqToNewBlocks) : TablesOk locals' := by
  have hScheduled : locals'.scheduledReqs = locals.scheduledReqs := by
    simp [Locals.scheduledReqs, hScheduledRunning, hNew, hResumed]
  have hParked : ∀ id, locals'.st.parked id = locals.st.parked id := fun id =>
    parked_congr (congrFun hPending id)
  refine ⟨?_, ?_, ?_, ?_, ?_⟩
  · rw [hRunning, hPending]
    exact hTables.idle
  · rw [hFinishedIds]
    exact fun id hMem => hFinished id (hTables.finished id hMem)
  · rw [hRunning, hScheduled]
    intro id hMem hNot
    exact (hTables.parked id hMem hNot).congr (congrFun hRunner id) (hBlocks id hMem) (hParked id)
  · rw [hScheduledRunning, hNewBlocks]
    intro id hMem
    have hRuns := hBooks.running id (List.mem_append_left _ (List.mem_append_left _ hMem))
    exact (hTables.running id hMem).congr (congrFun hRunner id) (hBlocks id hRuns)
      (by rw [hParked])
  · rw [hNew, hResumed, hNewBlocks, hPending]
    intro id hMem
    have hRuns := hBooks.running id (by
      rw [Locals.scheduledReqs, List.append_assoc]
      exact List.mem_append_right _ hMem)
    rw [hBlocks id hRuns]
    exact hTables.admitted id hMem

/-! ### The running loop -/

theorem tables_running (cfg : Config) (hashing : Hashing H X) (up : Upstream H) :
    RunningRule cfg hashing up TablesOk where
  pass hOk hTables _ _ _ := hTables.keep rfl rfl rfl (fun _ h => h) rfl (fun _ _ => rfl) hOk.books
    rfl rfl rfl rfl
  preempt {locals locals' id} hOk hTables hVictim hPre := by
    have hRunning : locals'.st.running = locals.st.running.filter (· ≠ id) := by
      rw [hPre.st]
      rfl
    have hPending : locals'.st.pendingRunnerBlockDeltas =
        Function.update locals.st.pendingRunnerBlockDeltas id none := by
      rw [hPre.st]
      rfl
    have hBlocks : locals'.st.kv.reqToBlocks =
        Function.update locals.st.kv.reqToBlocks id Blocks.empty := by
      rw [hPre.st]
      exact (State.freeRequestBlocks_reqToBlocks ..).trans
        (if_neg (Queues.FreeMode.ofPreempted_ne cfg _))
    have hRunner : locals'.st.runnerBlocks = locals.st.runnerBlocks := by
      rw [hPre.st]
      rfl
    have hOther : ∀ other, other ≠ id →
        locals'.st.kv.reqToBlocks other = locals.st.kv.reqToBlocks other ∧
        locals'.st.parked other = locals.st.parked other := fun other hNe =>
      ⟨by rw [hBlocks, Function.update_of_ne hNe],
        parked_congr (by rw [hPending, Function.update_of_ne hNe])⟩
    refine ⟨fun other hNot => ?_, fun other hMem => ?_, fun other hMem hNot => ?_,
      fun other hMem => ?_, ?_⟩
    · rw [hPending]
      by_cases hEq : other = id
      · rw [hEq, Function.update_self]
      · rw [Function.update_of_ne hEq]
        refine hTables.idle other fun hMem => hNot ?_
        rw [hRunning]
        simp [hMem, hEq]
    · have hFinished : (locals.st.requests other).status = .finished :=
        hTables.finished other (by rw [hPre.st] at hMem; exact hMem)
      have hNe : other ≠ id := by
        rintro rfl
        rw [(hOk.queues.request other).running.mp (victim_mem hVictim)] at hFinished
        cases hFinished
      rw [hPre.requests_of_ne hNe]
      exact hFinished
    · rw [hRunning, List.mem_filter] at hMem
      have hNe : other ≠ id := by simpa using hMem.2
      refine (hTables.parked other hMem.1 fun hIn => hNot ?_).congr (congrFun hRunner other)
        (hOther other hNe).1 (hOther other hNe).2
      rw [hOk.scheduledReqs_eq] at hIn
      refine List.mem_append_left _ (List.mem_append_left _ ?_)
      rw [hPre.scheduledRunningReqs]
      simp [hIn, hNe]
    · rw [hPre.scheduledRunningReqs, List.mem_filter] at hMem
      have hNe : other ≠ id := by simpa using hMem.2
      refine (hTables.running other hMem.1).congr (congrFun hRunner other) (hOther other hNe).1 ?_
      rw [(hOther other hNe).2, hPre.reqToNewBlocks other hNe]
    · simp [hPre.scheduledNewReqs, hPre.scheduledResumedReqs, hOk.noNew, hOk.noResumed]
  grant {id numNewTokens start locals kv newBlocks} _ hTables hGranted := by
    obtain ⟨hKv, hNew⟩ := Manager.allocateSlots_spec hGranted.alloc
    have hRound := hGranted.round
    have hBlocks : kv.reqToBlocks = Function.update locals.st.kv.reqToBlocks id fun group =>
        locals.st.kv.reqToBlocks id group ++ newBlocks group := by
      rw [hKv, Manager.giveBlocks_reqToBlocks]
      rfl
    have hUnscheduled : id ∉ locals.scheduledReqs := by
      rw [hRound.ok.scheduledReqs_eq]
      exact hRound.unscheduled
    have hScheduled : (locals.grantRunning id numNewTokens kv newBlocks).scheduledReqs =
        locals.scheduledReqs ++ [id] := by
      simp [Locals.scheduledReqs, Locals.grantRunning, Locals.scheduleRunning, hRound.ok.noNew,
        hRound.ok.noResumed]
    have hStatus : ∀ other, ((locals.grantRunning id numNewTokens kv newBlocks).st.requests
        other).status = (locals.st.requests other).status := by
      intro other
      by_cases hEq : other = id
      · subst hEq
        simp [Locals.grantRunning, Locals.scheduleRunning, State.modifyRequest]
      · simp [Locals.grantRunning, Locals.scheduleRunning, State.modifyRequest, hEq]
    refine ⟨hTables.idle, fun other hMem => (hStatus other).trans (hTables.finished other hMem),
      fun other hMem hNot => ?_, fun other hMem => ?_, ?_⟩
    · rw [hScheduled] at hNot
      simp only [List.mem_append, List.mem_singleton, not_or] at hNot
      refine (hTables.parked other hMem hNot.1).congr rfl ?_ rfl
      change kv.reqToBlocks other = _
      rw [hBlocks, Function.update_of_ne hNot.2]
    · rcases List.mem_append.mp hMem with hMem | hMem
      · have hNe : other ≠ id := ne_of_mem_of_not_mem hMem hRound.unscheduled
        refine (hTables.running other hMem).congr rfl ?_ ?_
        · change kv.reqToBlocks other = _
          rw [hBlocks, Function.update_of_ne hNe]
        · funext group
          simp [Locals.grantRunning, Locals.scheduleRunning, State.parked, State.modifyRequest, hNe]
      · rw [List.mem_singleton.mp hMem]
        obtain ⟨table, hTable, hSplit⟩ := hTables.parked id hRound.running hUnscheduled
        refine ⟨table, hTable, fun group => ?_⟩
        change kv.reqToBlocks id group = _
        rw [hBlocks, Function.update_self, hSplit]
        simp [Locals.grantRunning, Locals.scheduleRunning, State.parked, State.modifyRequest]
    · simp [Locals.grantRunning, Locals.scheduleRunning, hRound.ok.noNew, hRound.ok.noResumed]

/-! ### The waiting loop -/

theorem getD_mergedDelta {cfg : Config} {pending : Option Blocks} {blockDelta : Blocks}
    (hGroups : ∀ group, cfg.numGroups ≤ group → blockDelta group = []) (group : Nat) :
    (mergedDelta cfg pending blockDelta).getD Blocks.empty group =
      pending.getD Blocks.empty group ++ blockDelta group := by
  unfold mergedDelta
  split
  · rename_i hEmpty
    have hNil : blockDelta group = [] := by
      rcases Nat.lt_or_ge group cfg.numGroups with hLt | hGe
      · exact hEmpty group (List.mem_range.mpr hLt)
      · exact hGroups group hGe
    rw [hNil, List.append_nil]
  · rfl

/-- The decodes that a prefill pushes out are owed their new blocks from then on. -/
theorem TablesOk.evict {cfg : Config} {locals : Locals H} (hOk : WaitingOk cfg locals)
    (hTables : TablesOk locals) : TablesOk (locals.evictDecodes cfg) := by
  rw [evictDecodes_eq cfg hOk.scheduledRunning_nodup]
  have hNodup := hOk.books.nodup
  rw [Locals.scheduledReqs, List.append_assoc] at hNodup
  have hDisjoint : ∀ id ∈ locals.scheduledNewReqs ++ locals.scheduledResumedReqs,
      id ∉ locals.scheduledRunningReqs := fun id hMem hIn =>
    (List.nodup_append.mp hNodup).2.2 id hIn id hMem rfl
  have hRunning : ∀ id ∈ locals.scheduledRunningReqs, id ∈ locals.st.running := fun id hMem =>
    hOk.books.running id (List.mem_append_left _ (List.mem_append_left _ hMem))
  refine ⟨fun id hNot => ?_, fun id hMem => ?_, fun id hMem hNot => ?_, by simp, fun id hMem => ?_⟩
  · have hOut : id ∉ locals.scheduledRunningReqs := fun hMem => hNot (hRunning id hMem)
    simpa [Locals.withoutDecodes, hOut] using hTables.idle id hNot
  · have hFinished := hTables.finished id hMem
    simp only [Locals.withoutDecodes]
    split <;> exact hFinished
  · by_cases hIn : id ∈ locals.scheduledRunningReqs
    · obtain ⟨table, hTable, hSplit⟩ := hTables.running id hIn
      have hGroups : ∀ group, cfg.numGroups ≤ group → locals.reqToNewBlocks id group = [] := by
        intro group hLe
        have hNil := (hOk.queues.request id).groups group hLe
        rw [hSplit, List.append_eq_nil_iff, List.append_eq_nil_iff] at hNil
        exact hNil.2.2
      refine ⟨table, hTable, fun group => ?_⟩
      simp only [State.parked, Locals.withoutDecodes, if_pos hIn, getD_mergedDelta hGroups]
      exact hSplit group
    · refine (hTables.parked id hMem fun hScheduled => ?_).congr rfl rfl
        (parked_congr (by simp [Locals.withoutDecodes, hIn]))
      rw [Locals.scheduledReqs, List.append_assoc] at hScheduled
      rcases List.mem_append.mp hScheduled with hScheduled | hScheduled
      · exact hIn hScheduled
      · exact hNot (by simpa [Locals.scheduledReqs, Locals.withoutDecodes] using hScheduled)
  · have hOut := hDisjoint id hMem
    simpa [Locals.withoutDecodes, hOut] using hTables.admitted id hMem

/-- An admitted request is to be sent its whole table. -/
theorem TablesOk.startRunning {cfg : Config} {hashing : Hashing H X} {up : Upstream H} {id : ReqId}
    {numNewTokens : Nat} {start locals : Locals H} {found : Locals.Computed} {kv : Manager H}
    {newBlocks : Blocks} {ops : List KVCacheCopyOp} (hTables : TablesOk locals)
    (hSeated : Seated cfg hashing up id numNewTokens start locals found kv newBlocks ops)
    (numComputedTokens numTokens : Nat) :
    TablesOk ((locals.seatWaiting kv ops).admitWaiting id numComputedTokens numTokens) := by
  have hQueued := hSeated.queued_locals
  have hNotRunning := hSeated.ok.queues.notMem_running_of_queued hQueued
  have hWaits := hSeated.ok.queues.queued id (List.mem_append_left _ hQueued)
  have hScheduled := admitWaiting_scheduledReqs (locals.seatWaiting kv ops) id numComputedTokens
    numTokens
  have hNewOrResumed : ∀ other, other ∈ ((locals.seatWaiting kv ops).admitWaiting id
      numComputedTokens numTokens).scheduledNewReqs ++ ((locals.seatWaiting kv ops).admitWaiting id
        numComputedTokens numTokens).scheduledResumedReqs →
      other = id ∨ other ∈ locals.scheduledNewReqs ++ locals.scheduledResumedReqs := by
    intro other hMem
    have hSame : (locals.seatWaiting kv ops).st.requests = locals.st.requests := rfl
    by_cases hResumed : (locals.st.requests id).status = .preempted
    · simp only [Locals.admitWaiting, hSame, hResumed, decide_true, if_true, List.mem_append,
        List.mem_singleton] at hMem ⊢
      exact (or_assoc.mpr hMem).symm
    · simp only [Locals.admitWaiting, hSame, hResumed, decide_false, Bool.false_eq_true, if_false,
        List.mem_append, List.mem_singleton] at hMem ⊢
      rcases hMem with (hMem | hMem) | hMem
      · exact .inr (.inl hMem)
      · exact .inl hMem
      · exact .inr (.inr hMem)
  have hOld : ∀ other ∈ locals.scheduledReqs, other ≠ id := fun other hMem hEq =>
    hNotRunning (hEq ▸ hSeated.ok.books.running other hMem)
  refine ⟨fun other hNot => ?_, fun other hMem => ?_, fun other hMem hNot => ?_,
    fun other hMem => ?_, fun other hMem => ?_⟩
  · exact hTables.idle other fun hMem => hNot (List.mem_append_left _ hMem)
  · have hFinished := hTables.finished other hMem
    have hNe : other ≠ id := by
      rintro rfl
      rw [hFinished] at hWaits
      cases hWaits
    simpa [Locals.admitWaiting, State.modifyRequest, State.popWaiting, Locals.seatWaiting, hNe]
      using hFinished
  · have hOut := mt hScheduled.mem_iff.mpr hNot
    rw [List.mem_append, not_or, List.mem_singleton] at hOut
    have hOut : other ∉ locals.scheduledReqs ∧ other ≠ id := hOut
    have hIn : other ∈ locals.st.running := by
      rcases List.mem_append.mp hMem with hMem | hMem
      · exact hMem
      · exact absurd (List.mem_singleton.mp hMem) hOut.2
    exact (hTables.parked other hIn hOut.1).congr rfl (hSeated.blocks_of_ne other hOut.2) rfl
  · have hNe := hOld other (List.mem_append_left _ (List.mem_append_left _ hMem))
    refine (hTables.running other hMem).congr rfl (hSeated.blocks_of_ne other hNe) ?_
    funext group
    simp [Locals.admitWaiting, hNe, State.parked, State.modifyRequest, State.popWaiting,
      Locals.seatWaiting]
  · rcases hNewOrResumed other hMem with rfl | hMem
    · exact ⟨Function.update_self .., hTables.idle other hNotRunning⟩
    · have hNe := hOld other (by
        rw [Locals.scheduledReqs, List.append_assoc]
        exact List.mem_append_right _ hMem)
      obtain ⟨hBlocks, hNone⟩ := hTables.admitted other hMem
      refine ⟨?_, hNone⟩
      have hSame := hSeated.blocks_of_ne other hNe
      simpa [Locals.admitWaiting, hNe, State.modifyRequest, State.popWaiting, Locals.seatWaiting,
        hSame] using hBlocks

theorem promoteRequest_tables (cfg : Config) (hashing : Hashing H X) (locals : Locals H)
    (id : ReqId) (numLoadedTokens : Nat) :
    let st := (locals.promoteRequest cfg hashing id numLoadedTokens).st
    st.pendingRunnerBlockDeltas = locals.st.pendingRunnerBlockDeltas ∧
      st.finishedReqIds = locals.st.finishedReqIds ∧ st.runnerBlocks = locals.st.runnerBlocks ∧
      ∀ other, other ≠ id → st.kv.reqToBlocks other = locals.st.kv.reqToBlocks other ∧
        st.requests other = locals.st.requests other := by
  unfold Locals.promoteRequest
  dsimp only
  split
  · split
    · refine ⟨rfl, rfl, rfl, fun other hNe => ⟨?_, Function.update_of_ne hNe ..⟩⟩
      rw [State.freeRequestBlocks_reqToBlocks, if_neg (by simp), Function.update_of_ne hNe]
      rfl
    · refine ⟨rfl, rfl, rfl, fun other hNe => ⟨?_, Function.update_of_ne hNe ..⟩⟩
      have hSame := Manager.ownership_reqToBlocks (Manager.ownership_cacheBlocks cfg hashing
        locals.st.kv id (locals.st.requests id)
        (min numLoadedTokens (locals.st.requests id).numComputedTokens))
      exact congrFun hSame other
  · exact ⟨rfl, rfl, rfl, fun other hNe => ⟨rfl, Function.update_of_ne hNe ..⟩⟩

theorem tables_waiting (cfg : Config) (hashing : Hashing H X) (up : Upstream H) :
    WaitingRule cfg hashing up TablesOk TablesOk where
  last hInv := hInv
  skip hOk hTables _ _ := hTables.keep rfl rfl rfl (fun _ h => h) rfl (fun _ _ => rfl) hOk.books
    rfl rfl rfl rfl
  promote {locals id} numLoadedTokens hOk hTables _ hMem hBlocked _ := by
    have hNotRunning := hOk.queues.notMem_running_of_queued hMem
    obtain ⟨st, hEq, hRunning, -, -⟩ := promoteRequest_eq cfg hashing locals id numLoadedTokens
    have hKeeps := promoteRequest_tables cfg hashing locals id numLoadedTokens
    rw [hEq] at hKeeps ⊢
    refine hTables.keep hRunning hKeeps.1 hKeeps.2.1 (fun other hFinished => ?_) hKeeps.2.2.1
      (fun other hOther => (hKeeps.2.2.2 other (ne_of_mem_of_not_mem hOther hNotRunning)).1)
      hOk.books rfl rfl rfl rfl
    have hNe : other ≠ id := by
      rintro rfl
      simp [Request.isBlocked, hFinished] at hBlocked
    rw [(hKeeps.2.2.2 other hNe).2]
    exact hFinished
  look {locals locals' id found} hOk hTables _ _ hFound := by
    obtain ⟨kv, pins, unpins, subBlockMatch, rfl, hBlocks, -⟩ := hFound.looked.keeps
    exact hTables.keep rfl rfl rfl (fun _ h => h) rfl (fun other _ => congrFun hBlocks other)
      hOk.books rfl rfl rfl rfl
  await {start locals id found kv newBlocks ops} _ hTables hSeated _ _ := by
    have hNotRunning := hSeated.ok.queues.notMem_running_of_queued hSeated.queued_locals
    have hWaits := hSeated.ok.queues.queued id (List.mem_append_left _ hSeated.queued_locals)
    refine hTables.keep rfl rfl rfl (fun other hFinished => ?_) rfl (fun other hOther =>
      hSeated.blocks_of_ne other (ne_of_mem_of_not_mem hOther hNotRunning)) hSeated.ok.books
      rfl rfl rfl rfl
    have hNe : other ≠ id := by
      rintro rfl
      rw [hFinished] at hWaits
      cases hWaits
    simpa [Locals.awaitRemoteKv, State.modifyRequest, State.popWaiting, Locals.seatWaiting, hNe]
      using hFinished
  join {start locals id found kv newBlocks ops} _ hTables hSeated _ _ _ _ _ := by
    have hAdmit := hTables.startRunning hSeated found.numComputedTokens 1
    exact ⟨hAdmit.idle, hAdmit.finished, hAdmit.parked, hAdmit.running, hAdmit.admitted⟩
  alone _ hTables hSeated _ _ _ _ _ := (hTables.startRunning hSeated _ _).evict (hSeated.startRunning _ _)

theorem TablesOk.leave {cfg : Config} {locals : Locals H} (hOk : WaitingOk cfg locals)
    (hTables : TablesOk locals) : TablesOk (locals.leaveWaitingLoop cfg) := by
  unfold Locals.leaveWaitingLoop
  dsimp only
  split <;> exact hTables.keep rfl rfl rfl (fun _ h => h) rfl (fun _ _ => rfl) hOk.books
    rfl rfl rfl rfl

/-! ### The runner applies the output -/

section Runner

variable {output : SchedulerOutput} (runnerBlocks : ReqId → Option Blocks)

private theorem updateRunner_eq : updateRunner output runnerBlocks =
    output.scheduledCachedReqs.foldl (fun (runner : ReqId → Option Blocks) cached =>
      Function.update runner cached.1 (if cached.1 ∈ output.resumedReqIds then some cached.2
        else (runner cached.1).map fun blocks group => blocks group ++ cached.2 group))
      (output.scheduledNewReqs.foldl (fun (runner : ReqId → Option Blocks) new =>
          Function.update runner new.1 (some new.2))
        (output.finishedReqIds.foldl (fun (runner : ReqId → Option Blocks) id =>
          Function.update runner id none) runnerBlocks)) := by
  unfold updateRunner
  refine List.foldl_ext _ _ _ fun runner cached _ => ?_
  split <;> rfl

/-- A request the output does not mention keeps its table. -/
theorem updateRunner_of_notMem {id : ReqId} (hFinished : id ∉ output.finishedReqIds)
    (hNew : id ∉ output.scheduledNewReqs.map Prod.fst)
    (hCached : id ∉ output.scheduledCachedReqs.map Prod.fst) :
    updateRunner output runnerBlocks id = runnerBlocks id := by
  rw [updateRunner_eq, foldl_update_of_notMem Prod.fst hCached, foldl_update_of_notMem Prod.fst hNew,
    foldl_update_of_notMem (fun id => id) (by simpa using hFinished)]

/-- A new request takes the table it was sent. -/
theorem updateRunner_new {new : ReqId × Blocks} (hMem : new ∈ output.scheduledNewReqs)
    (hNodup : (output.scheduledNewReqs.map Prod.fst).Nodup)
    (hCached : new.1 ∉ output.scheduledCachedReqs.map Prod.fst) :
    updateRunner output runnerBlocks new.1 = some new.2 := by
  rw [updateRunner_eq, foldl_update_of_notMem Prod.fst hCached,
    foldl_update_of_mem Prod.fst (fun _ _ _ _ => rfl) hNodup hMem]

/-- A resumed request replaces its table, another cached one appends to it. -/
theorem updateRunner_cached {cached : ReqId × Blocks} (hMem : cached ∈ output.scheduledCachedReqs)
    (hNodup : (output.scheduledCachedReqs.map Prod.fst).Nodup)
    (hNew : cached.1 ∉ output.scheduledNewReqs.map Prod.fst)
    (hFinished : cached.1 ∉ output.finishedReqIds) :
    updateRunner output runnerBlocks cached.1 = if cached.1 ∈ output.resumedReqIds
      then some cached.2
      else (runnerBlocks cached.1).map fun blocks group => blocks group ++ cached.2 group := by
  rw [updateRunner_eq, foldl_update_of_mem Prod.fst (fun _ _ _ hEq => by rw [hEq]) hNodup hMem,
    foldl_update_of_notMem Prod.fst hNew, foldl_update_of_notMem (fun id => id) (by simpa using hFinished)]

end Runner

/-- The end of the call: every request of the step has its whole table at the runner,
and every other running one is owed what is parked for it. -/
theorem TablesOk.finish {cfg : Config} (hashing : Hashing H X) {locals : Locals H}
    (hOk : LoopsOk cfg locals) (hTables : TablesOk locals) :
    (∀ id ∈ locals.scheduledReqs, (locals.finish cfg hashing).runnerBlocks id =
        some (locals.st.kv.reqToBlocks id)) ∧
      ∀ id ∈ locals.st.running, id ∉ locals.scheduledReqs →
        (locals.finish cfg hashing).runnerBlocks id = locals.st.runnerBlocks id := by
  have hNodup := hOk.books.nodup
  have hUnfinished : ∀ id ∈ locals.st.running, id ∉ locals.output.finishedReqIds := by
    intro id hMem hFinished
    have hStatus := hTables.finished id hFinished
    rw [(hOk.queues.request id).running.mp hMem] at hStatus
    cases hStatus
  have hNewKeys : locals.output.scheduledNewReqs.map Prod.fst = locals.scheduledNewReqs := by
    simp [Locals.output, Function.comp_def]
  have hCachedKeys : locals.output.scheduledCachedReqs.map Prod.fst =
      locals.scheduledRunningReqs ++ locals.scheduledResumedReqs := by
    simp [Locals.output, Function.comp_def]
  -- the three lists of the step share no request
  have hParts : (locals.scheduledRunningReqs ++ locals.scheduledResumedReqs).Nodup ∧
      locals.scheduledNewReqs.Nodup ∧ (∀ id ∈ locals.scheduledNewReqs,
        id ∉ locals.scheduledRunningReqs ++ locals.scheduledResumedReqs) ∧
      ∀ id ∈ locals.scheduledRunningReqs, id ∉ locals.scheduledResumedReqs := by
    unfold Locals.scheduledReqs at hNodup
    simp only [List.nodup_append, List.mem_append] at hNodup ⊢
    grind
  obtain ⟨hCachedNodup, hNewNodup, hNewOut, hRunningOut⟩ := hParts
  constructor
  · intro id hMem
    have hRuns := hOk.books.running id hMem
    change updateRunner locals.output locals.st.runnerBlocks id = _
    rw [Locals.scheduledReqs, List.mem_append, List.mem_append] at hMem
    rcases hMem with (hMem | hMem) | hMem
    · have hCached : (id, locals.sentBlocks id) ∈ locals.output.scheduledCachedReqs :=
        List.mem_map_of_mem (f := fun id => (id, locals.sentBlocks id))
          (List.mem_append_left _ hMem)
      have hUpdate := updateRunner_cached locals.st.runnerBlocks hCached
        (hCachedKeys ▸ hCachedNodup)
        (by rw [hNewKeys]; exact fun hNew => hNewOut id hNew (List.mem_append_left _ hMem))
        (hUnfinished id hRuns)
      obtain ⟨table, hTable, hSplit⟩ := hTables.running id hMem
      have hOut : id ∉ locals.output.resumedReqIds := hRunningOut id hMem
      rw [hUpdate, if_neg hOut, hTable]
      simp only [Option.map_some, Option.some.injEq]
      funext group
      rw [hSplit, Locals.sentBlocks, if_pos hMem]
      rfl
    · have hNew : (id, locals.sentBlocks id) ∈ locals.output.scheduledNewReqs :=
        List.mem_map_of_mem (f := fun id => (id, locals.sentBlocks id)) hMem
      have hUpdate := updateRunner_new locals.st.runnerBlocks hNew
        (hNewKeys ▸ hNewNodup) (by rw [hCachedKeys]; exact hNewOut id hMem)
      have hOut : id ∉ locals.scheduledRunningReqs := fun hIn =>
        hNewOut id hMem (List.mem_append_left _ hIn)
      rw [hUpdate, Locals.sentBlocks, if_neg hOut,
        (hTables.admitted id (List.mem_append_left _ hMem)).1]
    · have hCached : (id, locals.sentBlocks id) ∈ locals.output.scheduledCachedReqs :=
        List.mem_map_of_mem (f := fun id => (id, locals.sentBlocks id))
          (List.mem_append_right _ hMem)
      have hUpdate := updateRunner_cached locals.st.runnerBlocks hCached
        (hCachedKeys ▸ hCachedNodup)
        (by rw [hNewKeys]; exact fun hNew => hNewOut id hNew (List.mem_append_right _ hMem))
        (hUnfinished id hRuns)
      have hOut : id ∉ locals.scheduledRunningReqs := fun hIn => hRunningOut id hIn hMem
      have hResumed : id ∈ locals.output.resumedReqIds := hMem
      rw [hUpdate, if_pos hResumed, Locals.sentBlocks, if_neg hOut,
        (hTables.admitted id (List.mem_append_right _ hMem)).1]
  · intro id hRuns hNot
    rw [Locals.scheduledReqs, List.mem_append, List.mem_append] at hNot
    refine updateRunner_of_notMem _ (hUnfinished id hRuns) ?_ ?_
    · rw [hNewKeys]
      exact fun hMem => hNot (.inl (.inr hMem))
    · rw [hCachedKeys, List.mem_append]
      rintro (hMem | hMem)
      · exact hNot (.inl (.inl hMem))
      · exact hNot (.inr hMem)

/-! ### Runs -/

theorem TablesAgree.keep {s s' : State H} (hTables : TablesAgree s)
    (hRunning : s'.running = s.running)
    (hPending : s'.pendingRunnerBlockDeltas = s.pendingRunnerBlockDeltas)
    (hFinishedIds : s'.finishedReqIds = s.finishedReqIds)
    (hFinished : ∀ id ∈ s.finishedReqIds, (s'.requests id).status = (s.requests id).status)
    (hRunner : s'.runnerBlocks = s.runnerBlocks)
    (hBlocks : ∀ id ∈ s.running, s'.kv.reqToBlocks id = s.kv.reqToBlocks id) : TablesAgree s' := by
  refine ⟨?_, ?_, ?_⟩
  · rw [hRunning, hPending]
    exact hTables.idle
  · rw [hFinishedIds]
    exact fun id hMem => (hFinished id hMem).trans (hTables.finished id hMem)
  · rw [hRunning]
    exact fun id hMem => (hTables.parked id hMem).congr (congrFun hRunner id) (hBlocks id hMem)
      (parked_congr (congrFun hPending id))

theorem TablesAgree.freeRequest {cfg : Config} (hashing : Hashing H X) (mode : FreeMode)
    {s : State H} (hTables : TablesAgree s) (id : ReqId) :
    TablesAgree (s.freeRequest cfg hashing mode id) := by
  have hBlocks : (s.freeRequest cfg hashing mode id).kv.reqToBlocks =
      if mode = .delayed then s.kv.reqToBlocks
      else Function.update s.kv.reqToBlocks id Blocks.empty :=
    State.freeRequestBlocks_reqToBlocks cfg hashing mode (s.popWaiting id) id
  have hPending : (s.freeRequest cfg hashing mode id).pendingRunnerBlockDeltas =
      Function.update s.pendingRunnerBlockDeltas id none := rfl
  refine ⟨fun other hNot => ?_, fun other hMem => ?_, fun other hMem => ?_⟩
  · rw [hPending]
    by_cases hEq : other = id
    · rw [hEq, Function.update_self]
    · rw [Function.update_of_ne hEq]
      exact hTables.idle other fun hMem => hNot (List.mem_filter.mpr ⟨hMem, by simpa using hEq⟩)
  · by_cases hEq : other = id
    · simp [State.freeRequest, State.modifyRequest, hEq]
    · have hOld : other ∈ s.finishedReqIds := by
        rcases List.mem_append.mp hMem with hMem | hMem
        · exact hMem
        · exact absurd (List.mem_singleton.mp hMem) hEq
      simpa [State.freeRequest, State.modifyRequest, State.freeRequestBlocks, State.popWaiting, hEq]
        using hTables.finished other hOld
  · obtain ⟨hRuns, hNe⟩ := List.mem_filter.mp hMem
    have hNe : other ≠ id := by simpa using hNe
    refine (hTables.parked other hRuns).congr rfl ?_ (parked_congr ?_)
    · rw [hBlocks]
      split
      · rfl
      · rw [Function.update_of_ne hNe]
    · rw [hPending, Function.update_of_ne hNe]

theorem TablesAgree.start {cfg : Config} {up : Upstream H} {s : State H} (hTables : TablesAgree s) :
    TablesOk (Locals.start cfg up s) :=
  ⟨hTables.idle, hTables.finished, fun id hMem _ => hTables.parked id hMem, by simp [Locals.start],
    by simp [Locals.start]⟩

theorem TablesAgree.loops {cfg : Config} {hashing : Hashing H X} {up : Upstream H} {s : State H}
    (hQueues : Queues cfg s []) (hTables : TablesAgree s) {locals : Locals H}
    (hLoops : Locals.loops cfg hashing up s = some locals) : TablesOk locals :=
  (loops_rule TablesOk (tables_running cfg hashing up) (tables_waiting cfg hashing up) hQueues
    hTables.start (fun _ _ h _ => h) (fun _ _ h _ _ => h) (fun _ hOk h => h.leave hOk) hLoops).2

theorem TablesOk.agree {cfg : Config} (hashing : Hashing H X) {locals : Locals H}
    (hOk : LoopsOk cfg locals) (hTables : TablesOk locals) :
    TablesAgree (locals.finish cfg hashing) := by
  obtain ⟨hScheduled, hRest⟩ := hTables.finish hashing hOk
  have hBlocks := finish_reqToBlocks cfg hashing locals
  have hPending : ∀ id, (locals.finish cfg hashing).pendingRunnerBlockDeltas id =
      if id ∈ locals.scheduledRunningReqs then none
      else locals.st.pendingRunnerBlockDeltas id := fun _ => rfl
  refine ⟨fun id hNot => ?_, by simp [Locals.finish], fun id hMem => ?_⟩
  · rw [hPending]
    split
    · rfl
    · exact hTables.idle id hNot
  by_cases hIn : id ∈ locals.scheduledReqs
  · refine ⟨_, hScheduled id hIn, fun group => ?_⟩
    have hNone : (locals.finish cfg hashing).pendingRunnerBlockDeltas id = none := by
      rw [hPending]
      split
      · rfl
      · rename_i hOut
        rw [Locals.scheduledReqs, List.append_assoc] at hIn
        exact (hTables.admitted id ((List.mem_append.mp hIn).resolve_left hOut)).2
    rw [hBlocks, State.parked, hNone]
    exact (List.append_nil _).symm
  · refine (hTables.parked id hMem hIn).congr (hRest id hMem hIn) (congrFun hBlocks id)
      (parked_congr ?_)
    rw [hPending, if_neg]
    exact fun hOut => hIn (List.mem_append_left _ (List.mem_append_left _ hOut))

theorem TablesAgree.settleOutput {cfg : Config} (hashing : Hashing H X) (output : SchedulerOutput)
    {s : State H} (hTables : TablesAgree s) : TablesAgree (s.settleOutput cfg hashing output) := by
  unfold State.settleOutput
  split
  · exact hTables
  · rename_i subBlockSize _
    have hSame := Manager.ownership_reqToBlocks
      (Manager.ownership_doPendingIndexing cfg hashing subBlockSize s.kv s.requests)
    exact hTables.keep rfl rfl rfl (fun _ _ => rfl) rfl (fun id _ => congrFun hSame id)

theorem tables_update (cfg : Config) (hashing : Hashing H X) (result : RunnerOutput)
    (output : SchedulerOutput) : UpdateRule cfg hashing result output TablesAgree where
  receive {s id} _ hTables _ _ _ := by
    have hStatus := (afterOutput_keeps cfg result output id (s.requests id)).1
    refine hTables.keep rfl rfl rfl (fun other _ => ?_) rfl (fun other _ => ?_)
    · by_cases hEq : other = id
      · subst hEq
        simpa [State.receiveOutput] using hStatus
      · simp [State.receiveOutput, hEq]
    · unfold State.receiveOutput
      dsimp only
      split
      · exact congrFun (Manager.ownership_reqToBlocks (Manager.ownership_cacheBlocks ..)) other
      · rfl
  free _ hTables _ _ _ := hTables.freeRequest hashing _ _

theorem tables_run (cfg : Config) (hashing : Hashing H X) : 
    RunRule cfg hashing (fun _ => True) TablesAgree where
  initial := ⟨fun _ _ => rfl, by simp [State.initial], by simp [State.initial]⟩
  add {s s' id new} hQueues hTables hAdd := by
    obtain ⟨hNew, -, -, -, waiting, skippedWaiting, -, rfl⟩ := addRequest_cases hAdd
    refine hTables.keep rfl rfl rfl (fun other hMem => ?_) rfl (fun _ _ => rfl)
    have hNe : other ≠ id := by
      rintro rfl
      refine hNew ((hQueues.request other).known.mpr ?_)
      rw [hTables.finished other hMem]
      simp
    simp [hNe]
  schedule _ hQueues hTables _ hLoops hOk _ := (hTables.loops hQueues hLoops).agree hashing hOk
  update {s result output inFlight} _ hTables _ hPopped hAdmitted := by
    have hStart : TablesAgree { s with inFlight := inFlight } :=
      ⟨hTables.idle, hTables.finished, hTables.parked⟩
    exact (update_rule (tables_update cfg hashing result output) hPopped hAdmitted
      hStart).2.settleOutput hashing output
  drafts {s} drafts _ hTables := by
    unfold setDrafts
    dsimp only
    split
    · exact hTables
    · refine hTables.keep rfl rfl rfl (fun other _ => ?_) rfl (fun _ _ => rfl)
      by_cases hEq : other = drafts.1
      · subst hEq
        simp [State.modifyRequest]
      · simp [State.modifyRequest, hEq]
  free _ hTables _ _ _ := hTables.freeRequest hashing _ _
  releaseDeferred _ hTables _ := hTables.keep rfl rfl rfl (fun _ _ => rfl) rfl (fun _ _ => rfl)
  freeDelayed {s id} hQueues hTables hFinished := by
    refine hTables.keep rfl rfl rfl (fun _ _ => rfl) rfl (fun other hMem => ?_)
    have hNe : other ≠ id := by
      rintro rfl
      rw [(hQueues.request other).running.mp hMem] at hFinished
      cases hFinished
    rw [State.freeRequestBlocks_reqToBlocks, if_neg (by simp), Function.update_of_ne hNe]

/-- After every `schedule()` call of every run, once the runner has applied the output,
each request of the step has at the runner, in every group, the manager's own list. -/
theorem schedule_runnerBlocks_eq {cfg : Config} {hashing : Hashing H X} {actions : List (Action H)}
    {s s' : State H} {up : Upstream H} (run : Reaches cfg hashing actions s)
    (hSchedule : step cfg hashing s (.schedule up) = some s') :
    ∃ output, s'.inFlight.getLast? = some output ∧
      ∀ id ∈ (output.scheduledNewReqs ++ output.scheduledCachedReqs).map Prod.fst ++
          output.numScheduledTokens.map Prod.fst,
        s'.runnerBlocks id = some (s'.kv.reqToBlocks id) := by
  obtain ⟨hQueues, hTables⟩ := run_rule (tables_run cfg hashing) (fun _ _ => trivial) run
  simp only [step] at hSchedule
  split at hSchedule
  · obtain ⟨locals, hLoops, -, rfl⟩ := schedule_cases hSchedule
    have hOk := loops_ok hQueues hLoops
    obtain ⟨hScheduled, -⟩ := (hTables.loops hQueues hLoops).finish hashing hOk
    refine ⟨locals.output, by simp [Locals.finish], fun id hMem => ?_⟩
    rw [finish_reqToBlocks]
    refine hScheduled id ?_
    rcases List.mem_append.mp hMem with hMem | hMem
    · have hMem : id ∈ locals.scheduledNewReqs ++
          (locals.scheduledRunningReqs ++ locals.scheduledResumedReqs) := by
        simpa [Locals.output] using hMem
      simp only [Locals.scheduledReqs, List.mem_append] at hMem ⊢
      tauto
    · exact hOk.books.mem_iff.mp hMem
  · cases hSchedule

/-- A decode that needed a second block is pushed out by a prefill, and both run again
with their whole tables once the prefill is done. -/
theorem schedule_runnerBlocks_eq_small : ∃ s s',
    Reaches Config.small Hashing.free
      [.addRequest 0 (.plain [1, 2, 3, 4] 8), .schedule (.plain .small),
        .updateFromOutput (.constant 5), .addRequest 1 (.plain [6, 7, 8] 8),
        .schedule (.plain .small), .updateFromOutput (.constant 5)] s ∧
    s.pendingRunnerBlockDeltas 0 ≠ none ∧
    step Config.small Hashing.free s (.schedule (.plain .small)) = some s' ∧
    s'.kv.reqToBlocks 0 0 = [1, 2] ∧ s'.runnerBlocks 0 = some (s'.kv.reqToBlocks 0) := by
  obtain ⟨s, run, hHolds⟩ := Reaches.exists_of_any Config.small Hashing.free
    [.addRequest 0 (.plain [1, 2, 3, 4] 8), .schedule (.plain .small),
      .updateFromOutput (.constant 5), .addRequest 1 (.plain [6, 7, 8] 8),
      .schedule (.plain .small), .updateFromOutput (.constant 5)]
    (fun s => (s.pendingRunnerBlockDeltas 0).isSome &&
      (step Config.small Hashing.free s (.schedule (.plain .small))).any fun s' =>
        s'.kv.reqToBlocks 0 0 = [1, 2] &&
          s'.inFlight.getLast?.any fun output => (output.numScheduledTokens.lookup 0).isSome)
    (by decide +kernel)
  simp only [Bool.and_eq_true, Option.any_eq_true, decide_eq_true_eq] at hHolds
  obtain ⟨hParked, s', hSchedule, hBlocks, output, hLast, hLookup⟩ := hHolds
  refine ⟨s, s', run, by simpa [Option.isSome_iff_ne_none] using hParked, hSchedule, hBlocks, ?_⟩
  obtain ⟨output', hLast', hAll⟩ := schedule_runnerBlocks_eq run hSchedule
  cases hLast.symm.trans hLast'
  refine hAll 0 (List.mem_append_right _ ?_)
  by_contra hNot
  have hNone : output.numScheduledTokens.lookup 0 = none := by
    rw [List.lookup_eq_none_iff]
    intro row hRow
    have hNe : (0 : ReqId) ≠ row.1 := fun hEq => hNot (hEq ▸ List.mem_map_of_mem hRow)
    simpa using hNe
  rw [hNone] at hLookup
  cases hLookup

end VllmRbln.Scheduler
