import VllmRbln.Scheduler.Update

/-! The queues of the scheduler: where a request may be in which status, and which
requests hold blocks. Everything else about a run rests on these facts, so the rules for
the loops of `schedule()` and for whole runs carry them along. -/
namespace VllmRbln.Scheduler

set_option linter.unusedSectionVars false

open SubBlock

variable {H X : Type} [DecidableEq H]

def RequestStatus.isWaiting : RequestStatus → Bool
  | .waiting | .waitingForRemoteKvs | .waitingForStructuredOutput | .preempted => true
  | .unknown | .running | .finished => false

/-- The request was never admitted. -/
def RequestStatus.isNew : RequestStatus → Bool
  | .unknown | .waiting | .waitingForStructuredOutput => true
  | _ => false

/-- One request: the queue its status says, no step in flight before its first
admission, and no blocks while it waits or once it is finished, unless a connector needs
them. -/
structure RequestOk (cfg : Config) (s : State H) (id : ReqId) : Prop where
  known : id ∈ s.ids ↔ (s.requests id).status ≠ .unknown
  running : id ∈ s.running ↔ (s.requests id).status = .running
  new_fresh : (s.requests id).status.isNew → (s.requests id).numPreemptions = 0
  fresh : (s.requests id).status ≠ .running → (s.requests id).status ≠ .finished →
    (s.requests id).numPreemptions = 0 →
    ∀ output ∈ s.inFlight, id ∉ output.numScheduledTokens.map Prod.fst
  new_blocks : (s.requests id).status.isNew → (s.requests id).numComputedTokens = 0 →
    2 ≤ (s.requests id).numTokens → s.kv.reqToBlocks id = Blocks.empty
  waiting_blocks : cfg.hasConnector = false → (s.requests id).status.isWaiting →
    (s.requests id).status ≠ .waitingForRemoteKvs ∧ (s.requests id).numComputedTokens = 0 ∧
      s.kv.reqToBlocks id = Blocks.empty
  unknown_blocks : (s.requests id).status = .unknown → s.kv.reqToBlocks id = Blocks.empty
  unknown_tokens : (s.requests id).status = .unknown → (s.requests id).numTokens = 0
  finished_blocks : cfg.hasConnector = false → (s.requests id).status = .finished →
    s.kv.reqToBlocks id = Blocks.empty
  groups : ∀ group, cfg.numGroups ≤ group → s.kv.reqToBlocks id group = []

/-- What the queues read of a request. -/
def Request.core (request : Request) : RequestStatus × Nat × Nat × Nat :=
  (request.status, request.numPreemptions, request.numComputedTokens, request.numTokens)

theorem Request.core_eq_iff {request request' : Request} : request.core = request'.core ↔
    request.status = request'.status ∧ request.numPreemptions = request'.numPreemptions ∧
      request.numComputedTokens = request'.numComputedTokens ∧
      request.numTokens = request'.numTokens := by
  simp [Request.core]

theorem RequestOk.congr {cfg : Config} {s s' : State H} {id : ReqId} (hOk : RequestOk cfg s id)
    (hRequest : (s'.requests id).core = (s.requests id).core)
    (hBlocks : s'.kv.reqToBlocks id = s.kv.reqToBlocks id) (hIds : id ∈ s'.ids ↔ id ∈ s.ids)
    (hRunning : id ∈ s'.running ↔ id ∈ s.running) (hInFlight : s'.inFlight = s.inFlight) :
    RequestOk cfg s' id := by
  obtain ⟨known, running, newFresh, fresh, newBlocks, waitingBlocks, unknownBlocks, unknownTokens,
    finishedBlocks, groups⟩ := hOk
  obtain ⟨hStatus, hPreemptions, hComputed, hTokens⟩ := Request.core_eq_iff.mp hRequest
  constructor <;> simp only [hStatus, hPreemptions, hComputed, hTokens, hBlocks, hIds, hRunning,
    hInFlight] <;> assumption

/-- The queues of a state; `skipped` holds the requests that the current `schedule()`
call has set aside. -/
structure Queues (cfg : Config) (s : State H) (skipped : List ReqId) : Prop where
  ids_nodup : s.ids.Nodup
  running_nodup : s.running.Nodup
  queued : ∀ id ∈ s.waiting ++ s.skippedWaiting ++ skipped, (s.requests id).status.isWaiting
  queued_nodup : (s.waiting ++ s.skippedWaiting ++ skipped).Nodup
  request : ∀ id, RequestOk cfg s id

theorem Queues.initial (cfg : Config) : Queues cfg (State.initial : State H) [] where
  ids_nodup := List.nodup_nil
  running_nodup := List.nodup_nil
  queued := by simp [State.initial]
  queued_nodup := by simp [State.initial]
  request id := by
    constructor <;> simp [State.initial, Request.unknown, Request.numTokens, RequestStatus.isWaiting,
      RequestStatus.isNew, Manager.initial, Blocks.empty]

/-! ### The waiting queues as lists -/

namespace State

theorem prependRequest_perm (cfg : Config) (s : State H) (queue : List ReqId) (id : ReqId) :
    (s.prependRequest cfg queue id).Perm (id :: queue) := by
  unfold prependRequest
  split
  · exact List.perm_orderedInsert _ _ _
  · exact .refl _

theorem addToQueue_perm (cfg : Config) (s : State H) (queue : List ReqId) (id : ReqId) :
    (State.addToQueue cfg s queue id).Perm (id :: queue) := by
  unfold addToQueue
  split
  · exact List.perm_orderedInsert _ _ _
  · exact List.perm_append_singleton id queue

theorem foldl_prependRequest_perm (cfg : Config) (s : State H) (queue skipped : List ReqId) :
    (skipped.foldl (s.prependRequest cfg) queue).Perm (queue ++ skipped) := by
  induction skipped generalizing queue with
  | nil => simp
  | cons id skipped ih =>
      refine (ih _).trans ?_
      refine ((prependRequest_perm cfg s queue id).append_right skipped).trans ?_
      exact List.perm_middle.symm

/-- Unless a connector keeps them, a request's blocks leave the manager's lists. -/
theorem freeRequestBlocks_reqToBlocks (cfg : Config) (hashing : Hashing H X) (mode : FreeMode)
    (s : State H) (id : ReqId) : (s.freeRequestBlocks cfg hashing mode id).kv.reqToBlocks =
      if mode = .delayed then s.kv.reqToBlocks
      else Function.update s.kv.reqToBlocks id Blocks.empty := by
  have hBlocks := Manager.ownership_reqToBlocks
    (Manager.ownership_settle cfg hashing s.kv id (s.requests id))
  cases mode <;> simp [freeRequestBlocks, Manager.popBlocksForFree, Manager.free,
    Manager.popBlocks, Manager.freeBlocks, hBlocks]

theorem freeRequestBlocks_pendingCopyOps (cfg : Config) (hashing : Hashing H X) (mode : FreeMode)
    (s : State H) (id : ReqId) : (s.freeRequestBlocks cfg hashing mode id).kv.pendingCopyOps =
      s.kv.pendingCopyOps := by
  have hOps := Manager.ownership_pendingCopyOps
    (Manager.ownership_settle cfg hashing s.kv id (s.requests id))
  cases mode <;> simp [freeRequestBlocks, Manager.popBlocksForFree, Manager.free,
    Manager.popBlocks, Manager.freeBlocks, hOps]

end State

/-! ### One request changes -/

/-- A change that concerns one request: the others keep their record, their blocks and
their place. -/
theorem Queues.replace {cfg : Config} {s s' : State H} {skipped skipped' : List ReqId}
    (hQueues : Queues cfg s skipped) (id : ReqId) (hIds : s'.ids = s.ids)
    (hInFlight : s'.inFlight = s.inFlight)
    (hRequests : ∀ other, other ≠ id → s'.requests other = s.requests other)
    (hBlocks : ∀ other, other ≠ id → s'.kv.reqToBlocks other = s.kv.reqToBlocks other)
    (hRunning : ∀ other, other ≠ id → (other ∈ s'.running ↔ other ∈ s.running))
    (hRunningNodup : s'.running.Nodup)
    (hQueued : ∀ other ∈ s'.waiting ++ s'.skippedWaiting ++ skipped',
      if other = id then (s'.requests id).status.isWaiting
      else other ∈ s.waiting ++ s.skippedWaiting ++ skipped)
    (hNodup : (s'.waiting ++ s'.skippedWaiting ++ skipped').Nodup)
    (hOk : RequestOk cfg s' id) : Queues cfg s' skipped' where
  ids_nodup := hIds ▸ hQueues.ids_nodup
  running_nodup := hRunningNodup
  queued other hMem := by
    have hOther := hQueued other hMem
    by_cases hEq : other = id
    · rw [if_pos hEq] at hOther
      exact hEq ▸ hOther
    · rw [if_neg hEq] at hOther
      rw [hRequests other hEq]
      exact hQueues.queued other hOther
  queued_nodup := hNodup
  request other := by
    by_cases hEq : other = id
    · exact hEq ▸ hOk
    · exact (hQueues.request other).congr (by rw [hRequests other hEq]) (hBlocks other hEq)
        (by rw [hIds]) (hRunning other hEq) hInFlight

/-- No request changes its queue, its blocks or its counts. -/
theorem Queues.keep {cfg : Config} {s s' : State H} {skipped : List ReqId}
    (hQueues : Queues cfg s skipped) (hIds : s'.ids = s.ids) (hInFlight : s'.inFlight = s.inFlight)
    (hRequests : ∀ id, (s'.requests id).core = (s.requests id).core)
    (hBlocks : s'.kv.reqToBlocks = s.kv.reqToBlocks)
    (hRunning : s'.running = s.running) (hWaiting : s'.waiting = s.waiting)
    (hSkipped : s'.skippedWaiting = s.skippedWaiting) : Queues cfg s' skipped where
  ids_nodup := hIds ▸ hQueues.ids_nodup
  running_nodup := hRunning ▸ hQueues.running_nodup
  queued id hMem := by
    rw [hWaiting, hSkipped] at hMem
    rw [(Request.core_eq_iff.mp (hRequests id)).1]
    exact hQueues.queued id hMem
  queued_nodup := by rw [hWaiting, hSkipped]; exact hQueues.queued_nodup
  request id := (hQueues.request id).congr (hRequests id) (by rw [hBlocks]) (by rw [hIds])
    (by rw [hRunning]) hInFlight

namespace Queues

variable {cfg : Config} {s : State H} {skipped : List ReqId}

theorem mem_ids (hQueues : Queues cfg s skipped) {id : ReqId}
    (hKnown : (s.requests id).status ≠ .unknown) : id ∈ s.ids :=
  (hQueues.request id).known.mpr hKnown

theorem mem_ids_of_running (hQueues : Queues cfg s skipped) {id : ReqId} (hMem : id ∈ s.running) :
    id ∈ s.ids :=
  hQueues.mem_ids (by rw [(hQueues.request id).running.mp hMem]; simp)

theorem mem_ids_of_queued (hQueues : Queues cfg s skipped) {id : ReqId}
    (hMem : id ∈ s.waiting ++ s.skippedWaiting) : id ∈ s.ids := by
  refine hQueues.mem_ids fun hUnknown => ?_
  have hWaits := hQueues.queued id (List.mem_append_left _ hMem)
  rw [hUnknown] at hWaits
  cases hWaits

theorem notMem_queued_of_running (hQueues : Queues cfg s skipped) {id : ReqId}
    (hMem : id ∈ s.running) : id ∉ s.waiting ++ s.skippedWaiting ++ skipped := by
  intro hQueued
  have hStatus := hQueues.queued id hQueued
  rw [(hQueues.request id).running.mp hMem] at hStatus
  cases hStatus

theorem notMem_running_of_queued (hQueues : Queues cfg s skipped) {id : ReqId}
    (hMem : id ∈ s.waiting ++ s.skippedWaiting) : id ∉ s.running := fun hRunning =>
  hQueues.notMem_queued_of_running hRunning (List.mem_append_left _ hMem)

theorem notMem_skipped_of_queued (hQueues : Queues cfg s skipped) {id : ReqId}
    (hMem : id ∈ s.waiting ++ s.skippedWaiting) : id ∉ skipped := fun hSkipped =>
  (List.nodup_append.mp hQueues.queued_nodup).2.2 id hMem id hSkipped rfl

/-- Taking a waiting request off its queue. -/
theorem popWaiting_queued (hQueues : Queues cfg s skipped) (id : ReqId) :
    ((s.popWaiting id).waiting ++ (s.popWaiting id).skippedWaiting ++ skipped).Nodup ∧
      ∀ other, other ∈ (s.popWaiting id).waiting ++ (s.popWaiting id).skippedWaiting ↔
        other ≠ id ∧ other ∈ s.waiting ++ s.skippedWaiting := by
  have hFilter : (s.popWaiting id).waiting ++ (s.popWaiting id).skippedWaiting =
      (s.waiting ++ s.skippedWaiting).filter (· ≠ id) := by
    simp [State.popWaiting]
  constructor
  · rw [hFilter]
    exact hQueues.queued_nodup.sublist (List.filter_sublist.append_right skipped)
  · intro other
    rw [hFilter, List.mem_filter]
    simp [and_comm]

/-- `id` joins the requests set aside. -/
theorem popWaiting_prepend_nodup (hQueues : Queues cfg s skipped) {id : ReqId}
    (hMem : id ∈ s.waiting ++ s.skippedWaiting) {skipped' : List ReqId}
    (hPerm : skipped'.Perm (id :: skipped)) :
    ((s.popWaiting id).waiting ++ (s.popWaiting id).skippedWaiting ++ skipped').Nodup := by
  obtain ⟨hNodup, hPop⟩ := hQueues.popWaiting_queued id
  rw [((hPerm.append_left _).trans List.perm_middle).nodup_iff, List.nodup_cons]
  refine ⟨?_, hNodup⟩
  rw [List.mem_append, hPop]
  rintro (⟨hNe, -⟩ | hSkipped)
  · exact hNe rfl
  · exact hQueues.notMem_skipped_of_queued hMem hSkipped

theorem FreeMode.ofPreempted_ne (cfg : Config) (defer : Bool) :
    FreeMode.ofPreempted cfg defer ≠ .delayed := by
  unfold FreeMode.ofPreempted
  split <;> simp

/-- A running request loses its blocks and waits again. -/
theorem preempt (hQueues : Queues cfg s skipped) (hashing : Hashing H X) {mode : FreeMode}
    (hMode : mode ≠ .delayed) {id : ReqId} (hMem : id ∈ s.running) :
    Queues cfg (State.preemptRequest cfg hashing mode
      { s with running := s.running.filter (· ≠ id) } id) skipped := by
  generalize hEq : State.preemptRequest cfg hashing mode
    { s with running := s.running.filter (· ≠ id) } id = s'
  have hIds : s'.ids = s.ids := hEq ▸ rfl
  have hInFlight : s'.inFlight = s.inFlight := hEq ▸ rfl
  have hRunning : s'.running = s.running.filter (· ≠ id) := hEq ▸ rfl
  have hRequests : s'.requests = Function.update s.requests id
      { s.requests id with
        status := .preempted
        numComputedTokens := 0
        specTokenIds := []
        numPreemptions := (s.requests id).numPreemptions + 1 } := hEq ▸ rfl
  have hBlocks : s'.kv.reqToBlocks = Function.update s.kv.reqToBlocks id Blocks.empty := by
    rw [← hEq]
    exact (State.freeRequestBlocks_reqToBlocks ..).trans (if_neg hMode)
  have hQueued : (s'.waiting ++ s'.skippedWaiting ++ skipped).Perm
      (id :: (s.waiting ++ s.skippedWaiting ++ skipped)) := by
    rw [← hEq]
    exact ((State.prependRequest_perm ..).append_right s.skippedWaiting).append_right skipped
  clear hEq
  have hNot := hQueues.notMem_queued_of_running hMem
  refine hQueues.replace id hIds hInFlight (fun other hNe => ?_) (fun other hNe => ?_)
    (fun other hNe => ?_) (hRunning ▸ hQueues.running_nodup.filter _) (fun other hOther => ?_)
    (hQueued.nodup_iff.mpr (List.nodup_cons.mpr ⟨hNot, hQueues.queued_nodup⟩)) ?_
  · rw [hRequests, Function.update_of_ne hNe]
  · rw [hBlocks, Function.update_of_ne hNe]
  · simp [hRunning, hNe]
  · split
    · simp [hRequests, RequestStatus.isWaiting]
    · rename_i hNe
      exact (List.mem_cons.mp (hQueued.mem_iff.mp hOther)).resolve_left hNe
  · have hKnown := (hQueues.request id).known
    have hStatus := (hQueues.request id).running.mp hMem
    constructor <;> simp_all [RequestStatus.isNew, RequestStatus.isWaiting, Blocks.empty]

/-- A waiting request is set aside. -/
theorem skip (hQueues : Queues cfg s skipped) {id : ReqId}
    (hMem : id ∈ s.waiting ++ s.skippedWaiting) {skipped' : List ReqId}
    (hPerm : skipped'.Perm (id :: skipped)) : Queues cfg (s.popWaiting id) skipped' := by
  have hPop := (hQueues.popWaiting_queued id).2
  refine hQueues.replace id rfl rfl (fun _ _ => rfl) (fun _ _ => rfl) (fun _ _ => Iff.rfl)
    hQueues.running_nodup (fun other hOther => ?_) (hQueues.popWaiting_prepend_nodup hMem hPerm)
    ((hQueues.request id).congr rfl rfl Iff.rfl Iff.rfl rfl)
  split
  · exact hQueues.queued id (List.mem_append_left _ hMem)
  · rename_i hNe
    rcases List.mem_append.mp hOther with hOther | hOther
    · exact List.mem_append_left _ ((hPop other).mp hOther).2
    · exact List.mem_append_right _
        ((List.mem_cons.mp (hPerm.mem_iff.mp hOther)).resolve_left hNe)

/-- A waiting request starts to run with the blocks it was given. -/
theorem startRunning (hQueues : Queues cfg s skipped) {id : ReqId}
    (hMem : id ∈ s.waiting ++ s.skippedWaiting) {s' : State H} (hIds : s'.ids = s.ids)
    (hInFlight : s'.inFlight = s.inFlight) (hWaiting : s'.waiting = (s.popWaiting id).waiting)
    (hSkipped : s'.skippedWaiting = (s.popWaiting id).skippedWaiting)
    (hRunning : s'.running = s.running ++ [id])
    (hRequests : ∀ other, other ≠ id → s'.requests other = s.requests other)
    (hStatus : (s'.requests id).status = .running)
    (hBlocks : ∀ other, other ≠ id → s'.kv.reqToBlocks other = s.kv.reqToBlocks other)
    (hGroups : ∀ group, cfg.numGroups ≤ group → s'.kv.reqToBlocks id group = []) :
    Queues cfg s' skipped := by
  obtain ⟨hNodup, hPop⟩ := hQueues.popWaiting_queued id
  have hNotRunning := hQueues.notMem_running_of_queued hMem
  have hNotSkipped := hQueues.notMem_skipped_of_queued hMem
  refine hQueues.replace id hIds hInFlight hRequests hBlocks (fun other hNe => ?_) ?_
    (fun other hOther => ?_) (by rw [hWaiting, hSkipped]; exact hNodup) ?_
  · simp [hRunning, hNe]
  · rw [hRunning]
    simpa [List.nodup_append] using ⟨hQueues.running_nodup, fun other hOther hEq =>
      hNotRunning (hEq ▸ hOther)⟩
  · rw [hWaiting, hSkipped, List.mem_append, hPop] at hOther
    have hNe : other ≠ id := by
      rcases hOther with ⟨hNe, -⟩ | hOther
      · exact hNe
      · exact ne_of_mem_of_not_mem hOther hNotSkipped
    rw [if_neg hNe]
    exact List.mem_append.mpr (hOther.imp_left And.right)
  · have hKnown := (hQueues.request id).known
    have hOld := hQueues.queued id (List.mem_append_left _ hMem)
    have hNe : (s.requests id).status ≠ .unknown := by
      intro hEq
      rw [hEq] at hOld
      cases hOld
    constructor <;> simp_all [RequestStatus.isNew, RequestStatus.isWaiting]

/-- A waiting request waits for its remote KV, in blocks of its own. -/
theorem await (hQueues : Queues cfg s skipped) (hConnector : cfg.hasConnector = true) {id : ReqId}
    (hMem : id ∈ s.waiting ++ s.skippedWaiting) {skipped' : List ReqId}
    (hPerm : skipped'.Perm (id :: skipped)) {s' : State H} (hIds : s'.ids = s.ids)
    (hInFlight : s'.inFlight = s.inFlight) (hWaiting : s'.waiting = (s.popWaiting id).waiting)
    (hSkipped : s'.skippedWaiting = (s.popWaiting id).skippedWaiting)
    (hRunning : s'.running = s.running)
    (hRequests : ∀ other, other ≠ id → s'.requests other = s.requests other)
    (hStatus : (s'.requests id).status = .waitingForRemoteKvs)
    (hPreemptions : (s'.requests id).numPreemptions = (s.requests id).numPreemptions)
    (hBlocks : ∀ other, other ≠ id → s'.kv.reqToBlocks other = s.kv.reqToBlocks other)
    (hGroups : ∀ group, cfg.numGroups ≤ group → s'.kv.reqToBlocks id group = []) :
    Queues cfg s' skipped' := by
  have hPop := (hQueues.popWaiting_queued id).2
  refine hQueues.replace id hIds hInFlight hRequests hBlocks (fun other _ => by rw [hRunning])
    (hRunning ▸ hQueues.running_nodup) (fun other hOther => ?_)
    (by rw [hWaiting, hSkipped]; exact hQueues.popWaiting_prepend_nodup hMem hPerm) ?_
  · rw [hWaiting, hSkipped, List.mem_append, hPop] at hOther
    split
    · rw [hStatus]
      rfl
    · rename_i hNe
      rcases hOther with ⟨-, hOther⟩ | hOther
      · exact List.mem_append_left _ hOther
      · exact List.mem_append_right _
          ((List.mem_cons.mp (hPerm.mem_iff.mp hOther)).resolve_left hNe)
  · have hOk := hQueues.request id
    have hKnown := hOk.known
    have hOld := hQueues.queued id (List.mem_append_left _ hMem)
    have hNotRunning := hQueues.notMem_running_of_queued hMem
    have hNe : (s.requests id).status ≠ .unknown ∧ (s.requests id).status ≠ .running ∧
        (s.requests id).status ≠ .finished := by
      refine ⟨?_, ?_, ?_⟩ <;> intro hEq <;> rw [hEq] at hOld <;> cases hOld
    have hFresh := hOk.fresh hNe.2.1 hNe.2.2
    constructor <;> simp_all [RequestStatus.isNew, RequestStatus.isWaiting]

/-- A request changes in place. -/
theorem inPlace (hQueues : Queues cfg s skipped) (id : ReqId) {s' : State H} (hIds : s'.ids = s.ids)
    (hInFlight : s'.inFlight = s.inFlight) (hWaiting : s'.waiting = s.waiting)
    (hSkipped : s'.skippedWaiting = s.skippedWaiting) (hRunning : s'.running = s.running)
    (hRequests : ∀ other, other ≠ id → s'.requests other = s.requests other)
    (hBlocks : ∀ other, other ≠ id → s'.kv.reqToBlocks other = s.kv.reqToBlocks other)
    (hWaits : (s.requests id).status.isWaiting → (s'.requests id).status.isWaiting)
    (hOk : RequestOk cfg s' id) : Queues cfg s' skipped := by
  refine hQueues.replace id hIds hInFlight hRequests hBlocks (fun other _ => by rw [hRunning])
    (hRunning ▸ hQueues.running_nodup) (fun other hOther => ?_)
    (by rw [hWaiting, hSkipped]; exact hQueues.queued_nodup) hOk
  rw [hWaiting, hSkipped] at hOther
  split
  · rename_i hEq
    exact hWaits (hQueues.queued id (hEq ▸ hOther))
  · exact hOther

theorem readyStatus_isWaiting (request : Request) : request.readyStatus.isWaiting = true := by
  unfold Request.readyStatus
  split <;> rfl

/-- A request that waited for remote KV is ready, with the tokens that arrived. -/
private theorem promote_remote (hQueues : Queues cfg s skipped) {id : ReqId}
    (hRemote : (s.requests id).status = .waitingForRemoteKvs) {s' : State H} (hIds : s'.ids = s.ids)
    (hInFlight : s'.inFlight = s.inFlight) (hWaiting : s'.waiting = s.waiting)
    (hSkipped : s'.skippedWaiting = s.skippedWaiting) (hRunning : s'.running = s.running)
    (hRequests : ∀ other, other ≠ id → s'.requests other = s.requests other)
    (hStatus : (s'.requests id).status = (s.requests id).readyStatus)
    (hPreemptions : (s'.requests id).numPreemptions = (s.requests id).numPreemptions)
    (hBlocks : ∀ other, other ≠ id → s'.kv.reqToBlocks other = s.kv.reqToBlocks other)
    (hOwn : s'.kv.reqToBlocks id = Blocks.empty ∨ s'.kv.reqToBlocks id = s.kv.reqToBlocks id ∧
      ((s'.requests id).numComputedTokens = 0 → (s'.requests id).numTokens < 2)) :
    Queues cfg s' skipped := by
  have hOk := hQueues.request id
  refine hQueues.inPlace id hIds hInFlight hWaiting hSkipped hRunning hRequests hBlocks
    (fun _ => by rw [hStatus]; exact readyStatus_isWaiting _) ?_
  have hFresh := hOk.fresh (by simp [hRemote]) (by simp [hRemote])
  have hConnector : cfg.hasConnector = true := by
    by_contra hNone
    exact (hOk.waiting_blocks (by simpa using hNone) (by rw [hRemote]; rfl)).1 hRemote
  have hReady : (s'.requests id).status ≠ .unknown ∧ (s'.requests id).status ≠ .running := by
    rw [hStatus, Request.readyStatus]
    split <;> simp
  constructor
  · rw [hIds, hOk.known, hRemote]
    simp [hReady]
  · rw [hRunning, hOk.running, hRemote]
    simp [hReady]
  · rw [hStatus, hPreemptions, Request.readyStatus]
    split
    · simp [RequestStatus.isNew]
    · omega
  · rw [hPreemptions, hInFlight]
    exact fun _ _ => hFresh
  · intro _ hZero hTokens
    rcases hOwn with hOwn | ⟨-, hShort⟩
    · exact hOwn
    · have := hShort hZero
      omega
  · simp [hConnector]
  · exact fun hUnknown => absurd hUnknown hReady.1
  · exact fun hUnknown => absurd hUnknown hReady.1
  · simp [hConnector]
  · intro group hGroup
    rcases hOwn with hOwn | ⟨hOwn, -⟩ <;> rw [hOwn]
    · rfl
    · exact hOk.groups group hGroup

/-- A request that waited for its grammar is ready. -/
private theorem promote_structured (hQueues : Queues cfg s skipped) {id : ReqId}
    (hStructured : (s.requests id).status = .waitingForStructuredOutput) :
    Queues cfg (s.modifyRequest id fun _ =>
      { s.requests id with status := (s.requests id).readyStatus }) skipped := by
  have hOk := hQueues.request id
  have hNew : (s.requests id).numPreemptions = 0 := hOk.new_fresh (by rw [hStructured]; rfl)
  have hFresh := hOk.fresh (by simp [hStructured]) (by simp [hStructured]) hNew
  have hReady : (s.requests id).readyStatus = .waiting := by simp [Request.readyStatus, hNew]
  rw [hReady]
  generalize hEq : (s.modifyRequest id fun _ => { s.requests id with status := .waiting }) = s'
  have hRequests : s'.requests = Function.update s.requests id
    { s.requests id with status := .waiting } := hEq ▸ rfl
  have hIds : s'.ids = s.ids := hEq ▸ rfl
  have hInFlight : s'.inFlight = s.inFlight := hEq ▸ rfl
  have hRunning : s'.running = s.running := hEq ▸ rfl
  have hKv : s'.kv = s.kv := hEq ▸ rfl
  have hKnown := hOk.known
  have hNotRunning := hOk.running
  have hNewBlocks := hOk.new_blocks
  have hWaitingBlocks := hOk.waiting_blocks
  have hGroups := hOk.groups
  refine hQueues.inPlace id hIds hInFlight (hEq ▸ rfl) (hEq ▸ rfl) hRunning
    (fun other hNe => by rw [hRequests, Function.update_of_ne hNe]) (fun _ _ => by rw [hKv])
    (fun _ => by simp [hRequests, RequestStatus.isWaiting]) ?_
  clear hEq
  constructor <;>
    simp_all [RequestStatus.isNew, RequestStatus.isWaiting, Request.numTokens]

/-- A blocked request may go on. -/
theorem promote {locals : Locals H} (hQueues : Queues cfg locals.st locals.stepSkippedWaiting)
    (hashing : Hashing H X) {id : ReqId} (hBlocked : (locals.st.requests id).isBlocked = true)
    (numLoadedTokens : Nat) :
    Queues cfg (locals.promoteRequest cfg hashing id numLoadedTokens).st
      locals.stepSkippedWaiting := by
  unfold Locals.promoteRequest
  dsimp only
  by_cases hRemote : (locals.st.requests id).status = .waitingForRemoteKvs
  · rw [if_pos hRemote]
    split
    · have hBlocks := State.freeRequestBlocks_reqToBlocks cfg hashing .now
        (locals.st.modifyRequest id fun _ =>
          { locals.st.requests id with
            status := (locals.st.requests id).readyStatus
            numComputedTokens := min (min numLoadedTokens
              (locals.st.requests id).numComputedTokens)
                ((locals.st.requests id).numTokens - 1) }) id
      refine hQueues.promote_remote hRemote rfl rfl rfl rfl rfl
        (fun other hNe => Function.update_of_ne hNe ..) (by simp [State.freeRequestBlocks, State.modifyRequest])
        (by simp [State.freeRequestBlocks, State.modifyRequest]) (fun other hNe => ?_) (.inl ?_)
      · exact (congrFun hBlocks other).trans (Function.update_of_ne hNe ..)
      · exact (congrFun hBlocks id).trans (Function.update_self ..)
    · rename_i hPos
      have hBlocks := Manager.ownership_reqToBlocks (Manager.ownership_cacheBlocks cfg hashing
        locals.st.kv id (locals.st.requests id)
        (min numLoadedTokens (locals.st.requests id).numComputedTokens))
      refine hQueues.promote_remote hRemote rfl rfl rfl rfl rfl
        (fun other hNe => Function.update_of_ne hNe ..) (by simp [State.modifyRequest])
        (by simp [State.modifyRequest]) (fun other _ => congrFun hBlocks other) (.inr ⟨congrFun hBlocks id, ?_⟩)
      simp only [State.modifyRequest, Function.update_self, Request.numTokens]
      omega
  · have hStructured : (locals.st.requests id).status = .waitingForStructuredOutput := by
      simpa [Request.isBlocked, hRemote] using hBlocked
    rw [if_neg hRemote]
    exact hQueues.promote_structured hStructured

end Queues

end VllmRbln.Scheduler
