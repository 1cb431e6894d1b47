import VllmRbln.Scheduler.WaitingLoop

/-! Rules for whole `schedule()` calls, for `update_from_output` and for runs. The queues
stay in order along every run, so a property of runs is shown call by call, with the
queues in order before each call. -/
namespace VllmRbln.Scheduler

set_option linter.unusedSectionVars false

open SubBlock Run

variable {H X : Type} [DecidableEq H]

/-! ### One `schedule()` call -/

/-- The two loops together. -/
theorem loops_rule {cfg : Config} {hashing : Hashing H X} {up : Upstream H}
    {RunInv WaitInv Last : Locals H → Prop} (Post : Locals H → Prop)
    (running : RunningRule cfg hashing up RunInv)
    (waiting : WaitingRule cfg hashing up WaitInv Last) {s : State H} (hQueues : Queues cfg s [])
    (hStart : RunInv (Locals.start cfg up s))
    (hIdle : ∀ locals, RunningOk cfg locals → RunInv locals → locals.skipsWaiting up → Post locals)
    (hEnter : ∀ locals, RunningOk cfg locals → RunInv locals → locals.RunningDone →
      ¬ locals.skipsWaiting up → WaitInv locals)
    (hLeave : ∀ locals, WaitingOk cfg locals → Last locals →
      Post (locals.leaveWaitingLoop cfg)) {locals : Locals H}
    (hLoops : Locals.loops cfg hashing up s = some locals) : LoopsOk cfg locals ∧ Post locals := by
  unfold Locals.loops at hLoops
  dsimp only at hLoops
  split at hLoops
  · cases hLoops
  simp only [Option.bind_eq_some_iff] at hLoops
  obtain ⟨mid, hRunning, hWaiting⟩ := hLoops
  obtain ⟨hOk, hInv⟩ := running_rule running hQueues hStart hRunning
  exact waiting_rule waiting hOk (hIdle mid hOk hInv)
    (hEnter mid hOk hInv (running_done hQueues hRunning)) hLeave hWaiting

theorem loops_ok {cfg : Config} {hashing : Hashing H X} {up : Upstream H} {s : State H}
    (hQueues : Queues cfg s []) {locals : Locals H}
    (hLoops : Locals.loops cfg hashing up s = some locals) : LoopsOk cfg locals := by
  have running : RunningRule cfg hashing up fun _ => True := by constructor <;> simp
  have waiting : WaitingRule cfg hashing up (fun _ => True) fun _ => True := by
    constructor <;> simp
  exact (loops_rule (fun _ => True) running waiting hQueues trivial (fun _ _ _ _ => trivial)
    (fun _ _ _ _ _ => trivial) (fun _ _ _ => trivial) hLoops).1

theorem ownership_cacheScheduled (cfg : Config) (hashing : Hashing H X)
    (requests : ReqId → Request) (numScheduledTokens : List (ReqId × Nat)) (kv : Manager H)
    (ids : List ReqId) :
    (ids.foldl (cacheScheduled cfg hashing requests numScheduledTokens) kv).ownership =
      kv.ownership := by
  refine foldl_keeps Manager.ownership (fun kv id => ?_) ids kv
  unfold cacheScheduled
  dsimp only
  split
  · rw [Manager.ownership_scheduleSubBlockIndexing, Manager.ownership_cacheBlocks]
  · rw [Manager.ownership_cacheBlocks]

theorem finish_reqToBlocks (cfg : Config) (hashing : Hashing H X) (locals : Locals H) :
    (locals.finish cfg hashing).kv.reqToBlocks = locals.st.kv.reqToBlocks := by
  have hSame := Manager.ownership_reqToBlocks (ownership_cacheScheduled cfg hashing
    locals.st.requests locals.numScheduledTokens locals.st.kv locals.scheduledReqs)
  exact hSame

theorem finish_refCnt (cfg : Config) (hashing : Hashing H X) (locals : Locals H) :
    (locals.finish cfg hashing).kv.refCnt = locals.st.kv.refCnt := by
  have hSame := Manager.ownership_refCnt (ownership_cacheScheduled cfg hashing
    locals.st.requests locals.numScheduledTokens locals.st.kv locals.scheduledReqs)
  exact hSame

/-- Advancing a request moves its counts and its drafts. -/
theorem advanceRequest_keeps (cfg : Config) (numNewTokens : Nat) (drafts : List Token)
    (request : Request) :
    let advanced := advanceRequest cfg numNewTokens drafts request
    advanced.status = request.status ∧ advanced.numPreemptions = request.numPreemptions ∧
      advanced.allTokenIds = request.allTokenIds ∧
      advanced.numComputedTokens = request.numComputedTokens + numNewTokens := by
  unfold advanceRequest
  dsimp only
  split <;> exact ⟨rfl, rfl, rfl, rfl⟩

theorem Books.mem_iff {locals : Locals H} (hBooks : Books locals) {id : ReqId} :
    id ∈ locals.numScheduledTokens.map Prod.fst ↔ id ∈ locals.scheduledReqs :=
  hBooks.keys.mem_iff

theorem Books.lookup_none {locals : Locals H} (hBooks : Books locals) {id : ReqId}
    (hNot : id ∉ locals.st.running) : locals.numScheduledTokens.lookup id = none := by
  rw [List.lookup_eq_none_iff]
  intro row hRow
  have hMem : row.1 ∈ locals.scheduledReqs :=
    hBooks.mem_iff.mp (List.mem_map_of_mem hRow)
  have hNe : id ≠ row.1 := fun hEq => hNot (hEq ▸ hBooks.running _ hMem)
  simpa using hNe

theorem Queues.finish {cfg : Config} (hashing : Hashing H X) {locals : Locals H}
    (hOk : LoopsOk cfg locals) : Queues cfg (locals.finish cfg hashing) [] := by
  have hStatus : ∀ id, ((locals.finish cfg hashing).requests id).status =
      (locals.st.requests id).status := by
    intro id
    simp only [Locals.finish]
    split
    · exact (advanceRequest_keeps ..).1
    · rfl
  have hIdle : ∀ id, (locals.st.requests id).status ≠ .running →
      (locals.finish cfg hashing).requests id = locals.st.requests id := by
    intro id hNot
    have hNone := hOk.books.lookup_none (mt (hOk.queues.request id).running.mp hNot)
    simp [Locals.finish, hNone]
  have hBlocks := finish_reqToBlocks cfg hashing locals
  refine ⟨hOk.queues.ids_nodup, hOk.queues.running_nodup, fun id hMem => ?_,
    hOk.queues.queued_nodup, fun id => ?_⟩
  · rw [hStatus]
    exact hOk.queues.queued id hMem
  have hRequest := hOk.queues.request id
  by_cases hRunning : (locals.st.requests id).status = .running
  · have hNew := (hStatus id).trans hRunning
    refine ⟨?_, ?_, ?_, ?_, ?_, ?_, ?_, ?_, ?_, ?_⟩
    · rw [hNew]
      exact hRequest.known.trans (by simp [hRunning])
    · rw [hNew]
      exact hRequest.running.trans (by simp [hRunning])
    · simp [hNew, RequestStatus.isNew]
    · simp [hNew]
    · simp [hNew, RequestStatus.isNew]
    · simp [hNew, RequestStatus.isWaiting]
    · simp [hNew]
    · simp [hNew]
    · simp [hNew]
    · rw [hBlocks]
      exact hRequest.groups
  · have hSame := hIdle id hRunning
    refine ⟨?_, ?_, ?_, ?_, ?_, ?_, ?_, ?_, ?_, ?_⟩ <;> try rw [hSame]
    · exact hRequest.known
    · exact hRequest.running
    · exact hRequest.new_fresh
    · intro hNot hUnfinished hZero output hOutput
      rcases List.mem_append.mp hOutput with hOutput | hOutput
      · exact hRequest.fresh hNot hUnfinished hZero output hOutput
      · rw [List.mem_singleton.mp hOutput]
        intro hMem
        exact hNot (hRequest.running.mp
          (hOk.books.running id (hOk.books.mem_iff.mp hMem)))
    · rw [hBlocks]
      exact hRequest.new_blocks
    · rw [hBlocks]
      exact hRequest.waiting_blocks
    · rw [hBlocks]
      exact hRequest.unknown_blocks
    · exact hRequest.unknown_tokens
    · rw [hBlocks]
      exact hRequest.finished_blocks
    · rw [hBlocks]
      exact hRequest.groups

theorem schedule_cases {cfg : Config} {hashing : Hashing H X} {up : Upstream H} {s s' : State H}
    (hSchedule : schedule cfg hashing up s = some s') :
    ∃ locals, Locals.loops cfg hashing up s = some locals ∧ locals.consistent cfg = true ∧
      s' = locals.finish cfg hashing := by
  unfold schedule at hSchedule
  simp only [Option.bind_eq_some_iff] at hSchedule
  obtain ⟨locals, hLoops, hSchedule⟩ := hSchedule
  split at hSchedule
  · rename_i hConsistent
    exact ⟨locals, hLoops, hConsistent, (Option.some.inj hSchedule).symm⟩
  · cases hSchedule

/-! ### Processing an output -/

/-- A request once it has taken what a step produced for it, and whether it stops. -/
def Request.afterOutput (cfg : Config) (result : RunnerOutput) (output : SchedulerOutput)
    (id : ReqId) (request : Request) : Request × Bool :=
  let generated := result.generated output id
  (request.reject (if generated = [] then 0
    else (output.scheduledSpecDecodeTokens id).length + 1 - generated.length)).receive cfg
      (result.stops id) generated

/-- The state in which a request has taken its tokens, before it may be freed. -/
def State.receiveOutput (cfg : Config) (hashing : Hashing H X) (result : RunnerOutput)
    (output : SchedulerOutput) (s : State H) (id : ReqId) : State H :=
  let received := ((s.requests id).afterOutput cfg result output id).1
  { s with
    requests := Function.update s.requests id received
    kv := if cfg.asyncScheduling ∧ result.generated output id ≠ [] ∧
        (s.requests id).status = .running then
      s.kv.cacheBlocks cfg hashing id received
        (min (received.numComputedTokens - received.numOutputPlaceholders) received.numTokens)
      else s.kv }

theorem updateRequest_eq (cfg : Config) (hashing : Hashing H X) (result : RunnerOutput)
    (output : SchedulerOutput) (s : State H) (id : ReqId) :
    updateRequest cfg hashing result output s id =
      if (s.requests id).status = .unknown ∨ (s.requests id).status = .finished then s
      else if ((s.requests id).afterOutput cfg result output id).2 then
        (s.receiveOutput cfg hashing result output id).freeRequest cfg hashing
          (.ofFinished cfg (result.delayFree id) (result.deferFree id)) id
      else s.receiveOutput cfg hashing result output id := by
  unfold updateRequest
  dsimp only
  split
  · rfl
  · simp only [State.receiveOutput, Request.afterOutput, State.modifyRequest]
    by_cases hCache : cfg.asyncScheduling = true ∧ result.generated output id ≠ [] ∧
        (s.requests id).status = .running
    · simp only [if_pos hCache]
    · simp only [if_neg hCache]

theorem appendTokens_keeps (cfg : Config) (stops : Nat → Bool) (request : Request)
    (tokens : List Token) :
    ∃ more, (request.appendTokens cfg stops tokens).1 =
      { request with allTokenIds := request.allTokenIds ++ more } ∧ more <+: tokens := by
  induction tokens generalizing request with
  | nil => exact ⟨[], by simp [Request.appendTokens], List.nil_prefix⟩
  | cons token tokens ih =>
      simp only [Request.appendTokens]
      split
      · exact ⟨[token], rfl, by simp⟩
      · obtain ⟨more, hEq, hPrefix⟩ := ih { request with allTokenIds := request.allTokenIds ++ [token] }
        exact ⟨token :: more, by rw [hEq]; simp, by simpa using hPrefix⟩

/-- A received request keeps its status; its tokens grow, its computed tokens may fall. -/
theorem afterOutput_keeps (cfg : Config) (result : RunnerOutput) (output : SchedulerOutput)
    (id : ReqId) (request : Request) :
    let received := (request.afterOutput cfg result output id).1
    received.status = request.status ∧ received.numPreemptions = request.numPreemptions ∧
      received.numComputedTokens ≤ request.numComputedTokens ∧
      request.allTokenIds <+: received.allTokenIds := by
  unfold Request.afterOutput
  generalize result.generated output id = generated
  dsimp only
  generalize (if generated = [] then 0 else
    (output.scheduledSpecDecodeTokens id).length + 1 - generated.length) = numRejected
  obtain ⟨more, hMore, -⟩ := appendTokens_keeps cfg (result.stops id) (request.reject numRejected)
    generated
  unfold Request.receive
  dsimp only
  split <;> simp only [hMore] <;>
    exact ⟨rfl, rfl, Nat.sub_le .., List.prefix_append ..⟩

/-- Requests of a step in flight were admitted at some point. -/
def Admitted (s : State H) (ids : List ReqId) : Prop :=
  ∀ id ∈ ids, (s.requests id).status = .running ∨ (s.requests id).status = .finished ∨
    0 < (s.requests id).numPreemptions

theorem Queues.admitted {cfg : Config} {s : State H} (hQueues : Queues cfg s [])
    {output : SchedulerOutput} (hMem : output ∈ s.inFlight) :
    Admitted s (output.numScheduledTokens.map Prod.fst) := by
  intro id hId
  by_contra hNot
  simp only [not_or, Nat.not_lt, Nat.le_zero] at hNot
  exact (hQueues.request id).fresh hNot.1 hNot.2.1 hNot.2.2 output hMem hId

theorem Queues.receiveOutput {cfg : Config} (hashing : Hashing H X) (result : RunnerOutput)
    (output : SchedulerOutput) {s : State H} (hQueues : Queues cfg s []) {id : ReqId}
    (hAdmitted : Admitted s [id]) :
    Queues cfg (s.receiveOutput cfg hashing result output id) [] := by
  obtain ⟨hStatus, hPreemptions, hComputed, hTokens⟩ :=
    afterOutput_keeps cfg result output id (s.requests id)
  have hRequest := hQueues.request id
  have hBlocks : (s.receiveOutput cfg hashing result output id).kv.reqToBlocks = s.kv.reqToBlocks := by
    unfold State.receiveOutput
    dsimp only
    split
    · exact Manager.ownership_reqToBlocks (Manager.ownership_cacheBlocks ..)
    · rfl
  generalize hEq : s.receiveOutput cfg hashing result output id = s' at hBlocks ⊢
  have hSelf : s'.requests id = ((s.requests id).afterOutput cfg result output id).1 := by
    rw [← hEq]
    exact Function.update_self ..
  refine hQueues.inPlace id (hEq ▸ rfl) (hEq ▸ rfl) (hEq ▸ rfl) (hEq ▸ rfl) (hEq ▸ rfl)
    (fun other hNe => by rw [← hEq]; exact Function.update_of_ne hNe ..) (fun _ _ => by rw [hBlocks])
    (by rw [hSelf, hStatus]; exact fun hWaits => hWaits) ?_
  have hNotNew : (s.requests id).status.isNew = true → False := by
    intro hNew
    have hZero := hRequest.new_fresh hNew
    rcases hAdmitted id (by simp) with h | h | h
    · rw [h] at hNew; cases hNew
    · rw [h] at hNew; cases hNew
    · omega
  have hIds : s'.ids = s.ids := hEq ▸ rfl
  have hRunning : s'.running = s.running := hEq ▸ rfl
  have hInFlight : s'.inFlight = s.inFlight := hEq ▸ rfl
  constructor <;> simp only [hSelf, hStatus, hPreemptions, hBlocks, hIds, hRunning, hInFlight]
  · exact hRequest.known
  · exact hRequest.running
  · exact hRequest.new_fresh
  · exact hRequest.fresh
  · exact fun hNew => (hNotNew hNew).elim
  · intro hConnector hWaits
    obtain ⟨hRemote, hZero, hEmpty⟩ := hRequest.waiting_blocks hConnector hWaits
    exact ⟨hRemote, by omega, hEmpty⟩
  · exact hRequest.unknown_blocks
  · exact fun hUnknown => (hNotNew (by rw [hUnknown]; rfl)).elim
  · exact hRequest.finished_blocks
  · exact hRequest.groups

theorem Queues.freeRequest {cfg : Config} (hashing : Hashing H X) (mode : FreeMode) {s : State H}
    (hQueues : Queues cfg s []) {id : ReqId} (hKnown : (s.requests id).status ≠ .unknown)
    (hDelayed : mode = .delayed → cfg.hasConnector = true) :
    Queues cfg (s.freeRequest cfg hashing mode id) [] := by
  have hBlocks : (s.freeRequest cfg hashing mode id).kv.reqToBlocks =
      if mode = .delayed then s.kv.reqToBlocks
      else Function.update s.kv.reqToBlocks id Blocks.empty :=
    State.freeRequestBlocks_reqToBlocks cfg hashing mode (s.popWaiting id) id
  have hRequest := hQueues.request id
  obtain ⟨hNodup, hPop⟩ := hQueues.popWaiting_queued id
  generalize hEq : s.freeRequest cfg hashing mode id = s' at hBlocks ⊢
  have hIds : s'.ids = s.ids := hEq ▸ rfl
  have hInFlight : s'.inFlight = s.inFlight := hEq ▸ rfl
  have hRunning : s'.running = s.running.filter (· ≠ id) := hEq ▸ rfl
  have hWaiting : s'.waiting = (s.popWaiting id).waiting := hEq ▸ rfl
  have hSkipped : s'.skippedWaiting = (s.popWaiting id).skippedWaiting := hEq ▸ rfl
  have hRequests : s'.requests = Function.update s.requests id
    { s.requests id with status := .finished } := hEq ▸ rfl
  clear hEq
  refine hQueues.replace id hIds hInFlight (fun other hNe => ?_) (fun other hNe => ?_)
    (fun other hNe => ?_) (hRunning ▸ hQueues.running_nodup.filter _) (fun other hOther => ?_)
    (by rw [hWaiting, hSkipped]; exact hNodup) ?_
  · rw [hRequests, Function.update_of_ne hNe]
  · rw [hBlocks]
    split
    · rfl
    · rw [Function.update_of_ne hNe]
  · simp [hRunning, hNe]
  · rw [hWaiting, hSkipped, List.append_nil, hPop] at hOther
    rw [if_neg hOther.1, List.append_nil]
    exact hOther.2
  · have hKnownIds := hRequest.known
    constructor
    case groups =>
      intro group hGroup
      rw [hBlocks]
      split
      · exact hRequest.groups group hGroup
      · rw [Function.update_self]; rfl
    case finished_blocks =>
      intro hNo _
      rw [hBlocks, if_neg, Function.update_self]
      intro hMode
      rw [hDelayed hMode] at hNo
      cases hNo
    all_goals simp_all [RequestStatus.isNew, RequestStatus.isWaiting]

/-- What a property has to survive while an output is processed, request by request. -/
structure UpdateRule (cfg : Config) (hashing : Hashing H X) (result : RunnerOutput)
    (output : SchedulerOutput) (Inv : State H → Prop) : Prop where
  receive : ∀ {s id}, Queues cfg s [] → Inv s → id ∈ output.numScheduledTokens.map Prod.fst →
    (s.requests id).status ≠ .unknown → (s.requests id).status ≠ .finished →
    Inv (s.receiveOutput cfg hashing result output id)
  free : ∀ {s id mode}, Queues cfg s [] → Inv s → (s.requests id).status ≠ .unknown →
    (s.requests id).status ≠ .finished → (mode = .delayed → cfg.hasConnector = true) →
    Inv (s.freeRequest cfg hashing mode id)

theorem FreeMode.ofFinished_delayed {cfg : Config} {delayFree defer : Bool}
    (hDelayed : FreeMode.ofFinished cfg delayFree defer = .delayed) : cfg.hasConnector = true := by
  unfold FreeMode.ofFinished FreeMode.ofPreempted at hDelayed
  split at hDelayed
  · rename_i hConnector
    exact hConnector.1
  · split at hDelayed <;> cases hDelayed

private theorem admitted_updateRequest (cfg : Config) (hashing : Hashing H X)
    (result : RunnerOutput) (output : SchedulerOutput) {s : State H} {ids : List ReqId}
    (hAdmitted : Admitted s ids) (id : ReqId) :
    Admitted (updateRequest cfg hashing result output s id) ids := by
  intro other hMem
  have hOther := hAdmitted other hMem
  rw [updateRequest_eq]
  split
  · exact hOther
  have hKeeps := afterOutput_keeps cfg result output id (s.requests id)
  split
  · by_cases hEq : other = id
    · right; left
      simp [State.freeRequest, State.modifyRequest, hEq]
    · simpa [State.freeRequest, State.modifyRequest, State.freeRequestBlocks, State.popWaiting,
        State.receiveOutput, hEq] using hOther
  · by_cases hEq : other = id
    · subst hEq
      simpa [State.receiveOutput, hKeeps.1, hKeeps.2.1] using hOther
    · simpa [State.receiveOutput, hEq] using hOther

/-- The same with the requests that are still to be updated; a request that stops is
freed before the property is asked for again. -/
structure SettleRule (cfg : Config) (hashing : Hashing H X) (result : RunnerOutput)
    (output : SchedulerOutput) (Inv : List ReqId → State H → Prop) : Prop where
  pass : ∀ {s id todo}, Queues cfg s [] → Inv (id :: todo) s →
    (s.requests id).status = .unknown ∨ (s.requests id).status = .finished → Inv todo s
  receive : ∀ {s id todo}, Queues cfg s [] → Inv (id :: todo) s → Admitted s [id] →
    (s.requests id).status ≠ .unknown → (s.requests id).status ≠ .finished →
    ((s.requests id).afterOutput cfg result output id).2 = false →
    Inv todo (s.receiveOutput cfg hashing result output id)
  stop : ∀ {s id todo mode}, Queues cfg s [] → Inv (id :: todo) s →
    (s.requests id).status ≠ .unknown → (s.requests id).status ≠ .finished →
    Queues cfg (s.receiveOutput cfg hashing result output id) [] →
    (mode = .delayed → cfg.hasConnector = true) →
    Inv todo ((s.receiveOutput cfg hashing result output id).freeRequest cfg hashing mode id)

/-- The fold over the requests of a processed step. -/
theorem settle_rule {cfg : Config} {hashing : Hashing H X} {result : RunnerOutput}
    {output : SchedulerOutput} {Inv : List ReqId → State H → Prop}
    (rule : SettleRule cfg hashing result output Inv) {s : State H} {ids : List ReqId}
    (hQueues : Queues cfg s []) (hAdmitted : Admitted s ids) (hInv : Inv ids s) :
    Queues cfg (ids.foldl (updateRequest cfg hashing result output) s) [] ∧
      Inv [] (ids.foldl (updateRequest cfg hashing result output) s) := by
  induction ids generalizing s with
  | nil => exact ⟨hQueues, hInv⟩
  | cons id ids ih =>
      have hNext := admitted_updateRequest cfg hashing result output hAdmitted id
      suffices hHead : Queues cfg (updateRequest cfg hashing result output s id) [] ∧
          Inv ids (updateRequest cfg hashing result output s id) from
        ih hHead.1 (fun other hMem => hNext other (List.mem_cons_of_mem _ hMem)) hHead.2
      rw [updateRequest_eq]
      split
      · rename_i hGone
        exact ⟨hQueues, rule.pass hQueues hInv hGone⟩
      rename_i hLive
      obtain ⟨hKnown, hUnfinished⟩ := not_or.mp hLive
      have hThis : Admitted s [id] := fun other hOther =>
        hAdmitted other (List.mem_singleton.mp hOther ▸ List.mem_cons_self)
      have hReceived := hQueues.receiveOutput hashing result output hThis
      split
      · have hStatus : ((s.receiveOutput cfg hashing result output id).requests id).status =
            (s.requests id).status := by
          simp [State.receiveOutput, (afterOutput_keeps cfg result output id (s.requests id)).1]
        exact ⟨hReceived.freeRequest hashing _ (hStatus ▸ hKnown) FreeMode.ofFinished_delayed,
          rule.stop hQueues hInv hKnown hUnfinished hReceived FreeMode.ofFinished_delayed⟩
      · rename_i hGoes
        exact ⟨hReceived, rule.receive hQueues hInv hThis hKnown hUnfinished (by simpa using hGoes)⟩

theorem update_rule {cfg : Config} {hashing : Hashing H X} {result : RunnerOutput}
    {output : SchedulerOutput} {Inv : State H → Prop}
    (rule : UpdateRule cfg hashing result output Inv) {s : State H} (hQueues : Queues cfg s [])
    (hAdmitted : Admitted s (output.numScheduledTokens.map Prod.fst)) (hInv : Inv s) :
    let s' := (output.numScheduledTokens.map Prod.fst).foldl
      (updateRequest cfg hashing result output) s
    Queues cfg s' [] ∧ Inv s' := by
  have settle : SettleRule cfg hashing result output fun todo s =>
      Inv s ∧ ∀ id ∈ todo, id ∈ output.numScheduledTokens.map Prod.fst :=
    { pass := fun _ hInv _ => ⟨hInv.1, fun id hMem => hInv.2 id (List.mem_cons_of_mem _ hMem)⟩
      receive := fun hQueues hInv _ hKnown hUnfinished _ =>
        ⟨rule.receive hQueues hInv.1 (hInv.2 _ List.mem_cons_self) hKnown hUnfinished,
          fun id hMem => hInv.2 id (List.mem_cons_of_mem _ hMem)⟩
      stop := fun {s id _ _} hQueues hInv hKnown hUnfinished hReceived hDelayed => by
        have hStatus : ((s.receiveOutput cfg hashing result output id).requests id).status =
            (s.requests id).status := by
          simp [State.receiveOutput, (afterOutput_keeps cfg result output id (s.requests id)).1]
        have hKept := rule.receive hQueues hInv.1 (hInv.2 _ List.mem_cons_self) hKnown hUnfinished
        exact ⟨rule.free hReceived hKept (hStatus ▸ hKnown) (hStatus ▸ hUnfinished) hDelayed,
          fun id hMem => hInv.2 id (List.mem_cons_of_mem _ hMem)⟩ }
  obtain ⟨hQueues, hInv, -⟩ := settle_rule settle hQueues hAdmitted ⟨hInv, fun _ hMem => hMem⟩
  exact ⟨hQueues, hInv⟩

/-- The oldest step leaves the queue of those in flight. -/
theorem Queues.popOutput {cfg : Config} {s : State H} (hQueues : Queues cfg s [])
    {output : SchedulerOutput} {inFlight : List SchedulerOutput}
    (hInFlight : s.inFlight = output :: inFlight) :
    Queues cfg { s with inFlight := inFlight } [] := by
  refine ⟨hQueues.ids_nodup, hQueues.running_nodup, hQueues.queued, hQueues.queued_nodup,
    fun id => ?_⟩
  have hRequest := hQueues.request id
  exact ⟨hRequest.known, hRequest.running, hRequest.new_fresh,
    fun hNot hUnfinished hZero other hMem => hRequest.fresh hNot hUnfinished hZero other
      (hInFlight ▸ List.mem_cons_of_mem _ hMem), hRequest.new_blocks, hRequest.waiting_blocks,
    hRequest.unknown_blocks, hRequest.unknown_tokens, hRequest.finished_blocks, hRequest.groups⟩

/-- What is done once every request of a processed step is updated. -/
def State.settleOutput (cfg : Config) (hashing : Hashing H X) (output : SchedulerOutput)
    (s : State H) : State H :=
  match cfg.subBlockSize with
  | none => s
  | some subBlockSize =>
      { s with
        kv := (s.kv.doPendingIndexing cfg hashing subBlockSize s.requests).releaseCopyOps
          output.kvCacheCopyOps
        unpins := s.unpins ++ output.kvCacheCopyOps.map (·.srcBlockId) }

theorem updateFromOutput_cases {cfg : Config} {hashing : Hashing H X} {result : RunnerOutput}
    {s s' : State H} (hUpdate : updateFromOutput cfg hashing result s = some s') :
    ∃ output inFlight, s.inFlight = output :: inFlight ∧
      s' = ((output.numScheduledTokens.map Prod.fst).foldl
        (updateRequest cfg hashing result output) { s with inFlight := inFlight }).settleOutput
          cfg hashing output := by
  unfold updateFromOutput at hUpdate
  split at hUpdate
  · cases hUpdate
  rename_i output inFlight hInFlight
  refine ⟨output, inFlight, hInFlight, ?_⟩
  unfold State.settleOutput
  dsimp only at hUpdate
  cases hSize : cfg.subBlockSize with
  | none =>
      simp only [hSize] at hUpdate
      exact (Option.some.inj hUpdate).symm
  | some subBlockSize =>
      simp only [hSize] at hUpdate
      exact (Option.some.inj hUpdate).symm

theorem Queues.settleOutput {cfg : Config} (hashing : Hashing H X) (output : SchedulerOutput)
    {s : State H} (hQueues : Queues cfg s []) :
    Queues cfg (s.settleOutput cfg hashing output) [] := by
  unfold State.settleOutput
  split
  · exact hQueues
  · rename_i subBlockSize _
    have hSame := Manager.ownership_reqToBlocks
      (Manager.ownership_doPendingIndexing cfg hashing subBlockSize s.kv s.requests)
    exact hQueues.keep rfl rfl (fun _ => rfl) hSame rfl rfl rfl

/-! ### Runs -/

/-- What a property of the state has to survive in a run, where the code outside answers
as `Lawful` says. -/
structure RunRule (cfg : Config) (hashing : Hashing H X) (Lawful : Upstream H → Prop)
    (Inv : State H → Prop) : Prop where
  initial : Inv State.initial
  add : ∀ {s s' id new}, Queues cfg s [] → Inv s → addRequest cfg s id new = some s' → Inv s'
  schedule : ∀ {s up locals}, Lawful up → Queues cfg s [] → Inv s →
    s.inFlight.length < cfg.maxConcurrentBatches → Locals.loops cfg hashing up s = some locals →
    LoopsOk cfg locals → locals.consistent cfg = true → Inv (locals.finish cfg hashing)
  update : ∀ {s result output inFlight}, Queues cfg s [] → Inv s →
    s.inFlight = output :: inFlight → Queues cfg { s with inFlight := inFlight } [] →
    Admitted { s with inFlight := inFlight } (output.numScheduledTokens.map Prod.fst) →
    Inv (((output.numScheduledTokens.map Prod.fst).foldl (updateRequest cfg hashing result output)
      { s with inFlight := inFlight }).settleOutput cfg hashing output)
  drafts : ∀ {s} (drafts : ReqId × List Token), Queues cfg s [] → Inv s → Inv (setDrafts cfg s drafts)
  free : ∀ {s id mode}, Queues cfg s [] → Inv s → (s.requests id).status ≠ .unknown →
    (s.requests id).status ≠ .finished → (mode = .delayed → cfg.hasConnector = true) →
    Inv (s.freeRequest cfg hashing mode id)
  releaseDeferred : ∀ {s blocks rest}, Queues cfg s [] → Inv s → s.deferredFrees = blocks :: rest →
    Inv { s with kv := s.kv.freeBlocks blocks, deferredFrees := rest }
  freeDelayed : ∀ {s id}, Queues cfg s [] → Inv s → (s.requests id).status = .finished →
    Inv (s.freeRequestBlocks cfg hashing .now id)

theorem Queues.setDrafts {cfg : Config} {s : State H} (hQueues : Queues cfg s [])
    (drafts : ReqId × List Token) : Queues cfg (setDrafts cfg s drafts) [] := by
  unfold VllmRbln.Scheduler.setDrafts
  dsimp only
  split
  · exact hQueues
  · refine hQueues.keep rfl rfl (fun other => ?_) rfl rfl rfl rfl
    by_cases hEq : other = drafts.1
    · subst hEq
      simp [State.modifyRequest, Request.core, Request.numTokens]
    · simp [State.modifyRequest, hEq]

theorem Queues.freeDelayed {cfg : Config} (hashing : Hashing H X) {s : State H}
    (hQueues : Queues cfg s []) {id : ReqId} (hFinished : (s.requests id).status = .finished) :
    Queues cfg (s.freeRequestBlocks cfg hashing .now id) [] := by
  have hBlocks := State.freeRequestBlocks_reqToBlocks cfg hashing .now s id
  rw [if_neg (by simp)] at hBlocks
  have hRequest := hQueues.request id
  refine hQueues.inPlace id rfl rfl rfl rfl rfl (fun _ _ => rfl)
    (fun other hNe => by rw [hBlocks, Function.update_of_ne hNe]) (fun hWaits => hWaits) ?_
  refine ⟨hRequest.known, hRequest.running, hRequest.new_fresh, hRequest.fresh, ?_, ?_, ?_,
    hRequest.unknown_tokens, ?_, ?_⟩
  · intro _ _ _
    rw [hBlocks, Function.update_self]
  · intro _ hWaits
    change (s.requests id).status.isWaiting = true at hWaits
    rw [hFinished] at hWaits
    cases hWaits
  · intro _
    rw [hBlocks, Function.update_self]
  · intro _ _
    rw [hBlocks, Function.update_self]
  · intro group _
    rw [hBlocks, Function.update_self]
    rfl

/-- How a request enters: under a new id, on one of the two waiting queues. -/
theorem addRequest_cases {cfg : Config} {s s' : State H} {id : ReqId} {new : NewRequest}
    (hAdd : addRequest cfg s id new = some s') :
    id ∉ s.ids ∧ new.promptTokenIds ≠ [] ∧ new.promptTokenIds.length < cfg.maxModelLen ∧
      0 < new.maxTokens ∧ ∃ waiting skippedWaiting,
        (waiting ++ skippedWaiting).Perm (id :: (s.waiting ++ s.skippedWaiting)) ∧
        s' = { s with
          requests := Function.update s.requests id new.toRequest
          ids := s.ids ++ [id]
          waiting := waiting
          skippedWaiting := skippedWaiting } := by
  unfold addRequest at hAdd
  split at hAdd
  · cases hAdd
  rename_i hGuard
  simp only [not_or, Nat.not_le] at hGuard
  refine ⟨hGuard.1, hGuard.2.1, hGuard.2.2.1, Nat.pos_of_ne_zero hGuard.2.2.2, ?_⟩
  dsimp only at hAdd
  split at hAdd
  · refine ⟨_, _, ?_, (Option.some.inj hAdd).symm⟩
    exact ((State.addToQueue_perm ..).append_left _).trans List.perm_middle
  · refine ⟨_, _, ?_, (Option.some.inj hAdd).symm⟩
    exact (State.addToQueue_perm ..).append_right _

theorem Queues.addRequest {cfg : Config} {s s' : State H} {id : ReqId} {new : NewRequest}
    (hQueues : Queues cfg s []) (hAdd : addRequest cfg s id new = some s') : Queues cfg s' [] := by
  obtain ⟨hNew, -, -, -, waiting, skippedWaiting, hPerm, rfl⟩ := addRequest_cases hAdd
  have hRequest := hQueues.request id
  have hUnknown : (s.requests id).status = .unknown := by
    by_contra hNot
    exact hNew (hRequest.known.mpr hNot)
  have hStatus : new.toRequest.status = .waiting ∨
      new.toRequest.status = .waitingForStructuredOutput := by
    unfold NewRequest.toRequest
    dsimp only
    split <;> simp
  have hZero := hRequest.new_fresh (by rw [hUnknown]; rfl)
  have hFresh := hRequest.fresh (by simp [hUnknown]) (by simp [hUnknown]) hZero
  have hNotQueued : id ∉ s.waiting ++ s.skippedWaiting := by
    intro hMem
    have hWaits := hQueues.queued id (by simpa using hMem)
    rw [hUnknown] at hWaits
    cases hWaits
  have hOther : ∀ other, other ≠ id → Function.update s.requests id new.toRequest other =
      s.requests other := fun other hNe => Function.update_of_ne hNe ..
  refine ⟨?_, hQueues.running_nodup, fun other hMem => ?_, ?_, fun other => ?_⟩
  · simpa [List.nodup_append] using ⟨hQueues.ids_nodup, fun other hMem hEq => hNew (hEq ▸ hMem)⟩
  · rw [List.append_nil] at hMem
    rcases List.mem_cons.mp (hPerm.mem_iff.mp hMem) with rfl | hMem
    · simp only [Function.update_self]
      rcases hStatus with h | h <;> rw [h] <;> rfl
    · simp only [hOther other (ne_of_mem_of_not_mem hMem hNotQueued)]
      exact hQueues.queued other (by simpa using hMem)
  · rw [List.append_nil, hPerm.nodup_iff, List.nodup_cons]
    exact ⟨hNotQueued, by simpa using hQueues.queued_nodup⟩
  · by_cases hEq : other = id
    · subst hEq
      have hBlocks := hRequest.unknown_blocks hUnknown
      have hRunning := hRequest.running
      rw [hUnknown] at hRunning
      have hFields : new.toRequest.numPreemptions = 0 ∧ new.toRequest.numComputedTokens = 0 :=
        ⟨rfl, rfl⟩
      constructor <;> rcases hStatus with h | h <;>
        simp_all [RequestStatus.isNew, RequestStatus.isWaiting, Blocks.empty]
    · refine (hQueues.request other).congr ?_ rfl ?_ Iff.rfl rfl
      · simp only [hOther other hEq]
      · simp [hEq]

/-- A property that survives every call holds after every run, and the queues are in
order. -/
theorem run_rule {cfg : Config} {hashing : Hashing H X} {Lawful : Upstream H → Prop}
    {Inv : State H → Prop} (rule : RunRule cfg hashing Lawful Inv) {actions : List (Action H)}
    {s : State H} (hLawful : ∀ up, Action.schedule up ∈ actions → Lawful up)
    (run : Reaches cfg hashing actions s) : Queues cfg s [] ∧ Inv s := by
  refine runFrom_invariant (fun s => Queues cfg s [] ∧ Inv s) ?_
    ⟨Queues.initial cfg, rule.initial⟩ run
  rintro s action hAction s' ⟨hQueues, hInv⟩ hStep
  cases action with
  | addRequest id new => exact ⟨hQueues.addRequest hStep, rule.add hQueues hInv hStep⟩
  | schedule up =>
      simp only [step] at hStep
      split at hStep
      · rename_i hLt
        obtain ⟨locals, hLoops, hConsistent, rfl⟩ := schedule_cases hStep
        have hOk := loops_ok hQueues hLoops
        exact ⟨Queues.finish hashing hOk, rule.schedule (hLawful up hAction) hQueues hInv hLt hLoops hOk hConsistent⟩
      · cases hStep
  | updateFromOutput result =>
      obtain ⟨output, inFlight, hInFlight, rfl⟩ := updateFromOutput_cases hStep
      have hPopped := hQueues.popOutput hInFlight
      have hAdmitted : Admitted { s with inFlight := inFlight }
          (output.numScheduledTokens.map Prod.fst) :=
        hQueues.admitted (hInFlight ▸ List.mem_cons_self)
      have trivialRule : UpdateRule cfg hashing result output fun _ => True := by
        constructor <;> simp
      exact ⟨(update_rule trivialRule hPopped hAdmitted trivial).1.settleOutput hashing output,
        rule.update hQueues hInv hInFlight hPopped hAdmitted⟩
  | updateDraftTokenIds drafts =>
      cases hStep
      exact foldl_invariant (fun s => Queues cfg s [] ∧ Inv s)
        (fun s drafts _ h => ⟨h.1.setDrafts drafts, rule.drafts drafts h.1 h.2⟩) ⟨hQueues, hInv⟩
  | finishRequest id delayFree defer =>
      simp only [step, finishRequest] at hStep
      split at hStep
      · cases hStep
      rename_i hLive
      obtain ⟨hKnown, hUnfinished⟩ := not_or.mp hLive
      cases hStep
      exact ⟨hQueues.freeRequest hashing _ hKnown FreeMode.ofFinished_delayed,
        rule.free hQueues hInv hKnown hUnfinished FreeMode.ofFinished_delayed⟩
  | releaseDeferred =>
      simp only [step, releaseDeferred] at hStep
      split at hStep
      · cases hStep
      rename_i blocks rest hDeferred
      cases hStep
      exact ⟨hQueues.keep rfl rfl (fun _ => rfl) rfl rfl rfl rfl,
        rule.releaseDeferred hQueues hInv hDeferred⟩
  | freeDelayed id =>
      simp only [step, freeDelayed] at hStep
      split at hStep
      · rename_i hFinished
        cases hStep
        exact ⟨hQueues.freeDelayed hashing hFinished, rule.freeDelayed hQueues hInv hFinished⟩
      · cases hStep

end VllmRbln.Scheduler
