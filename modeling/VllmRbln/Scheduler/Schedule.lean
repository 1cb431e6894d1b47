import VllmRbln.Scheduler.State

/-! `RBLNScheduler.schedule` (`v1/core/rbln_scheduler.py`): the loop over the running
requests, the loop over the waiting ones, and what is done once the step is fixed.
A raised exception is `none`. Encoder inputs, LoRA and Mamba alignment are left out. -/
namespace VllmRbln.Scheduler

open SubBlock Run

variable {H X : Type} [DecidableEq H]

namespace Locals

def start (cfg : Config) (up : Upstream H) (s : State H) : Locals H where
  st := s
  reqIndex :=
    match s.running.getLast? with
    | some id => if (s.requests id).isPrefill then s.running.length - 1 else 0
    | none => 0
  scheduledNewReqs := []
  scheduledResumedReqs := []
  scheduledRunningReqs := []
  preemptedReqs := []
  reqToNewBlocks _ := Blocks.empty
  numScheduledTokens := []
  scheduledSpecDecodeTokens _ := []
  tokenBudget := if up.pausedAll then 0 else cfg.maxNumScheduledTokens
  admitted := 0
  stepSkippedWaiting := []
  subBlockMatch := none

/-! ### The running loop -/

/-- The request to preempt: the last one, or the first of the least urgent ones. -/
def victim (cfg : Config) (locals : Locals H) : Option ReqId :=
  if cfg.priorityPolicy then
    match locals.st.running with
    | [] => none
    | id :: ids => some (ids.foldl (fun worst other =>
        if State.Before locals.st.requests other worst then worst else other) id)
  else locals.st.running.getLast?

/-- Drop a request that this step had already scheduled. -/
def unschedule (locals : Locals H) (id : ReqId) : Option (Locals H) :=
  if locals.admitted = 0 then none
  else some { locals with
    scheduledRunningReqs := locals.scheduledRunningReqs.filter (· ≠ id)
    admitted := locals.admitted - 1
    tokenBudget := locals.tokenBudget + (locals.numScheduledTokens.lookup id).getD 0
    numScheduledTokens := locals.numScheduledTokens.filter (·.1 ≠ id)
    reqToNewBlocks := Function.update locals.reqToNewBlocks id Blocks.empty
    scheduledSpecDecodeTokens := Function.update locals.scheduledSpecDecodeTokens id []
    reqIndex := locals.reqIndex - 1 }

def preempt (cfg : Config) (hashing : Hashing H X) (up : Upstream H) (locals : Locals H)
    (id : ReqId) : Option (Locals H) := do
  let locals := { locals with
    st := { locals.st with running := locals.st.running.filter (· ≠ id) } }
  let locals ← if cfg.priorityPolicy ∧ id ∈ locals.scheduledRunningReqs then
    locals.unschedule id else some locals
  return { locals with
    st := locals.st.preemptRequest cfg hashing (.ofPreempted cfg (up.deferFree id)) id
    preemptedReqs := locals.preemptedReqs ++ [id] }

/-- Allocate slots for a running request, preempting until they fit. The request
itself may be the last victim: then there are no blocks. -/
def allocateOrPreempt (cfg : Config) (hashing : Hashing H X) (up : Upstream H) (id : ReqId)
    (numNewTokens : Nat) : Nat → Locals H → Option (Locals H × Option Blocks)
  | 0, _ => none
  | fuel + 1, locals =>
      match locals.st.kv.allocateSlots cfg id ((locals.st.requests id).numComputedTokens +
          numNewTokens + cfg.numLookaheadTokens) none Blocks.empty up.freeQueue with
      | some (kv, newBlocks) =>
          some ({ locals with st := { locals.st with kv := kv } }, some newBlocks)
      | none => do
          let worst ← locals.victim cfg
          let locals ← locals.preempt cfg hashing up worst
          if worst = id then return (locals, none)
          else allocateOrPreempt cfg hashing up id numNewTokens fuel locals

def scheduleRunning (locals : Locals H) (id : ReqId) (numNewTokens : Nat) (newBlocks : Blocks) :
    Locals H :=
  let request := locals.st.requests id
  { locals with
    st := locals.st.modifyRequest id fun request => { request with specTokenIds := [] }
    reqIndex := locals.reqIndex + 1
    scheduledRunningReqs := locals.scheduledRunningReqs ++ [id]
    reqToNewBlocks := Function.update locals.reqToNewBlocks id newBlocks
    numScheduledTokens := locals.numScheduledTokens ++ [(id, numNewTokens)]
    scheduledSpecDecodeTokens := Function.update locals.scheduledSpecDecodeTokens id
      (request.scheduledDrafts numNewTokens)
    tokenBudget := locals.tokenBudget - numNewTokens
    admitted := locals.admitted + 1 }

/-- One round of the running loop. A negative token count is refused later on, when
the step's output is processed; it is refused here. -/
def runningRound (cfg : Config) (hashing : Hashing H X) (up : Upstream H)
    (budget : DecodeBatchBudget) (locals : Locals H) : Option (Next (Locals H)) :=
  match locals.st.running[locals.reqIndex]? with
  | none => some (.stop locals)
  | some id =>
      if locals.tokenBudget = 0 then some (.stop locals)
      else
        let request := locals.st.requests id
        let numNewTokens := request.runningTokens cfg locals.tokenBudget
        if request.reachesMaxTokens ∨
            shouldDeferSpecStep cfg.numSpecTokens request.specTokenIds request.runningDemand ∨
            numNewTokens = 0 then
          some (.more { locals with reqIndex := locals.reqIndex + 1 })
        else if numNewTokens < 0 then none
        else
          match allocateOrPreempt cfg hashing up id numNewTokens.toNat
              (locals.st.running.length + 1) locals with
          | none => none
          | some (locals, none) => some (.stop locals)
          | some (locals, some newBlocks) =>
              let locals := locals.scheduleRunning id numNewTokens.toNat newBlocks
              if budget.canAdmit locals.admitted true then some (.more locals)
              else some (.stop locals)

/-! ### The waiting loop -/

/-- Leave the request for a later step. -/
def skipRequest (cfg : Config) (locals : Locals H) (id : ReqId) : Locals H :=
  { locals with
    st := locals.st.popWaiting id
    stepSkippedWaiting :=
      locals.st.prependRequest cfg locals.stepSkippedWaiting id }

/-- `_try_promote_blocked_waiting_request` once it succeeds. A remote load that brought
nothing gives the blocks back; otherwise the loaded tokens are cached. -/
def promoteRequest (cfg : Config) (hashing : Hashing H X) (locals : Locals H) (id : ReqId)
    (numLoadedTokens : Nat) : Locals H :=
  let request := locals.st.requests id
  if request.status = .waitingForRemoteKvs then
    let numComputedTokens := min numLoadedTokens request.numComputedTokens
    let st := locals.st.modifyRequest id fun _ =>
      { request with
        status := request.readyStatus
        numComputedTokens := min numComputedTokens (request.numTokens - 1) }
    if numComputedTokens = 0 then
      { locals with st := st.freeRequestBlocks cfg hashing .now id }
    else
      { locals with
        st := { st with kv := st.kv.cacheBlocks cfg hashing id request numComputedTokens } }
  else
    { locals with
      st := locals.st.modifyRequest id fun _ => { request with status := request.readyStatus } }

/-- What the waiting loop found out about a request's cached tokens. -/
structure Computed where
  hits : Blocks
  numLocal : Nat
  numSubBlock : Nat
  numExternal : Nat
  loadKvAsync : Bool
  numComputedTokens : Nat

/-- `_try_sub_block_match`: the match is kept when it covers at least what the
connector has, and released otherwise. -/
def trySubBlockMatch (cfg : Config) (hashing : Hashing H X) (up : Upstream H)
    (locals : Locals H) (id : ReqId) (numLocal numExternal : Nat) : Locals H :=
  match cfg.subBlockSize with
  | none => locals
  | some subBlockSize =>
      match locals.st.kv.getComputedBlocksSubBlock cfg hashing subBlockSize up.choose id
          (locals.st.requests id) numLocal with
      | (kv, none) => { locals with st := { locals.st with kv := kv } }
      | (kv, some found) =>
          let st := { locals.st with kv := kv, pins := locals.st.pins ++ found.srcBlocks }
          if numExternal ≤ found.numTokens then
            { locals with st := st, subBlockMatch := some found }
          else
            { locals with
              st := { st with
                kv := kv.releaseSubBlockMatch found
                unpins := st.unpins ++ found.srcBlocks } }

/-- The already computed tokens of a waiting request: local full blocks, then the
connector against a partial match. `none` inside means that the connector cannot say
yet. -/
def findComputed (cfg : Config) (hashing : Hashing H X) (up : Upstream H) (locals : Locals H)
    (id : ReqId) : Option (Locals H × Option Computed) :=
  let request := locals.st.requests id
  if request.numComputedTokens ≠ 0 then
    some (locals, some ⟨Blocks.empty, 0, 0, 0, false, request.numComputedTokens⟩)
  else
    let (hits, numLocal) := locals.st.kv.getComputedBlocks cfg hashing id request
      (up.foundBlocks locals.st.kv id)
    match if cfg.hasConnector then up.connectorMatch id request numLocal else some (0, false) with
    | none => some (locals, none)
    | some (numExternal, loadKvAsync) =>
        let locals := if cfg.hasConnector ∧ request.status = .preempted then locals
          else locals.trySubBlockMatch cfg hashing up id numLocal numExternal
        let numSubBlock := (locals.subBlockMatch.map (·.numTokens)).getD 0
        let wins := decide (0 < numSubBlock ∧ 0 < numExternal)
        let numExternal := if wins then 0 else numExternal
        let numComputedTokens := numLocal + numSubBlock + numExternal
        if request.numTokens < numComputedTokens then none
        else some (locals,
          some ⟨hits, numLocal, numSubBlock, numExternal, loadKvAsync && !wins, numComputedTokens⟩)

/-- Allocate slots for a waiting request, the whole sequence must fit, and turn its
partial match into copy operations. -/
def allocateWaiting (cfg : Config) (up : Upstream H) (locals : Locals H) (id : ReqId)
    (found : Computed) (numNewTokens : Nat) : Option (Option (Locals H)) :=
  let request := locals.st.requests id
  let lookahead := if found.loadKvAsync ∧ cfg.useEagle then 0 else cfg.numLookaheadTokens
  match locals.st.kv.allocateSlots cfg id (found.numComputedTokens + numNewTokens + lookahead)
      (some request.numTokens) found.hits up.freeQueue with
  | none => some none
  | some (kv, _) =>
      match locals.subBlockMatch with
      | none => some (some { locals with st := { locals.st with kv := kv } })
      | some subBlockMatch =>
          match kv.applySubBlockMatch subBlockMatch with
          | none => none
          | some kv => some (some { locals with
              st := { locals.st with kv := kv }
              subBlockMatch := none })

/-- The request waits for its remote KV. -/
def awaitRemoteKv (cfg : Config) (locals : Locals H) (id : ReqId) (numComputedTokens : Nat) :
    Locals H :=
  let st := (locals.st.popWaiting id).modifyRequest id fun request =>
    { request with status := .waitingForRemoteKvs, numComputedTokens := numComputedTokens }
  { locals with
    st := st
    stepSkippedWaiting := st.prependRequest cfg locals.stepSkippedWaiting id }

/-- Put a waiting request on the running queue and in the step. -/
def admitWaiting (locals : Locals H) (id : ReqId) (numComputedTokens numNewTokens : Nat) :
    Locals H :=
  let resumed := decide ((locals.st.requests id).status = .preempted)
  let inFlight := locals.st.inFlight.any fun output => (output.numScheduledTokens.lookup id).isSome
  let st := (locals.st.popWaiting id).modifyRequest id fun request =>
    { request with status := .running, numComputedTokens := numComputedTokens }
  { locals with
    st := { st with
      running := st.running ++ [id]
      staleAdmissions := if inFlight then st.staleAdmissions ++ [id] else st.staleAdmissions }
    scheduledNewReqs := if resumed then locals.scheduledNewReqs else locals.scheduledNewReqs ++ [id]
    scheduledResumedReqs :=
      if resumed then locals.scheduledResumedReqs ++ [id] else locals.scheduledResumedReqs
    reqToNewBlocks := Function.update locals.reqToNewBlocks id (st.kv.reqToBlocks id)
    numScheduledTokens := locals.numScheduledTokens ++ [(id, numNewTokens)]
    tokenBudget := locals.tokenBudget - numNewTokens }

/-- One request of the decode batch that a prefill pushes out. -/
def evictScheduled (cfg : Config) (locals : Locals H) (id : ReqId) : Locals H :=
  let st := locals.st.modifyRequest id fun request =>
    { request with specTokenIds := locals.scheduledSpecDecodeTokens id }
  { locals with
    st := st.addPendingRunnerBlockDelta cfg id (locals.reqToNewBlocks id)
    reqToNewBlocks := Function.update locals.reqToNewBlocks id Blocks.empty
    numScheduledTokens := locals.numScheduledTokens.filter (·.1 ≠ id)
    scheduledSpecDecodeTokens := Function.update locals.scheduledSpecDecodeTokens id [] }

/-- No mixed batching: the prefill just admitted runs alone. -/
def evictDecodes (cfg : Config) (locals : Locals H) : Locals H :=
  let locals := locals.scheduledRunningReqs.foldl (evictScheduled cfg) locals
  { locals with
    scheduledRunningReqs := []
    admitted := 0
    tokenBudget := cfg.maxNumScheduledTokens }

/-- Admit a request whose slots are allocated: a decode-ready one joins the batch, a
prefill takes the step for itself. -/
def joinStep (cfg : Config) (locals : Locals H) (id : ReqId) (numComputedTokens numNewTokens : Nat) :
    Option (Next (Locals H)) :=
  let status := (locals.st.requests id).status
  if status ≠ .waiting ∧ status ≠ .preempted then none
  else
    let locals := locals.admitWaiting id numComputedTokens numNewTokens
    if (locals.st.requests id).isPrefill then some (.stop (locals.evictDecodes cfg))
    else if numNewTokens ≠ 1 then none
    else some (.more { locals with admitted := locals.admitted + 1 })

/-- The part of a round after the cached tokens are known. -/
def tryAdmit (cfg : Config) (up : Upstream H) (locals : Locals H) (id : ReqId)
    (found : Computed) : Option (Next (Locals H)) :=
  if found.loadKvAsync then
    if found.numExternal = 0 then none
    else
      match locals.allocateWaiting cfg up id found 0 with
      | none => none
      | some none => some (.stop locals)
      | some (some locals) => some (.more (locals.awaitRemoteKv cfg id found.numComputedTokens))
  else
    let request := locals.st.requests id
    let numNewTokens := request.waitingTokens cfg found.numComputedTokens
    if numNewTokens = 0 then none
    else if request.isPrefill ∧
        (locals.scheduledNewReqs ≠ [] ∨ locals.scheduledResumedReqs ≠ []) then
      some (.stop locals)
    else
      match locals.allocateWaiting cfg up id found numNewTokens with
      | none => none
      | some none => some (.stop locals)
      | some (some locals) => locals.joinStep cfg id found.numComputedTokens numNewTokens

/-- The head of the queue that is looked at next. -/
def peekWaiting (up : Upstream H) (locals : Locals H) : Option ReqId :=
  if up.selectSkipped locals.st ∨ locals.st.waiting = [] then
    (locals.st.skippedWaiting ++ locals.st.waiting).head?
  else locals.st.waiting.head?

/-- One round of the waiting loop. -/
def waitingRound (cfg : Config) (hashing : Hashing H X) (up : Upstream H)
    (budget : DecodeBatchBudget) (locals : Locals H) : Option (Next (Locals H)) :=
  match locals.peekWaiting up with
  | none => some (.stop locals)
  | some id =>
      let request := locals.st.requests id
      if locals.tokenBudget = 0 ∨ locals.st.running.length = cfg.maxNumRunningReqs ∨
          ¬ budget.canAdmit locals.admitted (request.status = .waitingForRemoteKvs) then
        some (.stop locals)
      else
        let promoted := if request.isBlocked then
          (up.promote id request).map (locals.promoteRequest cfg hashing id) else some locals
        match promoted with
        | none => some (.more (locals.skipRequest cfg id))
        | some locals =>
            match { locals with subBlockMatch := none }.findComputed cfg hashing up id with
            | none => none
            | some (locals, none) => some (.more (locals.skipRequest cfg id))
            | some (locals, some found) => locals.tryAdmit cfg up id found

/-- Release a match that a break path left, and put the skipped requests back. -/
def leaveWaitingLoop (cfg : Config) (locals : Locals H) : Locals H :=
  let st := match locals.subBlockMatch with
    | none => locals.st
    | some subBlockMatch => { locals.st with
        kv := locals.st.kv.releaseSubBlockMatch subBlockMatch
        unpins := locals.st.unpins ++ subBlockMatch.srcBlocks }
  { locals with
    st := { st with
      skippedWaiting := locals.stepSkippedWaiting.foldl (st.prependRequest cfg)
        st.skippedWaiting }
    stepSkippedWaiting := []
    subBlockMatch := none }

/-- The waiting loop runs unless a request was preempted, scheduling is paused, or a
running prefill has the step. -/
def scheduleWaiting (cfg : Config) (hashing : Hashing H X) (up : Upstream H)
    (budget : DecodeBatchBudget) (locals : Locals H) : Option (Locals H) :=
  let runningPrefill : Bool := match locals.scheduledRunningReqs with
    | [] => false
    | id :: _ => (locals.st.requests id).isPrefill
  if locals.preemptedReqs ≠ [] ∨ up.pausedAll ∨ up.pausedNew ∨ runningPrefill then some locals
  else
    (loop (waitingRound cfg hashing up budget)
      (locals.st.waiting.length + locals.st.skippedWaiting.length + 1) locals).map
        (leaveWaitingLoop cfg)

end Locals

/-! ### The fixed step -/

/-- Cache the blocks of a scheduled request, up to its own tokens, and note it for
indexing. -/
def cacheScheduled (cfg : Config) (hashing : Hashing H X) (requests : ReqId → Request)
    (numScheduledTokens : List (ReqId × Nat)) (kv : Manager H) (id : ReqId) : Manager H :=
  let request := requests id
  let kv := kv.cacheBlocks cfg hashing id request
    (min (request.numComputedTokens + (numScheduledTokens.lookup id).getD 0) request.numTokens)
  match cfg.subBlockSize with
  | some _ => kv.scheduleSubBlockIndexing cfg id request
  | none => kv

/-- Advance a scheduled request (`_update_after_schedule`). -/
def advanceRequest (cfg : Config) (numNewTokens : Nat) (drafts : List Token) (request : Request) :
    Request :=
  let numComputedTokens := request.numComputedTokens + numNewTokens
  let chunk := decide (numComputedTokens < request.numTokens + request.numOutputPlaceholders)
  let request := { request with numComputedTokens := numComputedTokens, isPrefillChunk := chunk }
  if cfg.asyncScheduling ∧ ¬ chunk then
    { request with
      numOutputPlaceholders := request.numOutputPlaceholders + 1 + drafts.length
      specTokenIds := List.replicate cfg.numSpecTokens (-1) }
  else request

/-- Write `value` in a slot. -/
def writeSlot (slots : BlockId → Nat → Option (List Token))
    (write : BlockId × Nat × Option (List Token)) : BlockId → Nat → Option (List Token) :=
  fun b t => if b = write.1 ∧ t = write.2.1 then write.2.2 else slots b t

/-- `_process_kv_cache_copy_ops` for one operation. -/
def copySlots (slots : BlockId → Nat → Option (List Token)) (op : KVCacheCopyOp) :
    BlockId → Nat → Option (List Token) :=
  fun b t => if b = op.dstBlockId ∧ t < op.numTokens then slots op.srcBlockId t else slots b t

/-- The slots the forward pass fills for a request: position `p` gets the KV of the
first `p + 1` tokens. -/
def forwardWrites (cfg : Config) (blocks : Blocks) (request : Request) (numNewTokens : Nat) :
    List (BlockId × Nat × Option (List Token)) :=
  (List.range cfg.numGroups).flatMap fun group =>
    (List.range numNewTokens).filterMap fun offset =>
      let position := request.numComputedTokens + offset
      ((blocks group)[position / cfg.blockSize group]?).map fun block =>
        (block, position % cfg.blockSize group, some (request.allTokenIds.take (position + 1)))

/-- `_update_states`, the block tables. -/
def updateRunner (output : SchedulerOutput) (runnerBlocks : ReqId → Option Blocks) :
    ReqId → Option Blocks :=
  let runner : ReqId → Option Blocks :=
    output.finishedReqIds.foldl (fun runner id => Function.update runner id none) runnerBlocks
  let runner : ReqId → Option Blocks := output.scheduledNewReqs.foldl
    (fun runner new => Function.update runner new.1 (some new.2)) runner
  output.scheduledCachedReqs.foldl (fun runner cached =>
    if cached.1 ∈ output.resumedReqIds then Function.update runner cached.1 (some cached.2)
    else Function.update runner cached.1
      ((runner cached.1).map fun blocks group => blocks group ++ cached.2 group)) runner

namespace Locals

def scheduledReqs (locals : Locals H) : List ReqId :=
  locals.scheduledRunningReqs ++ locals.scheduledNewReqs ++ locals.scheduledResumedReqs

/-- The blocks sent for a request: a running one also gets what is pending. -/
def sentBlocks (locals : Locals H) (id : ReqId) : Blocks :=
  if id ∈ locals.scheduledRunningReqs then
    fun group => ((locals.st.pendingRunnerBlockDeltas id).getD Blocks.empty) group ++
      locals.reqToNewBlocks id group
  else locals.reqToNewBlocks id

def output (locals : Locals H) : SchedulerOutput where
  scheduledNewReqs := locals.scheduledNewReqs.map fun id => (id, locals.sentBlocks id)
  scheduledCachedReqs := (locals.scheduledRunningReqs ++ locals.scheduledResumedReqs).map
    fun id => (id, locals.sentBlocks id)
  resumedReqIds := locals.scheduledResumedReqs
  numScheduledTokens := locals.numScheduledTokens
  scheduledSpecDecodeTokens := locals.scheduledSpecDecodeTokens
  numComputedTokens id := (locals.st.requests id).numComputedTokens
  samples id :=
    let request := locals.st.requests id
    request.numTokens + request.numOutputPlaceholders ≤
      request.numComputedTokens + (locals.numScheduledTokens.lookup id).getD 0
  preemptedReqIds := locals.preemptedReqs
  finishedReqIds := locals.st.finishedReqIds
  kvCacheCopyOps := locals.st.kv.pendingCopyOps

/-- The assertions on the finished step. -/
def consistent (cfg : Config) (locals : Locals H) : Bool :=
  (locals.numScheduledTokens.map Prod.snd).sum ≤ cfg.maxNumScheduledTokens ∧
    locals.st.running.length ≤ cfg.maxNumRunningReqs ∧
    locals.scheduledReqs.length ≤ locals.st.running.length

/-- The device after the step: copy operations first, then the forward pass. -/
def executedSlots (cfg : Config) (locals : Locals H) : BlockId → Nat → Option (List Token) :=
  let slots := locals.st.kv.pendingCopyOps.foldl copySlots locals.st.slots
  let writes := locals.numScheduledTokens.flatMap fun row =>
    forwardWrites cfg (locals.st.kv.reqToBlocks row.1) (locals.st.requests row.1) row.2
  writes.foldl writeSlot slots

/-- Everything after the two loops. -/
def finish (cfg : Config) (hashing : Hashing H X) (locals : Locals H) : State H :=
  let kv := locals.scheduledReqs.foldl
    (cacheScheduled cfg hashing locals.st.requests locals.numScheduledTokens) locals.st.kv
  { locals.st with
    kv := kv.drainPendingCopyOps
    pendingRunnerBlockDeltas := fun id =>
      if id ∈ locals.scheduledRunningReqs then none else locals.st.pendingRunnerBlockDeltas id
    requests := fun id =>
      match locals.numScheduledTokens.lookup id with
      | some numNewTokens => advanceRequest cfg numNewTokens
          (locals.scheduledSpecDecodeTokens id) (locals.st.requests id)
      | none => locals.st.requests id
    finishedReqIds := []
    inFlight := locals.st.inFlight ++ [locals.output]
    runnerBlocks := updateRunner locals.output locals.st.runnerBlocks
    slots := locals.executedSlots cfg }

/-- The two loops. -/
def loops (cfg : Config) (hashing : Hashing H X) (up : Upstream H) (s : State H) :
    Option (Locals H) :=
  let budget := DecodeBatchBudget.forStep cfg (s.decodeDemand up.numReadyRemoteKv)
  if budget.hardCap = 0 then none
  else
    (loop (runningRound cfg hashing up budget) (s.running.length + 1) (start cfg up s)).bind
      (scheduleWaiting cfg hashing up budget)

end Locals

/-- `schedule()`; the output is the last one in flight of the new state. -/
def schedule (cfg : Config) (hashing : Hashing H X) (up : Upstream H) (s : State H) :
    Option (State H) :=
  (Locals.loops cfg hashing up s).bind fun locals =>
    if locals.consistent cfg then some (locals.finish cfg hashing) else none

end VllmRbln.Scheduler
