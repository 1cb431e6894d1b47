import VllmRbln.SubBlock.Manager
import Mathlib.Data.List.Sort

/-! The scheduler's state between two calls, together with what the model runner
keeps of the outputs it was sent: a block table per request and, per block slot,
the token sequence whose KV it holds. -/
namespace VllmRbln.Scheduler

open SubBlock

structure SchedulerOutput where
  scheduledNewReqs : List (ReqId × Blocks)
  scheduledCachedReqs : List (ReqId × Blocks)
  resumedReqIds : List ReqId
  numScheduledTokens : List (ReqId × Nat)
  scheduledSpecDecodeTokens : ReqId → List Token
  numComputedTokens : ReqId → Nat
  /-- Whether the runner samples for the request: not on an unfinished chunk. -/
  samples : ReqId → Bool
  preemptedReqIds : List ReqId
  finishedReqIds : List ReqId
  kvCacheCopyOps : List KVCacheCopyOp

/-- A request whose blocks leave the manager, with the manager just before. -/
structure Release (H : Type) where
  kv : Manager H
  id : ReqId
  request : Request

/-- `ids` lists every request the scheduler was given. The last four fields record
events: blocks leaving the manager, admissions of a request that still has a step in
flight, and source blocks pinned and unpinned by partial matches. -/
structure State (H : Type) where
  requests : ReqId → Request
  ids : List ReqId
  running : List ReqId
  waiting : List ReqId
  skippedWaiting : List ReqId
  kv : Manager H
  pendingRunnerBlockDeltas : ReqId → Option Blocks
  finishedReqIds : List ReqId
  inFlight : List SchedulerOutput
  deferredFrees : List (List BlockId)
  runnerBlocks : ReqId → Option Blocks
  slots : BlockId → Nat → Option (List Token)
  releases : List (Release H)
  staleAdmissions : List ReqId
  pins : List BlockId
  unpins : List BlockId

/-- When the blocks of a request go back to the pool: at once, when the steps in flight
are done with them, or when a connector is. -/
inductive FreeMode
  | now
  | deferred
  | delayed
  deriving DecidableEq, Repr

/-- A preempted or a finished request; only the latter may wait for a connector. -/
def FreeMode.ofPreempted (cfg : Config) (defer : Bool) : FreeMode :=
  if cfg.deferBlockFree ∧ defer then .deferred else .now

def FreeMode.ofFinished (cfg : Config) (delayFree defer : Bool) : FreeMode :=
  if cfg.hasConnector ∧ delayFree then .delayed else FreeMode.ofPreempted cfg defer

/-- Answers of the code outside this repository during one `schedule()` call. Every
answer is checked where it is used, so an impossible one is a refusal. -/
structure Upstream (H : Type) where
  pausedAll : Bool
  pausedNew : Bool
  numReadyRemoteKv : Nat
  freeQueue : Manager H → List BlockId
  foundBlocks : Manager H → ReqId → Blocks × Nat
  choose : List BlockId → Nat
  selectSkipped : State H → Bool
  /-- Tokens whose KV arrived, for a blocked request that may go on. -/
  promote : ReqId → Request → Option Nat
  /-- Tokens the connector has past the local ones, and whether it loads them
  asynchronously. -/
  connectorMatch : ReqId → Request → Nat → Option (Nat × Bool)
  deferFree : ReqId → Bool

namespace State

variable {H X : Type} [DecidableEq H]

def initial : State H where
  requests _ := Request.unknown
  ids := []
  running := []
  waiting := []
  skippedWaiting := []
  kv := Manager.initial
  pendingRunnerBlockDeltas _ := none
  finishedReqIds := []
  inFlight := []
  deferredFrees := []
  runnerBlocks _ := none
  slots _ _ := none
  releases := []
  staleAdmissions := []
  pins := []
  unpins := []

def modifyRequest (s : State H) (id : ReqId) (change : Request → Request) : State H :=
  { s with requests := Function.update s.requests id (change (s.requests id)) }

/-! ### Waiting queues -/

/-- The order of the priority queue. -/
def Before (requests : ReqId → Request) (a b : ReqId) : Prop :=
  (requests a).priority < (requests b).priority ∨
    (requests a).priority = (requests b).priority ∧
      (requests a).arrivalTime ≤ (requests b).arrivalTime

instance (requests : ReqId → Request) : DecidableRel (Before requests) :=
  fun _ _ => inferInstanceAs (Decidable (_ ∨ _))

def prependRequest (cfg : Config) (s : State H) (queue : List ReqId) (id : ReqId) : List ReqId :=
  if cfg.priorityPolicy then queue.orderedInsert (Before s.requests) id else id :: queue

def addToQueue (cfg : Config) (s : State H) (queue : List ReqId) (id : ReqId) : List ReqId :=
  if cfg.priorityPolicy then queue.orderedInsert (Before s.requests) id else queue ++ [id]

/-- Take the request off whichever waiting queue has it. -/
def popWaiting (s : State H) (id : ReqId) : State H :=
  { s with
    waiting := s.waiting.filter (· ≠ id)
    skippedWaiting := s.skippedWaiting.filter (· ≠ id) }

/-! ### Giving blocks back -/

/-- `_free_request_blocks`: return the blocks to the pool, or hold them until the
steps in flight are done with them. -/
def freeRequestBlocks (cfg : Config) (hashing : Hashing H X) (mode : FreeMode) (s : State H)
    (id : ReqId) : State H :=
  { s with
    kv := match mode with
      | .now => s.kv.free cfg hashing id (s.requests id)
      | .deferred => (s.kv.popBlocksForFree cfg hashing id (s.requests id)).1
      | .delayed => s.kv
    deferredFrees := match mode with
      | .deferred =>
          s.deferredFrees ++ [(s.kv.popBlocksForFree cfg hashing id (s.requests id)).2]
      | .now | .delayed => s.deferredFrees
    releases := match mode with
      | .now | .deferred => s.releases ++ [⟨s.kv, id, s.requests id⟩]
      | .delayed => s.releases }

/-- `_preempt_request`: the blocks go, the request waits again from its first token. -/
def preemptRequest (cfg : Config) (hashing : Hashing H X) (mode : FreeMode) (s : State H)
    (id : ReqId) : State H :=
  let s := (s.freeRequestBlocks cfg hashing mode id).modifyRequest id fun request =>
    { request with
      status := .preempted
      numComputedTokens := 0
      specTokenIds := []
      numPreemptions := request.numPreemptions + 1 }
  { s with
    pendingRunnerBlockDeltas := Function.update s.pendingRunnerBlockDeltas id none
    waiting := prependRequest cfg s s.waiting id }

/-- `_free_request`, for a request that is finished or aborted. -/
def freeRequest (cfg : Config) (hashing : Hashing H X) (mode : FreeMode) (s : State H)
    (id : ReqId) : State H :=
  let s := ((s.popWaiting id).freeRequestBlocks cfg hashing mode id).modifyRequest id
    fun request => { request with status := .finished }
  { s with
    running := s.running.filter (· ≠ id)
    pendingRunnerBlockDeltas := Function.update s.pendingRunnerBlockDeltas id none
    finishedReqIds := s.finishedReqIds ++ [id] }

/-! ### Block deltas the runner has not seen -/

/-- `_add_pending_runner_block_delta`. -/
def addPendingRunnerBlockDelta (cfg : Config) (s : State H) (id : ReqId) (blockDelta : Blocks) :
    State H :=
  if ∀ group ∈ List.range cfg.numGroups, blockDelta group = [] then s
  else { s with
    pendingRunnerBlockDeltas := Function.update s.pendingRunnerBlockDeltas id
      (some fun group => (s.pendingRunnerBlockDeltas id).getD Blocks.empty group ++
        blockDelta group) }

/-- Running decodes plus remote-KV requests that are ready. -/
def decodeDemand (s : State H) (numReadyRemoteKv : Nat) : Nat :=
  s.running.countP (fun id => ¬ (s.requests id).isPrefill) + numReadyRemoteKv

end State

/-- The local variables of one `schedule()` call. -/
structure Locals (H : Type) where
  st : State H
  reqIndex : Nat
  scheduledNewReqs : List ReqId
  scheduledResumedReqs : List ReqId
  scheduledRunningReqs : List ReqId
  preemptedReqs : List ReqId
  reqToNewBlocks : ReqId → Blocks
  numScheduledTokens : List (ReqId × Nat)
  scheduledSpecDecodeTokens : ReqId → List Token
  tokenBudget : Nat
  /-- The count of the decode budget. -/
  admitted : Nat
  stepSkippedWaiting : List ReqId
  subBlockMatch : Option SubBlockMatch

end VllmRbln.Scheduler
