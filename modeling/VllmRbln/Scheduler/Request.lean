import VllmRbln.SubBlock.Index

/-! Requests, the configuration of the engine, and the helpers of
`v1/core/utils.py` that read them: the two views of a step's phase and the decode
budget of one step. -/
namespace VllmRbln.Scheduler

open SubBlock

abbrev ReqId := Nat
abbrev Token := Int

/-- Block ids of a request, per KV group. -/
abbrev Blocks := Nat → List BlockId

def Blocks.empty : Blocks := fun _ => []

/-- The statuses of a request; `unknown` stands for an id no request has had. -/
inductive RequestStatus
  | unknown
  | waiting
  | waitingForRemoteKvs
  | waitingForStructuredOutput
  | running
  | preempted
  | finished
  deriving DecidableEq, Repr

structure Request where
  status : RequestStatus
  allTokenIds : List Token
  numPromptTokens : Nat
  maxTokens : Nat
  priority : Int
  arrivalTime : Nat
  skipReadingPrefixCache : Bool
  numComputedTokens : Nat
  specTokenIds : List Token
  numOutputPlaceholders : Nat
  isPrefillChunk : Bool
  numPreemptions : Nat
  deriving DecidableEq, Repr

namespace Request

def unknown : Request where
  status := .unknown
  allTokenIds := []
  numPromptTokens := 0
  maxTokens := 0
  priority := 0
  arrivalTime := 0
  skipReadingPrefixCache := false
  numComputedTokens := 0
  specTokenIds := []
  numOutputPlaceholders := 0
  isPrefillChunk := false
  numPreemptions := 0

def numTokens (request : Request) : Nat := request.allTokenIds.length

def numTokensWithSpec (request : Request) : Nat :=
  request.numTokens + request.specTokenIds.length

/-- Two or more tokens are left to compute. -/
def isPrefill (request : Request) : Bool :=
  request.numComputedTokens < request.numTokens - 1

/-- `_is_blocked_waiting_status`. -/
def isBlocked (request : Request) : Bool :=
  request.status = .waitingForRemoteKvs ∨ request.status = .waitingForStructuredOutput

/-- The status of a blocked request that may go on. -/
def readyStatus (request : Request) : RequestStatus :=
  if request.numPreemptions > 0 then .preempted else .waiting

end Request

/-- What `schedule()` reads of the configuration. A group is of full attention, or of
`RBLNSlidingWindowManager`, with one block a request. `subBlockSize` is `none` when the
scheduler stays on the plain `KVCacheManager`; a size it has is one that
`can_use_sub_block_caching` accepts. -/
structure Config where
  blockSizes : List Nat
  slidingWindow : Nat → Bool
  subBlockSize : Option Nat
  numBlocks : Nat
  maxNumRunningReqs : Nat
  pipelineParallelSize : Nat
  maxNumScheduledTokens : Nat
  longPrefillTokenThreshold : Nat
  maxModelLen : Nat
  numSpecTokens : Nat
  numLookaheadTokens : Nat
  useEagle : Bool
  asyncScheduling : Bool
  priorityPolicy : Bool
  hasConnector : Bool
  deferBlockFree : Bool
  maxConcurrentBatches : Nat
  blockSizes_pos : ∀ blockSize ∈ blockSizes, 0 < blockSize
  subBlockSize_fits : ∀ subBlockSize' ∈ subBlockSize, 0 < subBlockSize' ∧
    (∀ blockSize ∈ blockSizes, subBlockSize' < blockSize ∧ blockSize % subBlockSize' = 0) ∧
    ∀ group, slidingWindow group = false

namespace Config

variable (cfg : Config)

def numGroups : Nat := cfg.blockSizes.length

/-- Tokens a block of the group holds; 1 past the last group, which nothing reads. -/
def blockSize (group : Nat) : Nat := cfg.blockSizes.getD group 1

theorem blockSize_pos (group : Nat) : 0 < cfg.blockSize group := by
  unfold blockSize
  by_cases hLt : group < cfg.blockSizes.length
  · simpa [List.getD, hLt] using cfg.blockSizes_pos _ (List.getElem_mem hLt)
  · simp [List.getD, List.getElem?_eq_none (Nat.le_of_not_lt hLt)]

theorem blockSize_mem {group : Nat} (hLt : group < cfg.numGroups) :
    cfg.blockSize group ∈ cfg.blockSizes := by
  have hLt' : group < cfg.blockSizes.length := hLt
  simp [blockSize, List.getD, hLt']

end Config

/-! ### The runner's view of a step -/

/-- Non-draft tokens scheduled for a request. -/
def numBaseTokens (numScheduledTokens : List (ReqId × Nat))
    (scheduledSpecDecodeTokens : ReqId → List Token) (id : ReqId) : Int :=
  ((numScheduledTokens.lookup id).getD 0 : Nat) - (scheduledSpecDecodeTokens id).length

/-- Some request of the step computes two or more non-draft tokens. -/
def stepIsPrefill (numScheduledTokens : List (ReqId × Nat))
    (scheduledSpecDecodeTokens : ReqId → List Token) : Bool :=
  numScheduledTokens.any fun row =>
    1 < numBaseTokens numScheduledTokens scheduledSpecDecodeTokens row.1

/-- Whether the running loop must pass over a speculative step that has no base
token yet. -/
def shouldDeferSpecStep (numSpecTokens : Nat) (specTokenIds : List Token)
    (numNewTokens : Int) : Bool :=
  if numSpecTokens = 0 then false
  else if specTokenIds ≠ [] then numNewTokens - specTokenIds.length ≤ 0
  else numNewTokens < 0

/-! ### The decode budget of a step -/

/-- The two caps of `DecodeBatchBudget`; the count travels with the step. -/
structure DecodeBatchBudget where
  hardCap : Nat
  softCap : Nat

def DecodeBatchBudget.forStep (cfg : Config) (demand : Nat) : DecodeBatchBudget where
  hardCap := cfg.maxNumRunningReqs / cfg.pipelineParallelSize
  softCap := max 1 ((demand + cfg.pipelineParallelSize - 1) / cfg.pipelineParallelSize)

def DecodeBatchBudget.canAdmit (budget : DecodeBatchBudget) (count : Nat)
    (applySoftCap : Bool) : Bool :=
  count < budget.hardCap ∧ ¬ (applySoftCap ∧ budget.softCap ≤ count)

/-! ### Token counts of the two loops -/

/-- The running loop's test that the steps in flight already reach `max_tokens`. -/
def Request.reachesMaxTokens (request : Request) : Bool :=
  0 < request.numOutputPlaceholders ∧ request.numPromptTokens + request.maxTokens +
    request.numOutputPlaceholders ≤ request.numComputedTokens + 2

/-- Tokens a running request still has to compute, drafts and placeholders included. -/
def Request.runningDemand (request : Request) : Int :=
  request.numTokensWithSpec + request.numOutputPlaceholders - request.numComputedTokens

/-- The running loop's clamps, in the order the source applies them. -/
def Request.runningTokens (cfg : Config) (tokenBudget : Nat) (request : Request) : Int :=
  let n := request.runningDemand
  let n := if 0 < cfg.longPrefillTokenThreshold ∧ cfg.longPrefillTokenThreshold < n then
    (cfg.longPrefillTokenThreshold : Int) else n
  min (min n tokenBudget) ((cfg.maxModelLen : Int) - 1 - request.numComputedTokens)

/-- The waiting loop's clamps. -/
def Request.waitingTokens (cfg : Config) (numComputedTokens : Nat) (request : Request) : Nat :=
  let n := request.numTokens - numComputedTokens
  let n := if 0 < cfg.longPrefillTokenThreshold ∧ cfg.longPrefillTokenThreshold < n then
    cfg.longPrefillTokenThreshold else n
  min n cfg.maxNumScheduledTokens

/-- The drafts that fit in the scheduled tokens, past the request's own. -/
def Request.scheduledDrafts (numNewTokens : Nat) (request : Request) : List Token :=
  request.specTokenIds.take
    (numNewTokens + request.numComputedTokens - request.numTokens - request.numOutputPlaceholders)

end VllmRbln.Scheduler
