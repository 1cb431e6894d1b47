import VllmRbln.Scheduler.Schedule

/-! `update_from_output` and the other calls that change the scheduler's state, and
the transition system of all of them. Steps are processed in the order in which they
were scheduled. -/
namespace VllmRbln.Scheduler

open SubBlock

variable {H X : Type} [DecidableEq H]

/-- What the runner and the code outside this repository answer while one output is
processed. A request that sampled has at least one token; `stops` is the stop
condition on the tokens themselves, asked after each one. -/
structure RunnerOutput where
  sampled : ReqId → Token × List Token
  stops : ReqId → Nat → Bool
  delayFree : ReqId → Bool
  deferFree : ReqId → Bool

/-- The tokens a step produced for a request: at most one more than its drafts. -/
def RunnerOutput.generated (result : RunnerOutput) (output : SchedulerOutput) (id : ReqId) :
    List Token :=
  if output.samples id then
    (result.sampled id).1 :: (result.sampled id).2.take (output.scheduledSpecDecodeTokens id).length
  else []

/-- Take back what was computed for the rejected drafts. -/
def Request.reject (numRejected : Nat) (request : Request) : Request :=
  { request with
    numComputedTokens := request.numComputedTokens - numRejected
    numOutputPlaceholders := request.numOutputPlaceholders - numRejected }

/-- `check_stop`. -/
def Request.stopped (cfg : Config) (stops : Nat → Bool) (request : Request) : Bool :=
  cfg.maxModelLen ≤ request.numTokens ∨
    request.numPromptTokens + request.maxTokens ≤ request.numTokens ∨ stops request.numTokens

/-- Append tokens until the request stops. -/
def Request.appendTokens (cfg : Config) (stops : Nat → Bool) : Request → List Token → Request × Bool
  | request, [] => (request, false)
  | request, token :: tokens =>
      let request := { request with allTokenIds := request.allTokenIds ++ [token] }
      if request.stopped cfg stops then (request, true) else request.appendTokens cfg stops tokens

/-- `_update_request_with_output`: async scheduling also settles the placeholders. -/
def Request.receive (cfg : Config) (stops : Nat → Bool) (generated : List Token)
    (request : Request) : Request × Bool :=
  let (received, stopped) := request.appendTokens cfg stops generated
  if cfg.asyncScheduling then
    ({ received with
      numOutputPlaceholders :=
        received.numOutputPlaceholders - (received.numTokens - request.numTokens) }, stopped)
  else (received, stopped)

/-- One request of a processed step. -/
def updateRequest (cfg : Config) (hashing : Hashing H X) (result : RunnerOutput)
    (output : SchedulerOutput) (s : State H) (id : ReqId) : State H :=
  let request := s.requests id
  if request.status = .unknown ∨ request.status = .finished then s
  else
    let generated := result.generated output id
    let numDrafts := (output.scheduledSpecDecodeTokens id).length
    let numRejected := if generated = [] then 0 else numDrafts + 1 - generated.length
    let (received, stopped) := (request.reject numRejected).receive cfg (result.stops id) generated
    let s := s.modifyRequest id fun _ => received
    let s := if cfg.asyncScheduling ∧ generated ≠ [] ∧ request.status = .running then
        { s with
          kv := s.kv.cacheBlocks cfg hashing id received
            (min (received.numComputedTokens - received.numOutputPlaceholders) received.numTokens) }
      else s
    if stopped then
      s.freeRequest cfg hashing (.ofFinished cfg (result.delayFree id) (result.deferFree id)) id
    else s

/-- `update_from_output` on the oldest step in flight. -/
def updateFromOutput (cfg : Config) (hashing : Hashing H X) (result : RunnerOutput) (s : State H) :
    Option (State H) :=
  match s.inFlight with
  | [] => none
  | output :: inFlight =>
      let s := (output.numScheduledTokens.map Prod.fst).foldl
        (updateRequest cfg hashing result output) { s with inFlight := inFlight }
      match cfg.subBlockSize with
      | none => some s
      | some subBlockSize =>
          some { s with
            kv := (s.kv.doPendingIndexing cfg hashing subBlockSize s.requests).releaseCopyOps
              output.kvCacheCopyOps
            unpins := s.unpins ++ output.kvCacheCopyOps.map (·.srcBlockId) }

/-- `update_draft_token_ids` for one request: drafts on an unfinished chunk are dropped. -/
def setDrafts (cfg : Config) (s : State H) (drafts : ReqId × List Token) : State H :=
  let request := s.requests drafts.1
  if request.status = .unknown ∨ request.status = .finished then s
  else s.modifyRequest drafts.1 fun request =>
    { request with
      specTokenIds := if request.isPrefillChunk then [] else drafts.2.take cfg.numSpecTokens }

/-- A request as a client sends it. -/
structure NewRequest where
  promptTokenIds : List Token
  maxTokens : Nat
  priority : Int
  arrivalTime : Nat
  skipReadingPrefixCache : Bool
  structuredOutput : Bool

def NewRequest.toRequest (new : NewRequest) : Request :=
  { Request.unknown with
    status := if new.structuredOutput then .waitingForStructuredOutput else .waiting
    allTokenIds := new.promptTokenIds
    numPromptTokens := new.promptTokenIds.length
    maxTokens := new.maxTokens
    priority := new.priority
    arrivalTime := new.arrivalTime
    skipReadingPrefixCache := new.skipReadingPrefixCache }

/-- `add_request`, for an id never used and a prompt the front end lets through. -/
def addRequest (cfg : Config) (s : State H) (id : ReqId) (new : NewRequest) : Option (State H) :=
  if id ∈ s.ids ∨ new.promptTokenIds = [] ∨ cfg.maxModelLen ≤ new.promptTokenIds.length ∨
      new.maxTokens = 0 then none
  else
    let s := { s with
      requests := Function.update s.requests id new.toRequest
      ids := s.ids ++ [id] }
    if new.structuredOutput then
      some { s with skippedWaiting := State.addToQueue cfg s s.skippedWaiting id }
    else some { s with waiting := State.addToQueue cfg s s.waiting id }

/-- `finish_requests` for one request. -/
def finishRequest (cfg : Config) (hashing : Hashing H X) (delayFree defer : Bool) (s : State H)
    (id : ReqId) : Option (State H) :=
  if (s.requests id).status = .unknown ∨ (s.requests id).status = .finished then none
  else some (s.freeRequest cfg hashing (.ofFinished cfg delayFree defer) id)

/-- Give back the oldest blocks held for a step in flight. -/
def releaseDeferred (s : State H) : Option (State H) :=
  match s.deferredFrees with
  | [] => none
  | blocks :: rest => some { s with kv := s.kv.freeBlocks blocks, deferredFrees := rest }

/-- The connector is done with a finished request's blocks. -/
def freeDelayed (cfg : Config) (hashing : Hashing H X) (s : State H) (id : ReqId) :
    Option (State H) :=
  if (s.requests id).status = .finished then some (s.freeRequestBlocks cfg hashing .now id)
  else none

inductive Action (H : Type)
  | addRequest (id : ReqId) (new : NewRequest)
  | schedule (up : Upstream H)
  | updateFromOutput (result : RunnerOutput)
  | updateDraftTokenIds (drafts : List (ReqId × List Token))
  | finishRequest (id : ReqId) (delayFree defer : Bool)
  | releaseDeferred
  | freeDelayed (id : ReqId)

/-- One call into the scheduler. No more than `maxConcurrentBatches` steps are in
flight at a time. -/
def step (cfg : Config) (hashing : Hashing H X) (s : State H) : Action H → Option (State H)
  | .addRequest id new => addRequest cfg s id new
  | .schedule up =>
      if s.inFlight.length < cfg.maxConcurrentBatches then schedule cfg hashing up s else none
  | .updateFromOutput result => updateFromOutput cfg hashing result s
  | .updateDraftTokenIds drafts => some (drafts.foldl (setDrafts cfg) s)
  | .finishRequest id delayFree defer => finishRequest cfg hashing delayFree defer s id
  | .releaseDeferred => releaseDeferred s
  | .freeDelayed id => freeDelayed cfg hashing s id

/-- `s` is reached from the empty scheduler by some calls. -/
def Reaches (cfg : Config) (hashing : Hashing H X) (actions : List (Action H)) (s : State H) :
    Prop :=
  Run.runFrom (step cfg hashing) State.initial actions = some s

theorem Reaches.exists_of_any (cfg : Config) (hashing : Hashing H X) (actions : List (Action H))
    (holds : State H → Bool)
    (hAny : (Run.runFrom (step cfg hashing) State.initial actions).any holds = true) :
    ∃ s, Reaches cfg hashing actions s ∧ holds s = true :=
  (Option.any_eq_true _ _).mp hAny

/-! ### A small engine -/

/-- One group of blocks of four tokens, cached in halves, and a hash without collisions. -/
def Config.small : Config where
  blockSizes := [4]
  slidingWindow _ := false
  subBlockSize := some 2
  numBlocks := 6
  maxNumRunningReqs := 4
  pipelineParallelSize := 1
  maxNumScheduledTokens := 8
  longPrefillTokenThreshold := 0
  maxModelLen := 16
  numSpecTokens := 0
  numLookaheadTokens := 0
  useEagle := false
  asyncScheduling := false
  priorityPolicy := false
  hasConnector := false
  deferBlockFree := false
  maxConcurrentBatches := 1
  blockSizes_pos := by simp
  subBlockSize_fits := by simp

abbrev SmallHash := HashChain.FreeHash Token (Option Unit)

def Hashing.free : Hashing SmallHash Unit where
  hashBlockTokens := HashChain.FreeHash.extend
  extraKeys _ _ _ := none

/-- The pool hands out its free blocks in order, and finds no cached full block. -/
def Upstream.plain (cfg : Config) : Upstream SmallHash where
  pausedAll := false
  pausedNew := false
  numReadyRemoteKv := 0
  freeQueue := Manager.freeBlockIds cfg
  foundBlocks _ _ := (Blocks.empty, 0)
  choose _ := 0
  selectSkipped s := s.waiting = []
  promote _ _ := none
  connectorMatch _ _ _ := none
  deferFree _ := false

/-- Every sampled token is `token`, and no token stops a request. -/
def RunnerOutput.constant (token : Token) : RunnerOutput where
  sampled _ := (token, List.replicate 8 token)
  stops _ _ := false
  delayFree _ := false
  deferFree _ := false

def NewRequest.plain (promptTokenIds : List Token) (maxTokens : Nat) : NewRequest where
  promptTokenIds := promptTokenIds
  maxTokens := maxTokens
  priority := 0
  arrivalTime := 0
  skipReadingPrefixCache := false
  structuredOutput := false

end VllmRbln.Scheduler
