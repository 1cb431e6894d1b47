import VllmRbln.Scheduler.Runs

/-! One phase a step. A running request is a prefill, which no step in flight samples
for, or a decode, whose computed tokens cover all but one of the tokens it has and of
those the steps in flight account for. Only the last running request is a prefill, and
it is scheduled alone. -/
namespace VllmRbln.Scheduler

set_option linter.unusedSectionVars false

open SubBlock Run

variable {H X : Type} [DecidableEq H]

/-- What the sampling of a step accounts for: the drafts it verifies and one more token. -/
def SchedulerOutput.pendingTokens (output : SchedulerOutput) (id : ReqId) : Nat :=
  if id ∈ output.numScheduledTokens.map Prod.fst ∧ output.samples id = true then
    (output.scheduledSpecDecodeTokens id).length + 1
  else 0

/-- The same for all steps in flight. -/
def pendingTokens (id : ReqId) : List SchedulerOutput → Nat
  | [] => 0
  | output :: inFlight => output.pendingTokens id + pendingTokens id inFlight

theorem pendingTokens_append (id : ReqId) (inFlight later : List SchedulerOutput) :
    pendingTokens id (inFlight ++ later) = pendingTokens id inFlight + pendingTokens id later := by
  induction inFlight with
  | nil => simp [pendingTokens]
  | cons output inFlight ih => simp [pendingTokens, ih, Nat.add_assoc]

theorem SchedulerOutput.pendingTokens_of_notMem {output : SchedulerOutput} {id : ReqId}
    (hNot : id ∉ output.numScheduledTokens.map Prod.fst) : output.pendingTokens id = 0 :=
  if_neg fun hBoth => hNot hBoth.1

theorem pendingTokens_eq_zero {id : ReqId} {inFlight : List SchedulerOutput}
    (hNot : ∀ output ∈ inFlight, id ∉ output.numScheduledTokens.map Prod.fst) :
    pendingTokens id inFlight = 0 := by
  induction inFlight with
  | nil => rfl
  | cons output inFlight ih =>
      rw [pendingTokens, output.pendingTokens_of_notMem (hNot output List.mem_cons_self),
        ih fun other hMem => hNot other (List.mem_cons_of_mem _ hMem)]

namespace Request

/-- A request that is not finished, for which the steps in flight account for `pending`
tokens. -/
structure Live (cfg : Config) (pending : Nat) (request : Request) : Prop where
  pos : 0 < request.numTokens
  fits : request.numTokens < cfg.maxModelLen
  placeholders : request.numOutputPlaceholders = if cfg.asyncScheduling then pending else 0
  drafts : request.specTokenIds.length ≤ cfg.numSpecTokens

/-- A running request, in one phase or the other. -/
structure Phased (pending : Nat) (request : Request) : Prop where
  prefill : request.isPrefill = true → pending = 0
  decode : request.isPrefill = false → request.numTokens + pending ≤ request.numComputedTokens + 1

theorem isPrefill_iff {request : Request} :
    request.isPrefill = true ↔ request.numComputedTokens + 1 < request.numTokens := by
  simp only [isPrefill, decide_eq_true_eq]
  omega

theorem not_isPrefill_iff {request : Request} :
    request.isPrefill = false ↔ request.numTokens ≤ request.numComputedTokens + 1 := by
  rw [← Bool.not_eq_true, isPrefill_iff]
  omega

/-- The counts decide the phase. -/
theorem isPrefill_congr {request request' : Request}
    (hComputed : request'.numComputedTokens = request.numComputedTokens)
    (hTokens : request'.numTokens = request.numTokens) : request'.isPrefill = request.isPrefill := by
  unfold isPrefill
  rw [hComputed, hTokens]

theorem Phased.congr {pending : Nat} {request request' : Request} (hPhased : request.Phased pending)
    (hComputed : request'.numComputedTokens = request.numComputedTokens)
    (hTokens : request'.numTokens = request.numTokens) : request'.Phased pending := by
  have hSame := isPrefill_congr hComputed hTokens
  refine ⟨hSame ▸ hPhased.prefill, fun hDecode => ?_⟩
  rw [hTokens, hComputed]
  exact hPhased.decode (hSame ▸ hDecode)

/-- A decode that is scheduled has exactly one base token, and every draft of the step is
scheduled with it. -/
theorem Live.decodeTokens {cfg : Config} {pending tokenBudget numNewTokens : Nat} {request : Request}
    (hLive : request.Live cfg pending) (hPhased : request.Phased pending)
    (hDecode : request.isPrefill = false) (hNot : ¬ request.passedOver cfg tokenBudget)
    (hTokens : (numNewTokens : Int) = request.runningTokens cfg tokenBudget) :
    request.numTokens + pending = request.numComputedTokens + 1 ∧
      request.numTokens + request.numOutputPlaceholders = request.numComputedTokens + 1 ∧
      numNewTokens = (request.scheduledDrafts numNewTokens).length + 1 := by
  have hCovered := hPhased.decode hDecode
  have hPlaceholders : request.numOutputPlaceholders ≤ pending := by
    rw [hLive.placeholders]
    split <;> omega
  unfold passedOver at hNot
  simp only [not_or] at hNot
  obtain ⟨-, hNoDefer, hSome⟩ := hNot
  have hDemand : request.runningTokens cfg tokenBudget ≤ request.runningDemand := by
    unfold runningTokens
    dsimp only
    split <;> omega
  have hPos : 0 < request.runningDemand := by omega
  -- the base token is not computed yet, or the step would be deferred
  have hBase : request.numComputedTokens < request.numTokens + request.numOutputPlaceholders := by
    unfold runningDemand numTokensWithSpec at hPos
    unfold shouldDeferSpecStep runningDemand numTokensWithSpec at hNoDefer
    have hDrafts := hLive.drafts
    split at hNoDefer
    · omega
    · split at hNoDefer
      · simp only [decide_eq_true_eq] at hNoDefer
        omega
      · rename_i hNil
        have hNil : request.specTokenIds.length = 0 := by simpa using hNil
        omega
  have hOne : request.numTokens + request.numOutputPlaceholders = request.numComputedTokens + 1 := by
    omega
  have hSpec : (numNewTokens : Int) ≤ 1 + request.specTokenIds.length := by
    have hBound : request.runningDemand = 1 + request.specTokenIds.length := by
      unfold runningDemand numTokensWithSpec
      omega
    omega
  refine ⟨?_, hOne, ?_⟩
  · rw [hLive.placeholders] at hOne
    split at hOne
    · exact hOne
    · omega
  · unfold scheduledDrafts
    rw [List.length_take]
    omega

/-- A prefill that leads the step gets at least two base tokens and is never passed
over. -/
theorem Live.prefillTokens {cfg : Config} {request : Request} (hLive : request.Live cfg 0)
    (hPrefill : request.isPrefill = true) (hBudget : 2 ≤ cfg.maxNumScheduledTokens)
    (hThreshold : cfg.longPrefillTokenThreshold ≠ 1) :
    2 ≤ request.runningTokens cfg cfg.maxNumScheduledTokens ∧
      ¬ request.passedOver cfg cfg.maxNumScheduledTokens := by
  have hLeft := isPrefill_iff.mp hPrefill
  have hFits := hLive.fits
  have hZero : request.numOutputPlaceholders = 0 := by
    rw [hLive.placeholders]
    split <;> rfl
  have hDemand : (request.numTokens : Int) - request.numComputedTokens ≤ request.runningDemand := by
    unfold runningDemand numTokensWithSpec
    omega
  have hTwo : 2 ≤ request.runningTokens cfg cfg.maxNumScheduledTokens := by
    unfold runningTokens
    dsimp only
    split <;> omega
  refine ⟨hTwo, ?_⟩
  unfold passedOver
  rintro (hReaches | hDefer | hNone)
  · unfold reachesMaxTokens at hReaches
    simp only [decide_eq_true_eq] at hReaches
    omega
  · unfold shouldDeferSpecStep at hDefer
    split at hDefer
    · cases hDefer
    · split at hDefer <;> simp only [decide_eq_true_eq] at hDefer
      · unfold runningDemand numTokensWithSpec at hDefer
        omega
      · omega
  · omega

/-- The drafts scheduled with a prefill are what reaches past its own tokens. -/
theorem Live.prefillDrafts {cfg : Config} {numNewTokens : Nat} {request : Request}
    (hLive : request.Live cfg 0) (hPrefill : request.isPrefill = true)
    (hTokens : (numNewTokens : Int) = request.runningTokens cfg cfg.maxNumScheduledTokens)
    (hTwo : 2 ≤ numNewTokens) :
    (request.scheduledDrafts numNewTokens).length =
        request.numComputedTokens + numNewTokens - request.numTokens ∧
      (request.scheduledDrafts numNewTokens).length + 2 ≤ numNewTokens ∧
      (cfg.longPrefillTokenThreshold = 0 →
        request.numComputedTokens + numNewTokens + 1 < request.numTokens →
        numNewTokens = cfg.maxNumScheduledTokens) := by
  have hLeft := isPrefill_iff.mp hPrefill
  have hZero : request.numOutputPlaceholders = 0 := by
    rw [hLive.placeholders]
    split <;> rfl
  have hDemand : request.runningTokens cfg cfg.maxNumScheduledTokens ≤ request.runningDemand := by
    unfold runningTokens
    dsimp only
    split <;> omega
  have hChunk : cfg.longPrefillTokenThreshold = 0 →
      request.numComputedTokens + numNewTokens + 1 < request.numTokens →
      numNewTokens = cfg.maxNumScheduledTokens := by
    intro hThreshold hMore
    have hFits := hLive.fits
    unfold runningTokens runningDemand numTokensWithSpec at hTokens
    simp only [hThreshold, Nat.lt_irrefl, false_and, if_false] at hTokens
    omega
  unfold runningDemand numTokensWithSpec at hDemand
  unfold scheduledDrafts
  rw [List.length_take]
  exact ⟨by omega, by omega, hChunk⟩

end Request

/-! ### The running queue -/

/-- The phases of a state; `pending` counts what the steps in flight account for. -/
structure PhaseOk (cfg : Config) (pending : ReqId → Nat) (s : State H) : Prop where
  rows : ∀ output ∈ s.inFlight, (output.numScheduledTokens.map Prod.fst).Nodup
  live : ∀ id, (s.requests id).status ≠ .unknown → (s.requests id).status ≠ .finished →
    (s.requests id).Live cfg (pending id)
  phased : ∀ id ∈ s.running, (s.requests id).Phased (pending id)
  order : s.running.Pairwise fun id _ => (s.requests id).isPrefill = false
  busy : s.running ≠ [] → cfg.maxNumScheduledTokens ≠ 0

namespace PhaseOk

variable {cfg : Config} {pending : ReqId → Nat} {s s' : State H}

/-- A prefill is the last to run. -/
theorem getLast (hPhase : PhaseOk cfg pending s) {id : ReqId} (hMem : id ∈ s.running)
    (hPrefill : (s.requests id).isPrefill = true) : s.running.getLast? = some id := by
  obtain ⟨before, after, hRunning⟩ := List.append_of_mem hMem
  cases after with
  | nil => simp [hRunning]
  | cons next after =>
      have hOrder := hPhase.order
      rw [hRunning] at hOrder
      have hDecode := List.rel_of_pairwise_cons (List.pairwise_append.mp hOrder).2.1
        (List.mem_cons_self (a := next) (l := after))
      rw [hDecode] at hPrefill
      cases hPrefill

/-- Nothing but drafts changes. -/
theorem redraft (hPhase : PhaseOk cfg pending s) (hInFlight : s'.inFlight = s.inFlight)
    (hRunning : s'.running = s.running)
    (hSame : ∀ id, (s'.requests id).core = (s.requests id).core ∧
      (s'.requests id).numOutputPlaceholders = (s.requests id).numOutputPlaceholders)
    (hDrafts : ∀ id, (s'.requests id).status ≠ .unknown → (s'.requests id).status ≠ .finished →
      (s'.requests id).specTokenIds.length ≤ cfg.numSpecTokens) : PhaseOk cfg pending s' := by
  have hCore := fun id => Request.core_eq_iff.mp (hSame id).1
  refine ⟨hInFlight ▸ hPhase.rows, fun id hKnown hUnfinished => ?_, fun id hMem => ?_, ?_, ?_⟩
  · obtain ⟨hStatus, -, -, hTokens⟩ := hCore id
    have hLive := hPhase.live id (hStatus ▸ hKnown) (hStatus ▸ hUnfinished)
    exact ⟨hTokens ▸ hLive.pos, hTokens ▸ hLive.fits, (hSame id).2 ▸ hLive.placeholders,
      hDrafts id hKnown hUnfinished⟩
  · rw [hRunning] at hMem
    exact (hPhase.phased id hMem).congr (hCore id).2.2.1 (hCore id).2.2.2
  · rw [hRunning]
    exact hPhase.order.imp fun {id _} hDecode => by
      rw [Request.isPrefill_congr (hCore id).2.2.1 (hCore id).2.2.2]
      exact hDecode
  · rw [hRunning]
    exact hPhase.busy

/-- One request, which does not run afterwards, changes. -/
theorem leave (hPhase : PhaseOk cfg pending s) (id : ReqId)
    (hInFlight : ∀ output ∈ s'.inFlight, output ∈ s.inFlight)
    (hRequests : ∀ other, other ≠ id → s'.requests other = s.requests other)
    (hRunning : s'.running.Sublist s.running) (hNot : id ∉ s'.running)
    (hLive : (s'.requests id).status ≠ .unknown → (s'.requests id).status ≠ .finished →
      (s'.requests id).Live cfg (pending id)) : PhaseOk cfg pending s' := by
  have hOthers : ∀ other ∈ s'.running, s'.requests other = s.requests other := fun other hMem =>
    hRequests other (ne_of_mem_of_not_mem hMem hNot)
  refine ⟨fun output hMem => hPhase.rows output (hInFlight output hMem),
    fun other hKnown hUnfinished => ?_, fun other hMem => ?_, ?_, fun hSome => ?_⟩
  · by_cases hEq : other = id
    · subst hEq
      exact hLive hKnown hUnfinished
    · rw [hRequests other hEq] at hKnown hUnfinished ⊢
      exact hPhase.live other hKnown hUnfinished
  · rw [hOthers other hMem]
    exact hPhase.phased other (hRunning.subset hMem)
  · refine List.Pairwise.imp_of_mem (fun {a b} hMem _ hDecode => ?_) (hPhase.order.sublist hRunning)
    rw [hOthers a hMem]
    exact hDecode
  · refine hPhase.busy fun hNil => hSome ?_
    rw [hNil] at hRunning
    exact List.eq_nil_of_sublist_nil hRunning

/-- One request starts to run behind decodes. -/
theorem enter (hPhase : PhaseOk cfg pending s) (id : ReqId) (hInFlight : s'.inFlight = s.inFlight)
    (hRequests : ∀ other, other ≠ id → s'.requests other = s.requests other)
    (hRunning : s'.running = s.running ++ [id]) (hNot : id ∉ s.running)
    (hDecodes : ∀ other ∈ s.running, (s.requests other).isPrefill = false)
    (hLive : (s'.requests id).Live cfg (pending id)) (hPhased : (s'.requests id).Phased (pending id))
    (hBudget : cfg.maxNumScheduledTokens ≠ 0) : PhaseOk cfg pending s' := by
  have hOthers : ∀ other ∈ s.running, s'.requests other = s.requests other := fun other hMem =>
    hRequests other (ne_of_mem_of_not_mem hMem hNot)
  refine ⟨hInFlight ▸ hPhase.rows, fun other hKnown hUnfinished => ?_, fun other hMem => ?_, ?_,
    fun _ => hBudget⟩
  · by_cases hEq : other = id
    · exact hEq ▸ hLive
    · rw [hRequests other hEq] at hKnown hUnfinished ⊢
      exact hPhase.live other hKnown hUnfinished
  · rw [hRunning] at hMem
    rcases List.mem_append.mp hMem with hMem | hMem
    · rw [hOthers other hMem]
      exact hPhase.phased other hMem
    · rw [List.mem_singleton.mp hMem]
      exact hPhased
  · rw [hRunning, List.pairwise_append]
    refine ⟨?_, by simp, fun other hMem _ _ => ?_⟩
    · refine List.Pairwise.imp_of_mem (fun {a b} hMem _ _ => ?_) hPhase.order
      rw [hOthers a hMem]
      exact hDecodes a hMem
    · rw [hOthers other hMem]
      exact hDecodes other hMem

end PhaseOk

/-- The phases of a state between two calls, as long as no request was admitted with a
step of its own still in flight. -/
def CleanPhase (cfg : Config) (s : State H) : Prop :=
  s.staleAdmissions = [] → PhaseOk cfg (fun id => pendingTokens id s.inFlight) s

/-! ### The rows of a step -/

/-- A scheduled decode: one base token and the drafts that go with it. -/
structure DecodeRow (locals : Locals H) (id : ReqId) (numNewTokens : Nat) : Prop where
  covered : (locals.st.requests id).numTokens + pendingTokens id locals.st.inFlight =
    (locals.st.requests id).numComputedTokens + 1
  placeholders : (locals.st.requests id).numTokens +
    (locals.st.requests id).numOutputPlaceholders = (locals.st.requests id).numComputedTokens + 1
  tokens : numNewTokens = (locals.scheduledSpecDecodeTokens id).length + 1

/-- A scheduled prefill: two base tokens or more. -/
structure PrefillRow (cfg : Config) (locals : Locals H) (id : ReqId) (numNewTokens : Nat) :
    Prop where
  prefill : (locals.st.requests id).isPrefill = true
  drafts : (locals.scheduledSpecDecodeTokens id).length =
    (locals.st.requests id).numComputedTokens + numNewTokens - (locals.st.requests id).numTokens
  base : (locals.scheduledSpecDecodeTokens id).length + 2 ≤ numNewTokens
  chunk : cfg.longPrefillTokenThreshold = 0 →
    (locals.st.requests id).numComputedTokens + numNewTokens + 1 <
      (locals.st.requests id).numTokens → numNewTokens = cfg.maxNumScheduledTokens

theorem DecodeRow.decode {locals : Locals H} {id : ReqId} {numNewTokens : Nat}
    (hRow : DecodeRow locals id numNewTokens) : (locals.st.requests id).isPrefill = false := by
  have hCovered := hRow.covered
  rw [Request.not_isPrefill_iff]
  omega

theorem DecodeRow.congr {locals locals' : Locals H} {id : ReqId} {numNewTokens : Nat}
    (hRow : DecodeRow locals id numNewTokens) (hInFlight : locals'.st.inFlight = locals.st.inFlight)
    (hTokens : (locals'.st.requests id).numTokens = (locals.st.requests id).numTokens)
    (hComputed : (locals'.st.requests id).numComputedTokens =
      (locals.st.requests id).numComputedTokens)
    (hPlaceholders : (locals'.st.requests id).numOutputPlaceholders =
      (locals.st.requests id).numOutputPlaceholders)
    (hDrafts : locals'.scheduledSpecDecodeTokens id = locals.scheduledSpecDecodeTokens id) :
    DecodeRow locals' id numNewTokens := by
  obtain ⟨hCovered, hSame, hNew⟩ := hRow
  constructor
  · rw [hTokens, hComputed, hInFlight]
    exact hCovered
  · rw [hTokens, hComputed, hPlaceholders]
    exact hSame
  · rw [hDrafts]
    exact hNew

/-- A step of decodes, while no prefill runs. -/
structure DecodeStep (cfg : Config) (locals : Locals H) : Prop where
  running : ∀ id ∈ locals.st.running, (locals.st.requests id).isPrefill = false
  rows : ∀ row ∈ locals.numScheduledTokens, DecodeRow locals row.1 row.2
  unscheduled : ∀ id, id ∉ locals.numScheduledTokens.map Prod.fst →
    locals.scheduledSpecDecodeTokens id = []
  bound : ∀ id, (locals.scheduledSpecDecodeTokens id).length ≤ cfg.numSpecTokens

/-- The step of one call: a prefill alone, or decodes. -/
def StepPhase (cfg : Config) (locals : Locals H) : Prop :=
  (∃ id numNewTokens, locals.numScheduledTokens = [(id, numNewTokens)] ∧
    PrefillRow cfg locals id numNewTokens) ∨
  ∀ row ∈ locals.numScheduledTokens, DecodeRow locals row.1 row.2

/-- The phases of a state within a call. -/
def Locals.Phases (cfg : Config) (locals : Locals H) : Prop :=
  PhaseOk cfg (fun id => pendingTokens id locals.st.inFlight) locals.st

/-- Only the requests, the running queue and the steps in flight matter. -/
theorem Locals.Phases.congr {cfg : Config} {locals locals' : Locals H} (hPhase : locals.Phases cfg)
    (hRequests : locals'.st.requests = locals.st.requests)
    (hInFlight : locals'.st.inFlight = locals.st.inFlight)
    (hRunning : locals'.st.running = locals.st.running) : locals'.Phases cfg := by
  unfold Locals.Phases
  rw [hInFlight]
  refine PhaseOk.redraft (s := locals.st) hPhase hInFlight hRunning (fun _ => by rw [hRequests]; simp)
    fun other hKnown hUnfinished => ?_
  rw [hRequests] at hKnown hUnfinished ⊢
  exact (hPhase.live other hKnown hUnfinished).drafts

section Moves

variable {cfg : Config} {hashing : Hashing H X} {up : Upstream H} {locals locals' : Locals H}
  {id : ReqId}

theorem Locals.Phases.preempted (hPhase : locals.Phases cfg) (hQueues : Queues cfg locals.st [])
    (hMem : id ∈ locals.st.running) (hPre : Preempted cfg hashing up id locals locals') :
    locals'.Phases cfg := by
  have hStatus := (hQueues.request id).running.mp hMem
  have hLive := hPhase.live id (by simp [hStatus]) (by simp [hStatus])
  have hSt := hPre.st
  unfold Locals.Phases
  rw [hSt]
  refine PhaseOk.leave (s := locals.st) hPhase id (fun _ h => h)
    (fun other hNe => Function.update_of_ne hNe ..) List.filter_sublist
    (by simp [State.preemptRequest, State.modifyRequest, State.freeRequestBlocks]) fun _ _ => ?_
  simp only [State.preemptRequest, State.modifyRequest, Function.update_self]
  exact ⟨hLive.pos, hLive.fits, hLive.placeholders, Nat.zero_le _⟩

theorem DecodeStep.preempted (hStep : DecodeStep cfg locals) (hOk : RunningOk cfg locals)
    (hPre : Preempted cfg hashing up id locals locals') : DecodeStep cfg locals' := by
  have hRunning : locals'.st.running = locals.st.running.filter (· ≠ id) := by
    rw [hPre.st]
    rfl
  have hInFlight : locals'.st.inFlight = locals.st.inFlight := by
    rw [hPre.st]
    rfl
  refine ⟨fun other hMem => ?_, fun row hRow => ?_, fun other hNot => ?_, fun other => ?_⟩
  · rw [hRunning, List.mem_filter] at hMem
    rw [hPre.requests_of_ne (by simpa using hMem.2)]
    exact hStep.running other hMem.1
  · rw [hPre.numScheduledTokens, List.mem_filter] at hRow
    have hNe : row.1 ≠ id := by simpa using hRow.2
    have hSame := hPre.requests_of_ne hNe
    exact (hStep.rows row hRow.1).congr hInFlight (by rw [hSame]) (by rw [hSame]) (by rw [hSame])
      (hPre.scheduledSpecDecodeTokens row.1 hNe)
  · by_cases hEq : other = id
    · subst hEq
      rw [hPre.droppedDrafts]
      split
      · rfl
      · rename_i hOut
        refine hStep.unscheduled other fun hIn => hOut ?_
        rw [hOk.books.keys.mem_iff, hOk.scheduledReqs_eq] at hIn
        exact hIn
    · rw [hPre.scheduledSpecDecodeTokens other hEq]
      refine hStep.unscheduled other fun hIn => hNot ?_
      rw [hPre.numScheduledTokens]
      obtain ⟨row, hRow, rfl⟩ := List.mem_map.mp hIn
      exact List.mem_map_of_mem (List.mem_filter.mpr ⟨hRow, by simpa using hEq⟩)
  · by_cases hEq : other = id
    · subst hEq
      rw [hPre.droppedDrafts]
      split
      · exact Nat.zero_le _
      · exact hStep.bound other
    · rw [hPre.scheduledSpecDecodeTokens other hEq]
      exact hStep.bound other

end Moves

section Grant

variable {cfg : Config} {hashing : Hashing H X} {up : Upstream H} {start locals : Locals H}
  {id : ReqId} {numNewTokens : Nat} {kv : Manager H} {newBlocks : Blocks}

theorem Granted.status
    (hGranted : Granted cfg hashing up id numNewTokens start locals kv newBlocks) :
    (locals.st.requests id).status = .running :=
  (hGranted.round.ok.queues.request id).running.mp hGranted.round.running

theorem Granted.live (hPhase : locals.Phases cfg)
    (hGranted : Granted cfg hashing up id numNewTokens start locals kv newBlocks) :
    (locals.st.requests id).Live cfg (pendingTokens id locals.st.inFlight) :=
  hPhase.live id (by simp [hGranted.status]) (by simp [hGranted.status])

theorem Locals.Phases.granted (hPhase : locals.Phases cfg) :
    (locals.grantRunning id numNewTokens kv newBlocks).Phases cfg := by
  refine PhaseOk.redraft hPhase rfl rfl (fun other => ?_) fun other hKnown hUnfinished => ?_
  · by_cases hEq : other = id
    · subst hEq
      simp [Locals.grantRunning, Locals.scheduleRunning, State.modifyRequest, Request.core,
        Request.numTokens]
    · simp [Locals.grantRunning, Locals.scheduleRunning, State.modifyRequest, hEq]
  · by_cases hEq : other = id
    · subst hEq
      simp [Locals.grantRunning, Locals.scheduleRunning, State.modifyRequest]
    · simp only [Locals.grantRunning, Locals.scheduleRunning, State.modifyRequest,
        Function.update_of_ne hEq] at hKnown hUnfinished ⊢
      exact (hPhase.live other hKnown hUnfinished).drafts

theorem DecodeStep.granted (hStep : DecodeStep cfg locals) (hPhase : locals.Phases cfg)
    (hGranted : Granted cfg hashing up id numNewTokens start locals kv newBlocks) :
    DecodeStep cfg (locals.grantRunning id numNewTokens kv newBlocks) := by
  have hRequest := hGranted.request
  have hRunning := hGranted.round.running
  have hNotPassed := hGranted.notPassed
  have hTokens := hGranted.tokens
  rw [← hRequest] at hNotPassed hTokens
  have hDecode := hStep.running id hRunning
  have hLive := hGranted.live hPhase
  obtain ⟨hCovered, hPlaceholders, hNew⟩ :=
    hLive.decodeTokens (hPhase.phased id hRunning) hDecode hNotPassed hTokens
  have hNotKey : id ∉ locals.numScheduledTokens.map Prod.fst := by
    rw [hGranted.round.ok.books.keys.mem_iff, hGranted.round.ok.scheduledReqs_eq]
    exact hGranted.round.unscheduled
  have hOther : ∀ other, other ≠ id →
      (locals.grantRunning id numNewTokens kv newBlocks).st.requests other =
        locals.st.requests other := fun other hNe => Function.update_of_ne hNe ..
  have hOtherDrafts : ∀ other, other ≠ id →
      (locals.grantRunning id numNewTokens kv newBlocks).scheduledSpecDecodeTokens other =
        locals.scheduledSpecDecodeTokens other := fun other hNe => Function.update_of_ne hNe ..
  have hSelf : (locals.grantRunning id numNewTokens kv newBlocks).st.requests id =
      { locals.st.requests id with specTokenIds := [] } := Function.update_self ..
  have hSelfDrafts : (locals.grantRunning id numNewTokens kv newBlocks).scheduledSpecDecodeTokens id =
      (locals.st.requests id).scheduledDrafts numNewTokens := Function.update_self ..
  refine ⟨fun other hMem => ?_, fun row hRow => ?_, fun other hNot => ?_, fun other => ?_⟩
  · by_cases hEq : other = id
    · rw [hEq, hSelf]
      exact hDecode
    · rw [hOther other hEq]
      exact hStep.running other hMem
  · rcases List.mem_append.mp hRow with hRow | hRow
    · have hNe : row.1 ≠ id := ne_of_mem_of_not_mem (List.mem_map_of_mem hRow) hNotKey
      have hSame := hOther row.1 hNe
      exact (hStep.rows row hRow).congr rfl (by rw [hSame]) (by rw [hSame]) (by rw [hSame])
        (hOtherDrafts row.1 hNe)
    · rw [List.mem_singleton.mp hRow]
      refine ⟨?_, ?_, ?_⟩
      · rw [hSelf]
        exact hCovered
      · rw [hSelf]
        exact hPlaceholders
      · rw [hSelfDrafts]
        exact hNew
  · have hKeys : other ∉ locals.numScheduledTokens.map Prod.fst ∧ other ≠ id := by
      simpa [Locals.grantRunning, Locals.scheduleRunning] using hNot
    rw [hOtherDrafts other hKeys.2]
    exact hStep.unscheduled other hKeys.1
  · by_cases hEq : other = id
    · rw [hEq, hSelfDrafts, Request.scheduledDrafts, List.length_take]
      exact le_trans (Nat.min_le_right _ _) hLive.drafts
    · rw [hOtherDrafts other hEq]
      exact hStep.bound other

end Grant

/-- The running loop while no prefill runs. -/
def DecodeOk (cfg : Config) (locals : Locals H) : Prop :=
  locals.st.staleAdmissions = [] → locals.Phases cfg ∧ DecodeStep cfg locals

theorem decode_running (cfg : Config) (hashing : Hashing H X) (up : Upstream H) :
    RunningRule cfg hashing up (DecodeOk cfg) where
  pass _ hInv _ _ _ hClean := by
    obtain ⟨hPhase, hStep⟩ := hInv hClean
    exact ⟨hPhase, hStep.running, fun row hRow => (hStep.rows row hRow).congr rfl rfl rfl rfl rfl,
      hStep.unscheduled, hStep.bound⟩
  preempt {locals locals' id} hOk hInv hVictim hPre hClean := by
    rw [hPre.st] at hClean
    obtain ⟨hPhase, hStep⟩ := hInv hClean
    exact ⟨hPhase.preempted hOk.queues (victim_mem hVictim) hPre, hStep.preempted hOk hPre⟩
  grant _ hInv hGranted hClean := by
    obtain ⟨hPhase, hStep⟩ := hInv hClean
    exact ⟨hPhase.granted, hStep.granted hPhase hGranted⟩

/-! ### A running prefill has the step -/

/-- The running loop that starts at the prefill `id`: it is still to be scheduled, is
scheduled alone, or was preempted. -/
inductive PrefillStep (cfg : Config) (up : Upstream H) (id : ReqId) (locals : Locals H) : Prop
  | ahead (hMem : id ∈ locals.st.running) (hPrefill : (locals.st.requests id).isPrefill = true)
      (hRows : locals.numScheduledTokens = [])
      (hBudget : locals.tokenBudget = if up.pausedAll then 0 else cfg.maxNumScheduledTokens)
      (hAhead : locals.numAhead ≤ 1) (hFirst : locals.preemptedReqs = [] → locals.numAhead = 1)
  | given (numNewTokens : Nat) (hMem : id ∈ locals.st.running)
      (hRows : locals.numScheduledTokens = [(id, numNewTokens)])
      (hRow : PrefillRow cfg locals id numNewTokens) (hAhead : locals.numAhead = 0)
  | gone (hRows : locals.numScheduledTokens = []) (hAhead : locals.numAhead = 0)
      (hPreempted : locals.preemptedReqs ≠ [])

theorem Preempted.numAhead_of_notMem {cfg : Config} {hashing : Hashing H X} {up : Upstream H}
    {id : ReqId} {locals locals' : Locals H} (hPre : Preempted cfg hashing up id locals locals')
    (hMem : id ∈ locals.st.running) (hNot : id ∉ locals.scheduledRunningReqs) :
    locals'.numAhead ≤ locals.numAhead - 1 := by
  have hRunning : locals'.st.running = locals.st.running.filter (· ≠ id) := by
    rw [hPre.st]
    rfl
  have hShort : (locals.st.running.filter (· ≠ id)).length < locals.st.running.length :=
    List.length_filter_lt_length_iff_exists.mpr ⟨id, hMem, by simp⟩
  unfold Locals.numAhead
  rw [hRunning, hPre.reqIndex, if_neg hNot]
  omega

theorem RunningOk.scheduled_nil {cfg : Config} {locals : Locals H} (hOk : RunningOk cfg locals)
    (hRows : locals.numScheduledTokens = []) : locals.scheduledRunningReqs = [] := by
  have hKeys := hOk.books.keys
  rw [hRows, hOk.scheduledReqs_eq] at hKeys
  exact hKeys.nil_eq.symm

theorem PrefillStep.preempted {cfg : Config} {hashing : Hashing H X} {up : Upstream H}
    {id victim : ReqId} {locals locals' : Locals H} (hStep : PrefillStep cfg up id locals)
    (hOk : RunningOk cfg locals) (hVictim : victim ∈ locals.st.running)
    (hPre : Preempted cfg hashing up victim locals locals') : PrefillStep cfg up id locals' := by
  have hSome : locals'.preemptedReqs ≠ [] := by
    rw [hPre.preemptedReqs]
    simp
  have hKept : ∀ other, other ≠ victim → other ∈ locals.st.running → other ∈ locals'.st.running := by
    intro other hNe hMem
    rw [hPre.st]
    exact List.mem_filter.mpr ⟨hMem, by simpa using hNe⟩
  cases hStep with
  | ahead hMem hPrefill hRows hBudget hAhead hFirst =>
      have hNone := hOk.scheduled_nil hRows
      have hNot : victim ∉ locals.scheduledRunningReqs := by simp [hNone]
      have hLess := hPre.numAhead_of_notMem hVictim hNot
      have hRows' : locals'.numScheduledTokens = [] := by simp [hPre.numScheduledTokens, hRows]
      by_cases hEq : id = victim
      · exact .gone hRows' (by omega) hSome
      · refine .ahead (hKept id hEq hMem) ?_ hRows' ?_ (by omega) fun hNil => absurd hNil hSome
        · rw [hPre.requests_of_ne hEq]
          exact hPrefill
        · rw [hPre.tokenBudget hNot]
          exact hBudget
  | given numNewTokens hMem hRows hRow hAhead =>
      have hLess := hPre.numAhead_le hVictim
      by_cases hEq : id = victim
      · refine .gone ?_ (by omega) hSome
        simp [hPre.numScheduledTokens, hRows, hEq]
      · refine .given numNewTokens (hKept id hEq hMem) ?_ ?_ (by omega)
        · simp [hPre.numScheduledTokens, hRows, hEq]
        · have hSame := hPre.requests_of_ne hEq
          have hDrafts := hPre.scheduledSpecDecodeTokens id hEq
          obtain ⟨hPrefill, hLength, hBase, hChunk⟩ := hRow
          refine ⟨?_, ?_, ?_, ?_⟩
          · rw [hSame]
            exact hPrefill
          · rw [hSame, hDrafts]
            exact hLength
          · rw [hDrafts]
            exact hBase
          · rw [hSame]
            exact hChunk
  | gone hRows hAhead hPreempted =>
      have hLess := hPre.numAhead_le hVictim
      exact .gone (by simp [hPre.numScheduledTokens, hRows]) (by omega) hSome

/-- A round that has a request under its index finds the prefill still ahead, and the
request is the prefill. -/
theorem PrefillStep.atIndex {cfg : Config} {up : Upstream H} {id other : ReqId} {locals : Locals H}
    (hStep : PrefillStep cfg up id locals) (hPhase : locals.Phases cfg)
    (hIndex : locals.st.running[locals.reqIndex]? = some other) (hBudget : locals.tokenBudget ≠ 0) :
    other = id ∧ id ∈ locals.st.running ∧ (locals.st.requests id).isPrefill = true ∧
      locals.numScheduledTokens = [] ∧ locals.tokenBudget = cfg.maxNumScheduledTokens := by
  have hLt := (List.getElem?_eq_some_iff.mp hIndex).1
  have hPos : 0 < locals.numAhead := Nat.sub_pos_of_lt hLt
  cases hStep with
  | ahead hMem hPrefill hRows hTokens hAhead hFirst =>
      refine ⟨?_, hMem, hPrefill, hRows, ?_⟩
      · have hLast := hPhase.getLast hMem hPrefill
        rw [List.getLast?_eq_getElem?] at hLast
        unfold Locals.numAhead at hAhead hPos
        have hSame : locals.reqIndex = locals.st.running.length - 1 := by omega
        rw [hSame, hLast] at hIndex
        exact (Option.some.inj hIndex).symm
      · split at hTokens
        · exact absurd hTokens hBudget
        · exact hTokens
  | given numNewTokens hMem hRows hRow hAhead => omega
  | gone hRows hAhead hPreempted => omega

theorem Granted.staleAdmissions {cfg : Config} {hashing : Hashing H X} {up : Upstream H}
    {id : ReqId} {numNewTokens : Nat} {start locals : Locals H} {kv : Manager H}
    {newBlocks : Blocks}
    (hGranted : Granted cfg hashing up id numNewTokens start locals kv newBlocks) :
    locals.st.staleAdmissions = start.st.staleAdmissions := by
  have rule : RunningRule cfg hashing up fun other =>
      other.st.staleAdmissions = start.st.staleAdmissions :=
    { pass := fun _ hSame _ _ _ => hSame
      preempt := fun _ hSame _ hPre => by
        rw [hPre.st]
        exact hSame
      grant := fun _ hSame _ => hSame }
  exact (rule.preemptedFor rfl (hGranted.started.inRound hGranted.index) hGranted.prior).2.1

/-- The budget and the threshold of the engine: two tokens or none. -/
def Config.NeverOne (cfg : Config) : Prop :=
  cfg.maxNumScheduledTokens ≠ 1 ∧ cfg.longPrefillTokenThreshold ≠ 1

theorem Locals.Phases.prefillLive {cfg : Config} {locals : Locals H} (hPhase : locals.Phases cfg)
    (hQueues : Queues cfg locals.st []) {id : ReqId} (hMem : id ∈ locals.st.running)
    (hPrefill : (locals.st.requests id).isPrefill = true) : (locals.st.requests id).Live cfg 0 := by
  have hStatus := (hQueues.request id).running.mp hMem
  have hLive := hPhase.live id (by simp [hStatus]) (by simp [hStatus])
  rw [(hPhase.phased id hMem).prefill hPrefill] at hLive
  exact hLive

/-- The running loop that starts at a prefill. -/
def PrefillOk (cfg : Config) (up : Upstream H) (id : ReqId) (locals : Locals H) : Prop :=
  locals.st.staleAdmissions = [] → locals.Phases cfg ∧ PrefillStep cfg up id locals

theorem PrefillStep.granted {cfg : Config} {hashing : Hashing H X} {up : Upstream H} {id : ReqId}
    {start locals : Locals H} {numNewTokens : Nat} {kv : Manager H} {newBlocks : Blocks}
    (hNever : cfg.NeverOne) (hStart : start.Phases cfg) (hStep : PrefillStep cfg up id start)
    (hStep' : PrefillStep cfg up id locals)
    (hGranted : Granted cfg hashing up id numNewTokens start locals kv newBlocks) :
    PrefillStep cfg up id (locals.grantRunning id numNewTokens kv newBlocks) := by
  obtain ⟨-, hMem, hPrefill, -, hTokens⟩ := hStep.atIndex hStart hGranted.index hGranted.budget
  have hRunning := hGranted.round.running
  have hLive := hStart.prefillLive hGranted.started.queues hMem hPrefill
  have hBudget : 2 ≤ cfg.maxNumScheduledTokens := by
    have hZero := hStart.busy (List.ne_nil_of_mem hMem)
    have hOne := hNever.1
    omega
  have hNew := hGranted.tokens
  rw [hTokens] at hNew
  have hTwo := (hLive.prefillTokens hPrefill hBudget hNever.2).1
  obtain ⟨hDrafts, hBase, hChunk⟩ := hLive.prefillDrafts hPrefill hNew (by omega)
  rw [← hGranted.request] at hPrefill hDrafts hBase hChunk
  have hAhead : locals.numAhead ≤ 1 ∧ locals.numScheduledTokens = [] := by
    cases hStep' with
    | ahead _ _ hRows _ hAhead _ => exact ⟨hAhead, hRows⟩
    | given numNewTokens _ hRows _ _ =>
        refine absurd ?_ hGranted.round.unscheduled
        rw [← hGranted.round.ok.scheduledReqs_eq, ← hGranted.round.ok.books.keys.mem_iff, hRows]
        simp
    | gone hRows hAhead _ => exact ⟨by omega, hRows⟩
  have hSelf : (locals.grantRunning id numNewTokens kv newBlocks).st.requests id =
      { locals.st.requests id with specTokenIds := [] } := Function.update_self ..
  have hSelfDrafts : (locals.grantRunning id numNewTokens kv newBlocks).scheduledSpecDecodeTokens id =
      (locals.st.requests id).scheduledDrafts numNewTokens := Function.update_self ..
  refine .given numNewTokens hRunning ?_ ⟨?_, ?_, ?_, ?_⟩ ?_
  · simp [Locals.grantRunning, Locals.scheduleRunning, hAhead.2]
  · rw [hSelf]
    exact hPrefill
  · rw [hSelf, hSelfDrafts]
    exact hDrafts
  · rw [hSelfDrafts]
    exact hBase
  · rw [hSelf]
    exact hChunk
  · have hNext : (locals.grantRunning id numNewTokens kv newBlocks).numAhead =
        locals.numAhead - 1 := Nat.sub_add_eq ..
    omega

theorem prefill_running (cfg : Config) (hashing : Hashing H X) (up : Upstream H)
    (hNever : cfg.NeverOne) (id : ReqId) : RunningRule cfg hashing up (PrefillOk cfg up id) where
  pass {locals other} hOk hInv hIndex hBudget hPassed hClean := by
    obtain ⟨hPhase, hStep⟩ := hInv hClean
    obtain ⟨rfl, hMem, hPrefill, -, hTokens⟩ := hStep.atIndex hPhase hIndex hBudget
    have hLive := hPhase.prefillLive hOk.queues hMem hPrefill
    have hMax : 2 ≤ cfg.maxNumScheduledTokens := by
      have hOne := hNever.1
      omega
    rw [hTokens] at hPassed
    exact absurd hPassed (hLive.prefillTokens hPrefill hMax hNever.2).2
  preempt {locals locals' victim} hOk hInv hVictim hPre hClean := by
    rw [hPre.st] at hClean
    obtain ⟨hPhase, hStep⟩ := hInv hClean
    exact ⟨hPhase.preempted hOk.queues (victim_mem hVictim) hPre,
      hStep.preempted hOk (victim_mem hVictim) hPre⟩
  grant {other numNewTokens start locals kv newBlocks} hStart hInv hGranted hClean := by
    obtain ⟨hPhase, hStep'⟩ := hInv hClean
    have hBefore : start.st.staleAdmissions = [] :=
      hGranted.staleAdmissions.symm.trans hClean
    obtain ⟨hStartPhase, hStep⟩ := hStart hBefore
    obtain ⟨rfl, -⟩ := hStep.atIndex hStartPhase hGranted.index hGranted.budget
    exact ⟨hPhase.granted, hStep.granted hNever hStartPhase hStep' hGranted⟩

/-! ### The waiting loop -/

/-- A request that does not run changes, and the step stays. -/
theorem DecodeStep.idle {cfg : Config} {locals locals' : Locals H} (hStep : DecodeStep cfg locals)
    (hBooks : Books locals) (hInFlight : locals'.st.inFlight = locals.st.inFlight)
    (hRunning : locals'.st.running = locals.st.running)
    (hRequests : ∀ id ∈ locals.st.running, locals'.st.requests id = locals.st.requests id)
    (hRows : locals'.numScheduledTokens = locals.numScheduledTokens)
    (hDrafts : locals'.scheduledSpecDecodeTokens = locals.scheduledSpecDecodeTokens) :
    DecodeStep cfg locals' := by
  refine ⟨fun id hMem => ?_, fun row hRow => ?_, ?_, ?_⟩
  · rw [hRunning] at hMem
    rw [hRequests id hMem]
    exact hStep.running id hMem
  · rw [hRows] at hRow
    have hSame := hRequests row.1 (hBooks.running row.1
      (hBooks.mem_iff.mp (List.mem_map_of_mem hRow)))
    exact (hStep.rows row hRow).congr hInFlight (by rw [hSame]) (by rw [hSame]) (by rw [hSame])
      (by rw [hDrafts])
  · rw [hRows, hDrafts]
    exact hStep.unscheduled
  · rw [hDrafts]
    exact hStep.bound

/-- What promoting a request changes of the requests. -/
theorem promoteRequest_requests (cfg : Config) (hashing : Hashing H X) (locals : Locals H)
    (id : ReqId) (numLoadedTokens : Nat) : ∃ status numComputedTokens,
      (locals.promoteRequest cfg hashing id numLoadedTokens).st.requests =
        Function.update locals.st.requests id { locals.st.requests id with
          status := status, numComputedTokens := numComputedTokens } ∧
      (locals.promoteRequest cfg hashing id numLoadedTokens).st.inFlight = locals.st.inFlight ∧
      (locals.promoteRequest cfg hashing id numLoadedTokens).st.running = locals.st.running ∧
      (locals.promoteRequest cfg hashing id numLoadedTokens).st.staleAdmissions =
        locals.st.staleAdmissions := by
  unfold Locals.promoteRequest
  dsimp only
  split
  · split
    · exact ⟨_, _, rfl, rfl, rfl, rfl⟩
    · exact ⟨_, _, rfl, rfl, rfl, rfl⟩
  · exact ⟨_, _, rfl, rfl, rfl, rfl⟩

theorem Queues.live_of_queued {cfg : Config} {s : State H} {skipped : List ReqId}
    (hQueues : Queues cfg s skipped) {id : ReqId} (hMem : id ∈ s.waiting ++ s.skippedWaiting) :
    (s.requests id).status ≠ .unknown ∧ (s.requests id).status ≠ .finished := by
  have hWaits := hQueues.queued id (List.mem_append_left _ hMem)
  constructor <;> intro hEq <;> rw [hEq] at hWaits <;> cases hWaits

/-- A waiting request changes its status and its computed tokens, and still waits. -/
theorem DecodeOk.waiting {cfg : Config} {locals locals' : Locals H} (hInv : DecodeOk cfg locals)
    (hOk : WaitingOk cfg locals) {id : ReqId}
    (hMem : id ∈ locals.st.waiting ++ locals.st.skippedWaiting) {status : RequestStatus}
    {numComputedTokens : Nat}
    (hRequests : locals'.st.requests = Function.update locals.st.requests id
      { locals.st.requests id with status := status, numComputedTokens := numComputedTokens })
    (hInFlight : locals'.st.inFlight = locals.st.inFlight)
    (hRunning : locals'.st.running = locals.st.running)
    (hStale : locals'.st.staleAdmissions = locals.st.staleAdmissions)
    (hRows : locals'.numScheduledTokens = locals.numScheduledTokens)
    (hDrafts : locals'.scheduledSpecDecodeTokens = locals.scheduledSpecDecodeTokens) :
    DecodeOk cfg locals' := by
  intro hClean
  rw [hStale] at hClean
  obtain ⟨hPhase, hStep⟩ := hInv hClean
  have hNot := hOk.queues.notMem_running_of_queued hMem
  have hOthers : ∀ other, other ≠ id → locals'.st.requests other = locals.st.requests other := by
    intro other hNe
    rw [hRequests, Function.update_of_ne hNe]
  refine ⟨?_, hStep.idle hOk.books hInFlight hRunning (fun other hOther => hOthers other
    (ne_of_mem_of_not_mem hOther hNot)) hRows hDrafts⟩
  unfold Locals.Phases
  rw [hInFlight]
  refine PhaseOk.leave (s := locals.st) hPhase id (fun _ h => hInFlight ▸ h) hOthers
    (by rw [hRunning]) (by rw [hRunning]; exact hNot) fun _ _ => ?_
  obtain ⟨hKnown, hUnfinished⟩ := hOk.queues.live_of_queued hMem
  have hLive := hPhase.live id hKnown hUnfinished
  rw [hRequests, Function.update_self]
  exact ⟨hLive.pos, hLive.fits, hLive.placeholders, hLive.drafts⟩

/-- The step once a waiting loop is over. -/
def StepOk (cfg : Config) (locals : Locals H) : Prop :=
  locals.st.staleAdmissions = [] → locals.Phases cfg ∧ StepPhase cfg locals

theorem waitingTokens_ge_two {cfg : Config} (hNever : cfg.NeverOne) {request : Request}
    {numComputedTokens : Nat} (hSome : request.waitingTokens cfg numComputedTokens ≠ 0)
    (hLeft : numComputedTokens + 1 < request.numTokens) :
    2 ≤ request.waitingTokens cfg numComputedTokens := by
  obtain ⟨hBudget, hThreshold⟩ := hNever
  unfold Request.waitingTokens at hSome ⊢
  dsimp only at hSome ⊢
  split <;> rename_i hCap <;> simp only [hCap, if_false] at hSome <;> omega

theorem waitingTokens_eq_one {cfg : Config} (hNever : cfg.NeverOne) {request : Request}
    {numComputedTokens : Nat} (hOne : request.waitingTokens cfg numComputedTokens = 1) :
    request.numTokens = numComputedTokens + 1 := by
  by_contra hNot
  have hLeft : numComputedTokens + 1 < request.numTokens := by
    unfold Request.waitingTokens at hOne
    dsimp only at hOne
    split at hOne <;> omega
  have hTwo := waitingTokens_ge_two hNever (by omega) hLeft
  omega

theorem waitingTokens_le (cfg : Config) (request : Request) (numComputedTokens : Nat) :
    request.waitingTokens cfg numComputedTokens ≤ request.numTokens - numComputedTokens ∧
      request.waitingTokens cfg numComputedTokens ≤ cfg.maxNumScheduledTokens := by
  unfold Request.waitingTokens
  dsimp only
  split <;> omega

/-- Unless it is the last, a chunk has the whole budget. -/
theorem waitingTokens_chunk (cfg : Config) (request : Request) (numComputedTokens : Nat) :
    cfg.longPrefillTokenThreshold = 0 →
      numComputedTokens + request.waitingTokens cfg numComputedTokens + 1 < request.numTokens →
      request.waitingTokens cfg numComputedTokens = cfg.maxNumScheduledTokens := by
  intro hThreshold hMore
  unfold Request.waitingTokens at hMore ⊢
  simp only [hThreshold, Nat.lt_irrefl, false_and, if_false] at hMore ⊢
  omega

/-- A clean admission: no step in flight has the request. -/
theorem admitWaiting_clean {locals : Locals H} {id : ReqId} {numComputedTokens : Nat}
    (numNewTokens : Nat)
    (hClean : (locals.admitWaiting id numComputedTokens numNewTokens).st.staleAdmissions = []) :
    locals.st.staleAdmissions = [] ∧ pendingTokens id locals.st.inFlight = 0 := by
  simp only [Locals.admitWaiting] at hClean
  split at hClean
  · simp at hClean
  · rename_i hNone
    refine ⟨hClean, pendingTokens_eq_zero fun output hMem hIn => hNone ?_⟩
    rw [List.any_eq_true]
    refine ⟨output, hMem, ?_⟩
    rw [Option.isSome_iff_ne_none, ne_eq, List.lookup_eq_none_iff]
    obtain ⟨row, hRow, rfl⟩ := List.mem_map.mp hIn
    intro hAll
    simpa using hAll row hRow

section Seated

variable {cfg : Config} {hashing : Hashing H X} {up : Upstream H} {id : ReqId} {numNewTokens : Nat}
  {start locals : Locals H} {found : Locals.Computed} {kv : Manager H} {newBlocks : Blocks}
  {ops : List KVCacheCopyOp}

/-- A request that enters the step behind decodes, without a step of its own in flight. -/
theorem Seated.phases
    (hSeated : Seated cfg hashing up id numNewTokens start locals found kv newBlocks ops)
    (hPhase : locals.Phases cfg) (hStep : DecodeStep cfg locals)
    (hPending : pendingTokens id locals.st.inFlight = 0) (hBudget : cfg.maxNumScheduledTokens ≠ 0) (numTokens : Nat) :
    ((locals.seatWaiting kv ops).admitWaiting id found.numComputedTokens numTokens).Phases cfg := by
  have hMem := hSeated.queued_locals
  obtain ⟨hKnown, hUnfinished⟩ := hSeated.ok.queues.live_of_queued hMem
  have hLive := hPhase.live id hKnown hUnfinished
  have hSelf : ((locals.seatWaiting kv ops).admitWaiting id found.numComputedTokens
      numTokens).st.requests id = { locals.st.requests id with
        status := .running, numComputedTokens := found.numComputedTokens } :=
    Function.update_self ..
  refine PhaseOk.enter (s := locals.st) hPhase id rfl (fun other hNe => Function.update_of_ne hNe ..)
    rfl (hSeated.ok.queues.notMem_running_of_queued hMem) hStep.running ?_ ?_ hBudget
  · rw [hSelf]
    exact ⟨hLive.pos, hLive.fits, hLive.placeholders, hLive.drafts⟩
  · have hZero : pendingTokens id ((locals.seatWaiting kv ops).admitWaiting id
        found.numComputedTokens numTokens).st.inFlight = 0 := hPending
    rw [hSelf]
    refine ⟨fun _ => hZero, fun hDecode => ?_⟩
    rw [hZero]
    exact Request.not_isPrefill_iff.mp hDecode

/-- A decode-ready request joins the batch with one token. -/
theorem Seated.joins
    (hSeated : Seated cfg hashing up id numNewTokens start locals found kv newBlocks ops)
    (hPhase : locals.Phases cfg) (hStep : DecodeStep cfg locals)
    (hPending : pendingTokens id locals.st.inFlight = 0)
    (hOne : (locals.st.requests id).numTokens = found.numComputedTokens + 1) :
    DecodeStep cfg { (locals.seatWaiting kv ops).admitWaiting id found.numComputedTokens 1 with
      admitted := locals.admitted + 1 } := by
  have hMem := hSeated.queued_locals
  have hNot := hSeated.ok.queues.notMem_running_of_queued hMem
  have hNotKey : id ∉ locals.numScheduledTokens.map Prod.fst := fun hIn =>
    hNot (hSeated.ok.books.running id (hSeated.ok.books.mem_iff.mp hIn))
  obtain ⟨hKnown, hUnfinished⟩ := hSeated.ok.queues.live_of_queued hMem
  have hLive := hPhase.live id hKnown hUnfinished
  have hPlaceholders : (locals.st.requests id).numOutputPlaceholders = 0 := by
    rw [hLive.placeholders, hPending]
    split <;> rfl
  have hSelf : ((locals.seatWaiting kv ops).admitWaiting id found.numComputedTokens 1).st.requests id =
      { locals.st.requests id with
        status := .running, numComputedTokens := found.numComputedTokens } :=
    Function.update_self ..
  have hOther : ∀ other, other ≠ id → ((locals.seatWaiting kv ops).admitWaiting id
      found.numComputedTokens 1).st.requests other = locals.st.requests other := fun other hNe =>
    Function.update_of_ne hNe ..
  have hZero : pendingTokens id ((locals.seatWaiting kv ops).admitWaiting id
      found.numComputedTokens 1).st.inFlight = 0 := hPending
  refine ⟨fun other hRuns => ?_, fun row hRow => ?_, fun other hOut => ?_, hStep.bound⟩
  · by_cases hEq : other = id
    · subst hEq
      rw [Request.not_isPrefill_iff]
      dsimp only
      rw [hSelf]
      exact hOne.le
    · dsimp only
      rw [hOther other hEq]
      refine hStep.running other ?_
      simpa [Locals.admitWaiting, Locals.seatWaiting, State.popWaiting, State.modifyRequest, hEq]
        using hRuns
  · rcases List.mem_append.mp hRow with hRow | hRow
    · have hSame := hOther row.1 (ne_of_mem_of_not_mem (List.mem_map_of_mem hRow) hNotKey)
      exact (hStep.rows row hRow).congr rfl (by rw [hSame]) (by rw [hSame]) (by rw [hSame]) rfl
    · rw [List.mem_singleton.mp hRow]
      refine ⟨?_, ?_, ?_⟩
      · dsimp only
        rw [hSelf, hZero]
        exact hOne
      · dsimp only
        rw [hSelf]
        dsimp only
        rw [hPlaceholders]
        exact hOne
      · have hNone : locals.scheduledSpecDecodeTokens id = [] := hStep.unscheduled id hNotKey
        change 1 = (locals.scheduledSpecDecodeTokens id).length + 1
        rw [hNone]
        rfl
  · refine hStep.unscheduled other fun hIn => hOut ?_
    simp only [Locals.admitWaiting, List.map_append, List.mem_append]
    exact .inl hIn

/-- The guard on prefills sees one in every request that will need two tokens. -/
theorem Seated.isPrefill
    (hSeated : Seated cfg hashing up id numNewTokens start locals found kv newBlocks ops)
    (hLeft : found.numComputedTokens + 1 < (locals.st.requests id).numTokens) :
    (locals.st.requests id).isPrefill = true := by
  obtain ⟨_, _, _, _, hEq, -⟩ := hSeated.search.looked.keeps
  have hSame : locals.st.requests id = start.st.requests id := by rw [hEq]
  rw [hSame] at hLeft ⊢
  rw [Request.isPrefill_iff]
  rcases hSeated.search.computed with ⟨hZero, -⟩ | ⟨-, -, -, hComputed⟩ <;> omega

/-- The rows of a step that a prefill takes for itself. -/
theorem Seated.aloneRows
    (hSeated : Seated cfg hashing up id numNewTokens start locals found kv newBlocks ops)
    (hNone : locals.scheduledNewReqs = [] ∧ locals.scheduledResumedReqs = []) (numTokens : Nat) :
    (((locals.seatWaiting kv ops).admitWaiting id found.numComputedTokens numTokens).evictDecodes
      cfg).numScheduledTokens = [(id, numTokens)] := by
  rw [evictDecodes_eq cfg (hSeated.startRunning _ _).scheduledRunning_nodup]
  have hNot : id ∉ locals.scheduledRunningReqs := fun hIn =>
    hSeated.ok.queues.notMem_running_of_queued hSeated.queued_locals
      (hSeated.ok.books.running id (by simp [Locals.scheduledReqs, hIn]))
  have hGone : locals.numScheduledTokens.filter (·.1 ∉ locals.scheduledRunningReqs) = [] := by
    rw [List.filter_eq_nil_iff]
    intro row hRow
    have hIn := hSeated.ok.books.mem_iff.mp (List.mem_map_of_mem hRow)
    simpa [Locals.scheduledReqs, hNone] using hIn
  change (locals.numScheduledTokens ++ [(id, numTokens)]).filter
    (·.1 ∉ locals.scheduledRunningReqs) = _
  rw [List.filter_append, hGone]
  simp [hNot]

theorem Seated.alone (hNever : cfg.NeverOne)
    (hSeated : Seated cfg hashing up id
      ((locals.st.requests id).waitingTokens cfg found.numComputedTokens) start locals found kv
        newBlocks ops)
    (hPhase : locals.Phases cfg) (hStep : DecodeStep cfg locals)
    (hPending : pendingTokens id locals.st.inFlight = 0)
    (hSome : (locals.st.requests id).waitingTokens cfg found.numComputedTokens ≠ 0)
    (hLeft : found.numComputedTokens + 1 < (locals.st.requests id).numTokens)
    (hGuard : ¬ ((locals.st.requests id).isPrefill = true ∧
      (locals.scheduledNewReqs ≠ [] ∨ locals.scheduledResumedReqs ≠ []))) :
    (((locals.seatWaiting kv ops).admitWaiting id found.numComputedTokens
      ((locals.st.requests id).waitingTokens cfg found.numComputedTokens)).evictDecodes cfg).Phases
        cfg ∧
    StepPhase cfg (((locals.seatWaiting kv ops).admitWaiting id found.numComputedTokens
      ((locals.st.requests id).waitingTokens cfg found.numComputedTokens)).evictDecodes cfg) := by
  have hNone : locals.scheduledNewReqs = [] ∧ locals.scheduledResumedReqs = [] := by
    by_contra hNot
    refine hGuard ⟨hSeated.isPrefill hLeft, ?_⟩
    by_contra hBoth
    simp only [not_or, not_not] at hBoth
    exact hNot hBoth
  obtain ⟨hOwn, hBudget⟩ := waitingTokens_le cfg (locals.st.requests id) found.numComputedTokens
  have hTwo := waitingTokens_ge_two hNever hSome hLeft
  have hRows := hSeated.aloneRows hNone
    ((locals.st.requests id).waitingTokens cfg found.numComputedTokens)
  have hChunk := waitingTokens_chunk cfg (locals.st.requests id) found.numComputedTokens
  generalize (locals.st.requests id).waitingTokens cfg found.numComputedTokens = numTokens
    at hSeated hOwn hBudget hTwo hRows hChunk ⊢
  have hEntered := hSeated.phases hPhase hStep hPending (by omega) numTokens
  have hNot : id ∉ locals.scheduledRunningReqs := fun hIn =>
    hSeated.ok.queues.notMem_running_of_queued hSeated.queued_locals
      (hSeated.ok.books.running id (by simp [Locals.scheduledReqs, hIn]))
  have hNotKey : id ∉ locals.numScheduledTokens.map Prod.fst := fun hIn =>
    hSeated.ok.queues.notMem_running_of_queued hSeated.queued_locals
      (hSeated.ok.books.running id (hSeated.ok.books.mem_iff.mp hIn))
  have hEvict := evictDecodes_eq cfg
    (hSeated.startRunning found.numComputedTokens numTokens).scheduledRunning_nodup
  constructor
  · rw [hEvict]
    refine PhaseOk.redraft hEntered rfl rfl (fun other => ?_) fun other hKnown hUnfinished => ?_
    · simp only [Locals.withoutDecodes]
      split <;> exact ⟨rfl, rfl⟩
    · simp only [Locals.withoutDecodes] at hKnown hUnfinished ⊢
      split
      · exact hStep.bound other
      · rename_i hOut
        rw [if_neg hOut] at hKnown hUnfinished
        exact (hEntered.live other hKnown hUnfinished).drafts
  · refine .inl ⟨id, numTokens, hRows, ?_⟩
    have hNoDrafts := hStep.unscheduled id hNotKey
    have hRequest : (((locals.seatWaiting kv ops).admitWaiting id found.numComputedTokens
        numTokens).evictDecodes cfg).st.requests id = { locals.st.requests id with
          status := .running, numComputedTokens := found.numComputedTokens } := by
      rw [hEvict]
      simp [Locals.withoutDecodes, Locals.admitWaiting, Locals.seatWaiting, State.modifyRequest,
        State.popWaiting, hNot]
    have hDrafts : (((locals.seatWaiting kv ops).admitWaiting id found.numComputedTokens
        numTokens).evictDecodes cfg).scheduledSpecDecodeTokens id = [] := by
      rw [hEvict]
      simp [Locals.withoutDecodes, Locals.admitWaiting, Locals.seatWaiting, hNoDrafts]
    refine ⟨?_, ?_, ?_, ?_⟩
    · rw [hRequest, Request.isPrefill_iff]
      exact hLeft
    · rw [hRequest, hDrafts]
      change 0 = found.numComputedTokens + numTokens - (locals.st.requests id).numTokens
      omega
    · rw [hDrafts]
      exact hTwo
    · rw [hRequest]
      exact hChunk

end Seated

theorem phase_waiting (cfg : Config) (hashing : Hashing H X) (up : Upstream H)
    (hNever : cfg.NeverOne) : WaitingRule cfg hashing up (DecodeOk cfg) (StepOk cfg) where
  last hInv hClean := ⟨(hInv hClean).1, .inr (hInv hClean).2.rows⟩
  skip {locals id} hOk hInv _ hMem hClean := by
    obtain ⟨hPhase, hStep⟩ := hInv hClean
    exact ⟨hPhase.congr rfl rfl rfl, hStep.idle hOk.books rfl rfl (fun _ _ => rfl) rfl rfl⟩
  promote {locals id} numLoadedTokens hOk hInv _ hMem _ _ := by
    obtain ⟨status, numComputedTokens, hRequests, hInFlight, hRunning, hStale⟩ :=
      promoteRequest_requests cfg hashing locals id numLoadedTokens
    obtain ⟨st, hEq, -⟩ := promoteRequest_eq cfg hashing locals id numLoadedTokens
    exact hInv.waiting hOk hMem hRequests hInFlight hRunning hStale (by rw [hEq]) (by rw [hEq])
  look {locals locals' id found} hOk hInv _ hMem hFound := by
    obtain ⟨kv, pins, unpins, subBlockMatch, rfl, -, -⟩ := hFound.looked.keeps
    intro hClean
    obtain ⟨hPhase, hStep⟩ := hInv hClean
    exact ⟨hPhase.congr rfl rfl rfl, hStep.idle hOk.books rfl rfl (fun _ _ => rfl) rfl rfl⟩
  await _ hInv hSeated _ _ :=
    hInv.waiting hSeated.ok hSeated.queued_locals rfl rfl rfl rfl rfl rfl
  join {start locals id found kv newBlocks ops} _ hInv hSeated _ _ hOne _ _ hClean := by
    obtain ⟨hBefore, hPending⟩ := admitWaiting_clean 1 hClean
    obtain ⟨hPhase, hStep⟩ := hInv hBefore
    have hLess := (waitingTokens_le cfg (locals.st.requests id) found.numComputedTokens).2
    exact ⟨hSeated.phases hPhase hStep hPending (by omega) 1,
      hSeated.joins hPhase hStep hPending (waitingTokens_eq_one hNever hOne)⟩
  alone {start locals id found kv newBlocks ops} _ hInv hSeated _ _ hSome hLeft hGuard hClean := by
    rw [evictDecodes_eq cfg (hSeated.startRunning _ _).scheduledRunning_nodup] at hClean
    obtain ⟨hBefore, hPending⟩ := admitWaiting_clean
      ((locals.st.requests id).waitingTokens cfg found.numComputedTokens) hClean
    obtain ⟨hPhase, hStep⟩ := hInv hBefore
    exact hSeated.alone hNever hPhase hStep hPending hSome (by omega) hGuard

theorem StepOk.leave {cfg : Config} {locals : Locals H} (hInv : StepOk cfg locals) :
    StepOk cfg (locals.leaveWaitingLoop cfg) := by
  have hSt : (locals.leaveWaitingLoop cfg).st.requests = locals.st.requests ∧
      (locals.leaveWaitingLoop cfg).st.inFlight = locals.st.inFlight ∧
      (locals.leaveWaitingLoop cfg).st.running = locals.st.running ∧
      (locals.leaveWaitingLoop cfg).st.staleAdmissions = locals.st.staleAdmissions := by
    unfold Locals.leaveWaitingLoop
    dsimp only
    split <;> exact ⟨rfl, rfl, rfl, rfl⟩
  obtain ⟨hRequests, hInFlight, hRunning, hStale⟩ := hSt
  intro hClean
  rw [hStale] at hClean
  obtain ⟨hPhase, hStep⟩ := hInv hClean
  refine ⟨hPhase.congr hRequests hInFlight hRunning, ?_⟩
  rcases hStep with ⟨id, numNewTokens, hRows, hRow⟩ | hRows
  · refine .inl ⟨id, numNewTokens, hRows, ?_⟩
    obtain ⟨hPrefill, hLength, hBase, hChunk⟩ := hRow
    constructor
    · rw [hRequests]
      exact hPrefill
    · rw [hRequests]
      exact hLength
    · exact hBase
    · rw [hRequests]
      exact hChunk
  · exact .inr fun row hRow => (hRows row hRow).congr hInFlight (by rw [hRequests])
      (by rw [hRequests]) (by rw [hRequests]) rfl

/-! ### One call -/

theorem PrefillOk.step {cfg : Config} {up : Upstream H} {id : ReqId} {locals : Locals H}
    (hInv : PrefillOk cfg up id locals) : StepOk cfg locals := by
  intro hClean
  obtain ⟨hPhase, hStep⟩ := hInv hClean
  refine ⟨hPhase, ?_⟩
  cases hStep with
  | ahead _ _ hRows _ _ _ => exact .inr (by simp [hRows])
  | given numNewTokens _ hRows hRow _ => exact .inl ⟨id, numNewTokens, hRows, hRow⟩
  | gone hRows _ _ => exact .inr (by simp [hRows])

/-- With a prefill running, the waiting loop is passed over. -/
theorem PrefillStep.skipsWaiting {cfg : Config} {up : Upstream H} {id : ReqId} {locals : Locals H}
    (hStep : PrefillStep cfg up id locals) (hPhase : locals.Phases cfg) (hOk : RunningOk cfg locals)
    (hDone : locals.RunningDone) : locals.skipsWaiting up := by
  cases hStep with
  | ahead hMem hPrefill hRows hBudget hAhead hFirst =>
      by_cases hPreempted : locals.preemptedReqs = []
      · right; left
        by_contra hRuns
        have hOne := hFirst hPreempted
        unfold Locals.numAhead at hOne
        rcases hDone with hNone | hZero | hSome | hSome
        · rw [List.getElem?_eq_none_iff] at hNone
          omega
        · rw [if_neg hRuns] at hBudget
          exact hPhase.busy (List.ne_nil_of_mem hMem) (hBudget.symm.trans hZero)
        · exact hSome hPreempted
        · exact hSome (hOk.scheduled_nil hRows)
      · exact .inl hPreempted
  | given numNewTokens hMem hRows hRow hAhead =>
      right; right; right
      have hKeys := hOk.books.keys
      rw [hRows, hOk.scheduledReqs_eq] at hKeys
      have hOnly : locals.scheduledRunningReqs = [id] := hKeys.singleton_eq.symm
      exact ⟨id, by simp [hOnly], hRow.prefill⟩
  | gone hRows hAhead hPreempted => exact .inl hPreempted

theorem CleanPhase.loops {cfg : Config} {hashing : Hashing H X} {up : Upstream H}
    (hNever : cfg.NeverOne) {s : State H} (hQueues : Queues cfg s []) (hPhase : CleanPhase cfg s)
    {locals : Locals H} (hLoops : Locals.loops cfg hashing up s = some locals) :
    StepOk cfg locals := by
  by_cases hLast : ∃ id ∈ s.running.getLast?, (s.requests id).isPrefill = true
  · obtain ⟨id, hLast, hPrefill⟩ := hLast
    have hMem : id ∈ s.running := List.mem_of_getLast? hLast
    have hLength : 0 < s.running.length := List.length_pos_of_mem hMem
    have hIndex : (Locals.start cfg up s).reqIndex = s.running.length - 1 := by
      simp only [Locals.start, Option.mem_def.mp hLast, hPrefill, if_true]
    have hStart : PrefillOk cfg up id (Locals.start cfg up s) := by
      intro hClean
      have hAhead : (Locals.start cfg up s).numAhead = 1 := by
        unfold Locals.numAhead
        rw [hIndex]
        change s.running.length - _ = 1
        omega
      exact ⟨hPhase hClean, .ahead hMem hPrefill rfl rfl hAhead.le fun _ => hAhead⟩
    refine (loops_rule (StepOk cfg) (prefill_running cfg hashing up hNever id)
      (phase_waiting cfg hashing up hNever) hQueues hStart (fun _ _ hInv _ => hInv.step) ?_
      (fun _ _ hLast => hLast.leave) hLoops).2
    intro mid hOk hInv hDone hEnters hClean
    obtain ⟨hMid, hStep⟩ := hInv hClean
    exact absurd (hStep.skipsWaiting hMid hOk hDone) hEnters
  · have hStart : DecodeOk cfg (Locals.start cfg up s) := by
      intro hClean
      have hOk := hPhase hClean
      refine ⟨hOk, ?_, by simp [Locals.start], fun _ _ => rfl, fun _ => Nat.zero_le _⟩
      intro id hMem
      change (s.requests id).isPrefill = false
      by_contra hNot
      have hPrefill : (s.requests id).isPrefill = true := by simpa using hNot
      exact hLast ⟨id, hOk.getLast hMem hPrefill, hPrefill⟩
    exact (loops_rule (StepOk cfg) (decode_running cfg hashing up)
      (phase_waiting cfg hashing up hNever) hQueues hStart
      (fun _ _ hInv _ => (phase_waiting cfg hashing up hNever).last hInv) (fun _ _ hInv _ _ => hInv)
      (fun _ _ hLast => hLast.leave) hLoops).2

/-- A scheduled request once it is advanced; `pending` now counts its new step too. -/
theorem advanced_phase {cfg : Config} {pending numNewTokens : Nat} {drafts : List Token}
    {request : Request} (hLive : request.Live cfg pending)
    (hRow : request.isPrefill = true ∧ pending = 0 ∧
        drafts.length = request.numComputedTokens + numNewTokens - request.numTokens ∨
      request.numTokens + pending = request.numComputedTokens + 1 ∧
        request.numTokens + request.numOutputPlaceholders = request.numComputedTokens + 1 ∧
        numNewTokens = drafts.length + 1) :
    let samples := request.numTokens + request.numOutputPlaceholders ≤
      request.numComputedTokens + numNewTokens
    let pending' := pending + if samples then drafts.length + 1 else 0
    (advanceRequest cfg numNewTokens drafts request).Live cfg pending' ∧
      (advanceRequest cfg numNewTokens drafts request).Phased pending' := by
  intro samples pending'
  obtain ⟨-, -, hTokens, hComputed⟩ := advanceRequest_keeps cfg numNewTokens drafts request
  have hLength : (advanceRequest cfg numNewTokens drafts request).numTokens = request.numTokens := by
    unfold Request.numTokens
    rw [hTokens]
  have hPlaceholders := hLive.placeholders
  have hSpec : (advanceRequest cfg numNewTokens drafts request).specTokenIds.length ≤
      cfg.numSpecTokens := by
    unfold advanceRequest
    dsimp only
    split
    · simp
    · exact hLive.drafts
  have hNew : (advanceRequest cfg numNewTokens drafts request).numOutputPlaceholders =
      if cfg.asyncScheduling then pending' else 0 := by
    unfold advanceRequest
    dsimp only
    by_cases hAsync : cfg.asyncScheduling = true
    · simp only [hAsync, if_true, true_and] at hPlaceholders ⊢
      by_cases hSamples : samples
      · have hNot : ¬ request.numComputedTokens + numNewTokens <
            request.numTokens + request.numOutputPlaceholders := Nat.not_lt.mpr hSamples
        simp only [hNot, decide_false, Bool.false_eq_true, not_false_eq_true, if_true, pending',
          hSamples]
        omega
      · have hLt : request.numComputedTokens + numNewTokens <
            request.numTokens + request.numOutputPlaceholders := Nat.not_le.mp hSamples
        simp only [hLt, decide_true, not_true_eq_false, if_false, pending', hSamples]
        omega
    · simp only [hAsync, if_false, Bool.false_eq_true, false_and] at hPlaceholders ⊢
      exact hPlaceholders
  refine ⟨⟨hLength ▸ hLive.pos, hLength ▸ hLive.fits, hNew, hSpec⟩, ?_⟩
  constructor <;> intro hPhase
  · rw [Request.isPrefill_iff, hLength, hComputed] at hPhase
    rcases hRow with ⟨-, hZero, -⟩ | ⟨hCovered, -, -⟩
    · have hNot : ¬ samples := by
        simp only [samples]
        omega
      simp only [pending', hNot, if_false]
      omega
    · omega
  · rw [Request.not_isPrefill_iff, hLength, hComputed] at hPhase
    rw [hLength, hComputed]
    simp only [pending']
    rcases hRow with ⟨-, hZero, hDrafts⟩ | ⟨hCovered, -, hNewTokens⟩
    · split
      · rename_i hSamples
        simp only [samples] at hSamples
        omega
      · omega
    · split <;> omega

theorem notMem_keys_of_lookup {rows : List (ReqId × Nat)} {id : ReqId}
    (hNone : rows.lookup id = none) : id ∉ rows.map Prod.fst := by
  rw [List.lookup_eq_none_iff] at hNone
  intro hIn
  obtain ⟨row, hRow, rfl⟩ := List.mem_map.mp hIn
  simpa using hNone row hRow

theorem mem_of_lookup {rows : List (ReqId × Nat)} {id : ReqId} {numNewTokens : Nat}
    (hSome : rows.lookup id = some numNewTokens) : (id, numNewTokens) ∈ rows := by
  obtain ⟨before, after, hRows, -⟩ := List.lookup_eq_some_iff.mp hSome
  simp [hRows]

/-- What a row says about its request, in one form for both phases. -/
theorem StepPhase.row {cfg : Config} {locals : Locals H} (hStep : StepPhase cfg locals)
    (hPhase : locals.Phases cfg) {id : ReqId} (hMem : id ∈ locals.st.running) {numNewTokens : Nat}
    (hRow : (id, numNewTokens) ∈ locals.numScheduledTokens) :
    (locals.st.requests id).isPrefill = true ∧ pendingTokens id locals.st.inFlight = 0 ∧
        (locals.scheduledSpecDecodeTokens id).length =
          (locals.st.requests id).numComputedTokens + numNewTokens -
            (locals.st.requests id).numTokens ∨
      (locals.st.requests id).numTokens + pendingTokens id locals.st.inFlight =
          (locals.st.requests id).numComputedTokens + 1 ∧
        (locals.st.requests id).numTokens + (locals.st.requests id).numOutputPlaceholders =
          (locals.st.requests id).numComputedTokens + 1 ∧
        numNewTokens = (locals.scheduledSpecDecodeTokens id).length + 1 := by
  rcases hStep with ⟨only, numTokens, hRows, hPrefill⟩ | hRows
  · rw [hRows, List.mem_singleton] at hRow
    cases hRow
    exact .inl ⟨hPrefill.prefill, (hPhase.phased id hMem).prefill hPrefill.prefill, hPrefill.drafts⟩
  · have hDecode := hRows (id, numNewTokens) hRow
    exact .inr ⟨hDecode.covered, hDecode.placeholders, hDecode.tokens⟩

theorem StepOk.finish {cfg : Config} (hashing : Hashing H X) {locals : Locals H}
    (hInv : StepOk cfg locals) (hOk : LoopsOk cfg locals) :
    CleanPhase cfg (locals.finish cfg hashing) := by
  intro hClean
  obtain ⟨hPhase, hStep⟩ := hInv hClean
  have hPending : ∀ id, pendingTokens id (locals.finish cfg hashing).inFlight =
      pendingTokens id locals.st.inFlight + locals.output.pendingTokens id := by
    intro id
    change pendingTokens id (locals.st.inFlight ++ [locals.output]) = _
    rw [pendingTokens_append]
    rfl
  have hIdle : ∀ id, locals.numScheduledTokens.lookup id = none →
      (locals.finish cfg hashing).requests id = locals.st.requests id ∧
        pendingTokens id (locals.finish cfg hashing).inFlight =
          pendingTokens id locals.st.inFlight := by
    intro id hNone
    refine ⟨by simp [Locals.finish, hNone], ?_⟩
    rw [hPending, locals.output.pendingTokens_of_notMem (notMem_keys_of_lookup hNone), Nat.add_zero]
  -- a scheduled request keeps its phase, or a prefill becomes a decode
  have hAdvanced : ∀ id numNewTokens, locals.numScheduledTokens.lookup id = some numNewTokens →
      ((locals.finish cfg hashing).requests id).Live cfg
          (pendingTokens id (locals.finish cfg hashing).inFlight) ∧
        ((locals.finish cfg hashing).requests id).Phased
          (pendingTokens id (locals.finish cfg hashing).inFlight) := by
    intro id numNewTokens hSome
    have hRow := mem_of_lookup hSome
    have hKey : id ∈ locals.numScheduledTokens.map Prod.fst := List.mem_map_of_mem hRow
    have hMem := hOk.books.running id (hOk.books.mem_iff.mp hKey)
    have hStatus := (hOk.queues.request id).running.mp hMem
    have hLive := hPhase.live id (by simp [hStatus]) (by simp [hStatus])
    have hNew : locals.output.pendingTokens id =
        if (locals.st.requests id).numTokens + (locals.st.requests id).numOutputPlaceholders ≤
          (locals.st.requests id).numComputedTokens + numNewTokens then
        (locals.scheduledSpecDecodeTokens id).length + 1 else 0 := by
      simp only [SchedulerOutput.pendingTokens, Locals.output, hKey, true_and, hSome, Option.getD_some,
        decide_eq_true_eq]
    have hRequest : (locals.finish cfg hashing).requests id = advanceRequest cfg numNewTokens
        (locals.scheduledSpecDecodeTokens id) (locals.st.requests id) := by
      simp [Locals.finish, hSome]
    rw [hPending, hNew, hRequest]
    exact advanced_phase hLive (hStep.row hPhase hMem hRow)
  have hGrows : ∀ id, ((locals.finish cfg hashing).requests id).isPrefill = true →
      (locals.st.requests id).isPrefill = true := by
    intro id hPrefill
    cases hLookup : locals.numScheduledTokens.lookup id with
    | none => exact (hIdle id hLookup).1 ▸ hPrefill
    | some numNewTokens =>
        obtain ⟨-, -, hTokens, hComputed⟩ := advanceRequest_keeps cfg numNewTokens
          (locals.scheduledSpecDecodeTokens id) (locals.st.requests id)
        have hRequest : (locals.finish cfg hashing).requests id = advanceRequest cfg numNewTokens
            (locals.scheduledSpecDecodeTokens id) (locals.st.requests id) := by
          simp [Locals.finish, hLookup]
        rw [hRequest, Request.isPrefill_iff, Request.numTokens, hTokens, hComputed] at hPrefill
        rw [Request.isPrefill_iff, Request.numTokens]
        omega
  refine ⟨fun output hMem => ?_, fun id hKnown hUnfinished => ?_, fun id hMem => ?_, ?_, hPhase.busy⟩
  · rcases List.mem_append.mp hMem with hMem | hMem
    · exact hPhase.rows output hMem
    · rw [List.mem_singleton.mp hMem]
      exact hOk.books.keys.nodup_iff.mpr hOk.books.nodup
  · cases hLookup : locals.numScheduledTokens.lookup id with
    | none =>
        obtain ⟨hRequest, hSame⟩ := hIdle id hLookup
        rw [hRequest] at hKnown hUnfinished ⊢
        rw [hSame]
        exact hPhase.live id hKnown hUnfinished
    | some numNewTokens => exact (hAdvanced id numNewTokens hLookup).1
  · cases hLookup : locals.numScheduledTokens.lookup id with
    | none =>
        obtain ⟨hRequest, hSame⟩ := hIdle id hLookup
        rw [hRequest, hSame]
        exact hPhase.phased id hMem
    | some numNewTokens => exact (hAdvanced id numNewTokens hLookup).2
  · refine hPhase.order.imp fun {id _} hDecode => ?_
    by_contra hNot
    have hPrefill := hGrows id (by simpa using hNot)
    rw [hDecode] at hPrefill
    cases hPrefill

/-! ### Processing an output -/

theorem appendTokens_goes {cfg : Config} {stops : Nat → Bool} {request : Request}
    {tokens : List Token} (hGoes : (request.appendTokens cfg stops tokens).2 = false) :
    (request.appendTokens cfg stops tokens).1 =
        { request with allTokenIds := request.allTokenIds ++ tokens } ∧
      (tokens ≠ [] → request.numTokens + tokens.length < cfg.maxModelLen) := by
  induction tokens generalizing request with
  | nil => simp [Request.appendTokens]
  | cons token tokens ih =>
      simp only [Request.appendTokens] at hGoes ⊢
      split at hGoes
      · cases hGoes
      · rename_i hOn
        rw [if_neg hOn]
        obtain ⟨hEq, hFits⟩ := ih hGoes
        refine ⟨by rw [hEq]; simp, fun _ => ?_⟩
        unfold Request.stopped at hOn
        simp only [decide_eq_true_eq, not_or, Nat.not_le, Request.numTokens, List.length_append,
          List.length_singleton] at hOn hFits ⊢
        cases tokens with
        | nil => simpa using hOn.1
        | cons next tokens =>
            have hNext := hFits (by simp)
            simp only [List.length_cons] at hNext ⊢
            omega

theorem receive_goes {cfg : Config} {stops : Nat → Bool} {request : Request} {tokens : List Token}
    (hGoes : (request.receive cfg stops tokens).2 = false) :
    (request.receive cfg stops tokens).1 = { request with
        allTokenIds := request.allTokenIds ++ tokens
        numOutputPlaceholders := if cfg.asyncScheduling then
          request.numOutputPlaceholders - tokens.length else request.numOutputPlaceholders } ∧
      (tokens ≠ [] → request.numTokens + tokens.length < cfg.maxModelLen) := by
  unfold Request.receive at hGoes ⊢
  dsimp only at hGoes ⊢
  split at hGoes
  · obtain ⟨hEq, hFits⟩ := appendTokens_goes hGoes
    refine ⟨?_, hFits⟩
    rename_i hAsync
    simp [hAsync, hEq, Request.numTokens]
  · obtain ⟨hEq, hFits⟩ := appendTokens_goes hGoes
    refine ⟨?_, hFits⟩
    rename_i hSync
    simp [hSync, hEq]

theorem generated_length (result : RunnerOutput) (output : SchedulerOutput) (id : ReqId) :
    if output.samples id = true then 0 < (result.generated output id).length ∧
        (result.generated output id).length ≤ (output.scheduledSpecDecodeTokens id).length + 1
      else result.generated output id = [] := by
  unfold RunnerOutput.generated
  split
  · simp only [List.length_cons, List.length_take]
    omega
  · rfl

/-- What a request that goes on is after a step of it: the tokens sampled are appended and
the rejected drafts taken back, in all as many as the step accounted for. -/
theorem afterOutput_goes {cfg : Config} {result : RunnerOutput} {output : SchedulerOutput}
    {id : ReqId} (hKey : id ∈ output.numScheduledTokens.map Prod.fst) {pending : Nat}
    {request : Request} (hLive : request.Live cfg (pending + output.pendingTokens id))
    (hGoes : (request.afterOutput cfg result output id).2 = false) :
    let received := (request.afterOutput cfg result output id).1
    received.Live cfg pending ∧ (request.Phased (pending + output.pendingTokens id) →
      received.Phased pending ∧ (received.isPrefill = true → request.isPrefill = true ∧
        received.numComputedTokens = request.numComputedTokens)) := by
  have hLength := generated_length result output id
  have hPending : output.pendingTokens id = if output.samples id = true then
      (output.scheduledSpecDecodeTokens id).length + 1 else 0 := by
    simp [SchedulerOutput.pendingTokens, hKey]
  unfold Request.afterOutput at hGoes ⊢
  dsimp only at hGoes ⊢
  generalize result.generated output id = generated at hLength hGoes ⊢
  generalize hRejected : (if generated = [] then 0 else
    (output.scheduledSpecDecodeTokens id).length + 1 - generated.length) = numRejected at hGoes ⊢
  have hSum : numRejected + generated.length = output.pendingTokens id ∧
      (generated = [] → output.pendingTokens id = 0) := by
    rw [hPending, ← hRejected]
    split at hLength
    · rename_i hSamples
      have hNe : generated ≠ [] := List.ne_nil_of_length_pos hLength.1
      rw [if_neg hNe, if_pos hSamples]
      exact ⟨by omega, fun hNil => absurd hNil hNe⟩
    · rename_i hSilent
      rw [if_pos hLength, if_neg hSilent]
      simp [hLength]
  obtain ⟨hEq, hFits⟩ := receive_goes hGoes
  have hOld := hLive.placeholders
  have hTokens : ((request.reject numRejected).receive cfg (result.stops id) generated).1.numTokens =
      request.numTokens + generated.length := by
    rw [hEq]
    exact List.length_append
  have hComputed : ((request.reject numRejected).receive cfg (result.stops id)
      generated).1.numComputedTokens = request.numComputedTokens - numRejected := by
    rw [hEq]
    rfl
  have hSpec : ((request.reject numRejected).receive cfg (result.stops id)
      generated).1.specTokenIds = request.specTokenIds := by
    rw [hEq]
    rfl
  have hPlaceholders : ((request.reject numRejected).receive cfg (result.stops id)
      generated).1.numOutputPlaceholders = if cfg.asyncScheduling then pending else 0 := by
    rw [hEq]
    dsimp only [Request.reject]
    by_cases hAsync : cfg.asyncScheduling = true
    · simp only [hAsync, if_true] at hOld ⊢
      omega
    · simp only [hAsync, if_false, Bool.false_eq_true] at hOld ⊢
      omega
  generalize ((request.reject numRejected).receive cfg (result.stops id) generated).1 = received
    at hTokens hComputed hSpec hPlaceholders ⊢
  have hPos := hLive.pos
  have hNew : received.numTokens < cfg.maxModelLen := by
    rw [hTokens]
    by_cases hNil : generated = []
    · simpa [hNil] using hLive.fits
    · exact hFits hNil
  refine ⟨⟨by omega, hNew, hPlaceholders, hSpec ▸ hLive.drafts⟩, fun hPhased => ?_⟩
  by_cases hPrefill : request.isPrefill = true
  · have hZero := hPhased.prefill hPrefill
    have hNone : generated.length = 0 := by omega
    refine ⟨⟨fun _ => by omega, fun hDecode => ?_⟩, fun _ => ⟨hPrefill, by omega⟩⟩
    rw [Request.not_isPrefill_iff] at hDecode
    omega
  · have hCovered := hPhased.decode (by simpa using hPrefill)
    have hStill : ¬ received.isPrefill = true := by
      rw [Request.isPrefill_iff]
      omega
    exact ⟨⟨fun h => absurd h hStill, fun _ => by omega⟩, fun h => absurd h hStill⟩

/-- One request that keeps its place changes, and what is pending for it. -/
theorem PhaseOk.inPlace {cfg : Config} {pending pending' : ReqId → Nat} {s s' : State H}
    (hPhase : PhaseOk cfg pending s) (id : ReqId) (hInFlight : s'.inFlight = s.inFlight)
    (hRequests : ∀ other, other ≠ id → s'.requests other = s.requests other)
    (hPending : ∀ other, other ≠ id → pending' other = pending other)
    (hRunning : s'.running = s.running) (hLive : (s'.requests id).Live cfg (pending' id))
    (hPhased : id ∈ s.running → (s'.requests id).Phased (pending' id) ∧
      ((s'.requests id).isPrefill = true → (s.requests id).isPrefill = true)) :
    PhaseOk cfg pending' s' := by
  refine ⟨hInFlight ▸ hPhase.rows, fun other hKnown hUnfinished => ?_, fun other hMem => ?_, ?_,
    hRunning ▸ hPhase.busy⟩
  · by_cases hEq : other = id
    · exact hEq ▸ hLive
    · rw [hRequests other hEq] at hKnown hUnfinished ⊢
      rw [hPending other hEq]
      exact hPhase.live other hKnown hUnfinished
  · rw [hRunning] at hMem
    by_cases hEq : other = id
    · subst hEq
      exact (hPhased hMem).1
    · rw [hRequests other hEq, hPending other hEq]
      exact hPhase.phased other hMem
  · rw [hRunning]
    refine List.Pairwise.imp_of_mem (fun {other _} hMem _ hDecode => ?_) hPhase.order
    by_cases hEq : other = id
    · subst hEq
      by_contra hNot
      have hPrefill := (hPhased hMem).2 (by simpa using hNot)
      rw [hDecode] at hPrefill
      cases hPrefill
    · rw [hRequests other hEq]
      exact hDecode

/-- What is pending while an output is processed: for the requests still to be updated it
counts too. -/
def pendingUpdate (output : SchedulerOutput) (inFlight : List SchedulerOutput) (todo : List ReqId)
    (id : ReqId) : Nat :=
  pendingTokens id inFlight + if id ∈ todo then output.pendingTokens id else 0

def CleanUpdate (cfg : Config) (output : SchedulerOutput) (todo : List ReqId) (s : State H) : Prop :=
  s.staleAdmissions = [] → todo.Nodup ∧ (∀ id ∈ todo, id ∈ output.numScheduledTokens.map Prod.fst) ∧
    PhaseOk cfg (pendingUpdate output s.inFlight todo) s

theorem pendingUpdate_of_ne {output : SchedulerOutput} {inFlight : List SchedulerOutput}
    {todo : List ReqId} {id other : ReqId} (hNe : other ≠ id) :
    pendingUpdate output inFlight todo other = pendingUpdate output inFlight (id :: todo) other := by
  simp [pendingUpdate, hNe]

theorem pendingUpdate_nil (output : SchedulerOutput) (inFlight : List SchedulerOutput) :
    pendingUpdate output inFlight [] = fun id => pendingTokens id inFlight := by
  funext id
  simp [pendingUpdate]

/-- A request that is finished constrains nothing. -/
theorem PhaseOk.finished {cfg : Config} {pending pending' : ReqId → Nat} {s s' : State H}
    (hPhase : PhaseOk cfg pending s) (id : ReqId) (hInFlight : s'.inFlight = s.inFlight)
    (hRequests : ∀ other, other ≠ id → s'.requests other = s.requests other)
    (hPending : ∀ other, other ≠ id → pending' other = pending other)
    (hRunning : s'.running = s.running.filter (· ≠ id))
    (hFinished : (s'.requests id).status = .finished) : PhaseOk cfg pending' s' := by
  have hLeft : PhaseOk cfg pending s' := by
    refine hPhase.leave id (fun _ h => hInFlight ▸ h) hRequests (hRunning ▸ List.filter_sublist) ?_
      fun _ hUnfinished => absurd hFinished hUnfinished
    simp [hRunning]
  refine ⟨hLeft.rows, fun other hKnown hUnfinished => ?_, fun other hMem => ?_, hLeft.order,
    hLeft.busy⟩
  · rw [hPending other fun hEq => hUnfinished (hEq ▸ hFinished)]
    exact hLeft.live other hKnown hUnfinished
  · have hNe : other ≠ id := by
      rw [hRunning] at hMem
      simpa using (List.mem_filter.mp hMem).2
    rw [hPending other hNe]
    exact hLeft.phased other hMem

theorem phase_settle (cfg : Config) (hashing : Hashing H X) (result : RunnerOutput)
    (output : SchedulerOutput) :
    SettleRule cfg hashing result output (CleanUpdate cfg output) where
  pass {s id todo} hQueues hInv hGone hClean := by
    obtain ⟨hNodup, hKeys, hPhase⟩ := hInv hClean
    refine ⟨(List.nodup_cons.mp hNodup).2, fun other hMem => hKeys other (List.mem_cons_of_mem _ hMem),
      hPhase.rows, fun other hKnown hUnfinished => ?_, fun other hMem => ?_, hPhase.order,
      hPhase.busy⟩
    · have hNe : other ≠ id := by
        rintro rfl
        exact hGone.elim hKnown hUnfinished
      rw [pendingUpdate_of_ne hNe]
      exact hPhase.live other hKnown hUnfinished
    · have hNe : other ≠ id := by
        rintro rfl
        have hStatus := (hQueues.request other).running.mp hMem
        rw [hStatus] at hGone
        rcases hGone with hGone | hGone <;> cases hGone
      rw [pendingUpdate_of_ne hNe]
      exact hPhase.phased other hMem
  receive {s id todo} _ hInv _ hKnown hUnfinished hGoes hClean := by
    obtain ⟨hNodup, hKeys, hPhase⟩ := hInv hClean
    obtain ⟨hNot, hNodup⟩ := List.nodup_cons.mp hNodup
    have hBefore : pendingUpdate output s.inFlight (id :: todo) id =
        pendingUpdate output s.inFlight todo id + output.pendingTokens id := by
      simp [pendingUpdate, hNot]
    have hLive := hPhase.live id hKnown hUnfinished
    rw [hBefore] at hLive
    obtain ⟨hLive', hPhased'⟩ := afterOutput_goes (hKeys id List.mem_cons_self) hLive hGoes
    refine ⟨hNodup, fun other hMem => hKeys other (List.mem_cons_of_mem _ hMem), ?_⟩
    have hSelf : (s.receiveOutput cfg hashing result output id).requests id =
        ((s.requests id).afterOutput cfg result output id).1 := Function.update_self ..
    refine hPhase.inPlace id rfl (fun other hNe => Function.update_of_ne hNe ..)
      (fun other hNe => pendingUpdate_of_ne hNe) rfl ?_ fun hMem => ?_
    · rw [hSelf]
      exact hLive'
    · have hPhased := hPhase.phased id hMem
      rw [hBefore] at hPhased
      rw [hSelf]
      exact ⟨(hPhased' hPhased).1, fun hPrefill => ((hPhased' hPhased).2 hPrefill).1⟩
  stop {s id todo mode} hQueues hInv hKnown hUnfinished _ _ hClean := by
    obtain ⟨hNodup, hKeys, hPhase⟩ := hInv hClean
    refine ⟨(List.nodup_cons.mp hNodup).2,
      fun other hMem => hKeys other (List.mem_cons_of_mem _ hMem), ?_⟩
    refine hPhase.finished id rfl (fun other hNe => ?_) (fun other hNe => pendingUpdate_of_ne hNe) rfl
      (by simp [State.freeRequest, State.modifyRequest])
    simp [State.freeRequest, State.modifyRequest, State.freeRequestBlocks, State.popWaiting,
      State.receiveOutput, hNe]

/-! ### Runs -/

theorem CleanPhase.keep {cfg : Config} {s s' : State H} (hPhase : CleanPhase cfg s)
    (hRequests : s'.requests = s.requests) (hInFlight : s'.inFlight = s.inFlight)
    (hRunning : s'.running = s.running) (hStale : s'.staleAdmissions = s.staleAdmissions) :
    CleanPhase cfg s' := by
  intro hClean
  have hOld := hPhase (hStale ▸ hClean)
  rw [hInFlight]
  refine hOld.redraft hInFlight hRunning (fun _ => by rw [hRequests]; simp)
    fun other hKnown hUnfinished => ?_
  rw [hRequests] at hKnown hUnfinished ⊢
  exact (hOld.live other hKnown hUnfinished).drafts

/-- The update of the oldest step begins with all its requests still to do. -/
theorem CleanPhase.update {cfg : Config} {s : State H} (hPhase : CleanPhase cfg s)
    {output : SchedulerOutput} {inFlight : List SchedulerOutput}
    (hInFlight : s.inFlight = output :: inFlight) :
    CleanUpdate cfg output (output.numScheduledTokens.map Prod.fst)
      { s with inFlight := inFlight } := by
  intro hClean
  have hOld := hPhase hClean
  refine ⟨hOld.rows output (hInFlight ▸ List.mem_cons_self), fun _ hMem => hMem, ?_⟩
  have hPending : pendingUpdate output inFlight (output.numScheduledTokens.map Prod.fst) =
      fun id => pendingTokens id s.inFlight := by
    funext id
    rw [hInFlight, pendingTokens, pendingUpdate, Nat.add_comm]
    split
    · rfl
    · rename_i hOut
      rw [output.pendingTokens_of_notMem hOut]
  rw [hPending]
  exact ⟨fun other hMem => hOld.rows other (hInFlight ▸ List.mem_cons_of_mem _ hMem), hOld.live,
    hOld.phased, hOld.order, hOld.busy⟩

theorem phase_run {cfg : Config} (hashing : Hashing H X) (hNever : cfg.NeverOne) :
    RunRule cfg hashing (fun _ => True) (CleanPhase cfg) where
  initial := by
    intro _
    refine ⟨?_, fun id hKnown _ => absurd rfl hKnown, ?_, List.Pairwise.nil, fun hSome => ?_⟩
    · simp [State.initial]
    · simp [State.initial]
    · exact absurd rfl hSome
  add {s s' id new} hQueues hPhase hAdd := by
    obtain ⟨hNew, hPrompt, hFits, -, waiting, skippedWaiting, -, rfl⟩ := addRequest_cases hAdd
    intro hClean
    have hUnknown : (s.requests id).status = .unknown := by
      by_contra hKnown
      exact hNew ((hQueues.request id).known.mpr hKnown)
    have hRequest := hQueues.request id
    have hFresh := hRequest.fresh (by simp [hUnknown]) (by simp [hUnknown])
      (hRequest.new_fresh (by rw [hUnknown]; rfl))
    have hZero : pendingTokens id s.inFlight = 0 := pendingTokens_eq_zero hFresh
    refine PhaseOk.leave (s := s) (hPhase hClean) id (fun _ h => h)
      (fun other hNe => Function.update_of_ne hNe ..) (List.Sublist.refl _) ?_ fun _ _ => ?_
    · intro hRuns
      rw [hRequest.running.mp hRuns] at hUnknown
      cases hUnknown
    · simp only [Function.update_self]
      refine ⟨List.length_pos_iff.mpr hPrompt, hFits, ?_, Nat.zero_le _⟩
      rw [hZero]
      simp [NewRequest.toRequest, Request.unknown]
  schedule _ hQueues hPhase _ hLoops hOk _ := (hPhase.loops hNever hQueues hLoops).finish hashing hOk
  update {s result output inFlight} hQueues hPhase hInFlight hPopped hAdmitted := by
    have hDone := (settle_rule (phase_settle cfg hashing result output) hPopped hAdmitted
      (hPhase.update hInFlight)).2
    have hClean : CleanPhase cfg ((output.numScheduledTokens.map Prod.fst).foldl
        (updateRequest cfg hashing result output) { s with inFlight := inFlight }) := by
      intro hClean
      have hPhase := (hDone hClean).2.2
      rw [pendingUpdate_nil] at hPhase
      exact hPhase
    unfold State.settleOutput
    split
    · exact hClean
    · exact hClean.keep rfl rfl rfl rfl
  drafts {s} drafts hQueues hPhase := by
    unfold setDrafts
    dsimp only
    split
    · exact hPhase
    intro hClean
    have hOld := hPhase hClean
    refine PhaseOk.redraft (s := s) hOld rfl rfl (fun other => ?_) fun other hKnown hUnfinished => ?_
    · by_cases hEq : other = drafts.1
      · subst hEq
        simp [State.modifyRequest, Request.core, Request.numTokens]
      · simp [State.modifyRequest, hEq]
    · by_cases hEq : other = drafts.1
      · subst hEq
        simp only [State.modifyRequest, Function.update_self]
        split <;> simp
      · simp only [State.modifyRequest, Function.update_of_ne hEq] at hKnown hUnfinished ⊢
        exact (hOld.live other hKnown hUnfinished).drafts
  free {s id mode} _ hPhase _ _ _ hClean := by
    refine (hPhase hClean).finished id rfl (fun other hNe => Function.update_of_ne hNe ..)
      (fun _ _ => rfl) rfl (by simp [State.freeRequest, State.modifyRequest])
  releaseDeferred _ hPhase _ := hPhase.keep rfl rfl rfl rfl
  freeDelayed _ hPhase _ := hPhase.keep rfl rfl rfl rfl

/-- The step of a call is a prefill alone or has no prefill, and its token counts tell
which. -/
def Locals.OnePhase (locals : Locals H) : Prop :=
  (∃ id numNewTokens, locals.numScheduledTokens = [(id, numNewTokens)] ∧
    (locals.st.requests id).isPrefill = true ∧
    stepIsPrefill locals.numScheduledTokens locals.scheduledSpecDecodeTokens = true) ∨
  (∀ row ∈ locals.numScheduledTokens, (locals.st.requests row.1).isPrefill = false) ∧
    stepIsPrefill locals.numScheduledTokens locals.scheduledSpecDecodeTokens = false

theorem StepPhase.onePhase {cfg : Config} {locals : Locals H} (hStep : StepPhase cfg locals) :
    locals.OnePhase := by
  rcases hStep with ⟨id, numNewTokens, hRows, hRow⟩ | hRows
  · refine .inl ⟨id, numNewTokens, hRows, hRow.prefill, ?_⟩
    have hBase := hRow.base
    simp only [stepIsPrefill, numBaseTokens, hRows, List.any_cons, List.any_nil, List.lookup_cons_self,
      Option.getD_some, Bool.or_false, decide_eq_true_eq]
    omega
  · refine .inr ⟨fun row hRow => (hRows row hRow).decode, ?_⟩
    unfold stepIsPrefill
    rw [List.any_eq_false]
    intro row hRow
    unfold numBaseTokens
    cases hLookup : locals.numScheduledTokens.lookup row.1 with
    | none => exact absurd (List.mem_map_of_mem hRow) (notMem_keys_of_lookup hLookup)
    | some numNewTokens =>
        have hTokens : numNewTokens = (locals.scheduledSpecDecodeTokens row.1).length + 1 :=
          (hRows (row.1, numNewTokens) (mem_of_lookup hLookup)).tokens
        simp only [Option.getD_some, decide_eq_true_eq]
        omega

/-- As long as no request is admitted while a step of it is in flight, only the last
running request is a prefill and every step has one phase, which the runner reads off the
token counts. -/
theorem schedule_onePhase {cfg : Config} {hashing : Hashing H X} (hNever : cfg.NeverOne)
    {actions : List (Action H)} {s : State H} (run : Reaches cfg hashing actions s)
    (hClean : s.staleAdmissions = []) :
    s.running.Nodup ∧
      (∀ id ∈ s.running, (s.requests id).isPrefill = true → s.running.getLast? = some id) ∧
      ∀ (up : Upstream H) (s' : State H), step cfg hashing s (.schedule up) = some s' →
        s'.staleAdmissions = [] → ∃ locals, Locals.loops cfg hashing up s = some locals ∧
          s' = locals.finish cfg hashing ∧ locals.OnePhase := by
  obtain ⟨hQueues, hPhase⟩ := run_rule (phase_run hashing hNever) (fun _ _ => trivial) run
  refine ⟨hQueues.running_nodup, fun id hMem hPrefill => (hPhase hClean).getLast hMem hPrefill, ?_⟩
  intro up s' hStep hStill
  simp only [step] at hStep
  split at hStep
  · obtain ⟨locals, hLoops, -, rfl⟩ := schedule_cases hStep
    exact ⟨locals, hLoops, rfl, ((hPhase.loops hNever hQueues hLoops) hStill).2.onePhase⟩
  · cases hStep

/-- A prefill takes the step of a decode that could have gone on. -/
theorem schedule_onePhase_small : ∃ s, Reaches Config.small Hashing.free
      [.addRequest 0 (.plain [1, 2, 3] 8), .schedule (.plain .small),
        .updateFromOutput (.constant 5), .addRequest 1 (.plain [6, 7] 8),
        .schedule (.plain .small)] s ∧ s.running = [0, 1] ∧ s.running.Nodup := by
  obtain ⟨s, run, hHolds⟩ := Reaches.exists_of_any Config.small Hashing.free
    [.addRequest 0 (.plain [1, 2, 3] 8), .schedule (.plain .small),
      .updateFromOutput (.constant 5), .addRequest 1 (.plain [6, 7] 8), .schedule (.plain .small)]
    (fun s => decide (s.running = [0, 1] ∧ s.staleAdmissions = [])) (by decide +kernel)
  simp only [decide_eq_true_eq] at hHolds
  exact ⟨s, run, hHolds.1, (schedule_onePhase ⟨by decide, by decide⟩ run hHolds.2).1⟩

/-- Three stages, so three steps may be in flight; the least urgent request is preempted
first. -/
def Config.pipelined : Config :=
  { Config.small with
    blockSizes := [8]
    subBlockSize := none
    numBlocks := 7
    maxNumRunningReqs := 12
    pipelineParallelSize := 3
    maxNumScheduledTokens := 16
    maxModelLen := 32
    priorityPolicy := true
    maxConcurrentBatches := 3
    blockSizes_pos := by simp
    subBlockSize_fits := by simp }

/-- Request 2 is preempted with a step in flight and resumes before that step is
processed, so it takes two tokens at its last position. -/
def staleRun : List (Action SmallHash) :=
  let schedule := .schedule (.plain .pipelined)
  let update := .updateFromOutput (.constant 7)
  [.addRequest 0 (.plain (List.replicate 15 1) 16), schedule, update,
    .addRequest 1 (.plain [1, 2] 16), schedule, update,
    .addRequest 2 { NewRequest.plain [1, 3] 16 with priority := 1 }, schedule, update,
    .addRequest 3 (.plain [1, 4] 16), schedule, update,
    .addRequest 4 (.plain [1, 5] 16), schedule, update,
    schedule, schedule, update, schedule, .finishRequest 0 false false, schedule, update,
    .addRequest 5 (.plain [1, 6] 16), schedule, update, update, schedule]

/-- Then it is a prefill that is not the last to run, and is scheduled with a decode. -/
theorem schedule_mixes : ∃ s s', Reaches Config.pipelined Hashing.free staleRun s ∧
    step Config.pipelined Hashing.free s (.schedule (.plain .pipelined)) = some s' ∧
    (s.requests 2).isPrefill = true ∧ (s.requests 4).isPrefill = false ∧
    s.running = [1, 3, 4, 2, 5] ∧
    s'.inFlight.getLast?.map (·.numScheduledTokens) = some [(4, 1), (2, 2)] := by
  obtain ⟨s, run, hHolds⟩ := Reaches.exists_of_any Config.pipelined Hashing.free staleRun
    (fun s => decide ((s.requests 2).isPrefill = true ∧ (s.requests 4).isPrefill = false ∧
      s.running = [1, 3, 4, 2, 5]) &&
      (step Config.pipelined Hashing.free s (.schedule (.plain .pipelined))).any fun s' : State SmallHash =>
        decide (s'.inFlight.getLast?.map (·.numScheduledTokens) = some [(4, 1), (2, 2)]))
    (by decide +kernel)
  simp only [Bool.and_eq_true, decide_eq_true_eq, Option.any_eq_true] at hHolds
  obtain ⟨⟨hPrefill, hDecode, hRunning⟩, s', hStep, hMixed⟩ := hHolds
  exact ⟨s, s', run, hStep, hPrefill, hDecode, hRunning, hMixed⟩

end VllmRbln.Scheduler
