import VllmRbln.Common.Dict
import VllmRbln.Common.Episodes
import VllmRbln.Scheduler.Admissions
import Mathlib.Data.List.Induction

/-! The saves of a NIXL producer that stages KV through host memory
(`rbln_nixl/base_scheduler.py`). The blocks of a prefill are collected from the outputs of
its chunks and handed over once, in the step whose chunk reaches the end of the prompt. -/
namespace VllmRbln.HostStaging

set_option linter.unusedSectionVars false

open Scheduler SubBlock Run Episodes

variable {H X : Type} [DecidableEq H]

/-- What upstream decides: which requests are decoded remotely, how the blocks of a
sliding group are clipped to its window, and which finished requests leave
`_reqs_need_save` at once. -/
structure Producer where
  doRemoteDecode : ReqId → Bool
  getSwClippedBlocks : Blocks → Blocks
  stopsTracking : ReqId → Bool

/-- The two dictionaries of the connector and, while the metadata of a step is built, its
`reqs_to_save`. -/
structure Staging where
  reqsNeedSave : ReqId → Bool
  blockIdsNeedSave : ReqId → Option Blocks
  reqsToSave : List (ReqId × Blocks)

def Staging.initial : Staging where
  reqsNeedSave _ := false
  blockIdsNeedSave _ := none
  reqsToSave := []

/-- Upstream's `update_state_after_alloc`, what it does for a save. -/
def updateStateAfterAlloc (producer : Producer) (staging : Staging) (id : ReqId) : Staging :=
  if producer.doRemoteDecode id then
    { staging with reqsNeedSave := Function.update staging.reqsNeedSave id true }
  else staging

structure ReqData where
  reqId : ReqId
  newBlockIdGroups : Option Blocks
  resumed : Bool

/-- `yield_req_data`. A cached request whose lists are all empty has `None` for them. -/
def yieldReqData (cfg : Config) (output : SchedulerOutput) : List ReqData :=
  output.scheduledNewReqs.map (fun new => ⟨new.1, some new.2, false⟩) ++
    output.scheduledCachedReqs.map fun cached =>
      ⟨cached.1,
        if ∀ group ∈ List.range cfg.numGroups, cached.2 group = [] then none else some cached.2,
        cached.1 ∈ output.resumedReqIds⟩

/-- The blocks held for a request once the row's are added; `none` when neither side has
any, which is the assertion of the source. -/
def Staging.accumulate (staging : Staging) (row : ReqData) : Option Blocks :=
  match staging.blockIdsNeedSave row.reqId, row.newBlockIdGroups with
  | none, none => none
  | some stored, none => some stored
  | none, some new => some new
  | some stored, some new =>
      if row.resumed then some new else some fun group => stored group ++ new group

/-- The chunk scheduled for the request brings it to the end of its prompt. -/
def reachesPrompt (output : SchedulerOutput) (numPromptTokens : ReqId → Nat) (id : ReqId) : Bool :=
  (output.numScheduledTokens.lookup id).any fun numScheduledTokens =>
    numPromptTokens id ≤ output.numComputedTokens id + numScheduledTokens

/-- One row of `_build_save_meta`. -/
def saveRow (producer : Producer) (output : SchedulerOutput) (numPromptTokens : ReqId → Nat)
    (staging : Staging) (row : ReqData) : Option Staging :=
  if staging.reqsNeedSave row.reqId then
    match output.numScheduledTokens.lookup row.reqId, staging.accumulate row with
    | some numScheduledTokens, some blocks =>
        if output.numComputedTokens row.reqId + numScheduledTokens < numPromptTokens row.reqId then
          some { staging with
            blockIdsNeedSave := Function.update staging.blockIdsNeedSave row.reqId (some blocks) }
        else
          some {
            reqsNeedSave := Function.update staging.reqsNeedSave row.reqId false
            blockIdsNeedSave := Function.update staging.blockIdsNeedSave row.reqId none
            reqsToSave := staging.reqsToSave ++ [(row.reqId, producer.getSwClippedBlocks blocks)] }
    | _, _ => none
  else some staging

/-- `_build_save_meta`. -/
def buildSaveMeta (cfg : Config) (producer : Producer) (output : SchedulerOutput)
    (numPromptTokens : ReqId → Nat) (staging : Staging) : Option Staging :=
  (yieldReqData cfg output).foldlM (saveRow producer output numPromptTokens)
    { staging with reqsToSave := [] }

/-- `request_finished`. -/
def requestFinished (producer : Producer) (staging : Staging) (id : ReqId) : Staging :=
  { staging with
    blockIdsNeedSave := Function.update staging.blockIdsNeedSave id none
    reqsNeedSave := if producer.stopsTracking id then
      Function.update staging.reqsNeedSave id false else staging.reqsNeedSave }

/-! ### The connector beside the scheduler -/

/-- What is recorded of a `schedule()` call: its output, the prompts' lengths and the block
tables at that time, and the saves it emits. -/
structure SaveStep where
  output : SchedulerOutput
  numPromptTokens : ReqId → Nat
  blockTables : ReqId → Blocks
  reqsToSave : List (ReqId × Blocks)

structure Engine (H : Type) where
  scheduler : State H
  staging : Staging
  steps : List SaveStep

def Engine.initial : Engine H where
  scheduler := State.initial
  staging := Staging.initial
  steps := []

/-- Requests whose slots the call allocated: those it admitted, and those that load remote
KV. A load that started in an earlier call is told again, which changes nothing. -/
def allocatedReqs (scheduler : State H) (output : SchedulerOutput) : List ReqId :=
  scheduler.ids.filter (fun id => (scheduler.requests id).status = .waitingForRemoteKvs) ++
    (output.scheduledNewReqs.map Prod.fst ++ output.resumedReqIds)

/-- The waiting loop tells the connector of each of them. -/
def enterAllocated (producer : Producer) (scheduler : State H) (output : SchedulerOutput)
    (staging : Staging) : Staging :=
  (allocatedReqs scheduler output).foldl (updateStateAfterAlloc producer) staging

/-- One call into the scheduler and what the connector does in it. -/
def engineStep (cfg : Config) (hashing : Hashing H X) (producer : Producer) (engine : Engine H)
    (action : Action H) : Option (Engine H) :=
  match step cfg hashing engine.scheduler action with
  | none => none
  | some scheduler =>
      match action with
      | .schedule _ =>
          match scheduler.inFlight.getLast? with
          | none => none
          | some output =>
              let numPromptTokens := fun id => (scheduler.requests id).numPromptTokens
              let entered := enterAllocated producer scheduler output engine.staging
              (buildSaveMeta cfg producer output numPromptTokens entered).map fun staging =>
                { scheduler := scheduler
                  staging := staging
                  steps := engine.steps ++
                    [⟨output, numPromptTokens, scheduler.kv.reqToBlocks, staging.reqsToSave⟩] }
      | _ =>
          let finished := scheduler.finishedReqIds.drop engine.scheduler.finishedReqIds.length
          some { engine with
            scheduler := scheduler
            staging := finished.foldl (requestFinished producer) engine.staging }

/-- The request is admitted in the step. -/
def SaveStep.admits (id : ReqId) (step : SaveStep) : Prop :=
  id ∈ step.output.scheduledNewReqs.map Prod.fst ++ step.output.resumedReqIds

/-- The step has a chunk that brings the request to the end of its prompt. -/
def SaveStep.reaches (id : ReqId) (step : SaveStep) : Prop :=
  reachesPrompt step.output step.numPromptTokens id = true

/-- Step `n` reaches the end of the prompt, for the first time since an admission. -/
def CompletesAt (steps : List SaveStep) (id : ReqId) (n : Nat) : Prop :=
  ClosesAt (HappensAt (SaveStep.admits id) steps) (HappensAt (SaveStep.reaches id) steps) n

/-- The saves of step `n`: one for each request that is decoded remotely and completes its
prompt in the step, and of its whole block table. -/
structure SavesAt (producer : Producer) (steps : List SaveStep) (n : Nat) (step : SaveStep) :
    Prop where
  nodup : (step.reqsToSave.map Prod.fst).Nodup
  complete : ∀ id blocks, (id, blocks) ∈ step.reqsToSave ↔
    producer.doRemoteDecode id = true ∧ CompletesAt steps id n ∧ blocks = step.blockTables id

def SaveStep.saves (id : ReqId) (step : SaveStep) : Prop := id ∈ step.reqsToSave.map Prod.fst

theorem SavesAt.completesAt {producer : Producer} {steps : List SaveStep} {n : Nat}
    {step : SaveStep} (hSaves : SavesAt producer steps n step) {id : ReqId}
    (hSaved : step.saves id) : CompletesAt steps id n := by
  obtain ⟨⟨other, blocks⟩, hMem, rfl⟩ := List.mem_map.mp hSaved
  exact ((hSaves.complete other blocks).mp hMem).2.1

/-- What holds between two calls. A running request that is to be saved has the blocks that
the runner was sent for it; a request that never ran, or is finished, has none. -/
structure StagingOk (producer : Producer) (engine : Engine H) : Prop where
  wanted : ∀ id, engine.staging.reqsNeedSave id = true → producer.doRemoteDecode id = true
  opened : ∀ id ∈ engine.scheduler.running, engine.staging.reqsNeedSave id = true ↔
    producer.doRemoteDecode id = true ∧ OpenAt (HappensAt (SaveStep.admits id) engine.steps)
      (HappensAt (SaveStep.reaches id) engine.steps) engine.steps.length
  held : ∀ id ∈ engine.scheduler.running, engine.staging.reqsNeedSave id = true →
    engine.staging.blockIdsNeedSave id = engine.scheduler.runnerBlocks id
  fresh : ∀ id, id ∉ engine.scheduler.running →
    (engine.scheduler.requests id).numPreemptions = 0 → engine.staging.blockIdsNeedSave id = none
  finished : ∀ id, (engine.scheduler.requests id).status = .finished →
    engine.staging.blockIdsNeedSave id = none
  saves : ∀ n step, engine.steps[n]? = some step → SavesAt producer engine.steps n step

theorem StagingOk.initial (producer : Producer) :
    StagingOk producer (Engine.initial : Engine H) where
  wanted := by simp [Engine.initial, Staging.initial]
  opened := by simp [Engine.initial, State.initial]
  held := by simp [Engine.initial, State.initial]
  fresh := by simp [Engine.initial, Staging.initial]
  finished := by simp [Engine.initial, Staging.initial]
  saves := by simp [Engine.initial]

/-! ### The rows of one output -/

section Rows

variable (producer : Producer) (output : SchedulerOutput) (numPromptTokens : ReqId → Nat)
  (table : ReqId → Blocks)

/-- The staging after the rows of `ids`, when `table` holds what each of them accumulates:
a request that reaches the end of its prompt is handed over, another one is held. -/
structure Saved (ids : List ReqId) (staging staging' : Staging) : Prop where
  reqsNeedSave : ∀ id, staging'.reqsNeedSave id = true ↔ staging.reqsNeedSave id = true ∧
    ¬ (id ∈ ids ∧ reachesPrompt output numPromptTokens id = true)
  held : ∀ id ∈ ids, staging'.reqsNeedSave id = true →
    staging'.blockIdsNeedSave id = some (table id)
  others : ∀ id, id ∉ ids → staging'.blockIdsNeedSave id = staging.blockIdsNeedSave id
  reqsToSave : staging'.reqsToSave = staging.reqsToSave ++ (ids.filter fun id =>
    staging.reqsNeedSave id && reachesPrompt output numPromptTokens id).map fun id =>
      (id, producer.getSwClippedBlocks (table id))

theorem Saved.nil (staging : Staging) :
    Saved producer output numPromptTokens table [] staging staging where
  reqsNeedSave := by simp
  held := by simp
  others _ _ := rfl
  reqsToSave := by simp

variable {producer output numPromptTokens table}

theorem Saved.cons {id : ReqId} {ids : List ReqId} {first second third : Staging}
    (hHead : Saved producer output numPromptTokens table [id] first second)
    (hTail : Saved producer output numPromptTokens table ids second third) (hNot : id ∉ ids) :
    Saved producer output numPromptTokens table (id :: ids) first third where
  reqsNeedSave other := by
    rw [hTail.reqsNeedSave, hHead.reqsNeedSave, List.mem_singleton, List.mem_cons]
    tauto
  held other hMem hNeed := by
    by_cases hIn : other ∈ ids
    · exact hTail.held other hIn hNeed
    · have hSelf : other ∈ [id] := List.mem_singleton.mpr ((List.mem_cons.mp hMem).resolve_right hIn)
      rw [hTail.others other hIn]
      exact hHead.held other hSelf ((hTail.reqsNeedSave other).mp hNeed).1
  others other hOut := by
    rw [List.mem_cons, not_or] at hOut
    rw [hTail.others other hOut.2, hHead.others other (by simpa using hOut.1)]
  reqsToSave := by
    have hSame : (ids.filter fun other =>
        second.reqsNeedSave other && reachesPrompt output numPromptTokens other) =
        ids.filter fun other =>
          first.reqsNeedSave other && reachesPrompt output numPromptTokens other := by
      refine List.filter_congr fun other hMem => ?_
      have hNe : other ≠ id := ne_of_mem_of_not_mem hMem hNot
      have hNeed : second.reqsNeedSave other = first.reqsNeedSave other := by
        rw [Bool.eq_iff_iff, hHead.reqsNeedSave]
        simp [hNe]
      rw [hNeed]
    rw [hTail.reqsToSave, hHead.reqsToSave, hSame, List.append_assoc, ← List.map_append,
      ← List.filter_append, List.singleton_append]

variable (producer numPromptTokens) in
/-- A row whose request accumulates `table` and is scheduled does not raise. -/
theorem saveRow_saved {staging : Staging} {row : ReqData}
    (hRow : staging.reqsNeedSave row.reqId = true →
      (output.numScheduledTokens.lookup row.reqId).isSome ∧
        staging.accumulate row = some (table row.reqId)) :
    ∃ staging', saveRow producer output numPromptTokens staging row = some staging' ∧
      Saved producer output numPromptTokens table [row.reqId] staging staging' := by
  by_cases hNeed : staging.reqsNeedSave row.reqId = true
  · obtain ⟨hLookup, hAccumulate⟩ := hRow hNeed
    obtain ⟨numScheduledTokens, hLookup⟩ := Option.isSome_iff_exists.mp hLookup
    have hReaches : reachesPrompt output numPromptTokens row.reqId = true ↔
        numPromptTokens row.reqId ≤ output.numComputedTokens row.reqId + numScheduledTokens := by
      simp [reachesPrompt, hLookup]
    unfold saveRow
    simp only [hNeed, if_true, hLookup, hAccumulate]
    split
    · rename_i hPartial
      have hNotYet : reachesPrompt output numPromptTokens row.reqId = false := by
        rw [Bool.eq_false_iff, Ne, hReaches]
        exact Nat.not_le.mpr hPartial
      refine ⟨_, rfl, fun id => ?_, fun id hMem _ => ?_, fun id hOut => ?_, ?_⟩
      · rw [List.mem_singleton]
        constructor
        · exact fun hHolds => ⟨hHolds, fun hBoth => by
            rw [hBoth.1, hNotYet] at hBoth
            cases hBoth.2⟩
        · exact And.left
      · rw [List.mem_singleton.mp hMem]
        exact Function.update_self ..
      · exact Function.update_of_ne (fun hEq => hOut (List.mem_singleton.mpr hEq)) ..
      · simp [hNotYet]
    · rename_i hWhole
      have hDone := hReaches.mpr (Nat.not_lt.mp hWhole)
      refine ⟨_, rfl, fun id => ?_, fun id hMem hStill => ?_, fun id hOut => ?_, ?_⟩
      · by_cases hEq : id = row.reqId
        · subst hEq
          simp [hDone]
        · simp [hEq]
      · rw [List.mem_singleton.mp hMem] at hStill
        simp at hStill
      · exact Function.update_of_ne (fun hEq => hOut (List.mem_singleton.mpr hEq)) ..
      · simp [hNeed, hDone]
  · have hNeed : staging.reqsNeedSave row.reqId = false := by simpa using hNeed
    refine ⟨staging, by simp [saveRow, hNeed], fun id => ?_, fun id hMem hStill => ?_,
      fun _ _ => rfl, ?_⟩
    · by_cases hEq : id = row.reqId
      · subst hEq
        simp [hNeed]
      · simp [hEq]
    · rw [List.mem_singleton.mp hMem, hNeed] at hStill
      cases hStill
    · simp [hNeed]

/-- No row of the output raises when each request that is to be saved is scheduled and
accumulates its table; no two rows are of one request. -/
theorem foldlM_saveRow {rows : List ReqData} {staging : Staging}
    (hNodup : (rows.map ReqData.reqId).Nodup)
    (hRows : ∀ row ∈ rows, staging.reqsNeedSave row.reqId = true →
      (output.numScheduledTokens.lookup row.reqId).isSome ∧
        staging.accumulate row = some (table row.reqId)) :
    ∃ staging', rows.foldlM (saveRow producer output numPromptTokens) staging = some staging' ∧
      Saved producer output numPromptTokens table (rows.map ReqData.reqId) staging staging' := by
  induction rows generalizing staging with
  | nil => exact ⟨staging, rfl, Saved.nil ..⟩
  | cons row rows ih =>
      obtain ⟨hNot, hNodup⟩ := List.nodup_cons.mp hNodup
      obtain ⟨middle, hHead, hSaved⟩ := saveRow_saved producer numPromptTokens
        (hRows row List.mem_cons_self)
      have hTail : ∀ other ∈ rows, middle.reqsNeedSave other.reqId = true →
          (output.numScheduledTokens.lookup other.reqId).isSome ∧
            middle.accumulate other = some (table other.reqId) := by
        intro other hMem hNeed
        have hNe : other.reqId ≠ row.reqId := fun hEq => hNot (hEq ▸ List.mem_map_of_mem hMem)
        obtain ⟨hLookup, hAccumulate⟩ := hRows other (List.mem_cons_of_mem _ hMem)
          ((hSaved.reqsNeedSave other.reqId).mp hNeed).1
        refine ⟨hLookup, ?_⟩
        unfold Staging.accumulate at hAccumulate ⊢
        rw [hSaved.others other.reqId (by simpa using hNe)]
        exact hAccumulate
      obtain ⟨staging', hRest, hLast⟩ := ih hNodup hTail
      exact ⟨staging', by simp [List.foldlM_cons, hHead, hRest], hSaved.cons hLast hNot⟩

/-- The same from an empty `reqs_to_save`. -/
theorem buildSaveMeta_saved {cfg : Config} {staging : Staging}
    (hNodup : ((yieldReqData cfg output).map ReqData.reqId).Nodup)
    (hRows : ∀ row ∈ yieldReqData cfg output, staging.reqsNeedSave row.reqId = true →
      (output.numScheduledTokens.lookup row.reqId).isSome ∧
        staging.accumulate row = some (table row.reqId)) :
    ∃ staging', buildSaveMeta cfg producer output numPromptTokens staging = some staging' ∧
      Saved producer output numPromptTokens table ((yieldReqData cfg output).map ReqData.reqId)
        { staging with reqsToSave := [] } staging' :=
  foldlM_saveRow hNodup hRows

end Rows

/-! ### The rows of a step -/

theorem foldl_updateStateAfterAlloc (producer : Producer) (ids : List ReqId) (staging : Staging) :
    (ids.foldl (updateStateAfterAlloc producer) staging).blockIdsNeedSave =
        staging.blockIdsNeedSave ∧
      ∀ id, (ids.foldl (updateStateAfterAlloc producer) staging).reqsNeedSave id = true ↔
        staging.reqsNeedSave id = true ∨ id ∈ ids ∧ producer.doRemoteDecode id = true := by
  induction ids generalizing staging with
  | nil => simp
  | cons first ids ih =>
      obtain ⟨hBlocks, hNeed⟩ := ih (updateStateAfterAlloc producer staging first)
      rw [List.foldl_cons]
      constructor
      · rw [hBlocks]
        unfold updateStateAfterAlloc
        split <;> rfl
      · intro id
        rw [hNeed, List.mem_cons]
        by_cases hDecode : producer.doRemoteDecode first = true
        · by_cases hEq : id = first
          · subst hEq
            simp [updateStateAfterAlloc, hDecode]
          · simp [updateStateAfterAlloc, hDecode, hEq]
        · by_cases hEq : id = first
          · subst hEq
            simp [updateStateAfterAlloc, hDecode]
          · simp [updateStateAfterAlloc, hDecode, hEq]

theorem foldl_requestFinished (producer : Producer) (ids : List ReqId) (staging : Staging) :
    (∀ id, (ids.foldl (requestFinished producer) staging).blockIdsNeedSave id =
        if id ∈ ids then none else staging.blockIdsNeedSave id) ∧
      ∀ id, (ids.foldl (requestFinished producer) staging).reqsNeedSave id = true ↔
        staging.reqsNeedSave id = true ∧ ¬ (id ∈ ids ∧ producer.stopsTracking id = true) := by
  induction ids generalizing staging with
  | nil => simp
  | cons first ids ih =>
      obtain ⟨hBlocks, hNeed⟩ := ih (requestFinished producer staging first)
      constructor
      · intro id
        rw [List.foldl_cons, hBlocks]
        by_cases hEq : id = first
        · subst hEq
          simp [requestFinished]
        · simp [requestFinished, hEq]
      · intro id
        rw [List.foldl_cons, hNeed, List.mem_cons]
        by_cases hStops : producer.stopsTracking first = true
        · by_cases hEq : id = first
          · subst hEq
            simp [requestFinished, hStops]
          · simp [requestFinished, hStops, hEq]
        · by_cases hEq : id = first
          · subst hEq
            simp [requestFinished, hStops]
          · simp [requestFinished, hStops, hEq]

section Step

variable {cfg : Config} {hashing : Hashing H X} {locals : Locals H} {staging : Staging}

theorem yieldReqData_reqIds (cfg : Config) (locals : Locals H) :
    (yieldReqData cfg locals.output).map ReqData.reqId =
      locals.scheduledNewReqs ++ (locals.scheduledRunningReqs ++ locals.scheduledResumedReqs) := by
  simp [yieldReqData, Locals.output, Function.comp_def]

theorem yieldReqData_perm (cfg : Config) (locals : Locals H) :
    ((yieldReqData cfg locals.output).map ReqData.reqId).Perm locals.scheduledReqs := by
  rw [yieldReqData_reqIds, Locals.scheduledReqs, ← List.append_assoc]
  exact List.perm_append_comm.append_right _

/-- Every request of the step that is to be saved accumulates its block table: a new one
starts with it, a resumed one is sent it whole, and a running one is sent what its list
does not have yet. -/
theorem accumulate_eq (hOk : LoopsOk cfg locals) (hTables : TablesOk locals)
    (hGroup : 0 < cfg.numGroups)
    (hSeated : ∀ id ∈ locals.scheduledResumedReqs, locals.st.kv.reqToBlocks id 0 ≠ [])
    (hFresh : ∀ id ∈ locals.scheduledNewReqs, staging.blockIdsNeedSave id = none)
    (hHeld : ∀ id ∈ locals.scheduledRunningReqs, staging.reqsNeedSave id = true →
      staging.blockIdsNeedSave id = locals.st.runnerBlocks id)
    {row : ReqData} (hMem : row ∈ yieldReqData cfg locals.output)
    (hNeed : staging.reqsNeedSave row.reqId = true) :
    staging.accumulate row = some (locals.st.kv.reqToBlocks row.reqId) := by
  have hNodup := hOk.books.nodup
  rw [Locals.scheduledReqs, List.append_assoc] at hNodup
  have hRunningOut : ∀ id ∈ locals.scheduledRunningReqs, id ∉ locals.scheduledResumedReqs :=
    fun id hRuns hIn =>
      (List.nodup_append.mp hNodup).2.2 id hRuns id (List.mem_append_right _ hIn) rfl
  have hAdmittedOut : ∀ id ∈ locals.scheduledNewReqs ++ locals.scheduledResumedReqs,
      id ∉ locals.scheduledRunningReqs := fun id hIn hRuns =>
    (List.nodup_append.mp hNodup).2.2 id hRuns id hIn rfl
  have hSent : ∀ id ∈ locals.scheduledNewReqs ++ locals.scheduledResumedReqs,
      locals.sentBlocks id = locals.st.kv.reqToBlocks id := by
    intro id hIn
    rw [Locals.sentBlocks, if_neg (hAdmittedOut id hIn), (hTables.admitted id hIn).1]
  rcases List.mem_append.mp hMem with hMem | hMem
  · obtain ⟨new, hNew, rfl⟩ := List.mem_map.mp hMem
    obtain ⟨id, hIn, rfl⟩ := List.mem_map.mp hNew
    unfold Staging.accumulate
    rw [hFresh id hIn]
    exact congrArg some (hSent id (List.mem_append_left _ hIn))
  obtain ⟨cached, hCached, rfl⟩ := List.mem_map.mp hMem
  obtain ⟨id, hIn, rfl⟩ := List.mem_map.mp hCached
  rcases List.mem_append.mp hIn with hIn | hIn
  · obtain ⟨table, hTable, hSplit⟩ := hTables.running id hIn
    have hStored : staging.blockIdsNeedSave id = some table := (hHeld id hIn hNeed).trans hTable
    have hSentEq : locals.sentBlocks id = fun group => locals.st.parked id group ++
        locals.reqToNewBlocks id group := by
      rw [Locals.sentBlocks, if_pos hIn]
      rfl
    have hNotResumed : id ∉ locals.output.resumedReqIds := hRunningOut id hIn
    unfold Staging.accumulate
    dsimp only
    rw [hStored]
    by_cases hNone : ∀ group ∈ List.range cfg.numGroups, locals.sentBlocks id group = []
    · rw [if_pos hNone]
      -- a group past the last one has no block at all
      refine congrArg some (funext fun group => ?_)
      rcases Nat.lt_or_ge group cfg.numGroups with hLt | hGe
      · have hNil := hNone group (List.mem_range.mpr hLt)
        rw [hSentEq] at hNil
        rw [hSplit, hNil, List.append_nil]
      · have hNil := (hOk.queues.request id).groups group hGe
        rw [hNil]
        rw [hSplit] at hNil
        exact (List.append_eq_nil_iff.mp hNil).1
    · rw [if_neg hNone]
      simp only [hNotResumed, decide_false, Bool.false_eq_true, if_false]
      refine congrArg some (funext fun group => ?_)
      rw [hSplit, hSentEq]
  · have hWhole := hSent id (List.mem_append_right _ hIn)
    have hSome : ¬ ∀ group ∈ List.range cfg.numGroups, locals.sentBlocks id group = [] := by
      intro hNone
      have hNil := hNone 0 (List.mem_range.mpr hGroup)
      rw [hWhole] at hNil
      exact hSeated id hIn hNil
    have hResumed : id ∈ locals.output.resumedReqIds := hIn
    unfold Staging.accumulate
    dsimp only
    rw [if_neg hSome, hWhole]
    cases staging.blockIdsNeedSave id with
    | none => rfl
    | some stored => simp [hResumed]

end Step

/-! ### Calls -/

/-- Requests that are finished lose their blocks, the others keep theirs. -/
theorem StagingOk.quiet {producer : Producer} {s s' : State H} {staging : Staging}
    {steps : List SaveStep} {finished : List ReqId}
    (hStaging : StagingOk producer ⟨s, staging, steps⟩) (hQuiet : Quiet s s' finished) :
    StagingOk producer ⟨s', finished.foldl (requestFinished producer) staging, steps⟩ := by
  obtain ⟨hBlocks, hNeed⟩ := foldl_requestFinished producer finished staging
  have hSame : ∀ id ∈ s'.running, id ∈ s.running ∧ id ∉ finished := fun id hMem =>
    (hQuiet.running id).mp hMem
  constructor
  case wanted => exact fun id hHolds => hStaging.wanted id ((hNeed id).mp hHolds).1
  case opened =>
    intro id hMem
    obtain ⟨hRuns, hOut⟩ := hSame id hMem
    rw [← hStaging.opened id hRuns]
    dsimp only
    rw [hNeed]
    exact and_iff_left fun hBoth => hOut hBoth.1
  case held =>
    intro id hMem hHolds
    obtain ⟨hRuns, hOut⟩ := hSame id hMem
    dsimp only
    rw [hBlocks, if_neg hOut, hQuiet.runnerBlocks]
    exact hStaging.held id hRuns ((hNeed id).mp hHolds).1
  case fresh =>
    intro id hNot hZero
    dsimp only
    rw [hBlocks]
    split
    · rfl
    · rename_i hOut
      exact hStaging.fresh id (fun hRuns => hNot ((hQuiet.running id).mpr ⟨hRuns, hOut⟩))
        ((hQuiet.numPreemptions id).symm.trans hZero)
  case finished =>
    intro id hDone
    dsimp only
    rw [hBlocks]
    split
    · rfl
    · rename_i hOut
      exact hStaging.finished id (((hQuiet.status id).mp hDone).resolve_right hOut)
  case saves => exact hStaging.saves

section Schedule

variable {cfg : Config} {hashing : Hashing H X} {producer : Producer} {s : State H}
  {staging : Staging} {steps : List SaveStep} {locals : Locals H}

theorem mem_allocatedReqs (hOk : LoopsOk cfg locals) {id : ReqId} (hRuns : id ∈ locals.st.running) :
    id ∈ allocatedReqs (locals.finish cfg hashing) locals.output ↔
      id ∈ locals.scheduledNewReqs ++ locals.scheduledResumedReqs := by
  have hStatus : ((locals.finish cfg hashing).requests id).status = .running :=
    (finish_request cfg hashing locals id).1.trans ((hOk.queues.request id).running.mp hRuns)
  simp [allocatedReqs, hStatus, Locals.output]

variable (hashing) in
/-- A running request is to be saved if it was admitted now, or earlier and has not been
saved since. -/
theorem StagingOk.entered_iff (hStaging : StagingOk producer ⟨s, staging, steps⟩)
    (hSince : Since s locals) (hOk : LoopsOk cfg locals) {id : ReqId}
    (hRuns : id ∈ locals.st.running) :
    (enterAllocated producer (locals.finish cfg hashing) locals.output staging).reqsNeedSave id =
        true ↔
      producer.doRemoteDecode id = true ∧
        (id ∈ locals.scheduledNewReqs ++ locals.scheduledResumedReqs ∨
          OpenAt (HappensAt (SaveStep.admits id) steps) (HappensAt (SaveStep.reaches id) steps)
            steps.length) := by
  unfold enterAllocated
  rw [(foldl_updateStateAfterAlloc ..).2, mem_allocatedReqs hOk hRuns]
  by_cases hAdmitted : id ∈ locals.scheduledNewReqs ++ locals.scheduledResumedReqs
  · have hWanted := hStaging.wanted id
    simp only [hAdmitted, true_and, true_or, and_true]
    exact or_iff_right_of_imp hWanted
  · have hOpened := hStaging.opened id ((hSince.running id hRuns).resolve_right hAdmitted)
    simpa [hAdmitted] using hOpened

/-- Every row of the output that is to be saved is scheduled and accumulates the table. -/
theorem StagingOk.rows (hStaging : StagingOk producer ⟨s, staging, steps⟩)
    (hGroup : 0 < cfg.numGroups) (hSince : Since s locals) (hOk : LoopsOk cfg locals)
    (hTables : TablesOk locals) {row : ReqData} (hMem : row ∈ yieldReqData cfg locals.output)
    (hNeed : (enterAllocated producer (locals.finish cfg hashing) locals.output
      staging).reqsNeedSave row.reqId = true) :
    (locals.output.numScheduledTokens.lookup row.reqId).isSome ∧
      (enterAllocated producer (locals.finish cfg hashing) locals.output staging).accumulate row =
        some (locals.st.kv.reqToBlocks row.reqId) := by
  have hScheduled : row.reqId ∈ locals.scheduledReqs :=
    (yieldReqData_perm cfg locals).mem_iff.mp (List.mem_map_of_mem hMem)
  have hBlocks : (enterAllocated producer (locals.finish cfg hashing) locals.output
      staging).blockIdsNeedSave = staging.blockIdsNeedSave := (foldl_updateStateAfterAlloc ..).1
  refine ⟨Dict.lookup_isSome.mpr (hOk.books.mem_iff.mpr hScheduled), ?_⟩
  refine accumulate_eq hOk hTables hGroup
    (fun id hIn => hSince.seated id (List.mem_append_right _ hIn)) (fun id hIn => ?_)
    (fun id hIn hSave => ?_) hMem hNeed
  · obtain ⟨hNotRan, hZero⟩ := hSince.new id hIn
    rw [hBlocks]
    exact hStaging.fresh id hNotRan hZero
  · have hRan := hSince.scheduled id hIn
    have hRuns := hOk.books.running id (List.mem_append_left _ (List.mem_append_left _ hIn))
    have hNodup := hOk.books.nodup
    rw [Locals.scheduledReqs, List.append_assoc] at hNodup
    have hOut : id ∉ locals.scheduledNewReqs ++ locals.scheduledResumedReqs := fun hAdmitted =>
      (List.nodup_append.mp hNodup).2.2 id hIn id hAdmitted rfl
    rw [hStaging.entered_iff hashing hSince hOk hRuns, or_iff_right hOut] at hSave
    rw [hBlocks, hSince.runnerBlocks]
    exact hStaging.held id hRan ((hStaging.opened id hRan).mpr hSave)

theorem admits_iff (locals : Locals H) (numPromptTokens : ReqId → Nat) (blockTables : ReqId → Blocks)
    (reqsToSave : List (ReqId × Blocks)) (id : ReqId) :
    SaveStep.admits id ⟨locals.output, numPromptTokens, blockTables, reqsToSave⟩ ↔
      id ∈ locals.scheduledNewReqs ++ locals.scheduledResumedReqs := by
  simp [SaveStep.admits, Locals.output]

/-- Only a scheduled request has a chunk. -/
theorem scheduled_of_reachesPrompt (hOk : LoopsOk cfg locals) {numPromptTokens : ReqId → Nat}
    {id : ReqId} (hReaches : reachesPrompt locals.output numPromptTokens id = true) :
    id ∈ locals.scheduledReqs := by
  obtain ⟨numScheduledTokens, hLookup, -⟩ := (Option.any_eq_true _ _).mp hReaches
  refine hOk.books.mem_iff.mp (Dict.lookup_isSome.mp ?_)
  exact Option.isSome_iff_exists.mpr ⟨numScheduledTokens, hLookup⟩

variable (hashing) in
/-- What the new step saves. -/
theorem Saved.savesAt {entered staging' : Staging} {numPromptTokens : ReqId → Nat}
    (hSaved : Saved producer locals.output numPromptTokens locals.st.kv.reqToBlocks
      ((yieldReqData cfg locals.output).map ReqData.reqId) { entered with reqsToSave := [] } staging')
    (hClip : ∀ blocks, producer.getSwClippedBlocks blocks = blocks) (hOk : LoopsOk cfg locals)
    (hEntered : ∀ id ∈ locals.st.running, entered.reqsNeedSave id = true ↔
      producer.doRemoteDecode id = true ∧
        (id ∈ locals.scheduledNewReqs ++ locals.scheduledResumedReqs ∨
          OpenAt (HappensAt (SaveStep.admits id) steps) (HappensAt (SaveStep.reaches id) steps)
            steps.length)) :
    let step : SaveStep := ⟨locals.output, numPromptTokens,
      (locals.finish cfg hashing).kv.reqToBlocks, staging'.reqsToSave⟩
    SavesAt producer (steps ++ [step]) steps.length step := by
  intro step
  have hPerm := yieldReqData_perm cfg locals
  have hReqs : step.reqsToSave = (((yieldReqData cfg locals.output).map ReqData.reqId).filter
      fun id => entered.reqsNeedSave id && reachesPrompt locals.output numPromptTokens id).map
        fun id => (id, locals.st.kv.reqToBlocks id) := by
    have hRows := hSaved.reqsToSave
    simp only [hClip, List.nil_append] at hRows
    exact hRows
  have hTable : step.blockTables = locals.st.kv.reqToBlocks := finish_reqToBlocks cfg hashing locals
  constructor
  · rw [hReqs, List.map_map]
    have hKeys : (Prod.fst ∘ fun id => (id, locals.st.kv.reqToBlocks id)) = id := rfl
    rw [hKeys, List.map_id]
    exact (hPerm.nodup_iff.mpr hOk.books.nodup).filter _
  · intro id blocks
    unfold CompletesAt
    rw [closesAt_last, admits_iff, hTable, hReqs]
    have hMem : (id, blocks) ∈ (((yieldReqData cfg locals.output).map ReqData.reqId).filter
        fun id => entered.reqsNeedSave id && reachesPrompt locals.output numPromptTokens id).map
          (fun id => (id, locals.st.kv.reqToBlocks id)) ↔
        id ∈ locals.scheduledReqs ∧ entered.reqsNeedSave id = true ∧ step.reaches id ∧
          blocks = locals.st.kv.reqToBlocks id := by
      rw [← hPerm.mem_iff]
      simp only [List.mem_map, List.mem_filter, Bool.and_eq_true, Prod.mk.injEq, SaveStep.reaches]
      constructor
      · rintro ⟨other, ⟨hIn, hNeed, hReaches⟩, rfl, rfl⟩
        exact ⟨hIn, hNeed, hReaches, rfl⟩
      · rintro ⟨hIn, hNeed, hReaches, rfl⟩
        exact ⟨id, ⟨hIn, hNeed, hReaches⟩, rfl, rfl⟩
    rw [hMem]
    constructor
    · rintro ⟨hIn, hNeed, hReaches, hEq⟩
      obtain ⟨hDecode, hOpen⟩ := (hEntered id (hOk.books.running id hIn)).mp hNeed
      exact ⟨hDecode, ⟨hReaches, hOpen⟩, hEq⟩
    · rintro ⟨hDecode, ⟨hReaches, hOpen⟩, hEq⟩
      have hIn := scheduled_of_reachesPrompt hOk hReaches
      exact ⟨hIn, (hEntered id (hOk.books.running id hIn)).mpr ⟨hDecode, hOpen⟩, hReaches, hEq⟩

/-- The staging after the rows of a step, with the step recorded. -/
theorem StagingOk.record (hStaging : StagingOk producer ⟨s, staging, steps⟩)
    (hClip : ∀ blocks, producer.getSwClippedBlocks blocks = blocks) (hSince : Since s locals)
    (hOk : LoopsOk cfg locals) (hTables : TablesOk locals) {numPromptTokens : ReqId → Nat}
    {staging' : Staging}
    (hSaved : Saved producer locals.output numPromptTokens locals.st.kv.reqToBlocks
      ((yieldReqData cfg locals.output).map ReqData.reqId)
      { enterAllocated producer (locals.finish cfg hashing) locals.output staging with
        reqsToSave := [] } staging') :
    StagingOk producer ⟨locals.finish cfg hashing, staging', steps ++ [⟨locals.output,
      numPromptTokens, (locals.finish cfg hashing).kv.reqToBlocks, staging'.reqsToSave⟩]⟩ := by
  obtain ⟨hRunnerScheduled, hRunnerRest⟩ := hTables.finish hashing hOk
  obtain ⟨hEnterBlocks, hEnter⟩ := foldl_updateStateAfterAlloc producer
    (allocatedReqs (locals.finish cfg hashing) locals.output) staging
  have hEntered := fun id (hRuns : id ∈ locals.st.running) =>
    hStaging.entered_iff hashing hSince hOk hRuns
  have hSaves := hSaved.savesAt hashing hClip hOk hEntered
  have hMemRows : ∀ id, id ∈ (yieldReqData cfg locals.output).map ReqData.reqId ↔
      id ∈ locals.scheduledReqs := fun id => (yieldReqData_perm cfg locals).mem_iff
  have hNeed : ∀ id, staging'.reqsNeedSave id = true ↔
      (enterAllocated producer (locals.finish cfg hashing) locals.output staging).reqsNeedSave id =
        true ∧ ¬ reachesPrompt locals.output numPromptTokens id = true := by
    intro id
    refine (hSaved.reqsNeedSave id).trans (and_congr_right fun _ => not_congr ?_)
    rw [hMemRows]
    exact and_iff_right_of_imp (scheduled_of_reachesPrompt hOk)
  have hUnscheduled : ∀ id, id ∉ locals.scheduledReqs →
      staging'.blockIdsNeedSave id = staging.blockIdsNeedSave id := by
    intro id hNot
    rw [hSaved.others id (mt (hMemRows id).mp hNot)]
    exact congrFun hEnterBlocks id
  have hNotAdmitted : ∀ id, id ∉ locals.scheduledReqs →
      id ∉ locals.scheduledNewReqs ++ locals.scheduledResumedReqs := by
    intro id hNot hIn
    rw [Locals.scheduledReqs, List.append_assoc] at hNot
    exact hNot (List.mem_append_right _ hIn)
  constructor
  case wanted =>
    intro id hHolds
    rcases (hEnter id).mp ((hNeed id).mp hHolds).1 with hOld | hNew
    · exact hStaging.wanted id hOld
    · exact hNew.2
  case opened =>
    intro id hRuns
    dsimp only
    rw [openAt_append, hNeed, hEntered id hRuns, admits_iff]
    unfold SaveStep.reaches
    tauto
  case held =>
    intro id hRuns hHolds
    by_cases hIn : id ∈ locals.scheduledReqs
    · exact (hSaved.held id ((hMemRows id).mpr hIn) hHolds).trans (hRunnerScheduled id hIn).symm
    · have hOut := hNotAdmitted id hIn
      have hRan := (hSince.running id hRuns).resolve_right hOut
      have hOpen := (hEntered id hRuns).mp ((hNeed id).mp hHolds).1
      rw [or_iff_right hOut, ← hStaging.opened id hRan] at hOpen
      dsimp only
      rw [hUnscheduled id hIn, hRunnerRest id hRuns hIn, hSince.runnerBlocks]
      exact hStaging.held id hRan hOpen
  case fresh =>
    intro id hStopped hZero
    have hZero := (finish_request cfg hashing locals id).2.symm.trans hZero
    have hNot : id ∉ locals.st.running := hStopped
    dsimp only
    rw [hUnscheduled id (mt (hOk.books.running id) hNot)]
    refine hStaging.fresh id (fun hRan => ?_) (Nat.le_zero.mp (hZero ▸ hSince.numPreemptions id))
    rcases hSince.kept id hRan with hRuns | hPreempted
    · exact hNot hRuns
    · omega
  case finished =>
    intro id hDone
    have hDone := (finish_request cfg hashing locals id).1.symm.trans hDone
    have hNot : id ∉ locals.st.running := by
      rw [(hOk.queues.request id).running, hDone]
      simp
    dsimp only
    rw [hUnscheduled id (mt (hOk.books.running id) hNot)]
    exact hStaging.finished id (hSince.finished id hDone)
  case saves =>
    intro n step hStep
    rcases Nat.lt_or_ge n steps.length with hLt | hGe
    · rw [List.getElem?_append_left hLt] at hStep
      obtain ⟨hNodup, hComplete⟩ := hStaging.saves n step hStep
      refine ⟨hNodup, fun id blocks => ?_⟩
      unfold CompletesAt
      rw [closesAt_append hLt]
      exact hComplete id blocks
    · have hBound := (List.getElem?_eq_some_iff.mp hStep).1
      rw [List.length_append, List.length_singleton] at hBound
      obtain rfl : n = steps.length := by omega
      rw [List.getElem?_concat_length, Option.some.injEq] at hStep
      exact hStep ▸ hSaves

/-- The staging of a call to `schedule()`: it does not raise, and the step it records saves
what it has to. -/
theorem StagingOk.schedule (hStaging : StagingOk producer ⟨s, staging, steps⟩)
    (hGroup : 0 < cfg.numGroups) (hClip : ∀ blocks, producer.getSwClippedBlocks blocks = blocks)
    (hSince : Since s locals) (hOk : LoopsOk cfg locals) (hTables : TablesOk locals)
    (numPromptTokens : ReqId → Nat) :
    ∃ staging', buildSaveMeta cfg producer locals.output numPromptTokens
        (enterAllocated producer (locals.finish cfg hashing) locals.output staging) =
          some staging' ∧
      StagingOk producer ⟨locals.finish cfg hashing, staging', steps ++ [⟨locals.output,
        numPromptTokens, (locals.finish cfg hashing).kv.reqToBlocks, staging'.reqsToSave⟩]⟩ := by
  obtain ⟨staging', hBuild, hSaved⟩ := buildSaveMeta_saved
    ((yieldReqData_perm cfg locals).nodup_iff.mpr hOk.books.nodup)
    fun row hMem hNeed => hStaging.rows hGroup hSince hOk hTables hMem hNeed
  exact ⟨staging', hBuild, hStaging.record hClip hSince hOk hTables hSaved⟩

end Schedule

/-! ### Runs -/

section Runs

variable {cfg : Config} {hashing : Hashing H X} {producer : Producer}

/-- A call other than `schedule()` tells the connector of the requests that it finished. -/
theorem engineStep_quiet {s s' : State H} {staging : Staging} {steps : List SaveStep}
    {action : Action H} {finished : List ReqId} (hAction : ¬ action.IsSchedule)
    (hStep : step cfg hashing s action = some s') (hQuiet : Quiet s s' finished) :
    engineStep cfg hashing producer ⟨s, staging, steps⟩ action =
      some ⟨s', finished.foldl (requestFinished producer) staging, steps⟩ := by
  have hFinished : s'.finishedReqIds.drop s.finishedReqIds.length = finished := by
    rw [hQuiet.finishedReqIds, List.drop_left]
  cases action
  case schedule => exact absurd trivial hAction
  all_goals
    unfold engineStep
    simp only [hStep, hFinished]

/-- The connector keeps up with every run of the scheduler. -/
theorem exists_engine (hGroup : 0 < cfg.numGroups) (hWindow : cfg.slidingWindow 0 = false)
    (hClip : ∀ blocks, producer.getSwClippedBlocks blocks = blocks) {actions : List (Action H)}
    {s : State H} (run : Reaches cfg hashing actions s) :
    ∃ staging steps, runFrom (engineStep cfg hashing producer) Engine.initial actions =
        some ⟨s, staging, steps⟩ ∧ StagingOk producer ⟨s, staging, steps⟩ := by
  induction actions using List.reverseRecOn generalizing s with
  | nil =>
      obtain rfl : State.initial = s := Option.some.inj run
      exact ⟨Staging.initial, [], rfl, StagingOk.initial producer⟩
  | append_singleton actions action ih =>
      unfold Reaches at run
      rw [runFrom_append, Option.bind_eq_some_iff] at run
      obtain ⟨middle, hPrior, hLast⟩ := run
      have hStep : step cfg hashing middle action = some s := by
        simpa [runFrom] using hLast
      obtain ⟨staging, steps, hEngine, hStaging⟩ := ih hPrior
      obtain ⟨hQueues, hTables⟩ := run_rule (tables_run cfg hashing) (fun _ _ => trivial) hPrior
      rw [runFrom_append, hEngine, Option.bind_some]
      by_cases hAction : action.IsSchedule
      · obtain ⟨-, hLen⟩ := run_rule (maxModelLen_run cfg hashing hGroup hWindow)
          (fun _ _ => trivial) hPrior
        cases action with
        | schedule up =>
            have hSchedule := hStep
            simp only [step] at hSchedule
            split at hSchedule
            · obtain ⟨locals, hLoops, -, rfl⟩ := schedule_cases hSchedule
              obtain ⟨staging', hBuild, hNext⟩ := hStaging.schedule hGroup hClip
                (loops_since hQueues hGroup hWindow hLen hLoops) (loops_ok hQueues hLoops)
                (hTables.loops hQueues hLoops)
                (fun id => ((locals.finish cfg hashing).requests id).numPromptTokens)
              refine ⟨_, _, ?_, hNext⟩
              have hOutput : (locals.finish cfg hashing).inFlight.getLast? = some locals.output := by
                simp [Locals.finish]
              simp [runFrom, engineStep, hStep, hOutput, hBuild]
            · cases hSchedule
        | addRequest | updateFromOutput | updateDraftTokenIds | finishRequest | releaseDeferred
          | freeDelayed => exact hAction.elim
      · obtain ⟨finished, hQuiet⟩ := step_quiet hQueues hAction hStep
        refine ⟨_, _, ?_, hStaging.quiet hQuiet⟩
        simp [runFrom, engineStep_quiet hAction hStep hQuiet]

variable (producer) in
/-- In every run with one KV group and no sliding window no assertion of the connector
fails. Each step saves the requests that are decoded remotely and reach the end of their
prompt in it, for the first time since they were admitted, each once and with its block
table; a request is admitted again before it is saved again, and once it is finished no
block list of it is left. -/
theorem reqsToSave_complete (hGroups : cfg.numGroups = 1)
    (hWindow : ∀ group, cfg.slidingWindow group = false)
    (hClip : (∀ group, cfg.slidingWindow group = false) →
      ∀ blocks, producer.getSwClippedBlocks blocks = blocks)
    {actions : List (Action H)} {s : State H} (run : Reaches cfg hashing actions s) :
    ∃ engine, runFrom (engineStep cfg hashing producer) Engine.initial actions = some engine ∧
      engine.scheduler = s ∧
      (∀ n step, engine.steps[n]? = some step → SavesAt producer engine.steps n step) ∧
      (∀ id m n, m < n → HappensAt (SaveStep.saves id) engine.steps m →
        HappensAt (SaveStep.saves id) engine.steps n →
        ∃ k, m < k ∧ k ≤ n ∧ HappensAt (SaveStep.admits id) engine.steps k) ∧
      ∀ id, (s.requests id).status = .finished → engine.staging.blockIdsNeedSave id = none := by
  obtain ⟨staging, steps, hEngine, hStaging⟩ :=
    exists_engine (by omega) (hWindow 0) (hClip hWindow) run
  refine ⟨⟨s, staging, steps⟩, hEngine, rfl, hStaging.saves, ?_, hStaging.finished⟩
  rintro id m n hLt ⟨first, hFirst, hSavesFirst⟩ ⟨second, hSecond, hSavesSecond⟩
  exact ((hStaging.saves m first hFirst).completesAt hSavesFirst).start_between
    ((hStaging.saves n second hSecond).completesAt hSavesSecond) hLt

end Runs

/-! ### A small producer -/

/-- Two pipeline stages, so that a running prefill can be preempted before its last token. -/
def producerConfig : Config :=
  { Config.small with
    numBlocks := 5
    pipelineParallelSize := 2
    hasConnector := true
    maxConcurrentBatches := 2 }

/-- Request 1 is decoded remotely. -/
def producerOfOne : Producer where
  doRemoteDecode id := id = 1
  getSwClippedBlocks blocks := blocks
  stopsTracking _ := true

/-- Request 1 has eight of its nine tokens computed when request 0 takes the last block and
it is preempted; it resumes once request 0 is aborted. -/
def preemptedRun : List (Action SmallHash) :=
  let schedule := .schedule
    { Upstream.plain producerConfig with connectorMatch := fun _ _ _ => some (0, false) }
  let update := .updateFromOutput (.constant 5)
  [.addRequest 0 (.plain [1, 2, 3] 8), schedule, update,
    .addRequest 1 (.plain [6, 7, 8, 9, 10, 11, 12, 13, 14] 3), schedule, update, schedule, update,
    schedule, schedule, update, update, .finishRequest 0 false false, schedule, update, schedule]

/-- The blocks `[2, 3]` of its first admission are gone from the save. -/
theorem reqsToSave_complete_preempted : ∃ s engine,
    Reaches producerConfig Hashing.free preemptedRun s ∧
    runFrom (engineStep producerConfig Hashing.free producerOfOne) Engine.initial preemptedRun =
      some engine ∧
    engine.steps.map (fun step => (step.blockTables 1 0,
        step.reqsToSave.map fun save => (save.1, save.2 0))) =
      [([], []), ([2, 3], []), ([2, 3], []), ([2, 3], []), ([], []), ([1, 2], []),
        ([1, 2, 3], [(1, [1, 2, 3])])] ∧
    CompletesAt engine.steps 1 6 := by
  obtain ⟨s, run, -⟩ := Reaches.exists_of_any producerConfig Hashing.free preemptedRun
    (fun s => decide (s.kv.reqToBlocks 1 0 = [1, 2, 3])) (by decide +kernel)
  obtain ⟨engine, hEngine, -, hSaves, -⟩ :=
    reqsToSave_complete producerOfOne rfl (fun _ => rfl) (fun _ _ => rfl) run
  have hAny : (runFrom (engineStep producerConfig Hashing.free producerOfOne) Engine.initial
      preemptedRun).any (fun engine => decide (engine.steps.map (fun step => (step.blockTables 1 0,
        step.reqsToSave.map fun save => (save.1, save.2 0))) =
      [([], []), ([2, 3], []), ([2, 3], []), ([2, 3], []), ([], []), ([1, 2], []),
        ([1, 2, 3], [(1, [1, 2, 3])])])) = true := by decide +kernel
  rw [hEngine, Option.any_some, decide_eq_true_eq] at hAny
  refine ⟨s, engine, run, hEngine, hAny, ?_⟩
  have hLast := congrArg (·[6]?) hAny
  simp only [List.getElem?_map] at hLast
  obtain ⟨step, hStep, hRow⟩ := Option.map_eq_some_iff.mp hLast
  have hKeys : step.reqsToSave.map Prod.fst = [1] := by
    simpa [Function.comp_def] using congrArg (List.map Prod.fst) (Prod.mk.inj hRow).2
  apply (hSaves 6 step hStep).completesAt
  rw [SaveStep.saves, hKeys]
  exact List.mem_singleton_self 1

end VllmRbln.HostStaging
