import VllmRbln.DataParallel.Warmup

/-! The draft passes of one data-parallel step (`v1/spec_decode/eagle.py` with the draft
decision of `v1/worker/dp_utils.py`). A draft runs inside a step whose ranks have already
reduced, and decides from the status they published; a fused-MoE draft joins a collective
in every pass, so the ranks have to run the same passes. -/
namespace VllmRbln.DataParallel

open Checked Extremes

structure DrafterConfig where
  runner : RunnerConfig
  effectiveDrafterMaxModelLen : Nat
  draftHasMoe : Bool

/-- Assertions and exceptions on the way to the last draft pass. -/
inductive DraftError
  | target (error : RunError)
  | decision (error : BatchError)
  | noStatus
  | otherStepReqs (reported running : Nat)
  | otherStepTokens (reported running : Nat)
  | zeroDivision
  | tooManyTokens (numTokens : Nat)
  deriving DecidableEq, Repr

/-- The largest length a rank brings to the pass: past the first one every request
contributes `queryLen` tokens, whatever the rank reported. -/
def DPStatus.draftQueryLen (status : DPStatus) (queryLen : Nat) (firstPass : Bool) : Nat :=
  let tokensPerRank := if firstPass then status.numTokens else status.numReqs.map (· * queryLen)
  (List.zipWith (· / ·) tokensPerRank status.numReqs).foldl max 0

/-- The batch and token dimension of a draft pass, from the status of its step. -/
def draftDimensions (cfg : ShapeConfig) (status : DPStatus) (numReqsPadded queryLen : Nat)
    (isPrefill draftHasMoe firstPass : Bool) : Except DraftError (Nat × Nat) := do
  if !draftHasMoe then return (numReqsPadded, numReqsPadded * queryLen)
  else if cfg.specializedMoeDecode && !isPrefill then
    if firstPass && status.isPrefill.any id then
      let top ← cfg.topBucket.mapError .decision
      return (top, cfg.maxNumTokens)
    else
      let bucket ← (cfg.findBucket (status.numReqs.foldl max 0)).mapError .decision
      if status.numReqs.any (· == 0) then throw .zeroDivision
      return (bucket, bucket * status.draftQueryLen queryLen firstPass)
  else return (numReqsPadded, cfg.maxNumTokens)

/-- `determine_draft_batch_execution_and_padding`: one rank's padded batch for a draft pass. -/
def determineDraftBatchExecutionAndPadding (cfg : ShapeConfig) (status : Option DPStatus)
    (dpRank numReqs numTokens : Nat) (isPrefill draftHasMoe firstPass : Bool)
    (pinned : Option Nat) : Except DraftError BatchDescriptor := do
  if numReqs < 1 then throw (.decision (.numReqsBelowOne numReqs))
  if numTokens % numReqs ≠ 0 then throw (.decision (.notAMultiple numTokens numReqs))
  let queryLen := numTokens / numReqs
  let numReqsPadded ← (ownReqsPadded cfg numReqs isPrefill).mapError .decision
  match status with
  | none => (BatchDescriptor.create numReqsPadded queryLen pinned).mapError .decision
  | some status =>
      if status.numReqs.getD dpRank 0 ≠ numReqs then
        throw (.otherStepReqs (status.numReqs.getD dpRank 0) numReqs)
      -- An idle rank staged the length the decision handed back, not the one it reported.
      if firstPass && !status.isIdle.getD dpRank false &&
          status.numTokens.getD dpRank 0 != numTokens then
        throw (.otherStepTokens (status.numTokens.getD dpRank 0) numTokens)
      let (numReqsPadded, numTokensPadded) ←
        draftDimensions cfg status numReqsPadded queryLen isPrefill draftHasMoe firstPass
      (BatchDescriptor.create numReqsPadded queryLen
        (some (pinned.getD numTokensPadded))).mapError .decision

/-- The proposer's `_determine_batch_execution_and_padding`, on the status of its step. -/
def DrafterConfig.decide (cfg : DrafterConfig) (status : Option DPStatus)
    (dpRank numReqs numTokens : Nat) (isPrefill firstPass : Bool) (pinned : Option Nat) :
    Except DraftError BatchDescriptor :=
  if cfg.runner.dpSize = 1 then
    determineDraftBatchExecutionAndPadding cfg.runner.shape none dpRank numReqs numTokens
      isPrefill cfg.draftHasMoe firstPass pinned
  else
    match status with
    | none => .error .noStatus
    | some status =>
        determineDraftBatchExecutionAndPadding cfg.runner.shape (some status) dpRank numReqs
          numTokens isPrefill cfg.draftHasMoe firstPass pinned

/-- The forwards of `propose` and of the drafter's `dummy_run`: one on what the step staged,
then one token a request until `num_speculative_tokens` drafts are there. -/
def DrafterConfig.passes (cfg : DrafterConfig) (status : Option DPStatus)
    (dpRank numReqs numTokens : Nat) (isPrefill : Bool) (pinned : Option Nat) :
    Except DraftError (List BatchDescriptor) := do
  let first ← cfg.decide status dpRank numReqs numTokens isPrefill true pinned
  if cfg.runner.numSpecTokens = 1 then return [first]
  let later ← cfg.decide status dpRank numReqs numReqs false false pinned
  return first :: List.replicate (cfg.runner.numSpecTokens - 1) later

/-- The drafter's `dummy_run`. -/
def DrafterConfig.dummyRun (cfg : DrafterConfig) (status : Option DPStatus)
    (dpRank numReqs numTokensPerReq : Nat) (isPrefill : Bool) (pinned : Option Nat) :
    Except DraftError (List BatchDescriptor) :=
  if (status.any fun status => status.isIdle.getD dpRank false) && !cfg.draftHasMoe then .ok []
  else if numTokensPerReq * numReqs ≤ cfg.runner.shape.maxNumTokens then
    cfg.passes status dpRank numReqs (numTokensPerReq * numReqs) isPrefill pinned
  else .error (.tooManyTokens (numTokensPerReq * numReqs))

/-- One rank's part of a step: what it runs, and the sequence lengths of its batch. -/
structure RankStep where
  call : RankCall
  seqLens : List Nat

/-- `input_fits_in_drafter`: the longest row leaves room for the drafts. -/
def RankStep.inputFitsInDrafter (cfg : DrafterConfig) (step : RankStep) : Bool :=
  step.seqLens.foldl max 0 + cfg.runner.numSpecTokens ≤ cfg.effectiveDrafterMaxModelLen

/-- The draft passes of one rank: from `sample_tokens` on a real step, from `_dummy_run`
otherwise. -/
def RankStep.draft (cfg : DrafterConfig) (status : Option DPStatus) (dpRank : Nat)
    (step : RankStep) (desc : Option BatchDescriptor) (pinned : Option Nat) :
    Except DraftError (List BatchDescriptor) :=
  match step.call, desc with
  | .dummyRun _ _ _ _, none => .ok []
  | .dummyRun numReqs _ isPrefill true, some desc =>
      cfg.dummyRun status dpRank numReqs desc.queryLen isPrefill pinned
  | .dummyRun numReqs _ _ false, some desc =>
      let draftQueryLen :=
        if cfg.runner.usesFixedDecodeWindow && cfg.runner.numSpecTokens == 1 then
          step.call.targetQueryLen cfg.runner desc
        else desc.queryLen
      cfg.dummyRun status dpRank numReqs draftQueryLen false none
  | call, _ =>
      if step.inputFitsInDrafter cfg then
        cfg.passes status dpRank call.numReqs (call.numReqs * call.queryLen cfg.runner)
          call.isPrefill none
      else .ok []

/-- The status the ranks of a step publish, none on a single rank. -/
def publishedStatus (cfg : RunnerConfig) (inputs : List RankInput) :
    Except BatchError (Option DPStatus) := do
  if cfg.dpSize = 1 then return none
  let encoded ← inputs.mapM RankInput.encode
  return some (decode (runAr encoded))

/-- One step of the group with its drafting: the draft passes of every rank, in order. -/
def draftGroup (cfg : DrafterConfig) (steps : List RankStep) (pinned : Option Nat) :
    Except DraftError (List (List BatchDescriptor)) := do
  let calls := steps.map RankStep.call
  let _ ← (runGroup cfg.runner calls pinned).mapError .target
  let inputs := calls.map (RankCall.input cfg.runner)
  let descs ← (decideGroup cfg.runner inputs pinned).mapError .decision
  let status ← (publishedStatus cfg.runner inputs).mapError .decision
  (steps.zip descs).zipIdx.mapM fun rank => rank.1.1.draft cfg status rank.2 rank.1.2 pinned

/-- The ranks run the same draft forwards: equally many, pass `i` of each padded to one token
dimension that holds its rows. -/
def Lockstep (passes : List (List BatchDescriptor)) : Prop :=
  ∀ own ∈ passes, ∀ peer ∈ passes, own.length = peer.length ∧
    ∀ (i : Nat) (desc other : BatchDescriptor), own[i]? = some desc → peer[i]? = some other →
      ∃ padded, desc.numTokensPadded = some padded ∧ other.numTokensPadded = some padded ∧
        desc.numReqsPadded * desc.queryLen ≤ padded

/-! ### One pass -/

/-- The token dimension the ranks read off one status for a fused-MoE draft pass; `bucket`
is the one that holds the largest batch of the group. -/
def draftPadding (cfg : ShapeConfig) (status : DPStatus) (bucket : Nat) (firstPass : Bool) : Nat :=
  if cfg.specializedMoeDecode && !(firstPass && status.isPrefill.any id) then
    bucket * status.draftQueryLen 1 firstPass
  else cfg.maxNumTokens

/-- Every pass is padded to the dimension of the group, and its rows fit there. -/
def PaddedPasses (cfg : ShapeConfig) (status : DPStatus) (bucket : Nat)
    (passes : List BatchDescriptor) : Prop :=
  ∀ (i : Nat) (batch : BatchDescriptor), passes[i]? = some batch →
    batch.numTokensPadded = some (draftPadding cfg status bucket (i == 0)) ∧
      batch.numReqsPadded * batch.queryLen ≤ draftPadding cfg status bucket (i == 0)

theorem PaddedPasses.nil {cfg : ShapeConfig} {status : DPStatus} {bucket : Nat} :
    PaddedPasses cfg status bucket [] := by
  intro i batch hBatch
  simp at hBatch

section Pass

variable {cfg : DrafterConfig} {status : DPStatus} {top bucket r numReqs queryLen : Nat}
  {isPrefill firstPass : Bool}

/-- A pass is decided once its own rows fit the dimensions the status gives. -/
theorem DrafterConfig.decide_eq {own b padded : Nat} (hMany : cfg.runner.dpSize ≠ 1)
    (hReqs : 1 ≤ numReqs) (hOwn : ownReqsPadded cfg.runner.shape numReqs isPrefill = .ok own)
    (hReported : status.numReqs.getD r 0 = numReqs)
    (hTokens : firstPass = true → status.isIdle.getD r false = false →
      status.numTokens.getD r 0 = numReqs * queryLen)
    (hDims : draftDimensions cfg.runner.shape status own queryLen isPrefill cfg.draftHasMoe
      firstPass = .ok (b, padded))
    (hFits : b * queryLen ≤ padded) :
    cfg.decide (some status) r numReqs (numReqs * queryLen) isPrefill firstPass none =
      .ok ⟨b, queryLen, some padded⟩ := by
  have hNotZero : ¬ numReqs < 1 := by omega
  have hQuery : numReqs * queryLen / numReqs = queryLen := Nat.mul_div_cancel_left _ (by omega)
  have hUniform : numReqs * queryLen % numReqs = 0 := Nat.mul_mod_right _ _
  have hCheck : (firstPass && !status.isIdle.getD r false &&
      status.numTokens.getD r 0 != numReqs * queryLen) = false := by
    cases firstPass with
    | false => rfl
    | true =>
        cases hIdle : status.isIdle.getD r false with
        | true => rfl
        | false =>
            rw [hTokens rfl hIdle]
            simp
  unfold DrafterConfig.decide determineDraftBatchExecutionAndPadding
  simp only [hMany, if_false, hNotZero, hUniform, ne_eq, not_true_eq_false, hQuery, hOwn,
    Except.mapError, hReported, hCheck, Bool.false_eq_true, hDims, bind, Except.bind,
    Option.getD_none, BatchDescriptor.create_eq_ok.2 ⟨hFits, rfl⟩]

/-- The dimensions of a fused-MoE pass: every rank reads the same token dimension. -/
theorem draftDimensions_padding {own : Nat} (hTop : cfg.runner.shape.HasTop top)
    (hMoe : cfg.draftHasMoe = true)
    (hBucket : cfg.runner.shape.findBucket (status.numReqs.foldl max 0) = .ok bucket)
    (hReqs : ∀ n ∈ status.numReqs, 1 ≤ n)
    (hFirst : firstPass = false → queryLen = 1)
    (hPrefill : isPrefill = true → (firstPass && status.isPrefill.any id) = true)
    (hOwnFits : own * queryLen ≤ cfg.runner.shape.maxNumTokens)
    (hTopFits : isPrefill = false → top * queryLen ≤ cfg.runner.shape.maxNumTokens)
    (hDeep : isPrefill = false → (firstPass && status.isPrefill.any id) = false →
      queryLen ≤ status.draftQueryLen 1 firstPass) :
    ∃ b, draftDimensions cfg.runner.shape status own queryLen isPrefill cfg.draftHasMoe
        firstPass = .ok (b, draftPadding cfg.runner.shape status bucket firstPass) ∧
      b * queryLen ≤ draftPadding cfg.runner.shape status bucket firstPass := by
  have hSame : status.draftQueryLen queryLen firstPass = status.draftQueryLen 1 firstPass := by
    cases firstPass with
    | true => rfl
    | false => rw [hFirst rfl]
  have hNonzero : status.numReqs.any (· == 0) = false := by
    rw [List.any_eq_false]
    intro n hn hZero
    have := hReqs n hn
    simp only [beq_iff_eq] at hZero
    omega
  unfold draftDimensions draftPadding
  simp only [hMoe, Bool.not_true, Bool.false_eq_true, if_false]
  cases hSpecialized : cfg.runner.shape.specializedMoeDecode with
  | false => exact ⟨own, by simp [pure, Except.pure], by simpa using hOwnFits⟩
  | true =>
      cases hPhase : isPrefill with
      | true =>
          rw [hPrefill hPhase]
          exact ⟨own, by simp [pure, Except.pure], by simpa using hOwnFits⟩
      | false =>
          cases hAny : (firstPass && status.isPrefill.any id) with
          | true =>
              refine ⟨top, ?_, by simpa using hTopFits hPhase⟩
              simp [hTop.topBucket_eq, Except.mapError, bind, Except.bind, pure, Except.pure]
          | false =>
              refine ⟨bucket, ?_, by simpa using Nat.mul_le_mul_left bucket (hDeep hPhase hAny)⟩
              simp [hBucket, hNonzero, hSame, Except.mapError, bind, Except.bind, pure, Except.pure]

end Pass

/-! ### The ranks of a serving step -/

section Serving

variable {cfg : DrafterConfig} {top bucket : Nat} {calls : List RankCall} {call : RankCall}
  {warm : List ForwardShape}

variable (cfg) in
theorem servingStatus_getD {r : Nat} (hr : r < calls.length) :
    (servingStatus cfg.runner calls).numReqs.getD r 0 = calls[r].numReqs ∧
      (servingStatus cfg.runner calls).isIdle.getD r false = calls[r].isIdle ∧
      (servingStatus cfg.runner calls).numTokens.getD r 0 =
        calls[r].numReqs * calls[r].queryLen cfg.runner := by
  simp [servingStatus, reportedStatus, RankCall.input, hr]

theorem mem_servingStatus_numReqs {n : Nat}
    (hReqs : n ∈ (servingStatus cfg.runner calls).numReqs) : ∃ call ∈ calls, call.numReqs = n := by
  simpa [servingStatus, reportedStatus, RankCall.input] using hReqs

/-- The first pass is as deep as any rank staged. -/
theorem queryLen_le_draftQueryLen (hServing : ∀ call ∈ calls, call.Serving cfg.runner)
    (hCall : call ∈ calls) :
    call.queryLen cfg.runner ≤ (servingStatus cfg.runner calls).draftQueryLen 1 true := by
  have hOwn : call.queryLen cfg.runner =
      call.numReqs * call.queryLen cfg.runner / call.numReqs :=
    (Nat.mul_div_cancel_left _ (by have := (hServing call hCall).one_le; omega)).symm
  rw [hOwn]
  refine (le_foldl_max _ 0).2 _ ?_
  obtain ⟨r, hr, rfl⟩ := List.getElem_of_mem hCall
  refine List.mem_iff_getElem.2 ⟨r, by simpa [servingStatus, reportedStatus] using hr, ?_⟩
  simp [servingStatus, reportedStatus, RankCall.input]

theorem one_le_draftQueryLen_later (hServing : ∀ call ∈ calls, call.Serving cfg.runner)
    (hCall : call ∈ calls) : 1 ≤ (servingStatus cfg.runner calls).draftQueryLen 1 false := by
  have hOwn : call.numReqs / call.numReqs = 1 :=
    Nat.div_self (by have := (hServing call hCall).one_le; omega)
  refine le_of_eq_of_le hOwn.symm ((le_foldl_max _ 0).2 _ ?_)
  obtain ⟨r, hr, rfl⟩ := List.getElem_of_mem hCall
  refine List.mem_iff_getElem.2 ⟨r, by simpa [servingStatus, reportedStatus] using hr, ?_⟩
  simp [servingStatus, reportedStatus, RankCall.input]

/-- Under a fixed window a busy rank that does not prefill stages the window. -/
theorem busy_decode_queryLen (hFixed : cfg.runner.usesFixedDecodeWindow = true)
    (hServing : call.Serving cfg.runner) (hBusy : call.isIdle = false)
    (hDecode : call.isPrefill = false) :
    call.queryLen cfg.runner = cfg.runner.numSpecTokens + 1 := by
  cases call with
  | prefill numTokens => cases hDecode
  | decode numReqs drafted => simp [RankCall.queryLen, hFixed]
  | dummyRun numReqs numTokensPerReq isPrefill warmup =>
      cases hServing
      cases hBusy

theorem findBucket_serving (hTop : cfg.runner.shape.HasTop top)
    (hWarmed : Warmed cfg.runner top warm) (hServing : ∀ call ∈ calls, call.Serving cfg.runner) :
    ∃ bucket, cfg.runner.shape.findBucket
      ((servingStatus cfg.runner calls).numReqs.foldl max 0) = .ok bucket := by
  have hTopPos : 1 ≤ top := (hWarmed.bucket top (List.mem_of_getLast? hTop.last)).1
  have hLe : (servingStatus cfg.runner calls).numReqs.foldl max 0 ≤ top := by
    refine foldl_max_le (Nat.zero_le _) fun n hn => ?_
    obtain ⟨call, hCall, rfl⟩ := mem_servingStatus_numReqs hn
    exact (hServing call hCall).numReqs_le_top hTop hTopPos
  obtain ⟨bucket, hBucket, -⟩ := hTop.findBucket_ok hLe
  exact ⟨bucket, hBucket⟩

/-- The passes of one rank: all of them padded as the group reads it off the status. -/
theorem passes_serving {r queryLen : Nat} (hMany : cfg.runner.dpSize ≠ 1)
    (hMoe : cfg.draftHasMoe = true) (hTop : cfg.runner.shape.HasTop top)
    (hWarmed : Warmed cfg.runner top warm) (hFixed : cfg.runner.usesFixedDecodeWindow = true)
    (hSpec : 1 ≤ cfg.runner.numSpecTokens)
    (hServing : ∀ call ∈ calls, call.Serving cfg.runner) (hr : r < calls.length)
    (hBusy : ∃ call ∈ calls, call.isIdle = false)
    (hBucket : cfg.runner.shape.findBucket
      ((servingStatus cfg.runner calls).numReqs.foldl max 0) = .ok bucket)
    (hAt : calls[r] = call) (hTokens : call.isIdle = false → queryLen = call.queryLen cfg.runner)
    (hIdle : call.isIdle = true → queryLen ≤ cfg.runner.numSpecTokens + 1) :
    ∃ passes, cfg.passes (some (servingStatus cfg.runner calls)) r call.numReqs
        (call.numReqs * queryLen) call.isPrefill none = .ok passes ∧
      passes.length = cfg.runner.numSpecTokens ∧
      PaddedPasses cfg.runner.shape (servingStatus cfg.runner calls) bucket passes := by
  subst hAt
  have hMem := List.getElem_mem hr
  have hOwnServing := hServing _ hMem
  have hReqs := hOwnServing.one_le
  have hTopMem : top ∈ cfg.runner.shape.decodeBatchBuckets := List.mem_of_getLast? hTop.last
  have hTopPos : 1 ≤ top := (hWarmed.bucket top hTopMem).1
  have hAll : ∀ n ∈ (servingStatus cfg.runner calls).numReqs, 1 ≤ n := by
    intro n hn
    obtain ⟨call, hCall, rfl⟩ := mem_servingStatus_numReqs hn
    exact (hServing call hCall).one_le
  obtain ⟨hReported, hReportedIdle, hReportedTokens⟩ := servingStatus_getD cfg hr
  obtain ⟨own, hOwn, -⟩ := hTop.findBucket_ok (hOwnServing.numReqs_le_top hTop hTopPos)
  have hFits : ∀ b ∈ cfg.runner.shape.decodeBatchBuckets, ∀ q ≤ cfg.runner.numSpecTokens + 1,
      b * q ≤ cfg.runner.shape.maxNumTokens := by
    intro b hb q hq
    refine le_trans (Nat.mul_le_mul_left b hq) (hWarmed.fits b hb _ ?_)
    rw [mem_warmupQueryLens_fixed hFixed]
    exact List.mem_cons_self
  have hOwnMem := (ShapeConfig.findBucket_mem hOwn).1
  -- The first pass runs what the step staged.
  have hDecodeLe : calls[r].isPrefill = false → queryLen ≤ cfg.runner.numSpecTokens + 1 := by
    intro hDecode
    cases hPhase : calls[r].isIdle with
    | true => exact hIdle hPhase
    | false =>
        rw [hTokens hPhase, busy_decode_queryLen hFixed hOwnServing hPhase hDecode]
  obtain ⟨local₁, hLocal, hLocalFits⟩ : ∃ local₁,
      ownReqsPadded cfg.runner.shape calls[r].numReqs calls[r].isPrefill = .ok local₁ ∧
        local₁ * queryLen ≤ cfg.runner.shape.maxNumTokens := by
    cases hCall : calls[r] with
    | prefill numTokens =>
        rw [hCall] at hOwnServing hTokens
        refine ⟨1, rfl, ?_⟩
        rw [hTokens rfl, Nat.one_mul]
        exact hOwnServing.2
    | decode numReqs drafted =>
        rw [hCall] at hOwn hDecodeLe
        exact ⟨own, hOwn, hFits own hOwnMem _ (hDecodeLe rfl)⟩
    | dummyRun numReqs numTokensPerReq isPrefill warmup =>
        rw [hCall] at hOwn hDecodeLe hOwnServing
        cases hOwnServing
        exact ⟨own, hOwn, hFits own hOwnMem _ (hDecodeLe rfl)⟩
  have hFirstDims : ∃ b, draftDimensions cfg.runner.shape (servingStatus cfg.runner calls) local₁
      queryLen calls[r].isPrefill cfg.draftHasMoe true = .ok (b, draftPadding cfg.runner.shape
        (servingStatus cfg.runner calls) bucket true) ∧
      b * queryLen ≤ draftPadding cfg.runner.shape (servingStatus cfg.runner calls) bucket true := by
    refine draftDimensions_padding hTop hMoe hBucket hAll (by simp) ?_ hLocalFits
      (fun hDecode => hFits top hTopMem _ (hDecodeLe hDecode)) ?_
    · intro hPrefill
      rw [Bool.true_and, servingStatus_isPrefill]
      exact List.any_eq_true.2 ⟨_, hMem, hPrefill⟩
    · intro hDecode hNone
      rw [Bool.true_and, servingStatus_isPrefill] at hNone
      obtain ⟨busy, hBusyMem, hBusyCall⟩ := hBusy
      have hBusyDecode : busy.isPrefill = false := by
        simpa using (List.any_eq_false.1 hNone) busy hBusyMem
      refine le_trans (hDecodeLe hDecode) (le_trans ?_
        (queryLen_le_draftQueryLen hServing hBusyMem))
      rw [busy_decode_queryLen hFixed (hServing _ hBusyMem) hBusyCall hBusyDecode]
  obtain ⟨b₁, hDims₁, hFits₁⟩ := hFirstDims
  have hFirst := DrafterConfig.decide_eq hMany hReqs hLocal hReported
    (fun _ hPhase => by rw [hReportedTokens, hTokens (hReportedIdle.symm.trans hPhase)])
    hDims₁ hFits₁
  -- Every later pass runs one token a request.
  have hLaterDims : ∃ b, draftDimensions cfg.runner.shape (servingStatus cfg.runner calls) own
      1 false cfg.draftHasMoe false = .ok (b, draftPadding cfg.runner.shape
        (servingStatus cfg.runner calls) bucket false) ∧
      b * 1 ≤ draftPadding cfg.runner.shape (servingStatus cfg.runner calls) bucket false :=
    draftDimensions_padding hTop hMoe hBucket hAll (fun _ => rfl) (by simp)
      (hFits own hOwnMem 1 (by omega)) (fun _ => hFits top hTopMem 1 (by omega))
      (fun _ _ => one_le_draftQueryLen_later hServing hMem)
  obtain ⟨b₂, hDims₂, hFits₂⟩ := hLaterDims
  have hLaterOwn : ownReqsPadded cfg.runner.shape calls[r].numReqs false = .ok own := hOwn
  have hLater := DrafterConfig.decide_eq hMany hReqs hLaterOwn hReported (by simp) hDims₂ hFits₂
  rw [Nat.mul_one] at hLater
  unfold DrafterConfig.passes
  simp only [hFirst, hLater, bind, Except.bind, pure, Except.pure]
  split
  · rename_i hOne
    refine ⟨_, rfl, by simp [hOne], fun i desc hDesc => ?_⟩
    cases i with
    | zero =>
        cases hDesc
        exact ⟨rfl, hFits₁⟩
    | succ i => simp at hDesc
  · refine ⟨_, rfl, by simp; omega, fun i desc hDesc => ?_⟩
    cases i with
    | zero =>
        cases hDesc
        exact ⟨rfl, hFits₁⟩
    | succ i =>
        rw [List.getElem?_cons_succ] at hDesc
        obtain ⟨-, rfl⟩ := List.mem_replicate.1 (List.mem_of_getElem? hDesc)
        exact ⟨rfl, hFits₂⟩

/-- What a decision across the ranks gives: nothing on a drained group, else a batch at the
rank's own query length or, without a prefill, at the longest of the busy ranks. -/
theorem determineAcrossDp_queryLen {shape : ShapeConfig} {status : DPStatus}
    {numReqs queryLen padded : Nat} {isPrefill : Bool} {desc : Option BatchDescriptor}
    (hDecide : Prod.fst <$> determineAcrossDp shape numReqs queryLen padded isPrefill status =
      .ok desc) :
    (status.busy = [] ∧ desc = none) ∨ (status.busy ≠ [] ∧ ∃ batch, desc = some batch ∧
      (batch.queryLen = queryLen ∨
        (status.isPrefill.any id = false ∧ batch.queryLen = status.maxQueryLen))) := by
  have hCreate : ∀ {reqs q : Nat} {pad : Option Nat} {batch : BatchDescriptor},
      BatchDescriptor.create reqs q pad = .ok batch → batch.queryLen = q := by
    intro reqs q pad batch hBatch
    unfold BatchDescriptor.create at hBatch
    split at hBatch
    · cases hBatch
      rfl
    · split at hBatch <;> cases hBatch
      rfl
  by_cases hBusy : status.busy = []
  · rw [determineAcrossDp_allIdle hBusy] at hDecide
    cases hDecide
    exact .inl ⟨hBusy, rfl⟩
  refine .inr ⟨hBusy, ?_⟩
  have hMapped : ∀ {reqs : Except BatchError Nat} {q : Nat} {pad : Nat → Option Nat}
      {route : BatchRoute}, Prod.fst <$> (do
        let reqs ← reqs
        let batch ← BatchDescriptor.create reqs q (pad reqs)
        pure (some batch, route) : Except BatchError (Option BatchDescriptor × BatchRoute)) =
        .ok desc → ∃ batch, desc = some batch ∧ batch.queryLen = q := by
    intro reqs q pad route hMap
    cases reqs with
    | error error => cases hMap
    | ok reqs =>
        cases hBatch : BatchDescriptor.create reqs q (pad reqs) with
        | error error => simp [hBatch, bind, Except.bind, Functor.map, Except.map] at hMap
        | ok batch =>
            simp only [hBatch, bind, Except.bind, Functor.map, Except.map, pure, Except.pure,
              Except.ok.injEq] at hMap
            exact ⟨batch, hMap.symm, hCreate hBatch⟩
  have hOne : ∀ {reqs q : Nat} {pad : Option Nat} {route : BatchRoute}, Prod.fst <$> (do
        let batch ← BatchDescriptor.create reqs q pad
        pure (some batch, route) : Except BatchError (Option BatchDescriptor × BatchRoute)) =
        .ok desc → ∃ batch, desc = some batch ∧ batch.queryLen = q := by
    intro reqs q pad route hMap
    have hBound : Prod.fst <$> (do
        let reqs ← .ok reqs
        let batch ← BatchDescriptor.create reqs q pad
        pure (some batch, route) : Except BatchError (Option BatchDescriptor × BatchRoute)) =
        .ok desc := hMap
    exact hMapped hBound
  unfold determineAcrossDp at hDecide
  simp only [hBusy, if_false] at hDecide
  split at hDecide
  · obtain ⟨batch, rfl, hQuery⟩ := hOne hDecide
    exact ⟨batch, rfl, .inl hQuery⟩
  split at hDecide
  · split at hDecide
    · obtain ⟨batch, rfl, hQuery⟩ := hOne hDecide
      exact ⟨batch, rfl, .inl hQuery⟩
    · obtain ⟨batch, rfl, hQuery⟩ := hMapped hDecide
      exact ⟨batch, rfl, .inl hQuery⟩
  rename_i hNone
  split at hDecide
  · cases hDecide
  split at hDecide
  · obtain ⟨batch, rfl, hQuery⟩ := hMapped hDecide
    exact ⟨batch, rfl, .inl hQuery⟩
  · obtain ⟨batch, rfl, hQuery⟩ := hMapped hDecide
    exact ⟨batch, rfl, .inr ⟨by simpa using hNone, hQuery⟩⟩

/-- The target batch of an idle rank is no longer than the decode window. -/
theorem idle_decision {desc : Option BatchDescriptor} (hMany : cfg.runner.dpSize ≠ 1)
    (hTop : cfg.runner.shape.HasTop top) (hWarmed : Warmed cfg.runner top warm)
    (hFixed : cfg.runner.usesFixedDecodeWindow = true)
    (hServing : ∀ call ∈ calls, call.Serving cfg.runner)
    (hDecide : RankInput.decision cfg.runner.shape
      (groupStatus cfg.runner (calls.map (RankCall.input cfg.runner))) none
      (RankCall.idle.input cfg.runner) = .ok desc) :
    ((∀ call ∈ calls, call.isIdle = true) ∧ desc = none) ∨
      ((∃ call ∈ calls, call.isIdle = false) ∧
        ∃ batch, desc = some batch ∧ batch.queryLen ≤ cfg.runner.numSpecTokens + 1) := by
  have hInput : RankCall.idle.input cfg.runner = ⟨1, 1 * 1, false, true⟩ := rfl
  have hTopPos : 1 ≤ top := (hWarmed.bucket top (List.mem_of_getLast? hTop.last)).1
  have hStatus : groupStatus cfg.runner (calls.map (RankCall.input cfg.runner)) =
      some (servingStatus cfg.runner calls) := by
    simp [groupStatus, hMany, servingStatus]
  obtain ⟨padded, hPadded, -⟩ := hTop.findBucket_ok hTopPos
  have hOwn : ownReqsPadded cfg.runner.shape 1 false = .ok padded := hPadded
  rw [hInput, RankInput.decision_eq le_rfl, hStatus, hOwn] at hDecide
  rcases determineAcrossDp_queryLen hDecide with ⟨hBusy, rfl⟩ | ⟨hBusy, batch, rfl, hQuery⟩
  · refine .inl ⟨fun call hCall => ?_, rfl⟩
    obtain ⟨i, hi, rfl⟩ := List.getElem_of_mem hCall
    by_contra hNot
    have hMem : i ∈ (servingStatus cfg.runner calls).busy :=
      mem_servingStatus_busy.2 ⟨hi, by simpa using hNot⟩
    simp [hBusy] at hMem
  · obtain ⟨i, hi⟩ := List.exists_mem_of_ne_nil _ hBusy
    obtain ⟨hLt, hCallBusy⟩ := mem_servingStatus_busy.1 hi
    refine .inr ⟨⟨_, List.getElem_mem hLt, hCallBusy⟩, batch, rfl, ?_⟩
    rcases hQuery with hQuery | ⟨hNone, hQuery⟩
    · omega
    · rw [hQuery]
      refine DPStatus.maxQueryLen_le fun j hj => ?_
      obtain ⟨hJ, hJBusy⟩ := mem_servingStatus_busy.1 hj
      have hDecode : calls[j].isPrefill = false := by
        rw [servingStatus_isPrefill] at hNone
        simpa using (List.any_eq_false.1 hNone) _ (List.getElem_mem hJ)
      rw [servingStatus_queryLen hServing hJ,
        busy_decode_queryLen hFixed (hServing _ (List.getElem_mem hJ)) hJBusy hDecode]

end Serving

/-! ### The group -/

section Group

variable {cfg : DrafterConfig} {top bucket : Nat} {steps : List RankStep} {step : RankStep}
  {warm : List ForwardShape}

variable (cfg steps) in
/-- Whether a rank drafts: a busy one on its own rows, an idle one whenever a peer is busy. -/
def RankStep.drafts (step : RankStep) : Bool :=
  if step.call.isIdle then steps.any (fun peer => !peer.call.isIdle)
  else step.inputFitsInDrafter cfg

variable (cfg steps) in
/-- The group is drained, or every busy rank has room for its drafts, or none has and no
rank is idle. -/
def DraftsAgree : Prop :=
  (∀ step ∈ steps, step.call.isIdle = true) ∨
    (∀ step ∈ steps, step.call.isIdle = false → step.inputFitsInDrafter cfg = true) ∨
    (∀ step ∈ steps, step.call.isIdle = false ∧ step.inputFitsInDrafter cfg = false)

theorem draftsAgree_iff : DraftsAgree cfg steps ↔
    ∀ own ∈ steps, ∀ peer ∈ steps, own.drafts cfg steps = peer.drafts cfg steps := by
  constructor
  · rintro (hDrained | hRoom | hNone) own hOwn peer hPeer
    · simp [RankStep.drafts, hDrained own hOwn, hDrained peer hPeer]
    · -- With a busy rank in the step all of them draft, without one none does.
      by_cases hBusy : steps.any (fun peer => !peer.call.isIdle) = true
      · have hDrafts : ∀ step ∈ steps, step.drafts cfg steps = true := by
          intro step hStep
          unfold RankStep.drafts
          split
          · exact hBusy
          · rename_i hNot
            exact hRoom step hStep (by simpa using hNot)
        rw [hDrafts own hOwn, hDrafts peer hPeer]
      · have hIdle : ∀ step ∈ steps, step.call.isIdle = true := by
          intro step hStep
          by_contra hNot
          exact hBusy (List.any_eq_true.2 ⟨step, hStep, by simpa using hNot⟩)
        simp [RankStep.drafts, hIdle own hOwn, hIdle peer hPeer]
    · simp [RankStep.drafts, hNone own hOwn, hNone peer hPeer]
  · intro hAgree
    by_cases hBusy : ∃ busy ∈ steps, busy.call.isIdle = false
    · obtain ⟨busy, hMem, hNotIdle⟩ := hBusy
      have hBusyDrafts : busy.drafts cfg steps = busy.inputFitsInDrafter cfg := by
        simp [RankStep.drafts, hNotIdle]
      cases hFits : busy.inputFitsInDrafter cfg with
      | true =>
          refine .inr (.inl fun step hStep hOwn => ?_)
          have hSame := hAgree step hStep busy hMem
          rw [hBusyDrafts, hFits] at hSame
          simpa [RankStep.drafts, hOwn] using hSame
      | false =>
          refine .inr (.inr fun step hStep => ?_)
          have hSame := hAgree step hStep busy hMem
          rw [hBusyDrafts, hFits] at hSame
          cases hOwn : step.call.isIdle with
          | true =>
              have hAny : steps.any (fun peer => !peer.call.isIdle) = true :=
                List.any_eq_true.2 ⟨busy, hMem, by simp [hNotIdle]⟩
              simp [RankStep.drafts, hOwn, hAny] at hSame
          | false => exact ⟨rfl, by simpa [RankStep.drafts, hOwn] using hSame⟩
    · refine .inl fun step hStep => ?_
      by_contra hNot
      exact hBusy ⟨step, hStep, by simpa using hNot⟩

/-- One rank's drafting goes through; when it drafts, its passes are padded as the group
reads it off the status. -/
theorem RankStep.draft_serving {r : Nat} {desc : Option BatchDescriptor}
    (hMany : cfg.runner.dpSize ≠ 1) (hMoe : cfg.draftHasMoe = true)
    (hTop : cfg.runner.shape.HasTop top) (hWarmed : Warmed cfg.runner top warm)
    (hFixed : cfg.runner.usesFixedDecodeWindow = true) (hSpec : 1 ≤ cfg.runner.numSpecTokens)
    (hServing : ∀ call ∈ steps.map RankStep.call, call.Serving cfg.runner)
    (hBucket : cfg.runner.shape.findBucket ((servingStatus cfg.runner
      (steps.map RankStep.call)).numReqs.foldl max 0) = .ok bucket)
    (hr : r < steps.length) (hStep : steps[r] = step)
    (hDecide : RankInput.decision cfg.runner.shape (groupStatus cfg.runner
      ((steps.map RankStep.call).map (RankCall.input cfg.runner))) none
      (step.call.input cfg.runner) = .ok desc) :
    ∃ passes, step.draft cfg (some (servingStatus cfg.runner (steps.map RankStep.call))) r desc
        none = .ok passes ∧
      passes.length = (if step.drafts cfg steps then cfg.runner.numSpecTokens else 0) ∧
      PaddedPasses cfg.runner.shape (servingStatus cfg.runner (steps.map RankStep.call)) bucket
        passes := by
  have hLt : r < (steps.map RankStep.call).length := by simpa using hr
  have hCallEq : (steps.map RankStep.call)[r] = step.call := by simp [hStep]
  have hOwn := hServing _ (List.getElem_mem hLt)
  rw [hCallEq] at hOwn
  have hReal : step.call.isIdle = false → step.draft cfg
      (some (servingStatus cfg.runner (steps.map RankStep.call))) r desc none =
        if step.inputFitsInDrafter cfg then
          cfg.passes (some (servingStatus cfg.runner (steps.map RankStep.call))) r
            step.call.numReqs (step.call.numReqs * step.call.queryLen cfg.runner)
            step.call.isPrefill none
        else .ok [] := by
    intro hBusy
    cases hCall : step.call with
    | prefill numTokens => simp only [RankStep.draft, hCall]
    | decode numReqs drafted => simp only [RankStep.draft, hCall]
    | dummyRun numReqs numTokensPerReq isPrefill warmup =>
        rw [hCall] at hOwn hBusy
        cases hOwn
        cases hBusy
  cases hPhase : step.call.isIdle with
  | false =>
      rw [hReal hPhase]
      have hDrafts : step.drafts cfg steps = step.inputFitsInDrafter cfg := by
        simp [RankStep.drafts, hPhase]
      rw [hDrafts]
      split
      · refine passes_serving hMany hMoe hTop hWarmed hFixed hSpec hServing hLt
          ⟨_, List.getElem_mem hLt, by rw [hCallEq, hPhase]⟩ hBucket hCallEq (fun _ => rfl) ?_
        intro hIdle
        rw [hPhase] at hIdle
        cases hIdle
      · exact ⟨[], rfl, rfl, .nil⟩
  | true =>
      have hIdle : step.call = RankCall.idle := by
        cases hCall : step.call with
        | prefill numTokens => simp [hCall, RankCall.isIdle] at hPhase
        | decode numReqs drafted => simp [hCall, RankCall.isIdle] at hPhase
        | dummyRun numReqs numTokensPerReq isPrefill warmup =>
            rw [hCall] at hOwn
            exact hOwn
      have hDrafts : step.drafts cfg steps = steps.any (fun peer => !peer.call.isIdle) := by
        simp [RankStep.drafts, hPhase]
      rw [hIdle] at hDecide hCallEq
      rw [hDrafts]
      rcases idle_decision hMany hTop hWarmed hFixed hServing hDecide with
        ⟨hDrained, rfl⟩ | ⟨hBusy, batch, rfl, hQuery⟩
      · have hAny : steps.any (fun peer => !peer.call.isIdle) = false := by
          rw [List.any_eq_false]
          intro peer hPeer
          simp [hDrained peer.call (List.mem_map.2 ⟨peer, hPeer, rfl⟩)]
        refine ⟨[], ?_, by simp [hAny], .nil⟩
        simp only [RankStep.draft, hIdle, RankCall.idle]
      · have hAny : steps.any (fun peer => !peer.call.isIdle) = true := by
          obtain ⟨call, hCall, hNot⟩ := hBusy
          obtain ⟨peer, hPeer, rfl⟩ := List.mem_map.1 hCall
          exact List.any_eq_true.2 ⟨peer, hPeer, by simp [hNot]⟩
        rw [hAny, if_pos rfl]
        -- The draft is staged at a length inside the window either way.
        generalize hLen : (if cfg.runner.usesFixedDecodeWindow && cfg.runner.numSpecTokens == 1 then
          RankCall.idle.targetQueryLen cfg.runner batch else batch.queryLen) = draftLen
        have hDraftLen : draftLen ≤ cfg.runner.numSpecTokens + 1 := by
          rw [← hLen]
          simp only [RankCall.idle, RankCall.targetQueryLen, hFixed, Bool.not_false, Bool.true_and,
            if_true]
          split
          · exact max_le hQuery le_rfl
          · exact hQuery
        have hTokens : draftLen * 1 ≤ cfg.runner.shape.maxNumTokens := by
          have hTopMem : top ∈ cfg.runner.shape.decodeBatchBuckets := List.mem_of_getLast? hTop.last
          have hWindow := hWarmed.fits top hTopMem (cfg.runner.numSpecTokens + 1)
            (by rw [mem_warmupQueryLens_fixed hFixed]; exact List.mem_cons_self)
          have hMul := Nat.le_mul_of_pos_left (cfg.runner.numSpecTokens + 1)
            (hWarmed.bucket top hTopMem).1
          omega
        have hDraft : step.draft cfg
            (some (servingStatus cfg.runner (steps.map RankStep.call))) r (some batch) none =
              cfg.passes (some (servingStatus cfg.runner (steps.map RankStep.call))) r 1
                (1 * draftLen) false none := by
          unfold RankStep.draft
          rw [hIdle]
          unfold RankCall.idle at hLen ⊢
          simp only [hLen, DrafterConfig.dummyRun, hMoe, Bool.not_true, Bool.and_false,
            Bool.false_eq_true, if_false, hTokens, if_true]
          rw [Nat.mul_comm]
        rw [hDraft]
        exact passes_serving hMany hMoe hTop hWarmed hFixed hSpec hServing hLt hBusy hBucket hCallEq
          (fun hNot => by cases hNot) (fun _ => hDraftLen)

/-- A serving step drafts without an assertion; each rank runs `num_spec_tokens` passes or
none, padded to the dimensions of the group. -/
theorem draftGroup_serving (hMany : cfg.runner.dpSize ≠ 1)
    (hMoe : cfg.draftHasMoe = true) (hTop : cfg.runner.shape.HasTop top)
    (hWarmed : Warmed cfg.runner top warm) (hFixed : cfg.runner.usesFixedDecodeWindow = true)
    (hSpec : 1 ≤ cfg.runner.numSpecTokens)
    (hServing : ∀ step ∈ steps, step.call.Serving cfg.runner) :
    ∃ passes, draftGroup cfg steps none = .ok passes ∧ ∃ bucket,
      List.Forall₂ (fun step own =>
        own.length = (if step.drafts cfg steps then cfg.runner.numSpecTokens else 0) ∧
        PaddedPasses cfg.runner.shape (servingStatus cfg.runner (steps.map RankStep.call)) bucket
          own) steps passes := by
  have hCalls : ∀ call ∈ steps.map RankStep.call, call.Serving cfg.runner := by
    intro call hCall
    obtain ⟨step, hStep, rfl⟩ := List.mem_map.1 hCall
    exact hServing step hStep
  obtain ⟨row, hRow, -⟩ := runGroup_serving hTop hWarmed hCalls
  have hFits : ∀ input ∈ (steps.map RankStep.call).map (RankCall.input cfg.runner),
      input.FitsPacked := by
    intro input hInput
    obtain ⟨call, hCall, rfl⟩ := List.mem_map.1 hInput
    exact (hCalls call hCall).fitsPacked hTop hWarmed hMany
  obtain ⟨bucket, hBucket⟩ := findBucket_serving hTop hWarmed hCalls
  obtain ⟨descs, hDescs, hDecisions⟩ := mapM_ok
    (fun step : RankStep => RankInput.decision cfg.runner.shape (groupStatus cfg.runner
      ((steps.map RankStep.call).map (RankCall.input cfg.runner))) none (step.call.input cfg.runner))
    (fun step desc => RankInput.decision cfg.runner.shape (groupStatus cfg.runner
      ((steps.map RankStep.call).map (RankCall.input cfg.runner))) none
      (step.call.input cfg.runner) = .ok desc) steps fun step hStep => by
      obtain ⟨desc, hDesc, -⟩ := serving_decision hTop hWarmed hCalls
        (List.mem_map.2 ⟨step, hStep, rfl⟩)
      exact ⟨desc, hDesc, hDesc⟩
  have hDecide : decideGroup cfg.runner
      ((steps.map RankStep.call).map (RankCall.input cfg.runner)) none = .ok descs := by
    rw [decideGroup_eq fun _ => hFits, List.mapM_map, List.mapM_map]
    exact hDescs
  have hStatus : publishedStatus cfg.runner
      ((steps.map RankStep.call).map (RankCall.input cfg.runner)) =
        .ok (some (servingStatus cfg.runner (steps.map RankStep.call))) := by
    unfold publishedStatus servingStatus
    simp only [hMany, if_false, mapM_encode hFits, bind, Except.bind, decode_runAr hFits, pure,
      Except.pure]
  have hLength : (steps.zip descs).length = steps.length := by
    rw [List.length_zip, ← hDecisions.length_eq, Nat.min_self]
  obtain ⟨passes, hPasses, hPost⟩ := mapM_ok
    (fun rank : (RankStep × Option BatchDescriptor) × Nat => rank.1.1.draft cfg
      (some (servingStatus cfg.runner (steps.map RankStep.call))) rank.2 rank.1.2 none)
    (fun rank own =>
      own.length = (if rank.1.1.drafts cfg steps then cfg.runner.numSpecTokens else 0) ∧
      PaddedPasses cfg.runner.shape (servingStatus cfg.runner (steps.map RankStep.call)) bucket
        own) (steps.zip descs).zipIdx fun rank hRank => by
      obtain ⟨⟨step, desc⟩, r⟩ := rank
      obtain ⟨hr, hAt⟩ := List.mem_zipIdx' hRank
      have hSteps : r < steps.length := by omega
      have hPair : (steps.zip descs)[r] = (step, desc) := hAt.symm
      rw [List.getElem_zip, Prod.mk.injEq] at hPair
      refine RankStep.draft_serving hMany hMoe hTop hWarmed hFixed hSpec hCalls hBucket hSteps
        hPair.1 ?_
      have hOwn := hDecisions.get hSteps (by rw [← hDecisions.length_eq]; exact hSteps)
      simpa [hPair.1, hPair.2] using hOwn
  refine ⟨passes, ?_, bucket, ?_⟩
  · simp only [draftGroup, hRow, hDecide, hStatus, hPasses, Except.mapError, bind, Except.bind]
  · have hMapped : List.Forall₂ (fun step own =>
        own.length = (if step.drafts cfg steps then cfg.runner.numSpecTokens else 0) ∧
        PaddedPasses cfg.runner.shape (servingStatus cfg.runner (steps.map RankStep.call)) bucket
          own) ((steps.zip descs).zipIdx.map (fun rank => rank.1.1)) passes :=
      List.forall₂_map_left_iff.2 hPost
    have hSteps : (steps.zip descs).zipIdx.map (fun rank => rank.1.1) = steps := by
      have hFst : (steps.zip descs).zipIdx.map (fun rank => rank.1.1) =
          ((steps.zip descs).zipIdx.map Prod.fst).map Prod.fst := by
        rw [List.map_map]
        rfl
      rw [hFst, List.zipIdx_map_fst, List.map_fst_zip (le_of_eq hDecisions.length_eq)]
    rwa [hSteps] at hMapped

/-- Drafting stays in lockstep exactly when the ranks agree on whether to draft at all. -/
theorem draftGroup_lockstep_iff {runs : List (List (Option ForwardShape))}
    (hValid : cfg.runner.Valid) (hWarm : warmupModel cfg.runner = .ok runs)
    (hDp : 2 ≤ cfg.runner.dpSize) (hMoe : cfg.draftHasMoe = true)
    (hFixed : cfg.runner.usesFixedDecodeWindow = true) (hSpec : 1 ≤ cfg.runner.numSpecTokens)
    (hRanks : steps.length = cfg.runner.dpSize)
    (hServing : ∀ step ∈ steps, step.call.Serving cfg.runner) :
    (∃ passes, draftGroup cfg steps none = .ok passes ∧ passes.length = cfg.runner.dpSize ∧
      Lockstep passes) ↔ DraftsAgree cfg steps := by
  have hTop := ShapeConfig.hasTop hValid.ascend hValid.buckets
  have hWarmed := warmupModel_warmed hValid hTop hWarm hValid.dpSize
  obtain ⟨passes, hPasses, bucket, hPost⟩ := draftGroup_serving (by omega) hMoe hTop
    hWarmed hFixed hSpec hServing
  have hLength : passes.length = cfg.runner.dpSize := by rw [← hPost.length_eq, hRanks]
  rw [draftsAgree_iff]
  constructor
  · rintro ⟨_, hRun, -, hLock⟩ own hOwn peer hPeer
    rw [hPasses] at hRun
    cases hRun
    obtain ⟨i, hi, rfl⟩ := List.getElem_of_mem hOwn
    obtain ⟨j, hj, rfl⟩ := List.getElem_of_mem hPeer
    have hI : i < passes.length := by omega
    have hJ : j < passes.length := by omega
    have hSame := (hLock _ (List.getElem_mem hI) _ (List.getElem_mem hJ)).1
    have hOwnLen := (hPost.get hi hI).1
    have hPeerLen := (hPost.get hj hJ).1
    simp only [List.get_eq_getElem] at hOwnLen hPeerLen
    rw [hOwnLen, hPeerLen] at hSame
    cases hDraftsI : steps[i].drafts cfg steps <;> cases hDraftsJ : steps[j].drafts cfg steps <;>
      simp only [hDraftsI, hDraftsJ, if_true, if_false, Bool.false_eq_true] at hSame ⊢ <;> omega
  · intro hAgree
    refine ⟨passes, hPasses, hLength, fun own hOwn peer hPeer => ?_⟩
    obtain ⟨i, hi, rfl⟩ := List.getElem_of_mem hOwn
    obtain ⟨j, hj, rfl⟩ := List.getElem_of_mem hPeer
    have hI : i < steps.length := by omega
    have hJ : j < steps.length := by omega
    obtain ⟨hOwnLen, hOwnPadded⟩ := hPost.get hI hi
    obtain ⟨hPeerLen, hPeerPadded⟩ := hPost.get hJ hj
    simp only [List.get_eq_getElem] at hOwnLen hOwnPadded hPeerLen hPeerPadded
    refine ⟨?_, fun k desc other hDesc hOther => ?_⟩
    · have hDrafts := hAgree _ (List.getElem_mem hI) _ (List.getElem_mem hJ)
      simp only [hOwnLen, hPeerLen, hDrafts]
    · exact ⟨_, (hOwnPadded k desc hDesc).1, (hPeerPadded k other hOther).1,
        (hOwnPadded k desc hDesc).2⟩

end Group

/-- Two ranks under an MTP drafter of two tokens, rows of at most 16 tokens. -/
def DrafterConfig.mtpPair : DrafterConfig where
  runner := ⟨⟨[1, 4], 16, true⟩, 2, 4, some (.mtp, 2)⟩
  effectiveDrafterMaxModelLen := 16
  draftHasMoe := true

/-- Two decoding ranks, the first with a row close to the model's length. -/
def nearLimit : List RankStep := [⟨.decode 1 true, [15]⟩, ⟨.decode 1 true, [8]⟩]

theorem serving_nearLimit : ∀ step ∈ nearLimit, step.call.Serving DrafterConfig.mtpPair.runner := by
  intro step hStep
  simp only [nearLimit, List.mem_cons, List.not_mem_nil, or_false] at hStep
  rcases hStep with rfl | rfl <;> exact ⟨by decide, ⟨1, by decide, by decide⟩, fun _ => rfl⟩

/-- The rank with the long row skips its drafts while its peer runs two passes. -/
theorem draftGroup_nearLimit :
    DrafterConfig.mtpPair.runner.Valid ∧
      (∃ runs, warmupModel DrafterConfig.mtpPair.runner = .ok runs) ∧
      nearLimit.length = DrafterConfig.mtpPair.runner.dpSize ∧
      (∀ step ∈ nearLimit, step.call.Serving DrafterConfig.mtpPair.runner) ∧
      ∃ passes, draftGroup DrafterConfig.mtpPair nearLimit none = .ok passes ∧
        passes.map List.length = [0, 2] ∧ ¬ Lockstep passes := by
  refine ⟨⟨by decide, by decide, by decide, by decide⟩, ⟨_, rfl⟩, rfl, serving_nearLimit,
    [[], [⟨1, 3, some 3⟩, ⟨1, 1, some 1⟩]], by decide, rfl, fun hLock => ?_⟩
  have hSame := (hLock [] (by simp) [⟨1, 3, some 3⟩, ⟨1, 1, some 1⟩] (by simp)).1
  cases hSame

/-- Instance of `draftGroup_lockstep_iff`: with both rows short the ranks draft together. -/
theorem draftGroup_lockstep_mtpPair :
    ∃ passes, draftGroup DrafterConfig.mtpPair [⟨.decode 1 true, [5]⟩, ⟨.idle, []⟩] none =
      .ok passes ∧ passes.length = 2 ∧ Lockstep passes := by
  cases hWarm : warmupModel DrafterConfig.mtpPair.runner with
  | error error => exact absurd hWarm (by intro h; cases h)
  | ok runs =>
      refine (draftGroup_lockstep_iff ⟨by decide, by decide, by decide, by decide⟩ hWarm
        (by decide) rfl (by decide) (by decide) rfl fun step hStep => ?_).2 (.inr (.inl ?_))
      · simp only [List.mem_cons, List.not_mem_nil, or_false] at hStep
        rcases hStep with rfl | rfl
        · exact ⟨by decide, ⟨1, by decide, by decide⟩, fun _ => rfl⟩
        · rfl
      · intro step hStep hBusy
        simp only [List.mem_cons, List.not_mem_nil, or_false] at hStep
        rcases hStep with rfl | rfl
        · rfl
        · cases hBusy

end VllmRbln.DataParallel
