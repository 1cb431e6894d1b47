import VllmRbln.DataParallel.BatchCoordination

/-! The shapes of the target model's forward (`v1/worker/rbln_model_runner.py`): those
`warmup_model` compiles and those a serving step runs, real or DP-idle. All ranks of
the group run a step together, since the decision goes through one collective. -/
namespace VllmRbln.DataParallel

open Checked Extremes

inductive SpecMethod
  | ngram | suffix | medusa | eagle | eagle3 | mtp | dflash
  deriving DecidableEq, Repr

/-- What the runner keeps of the configuration. `speculative` is the drafting method with
its `num_speculative_tokens`. -/
structure RunnerConfig where
  shape : ShapeConfig
  dpSize : Nat
  maxNumReqs : Nat
  speculative : Option (SpecMethod × Nat)

def RunnerConfig.numSpecTokens (cfg : RunnerConfig) : Nat :=
  match cfg.speculative with
  | some (_, n) => n
  | none => 0

/-- Whether every decode step stages a `num_spec_tokens + 1` query. -/
def RunnerConfig.usesFixedDecodeWindow (cfg : RunnerConfig) : Bool :=
  match cfg.speculative with
  | some (method, _) => method ∈ [.eagle, .eagle3, .mtp]
  | none => false

/-- The shape one forward of the target model is dispatched to. -/
structure ForwardShape where
  numReqsPadded : Nat
  queryLen : Nat
  numTokensPadded : Option Nat
  deriving DecidableEq, Repr

/-- What one rank runs in a step: `execute_model` on one prefill chunk or on a decode batch
(`drafted` when some request has draft tokens to verify), or `_dummy_run`. -/
inductive RankCall
  | prefill (numTokens : Nat)
  | decode (numReqs : Nat) (drafted : Bool)
  | dummyRun (numReqs numTokensPerReq : Nat) (isPrefill warmup : Bool)
  deriving DecidableEq, Repr

/-- `execute_dummy_batch`. -/
def RankCall.idle : RankCall := .dummyRun 1 1 false false

/-- Assertions on the way to the forward, besides those of the decision. -/
inductive RunError
  | decision (error : BatchError)
  | tooManyReqs (numReqs : Nat)
  | noBatchForRealStep
  | windowDoesNotFit (numReqsPadded queryLen numTokensPadded : Nat)
  | tooManyTokens (numTokens : Nat)
  deriving DecidableEq, Repr

/-- Query length a rank brings to the decision: `_prepare_inputs` stages a decode at one
token, or at the fixed window when the drafter needs it or a request carries drafts. -/
def RankCall.queryLen (cfg : RunnerConfig) : RankCall → Nat
  | .prefill numTokens => numTokens
  | .decode _ drafted =>
      if cfg.usesFixedDecodeWindow || drafted then cfg.numSpecTokens + 1 else 1
  | .dummyRun _ numTokensPerReq isPrefill warmup =>
      if warmup && !isPrefill && cfg.usesFixedDecodeWindow then
        max numTokensPerReq (cfg.numSpecTokens + 1)
      else numTokensPerReq

def RankCall.numReqs : RankCall → Nat
  | .prefill _ => 1
  | .decode numReqs _ => numReqs
  | .dummyRun numReqs _ _ _ => numReqs

def RankCall.isPrefill : RankCall → Bool
  | .prefill _ => true
  | .decode _ _ => false
  | .dummyRun _ _ isPrefill _ => isPrefill

def RankCall.isIdle : RankCall → Bool
  | .dummyRun _ _ _ warmup => !warmup
  | _ => false

/-- The counts and flags the rank brings to the collective. -/
def RankCall.input (cfg : RunnerConfig) (call : RankCall) : RankInput where
  numReqs := call.numReqs
  numTokens := call.numReqs * call.queryLen cfg
  isPrefill := call.isPrefill
  isIdle := call.isIdle

/-- The assertion `_dummy_run` makes before it decides. -/
def RankCall.check (cfg : RunnerConfig) : RankCall → Except RunError Unit
  | .dummyRun numReqs _ _ _ =>
      if numReqs ≤ cfg.maxNumReqs then .ok () else .error (.tooManyReqs numReqs)
  | _ => .ok ()

/-- `determine_batch_execution_and_padding` on one rank, with the status of the group. -/
def RankInput.decision (cfg : ShapeConfig) (status : Option DPStatus) (pinned : Option Nat)
    (input : RankInput) : Except BatchError (Option BatchDescriptor) := do
  let (desc, _) ← determineBatchExecutionAndPadding cfg input.numReqs input.numTokens
    input.isPrefill status pinned
  return desc

/-- `_determine_batch_execution_and_padding` on all ranks: a single rank decides on its
own, more go through `coordinate_batch_across_dp`. -/
def decideGroup (cfg : RunnerConfig) (inputs : List RankInput) (pinned : Option Nat) :
    Except BatchError (List (Option BatchDescriptor)) := do
  if cfg.dpSize = 1 then inputs.mapM (RankInput.decision cfg.shape none pinned)
  else
    let encoded ← inputs.mapM RankInput.encode
    inputs.mapM (RankInput.decision cfg.shape (some (decode (runAr encoded))) pinned)

/-- The query length the forward stages, from the batch the rank was given. -/
def RankCall.targetQueryLen (cfg : RunnerConfig) (call : RankCall) (desc : BatchDescriptor) :
    Nat :=
  match call with
  | .prefill _ => cfg.shape.maxNumTokens
  | .decode _ _ => call.queryLen cfg
  | .dummyRun _ _ isPrefill _ =>
      if !isPrefill && cfg.usesFixedDecodeWindow then max desc.queryLen (cfg.numSpecTokens + 1)
      else desc.queryLen

/-- The forward of one rank on the batch it was given. -/
def RankCall.forward (cfg : RunnerConfig) (call : RankCall) (desc : Option BatchDescriptor) :
    Except RunError (Option ForwardShape) :=
  match call, desc with
  | .dummyRun _ _ _ _, none => .ok none
  | _, none => .error .noBatchForRealStep
  | .dummyRun numReqs _ isPrefill _, some desc =>
      let target := call.targetQueryLen cfg desc
      let fits := desc.numTokensPadded.all fun padded => desc.numReqsPadded * target ≤ padded
      if !isPrefill && cfg.usesFixedDecodeWindow && !fits then
        .error (.windowDoesNotFit desc.numReqsPadded target (desc.numTokensPadded.getD 0))
      else if target * numReqs ≤ cfg.shape.maxNumTokens then
        .ok (some ⟨desc.numReqsPadded, target, desc.numTokensPadded⟩)
      else .error (.tooManyTokens (target * numReqs))
  | _, some desc =>
      .ok (some ⟨desc.numReqsPadded, call.targetQueryLen cfg desc, desc.numTokensPadded⟩)

/-- One step of the group: the shape every rank runs, none on a drained group. -/
def runGroup (cfg : RunnerConfig) (calls : List RankCall) (pinned : Option Nat) :
    Except RunError (List (Option ForwardShape)) := do
  let _ ← calls.mapM (RankCall.check cfg)
  let descs ← (decideGroup cfg (calls.map (RankCall.input cfg)) pinned).mapError .decision
  (calls.zip descs).mapM fun rank => rank.1.forward cfg rank.2

/-- Query lengths the decode graphs are compiled for. -/
def RunnerConfig.warmupQueryLens (cfg : RunnerConfig) : List Nat :=
  match cfg.speculative with
  | none => [1]
  | some (_, numSpec) => if cfg.usesFixedDecodeWindow then [numSpec + 1] else [1, numSpec + 1]

/-- The `_dummy_run` calls of `warmup_model`, each with the token dimension it pins. -/
def warmupPlan (cfg : RunnerConfig) : Except RunError (List (RankCall × Option Nat)) := do
  let prefill := [(RankCall.dummyRun 1 cfg.shape.maxNumTokens true true, none)]
  let decodes := cfg.shape.decodeBatchBuckets.flatMap fun numReq =>
    cfg.warmupQueryLens.map fun queryLen => (RankCall.dummyRun numReq queryLen false true, none)
  if !cfg.shape.specializedMoeDecode then return prefill ++ decodes
  let numReq ← cfg.shape.topBucket.mapError .decision
  let padded := cfg.warmupQueryLens.map fun queryLen =>
    (RankCall.dummyRun numReq queryLen false true, some cfg.shape.maxNumTokens)
  let asymmetric :=
    match cfg.speculative with
    | none => []
    | some (_, numSpec) =>
        if cfg.usesFixedDecodeWindow then []
        else [(RankCall.dummyRun numReq 1 false true, some (numReq * (numSpec + 1)))]
  return prefill ++ decodes ++ padded ++ asymmetric

/-- `warmup_model` on every rank at once: the shapes of each dummy run, rank by rank. -/
def warmupModel (cfg : RunnerConfig) : Except RunError (List (List (Option ForwardShape))) := do
  let plan ← warmupPlan cfg
  plan.mapM fun run => runGroup cfg (List.replicate cfg.dpSize run.1) run.2

/-- The shapes rank `r` warmed up. -/
def warmedOn (runs : List (List (Option ForwardShape))) (r : Nat) : List ForwardShape :=
  runs.filterMap fun run => run.getD r none

/-! ### One decision -/

theorem BatchDescriptor.create_eq_ok {numReqsPadded queryLen n : Nat} {desc : BatchDescriptor} :
    BatchDescriptor.create numReqsPadded queryLen (some n) = .ok desc ↔
      numReqsPadded * queryLen ≤ n ∧ desc = ⟨numReqsPadded, queryLen, some n⟩ := by
  unfold BatchDescriptor.create
  simp only
  split <;> simp_all [eq_comm]

section Buckets

variable {cfg : ShapeConfig}

theorem ShapeConfig.findBucket_mem {batchSize bucket : Nat}
    (hFind : cfg.findBucket batchSize = .ok bucket) :
    bucket ∈ cfg.decodeBatchBuckets ∧ batchSize ≤ bucket := by
  unfold ShapeConfig.findBucket at hFind
  split at hFind
  · rename_i found hFound
    cases hFind
    exact ⟨List.mem_of_find?_eq_some hFound, by simpa using List.find?_some hFound⟩
  · cases hFind

/-- A batch of a bucket's own size is padded to that bucket. -/
theorem ShapeConfig.findBucket_self (hAscend : cfg.decodeBatchBuckets.Pairwise (· < ·))
    {bucket : Nat} (hBucket : bucket ∈ cfg.decodeBatchBuckets) :
    cfg.findBucket bucket = .ok bucket := by
  obtain ⟨smaller, larger, hSplit⟩ := List.append_of_mem hBucket
  have hSmaller : ∀ other ∈ smaller, other < bucket := by
    intro other hOther
    rw [hSplit] at hAscend
    exact (List.pairwise_append.1 hAscend).2.2 other hOther bucket (by simp)
  have hFind : cfg.decodeBatchBuckets.find? (fun other => bucket ≤ other) = some bucket := by
    rw [hSplit, List.find?_append]
    have hNone : smaller.find? (fun other => bucket ≤ other) = none :=
      List.find?_eq_none.2 fun other hOther => by simpa using hSmaller other hOther
    rw [hNone]
    simp
  simp [ShapeConfig.findBucket, hFind]

theorem ShapeConfig.hasTop (hAscend : cfg.decodeBatchBuckets.Pairwise (· < ·))
    (hSome : cfg.decodeBatchBuckets ≠ []) :
    cfg.HasTop (cfg.decodeBatchBuckets.getLast hSome) where
  last := List.getLast?_eq_some_getLast hSome
  le := by
    intro bucket hBucket
    rw [← List.dropLast_append_getLast hSome] at hBucket hAscend
    rcases List.mem_append.1 hBucket with hBefore | hLast
    · exact le_of_lt ((List.pairwise_append.1 hAscend).2.2 bucket hBefore _ (by simp))
    · exact le_of_eq (List.mem_singleton.1 hLast)

end Buckets

/-- The batch dimension of the rank's own counts: a prefill is not padded to a bucket. -/
def ownReqsPadded (cfg : ShapeConfig) (numReqs : Nat) (isPrefill : Bool) : Except BatchError Nat :=
  if isPrefill then .ok numReqs else cfg.findBucket numReqs

section Decision

variable {cfg : ShapeConfig} {status : Option DPStatus} {pinned : Option Nat}
  {numReqs queryLen : Nat} {isPrefill isIdle : Bool}

theorem RankInput.decision_reqs {desc : Option BatchDescriptor}
    (hDecide : RankInput.decision cfg status pinned
      ⟨numReqs, numReqs * queryLen, isPrefill, isIdle⟩ = .ok desc) : 1 ≤ numReqs := by
  by_contra hZero
  have hReqs : numReqs < 1 := by omega
  simp [RankInput.decision, determineBatchExecutionAndPadding, hReqs, bind, Except.bind, throw,
    throwThe, MonadExceptOf.throw] at hDecide

/-- On a uniform batch only the routes remain of the decision. -/
theorem RankInput.decision_eq (hReqs : 1 ≤ numReqs) :
    RankInput.decision cfg status pinned ⟨numReqs, numReqs * queryLen, isPrefill, isIdle⟩ = (do
      let padded ← ownReqsPadded cfg numReqs isPrefill
      match pinned, status with
      | some n, _ => some <$> BatchDescriptor.create padded queryLen (some n)
      | none, none => some <$> BatchDescriptor.create padded queryLen none
      | none, some status =>
          Prod.fst <$> determineAcrossDp cfg numReqs queryLen padded isPrefill status) := by
  have hNotZero : ¬ numReqs < 1 := by omega
  have hQuery : numReqs * queryLen / numReqs = queryLen := Nat.mul_div_cancel_left _ (by omega)
  have hUniform : numReqs * queryLen % numReqs = 0 := Nat.mul_mod_right _ _
  simp only [RankInput.decision, determineBatchExecutionAndPadding, hNotZero, if_false, hUniform,
    hQuery, ne_eq, not_true_eq_false]
  unfold ownReqsPadded
  cases isPrefill <;> cases cfg.findBucket numReqs <;> cases pinned <;> cases status <;>
    simp only [bind, Except.bind, pure, Except.pure, Functor.map, Except.map, if_true, if_false,
      Bool.false_eq_true] <;>
    first
      | rfl
      | (generalize BatchDescriptor.create _ _ _ = created; cases created <;> rfl)

end Decision

section Routes

variable {cfg : ShapeConfig} {status : DPStatus} {numReqs queryLen padded : Nat} {isPrefill : Bool}

theorem determineAcrossDp_allIdle (hBusy : status.busy = []) :
    determineAcrossDp cfg numReqs queryLen padded isPrefill status = .ok (none, .allIdle) := by
  simp [determineAcrossDp, hBusy, pure, Except.pure]

theorem determineAcrossDp_unspecialized (hBusy : status.busy ≠ [])
    (hSpecialized : cfg.specializedMoeDecode = false) :
    determineAcrossDp cfg numReqs queryLen padded isPrefill status =
      (fun desc => (some desc, .unspecialized)) <$>
        BatchDescriptor.create padded queryLen (some cfg.maxNumTokens) := by
  simp only [determineAcrossDp, hBusy, hSpecialized, if_false, Bool.not_false, if_true]
  cases BatchDescriptor.create padded queryLen (some cfg.maxNumTokens) <;> rfl

theorem determineAcrossDp_anyPrefill {top : Nat} (hTop : cfg.HasTop top) (hBusy : status.busy ≠ [])
    (hSpecialized : cfg.specializedMoeDecode = true) (hAny : status.isPrefill.any id = true) :
    determineAcrossDp cfg numReqs queryLen padded isPrefill status =
      (fun desc => (some desc, .anyPrefill)) <$> BatchDescriptor.create
        (if isPrefill then numReqs else top) queryLen (some cfg.maxNumTokens) := by
  simp only [determineAcrossDp, hBusy, hSpecialized, hAny, if_false, if_true, Bool.not_true,
    Bool.false_eq_true, hTop.topBucket_eq]
  cases isPrefill <;> simp only [if_true, if_false, Bool.false_eq_true] <;>
    simp only [bind, Except.bind] <;>
    generalize BatchDescriptor.create _ _ _ = created <;> cases created <;> rfl

/-- Largest query length a busy rank reported. -/
def DPStatus.maxQueryLen (status : DPStatus) : Nat :=
  (status.busy.map status.queryLen).foldl max 0

/-- Largest batch a busy rank reported. -/
def DPStatus.maxNumReqs (status : DPStatus) : Nat :=
  (status.busy.map (status.numReqs.getD · 0)).foldl max 0

/-- The busy ranks report batches of one query length each. -/
def DPStatus.Uniform (status : DPStatus) : Prop :=
  ∀ i ∈ status.busy, status.numTokens.getD i 0 % status.numReqs.getD i 0 = 0

/-- The busy ranks report one query length. -/
def DPStatus.Agreed (status : DPStatus) : Prop :=
  ∀ i ∈ status.busy, status.queryLen i = status.maxQueryLen

theorem DPStatus.queryLen_le_max {i : Nat} (hBusy : i ∈ status.busy) :
    status.queryLen i ≤ status.maxQueryLen :=
  (le_foldl_max _ 0).2 _ (List.mem_map.2 ⟨i, hBusy, rfl⟩)

theorem DPStatus.maxQueryLen_le {bound : Nat} (hBusy : ∀ i ∈ status.busy,
    status.queryLen i ≤ bound) : status.maxQueryLen ≤ bound := by
  refine foldl_max_le (Nat.zero_le _) fun value hValue => ?_
  obtain ⟨i, hi, rfl⟩ := List.mem_map.1 hValue
  exact hBusy i hi

theorem DPStatus.numReqs_le_max {i : Nat} (hBusy : i ∈ status.busy) :
    status.numReqs.getD i 0 ≤ status.maxNumReqs :=
  (le_foldl_max _ 0).2 _ (List.mem_map.2 ⟨i, hBusy, rfl⟩)

theorem DPStatus.maxNumReqs_le {bound : Nat} (hBusy : ∀ i ∈ status.busy,
    status.numReqs.getD i 0 ≤ bound) : status.maxNumReqs ≤ bound := by
  refine foldl_max_le (Nat.zero_le _) fun value hValue => ?_
  obtain ⟨i, hi, rfl⟩ := List.mem_map.1 hValue
  exact hBusy i hi

private theorem foldl_min_eq {values : List Nat} {start : Nat} (hValues : ∀ value ∈ values,
    value = start) : values.foldl min start = start := by
  induction values with
  | nil => rfl
  | cons head tail ih =>
      simp only [List.mem_cons, forall_eq_or_imp] at hValues
      rw [List.foldl_cons, hValues.1, Nat.min_self]
      exact ih hValues.2

private theorem min_eq_max_iff :
    (status.busy.map status.queryLen).foldl min status.maxQueryLen = status.maxQueryLen ↔
      status.Agreed := by
  constructor
  · intro hEq i hi
    refine le_antisymm (DPStatus.queryLen_le_max hi) ?_
    rw [← hEq]
    exact (foldl_min_le _ _).2 _ (List.mem_map.2 ⟨i, hi, rfl⟩)
  · intro hAgreed
    refine foldl_min_eq fun value hValue => ?_
    obtain ⟨i, hi, rfl⟩ := List.mem_map.1 hValue
    exact hAgreed i hi

private theorem any_eq_false_of_uniform (hUniform : status.Uniform) :
    status.busy.any (fun i => status.numTokens.getD i 0 % status.numReqs.getD i 0 ≠ 0) =
      false := by
  simp only [List.any_eq_false, decide_eq_true_eq, ne_eq, not_not]
  exact hUniform

theorem determineAcrossDp_qlenAsym {top : Nat} (hTop : cfg.HasTop top) (hBusy : status.busy ≠ [])
    (hSpecialized : cfg.specializedMoeDecode = true) (hAny : status.isPrefill.any id = false)
    (hUniform : status.Uniform) (hAsym : ¬ status.Agreed) :
    determineAcrossDp cfg numReqs queryLen padded isPrefill status =
      (fun desc => (some desc, .qlenAsym)) <$> BatchDescriptor.create top queryLen
        (some (top * status.maxQueryLen)) := by
  have hMin : (status.busy.map status.queryLen).foldl min status.maxQueryLen ≠
      status.maxQueryLen := fun hEq => hAsym (min_eq_max_iff.1 hEq)
  unfold DPStatus.maxQueryLen at hMin
  simp only [determineAcrossDp, hBusy, hSpecialized, hAny, any_eq_false_of_uniform hUniform,
    if_false, if_true, Bool.not_true, Bool.false_eq_true, hTop.topBucket_eq, ne_eq, hMin,
    not_false_eq_true, DPStatus.maxQueryLen]
  simp only [bind, Except.bind]
  generalize BatchDescriptor.create _ _ _ = created
  cases created <;> rfl

theorem determineAcrossDp_agreed {bucket : Nat} (hBusy : status.busy ≠ [])
    (hSpecialized : cfg.specializedMoeDecode = true) (hAny : status.isPrefill.any id = false)
    (hUniform : status.Uniform) (hAgreed : status.Agreed)
    (hBucket : cfg.findBucket status.maxNumReqs = .ok bucket) :
    determineAcrossDp cfg numReqs queryLen padded isPrefill status =
      .ok (some ⟨bucket, status.maxQueryLen, some (bucket * status.maxQueryLen)⟩, .agreed) := by
  have hMin := min_eq_max_iff.2 hAgreed
  have hCreate : BatchDescriptor.create bucket status.maxQueryLen
      (some (bucket * status.maxQueryLen)) = .ok ⟨bucket, status.maxQueryLen, _⟩ :=
    BatchDescriptor.create_eq_ok.2 ⟨le_rfl, rfl⟩
  unfold DPStatus.maxQueryLen at hMin hCreate
  unfold DPStatus.maxNumReqs at hBucket
  simp only [determineAcrossDp, hBusy, hSpecialized, hAny, any_eq_false_of_uniform hUniform,
    if_false, Bool.not_true, Bool.false_eq_true, ne_eq, hMin, not_true_eq_false,
    DPStatus.maxQueryLen]
  simp only [bind, Except.bind, hBucket, hCreate, pure, Except.pure]

end Routes

/-! ### A symmetric step -/

theorem RankInput.fitsPacked_of_encode {input : RankInput} {packed : Nat}
    (hEncode : input.encode = .ok packed) : input.FitsPacked := by
  by_contra hFits
  unfold RankInput.FitsPacked at hFits
  by_cases hTokens : input.numTokens ≤ tokenMask
  · have hReqs : ¬ input.numReqs ≤ reqMaskRaw := by
      intro hReqs
      exact hFits ⟨by simpa [tokenMask, tokenBits] using hTokens,
        by simpa [reqMaskRaw, reqBits] using hReqs⟩
    simp [RankInput.encode, hTokens, hReqs, bind, Except.bind, throw, throwThe,
      MonadExceptOf.throw] at hEncode
  · simp [RankInput.encode, hTokens, bind, Except.bind, throw, throwThe,
      MonadExceptOf.throw] at hEncode

/-- The status a rank reads on a step of the group, none on a single rank. -/
def groupStatus (cfg : RunnerConfig) (inputs : List RankInput) : Option DPStatus :=
  if cfg.dpSize = 1 then none else some (reportedStatus inputs)

/-- A group whose counts fit the packed int32 decides rank by rank on the reported status. -/
theorem decideGroup_eq {cfg : RunnerConfig} {inputs : List RankInput} {pinned : Option Nat}
    (hFits : cfg.dpSize ≠ 1 → ∀ input ∈ inputs, input.FitsPacked) :
    decideGroup cfg inputs pinned =
      inputs.mapM (RankInput.decision cfg.shape (groupStatus cfg inputs) pinned) := by
  unfold decideGroup groupStatus
  by_cases hOne : cfg.dpSize = 1
  · simp [hOne]
  · simp only [hOne, if_false, mapM_encode (hFits hOne), bind, Except.bind,
      decode_runAr (hFits hOne)]

/-- What a step says of the one call all its ranks make. -/
theorem runGroup_replicate {cfg : RunnerConfig} {call : RankCall} {pinned : Option Nat}
    {row : List (Option ForwardShape)} (hPos : 0 < cfg.dpSize)
    (hRun : runGroup cfg (List.replicate cfg.dpSize call) pinned = .ok row) :
    ∃ desc shape, call.check cfg = .ok () ∧
      (cfg.dpSize ≠ 1 → (call.input cfg).FitsPacked) ∧
      RankInput.decision cfg.shape
        (groupStatus cfg (List.replicate cfg.dpSize (call.input cfg))) pinned (call.input cfg) =
          .ok desc ∧
      call.forward cfg desc = .ok shape ∧ row = List.replicate cfg.dpSize shape := by
  unfold runGroup at hRun
  cases hCheck : (List.replicate cfg.dpSize call).mapM (RankCall.check cfg) with
  | error error => simp [hCheck, bind, Except.bind] at hRun
  | ok checked =>
      obtain ⟨_, hOwn, -⟩ := mapM_replicate hPos hCheck
      rw [List.map_replicate] at hRun
      cases hDecide : decideGroup cfg (List.replicate cfg.dpSize (call.input cfg)) pinned with
      | error error =>
          simp [hCheck, hDecide, bind, Except.bind, Except.mapError] at hRun
      | ok descs =>
          simp only [hCheck, hDecide, bind, Except.bind, Except.mapError] at hRun
          have hFits : cfg.dpSize ≠ 1 → (call.input cfg).FitsPacked := by
            intro hMany
            unfold decideGroup at hDecide
            simp only [hMany, if_false] at hDecide
            cases hEncode : (List.replicate cfg.dpSize (call.input cfg)).mapM
                RankInput.encode with
            | error error => simp [hEncode, bind, Except.bind] at hDecide
            | ok encoded =>
                obtain ⟨packed, hPacked, -⟩ := mapM_replicate hPos hEncode
                exact RankInput.fitsPacked_of_encode hPacked
          rw [decideGroup_eq fun hMany input hInput => by
            rw [List.eq_of_mem_replicate hInput]; exact hFits hMany] at hDecide
          obtain ⟨desc, hDesc, rfl⟩ := mapM_replicate hPos hDecide
          rw [List.zip_replicate'] at hRun
          obtain ⟨shape, hShape, hRow⟩ := mapM_replicate hPos hRun
          exact ⟨desc, shape, hOwn, hFits, hDesc, hShape, hRow⟩

section Symmetric

variable {dpSize numReqs queryLen : Nat} {isPrefill : Bool}

/-- The status of a step on which every rank brings the same busy batch. -/
def symmetricStatus (dpSize numReqs queryLen : Nat) (isPrefill : Bool) : DPStatus :=
  reportedStatus (List.replicate dpSize ⟨numReqs, numReqs * queryLen, isPrefill, false⟩)

theorem symmetricStatus_mem_busy {i : Nat} :
    i ∈ (symmetricStatus dpSize numReqs queryLen isPrefill).busy ↔ i < dpSize := by
  unfold symmetricStatus
  rw [mem_busy]
  simp

theorem symmetricStatus_busy (hPos : 0 < dpSize) :
    (symmetricStatus dpSize numReqs queryLen isPrefill).busy ≠ [] := by
  intro hEmpty
  have hFirst : 0 ∈ (symmetricStatus dpSize numReqs queryLen isPrefill).busy :=
    symmetricStatus_mem_busy.2 hPos
  rw [hEmpty] at hFirst
  cases hFirst

theorem symmetricStatus_queryLen {i : Nat} (hReqs : 1 ≤ numReqs) (hi : i < dpSize) :
    (symmetricStatus dpSize numReqs queryLen isPrefill).queryLen i = queryLen := by
  unfold symmetricStatus
  rw [queryLen_reportedStatus (by simpa using hi)]
  simp only [List.getElem_replicate]
  exact Nat.mul_div_cancel_left _ (by omega)

theorem symmetricStatus_maxQueryLen (hPos : 0 < dpSize) (hReqs : 1 ≤ numReqs) :
    (symmetricStatus dpSize numReqs queryLen isPrefill).maxQueryLen = queryLen := by
  refine le_antisymm (DPStatus.maxQueryLen_le fun i hi => ?_) ?_
  · exact le_of_eq (symmetricStatus_queryLen hReqs (symmetricStatus_mem_busy.1 hi))
  · have hFirst : 0 ∈ (symmetricStatus dpSize numReqs queryLen isPrefill).busy :=
      symmetricStatus_mem_busy.2 hPos
    exact le_of_eq_of_le (symmetricStatus_queryLen hReqs hPos).symm
      (DPStatus.queryLen_le_max hFirst)

theorem symmetricStatus_uniform :
    (symmetricStatus dpSize numReqs queryLen isPrefill).Uniform := by
  intro i hi
  have hLt := symmetricStatus_mem_busy.1 hi
  simp [symmetricStatus, reportedStatus, List.getD, hLt]

theorem symmetricStatus_agreed (hPos : 0 < dpSize) (hReqs : 1 ≤ numReqs) :
    (symmetricStatus dpSize numReqs queryLen isPrefill).Agreed := by
  intro i hi
  rw [symmetricStatus_maxQueryLen hPos hReqs,
    symmetricStatus_queryLen hReqs (symmetricStatus_mem_busy.1 hi)]

theorem symmetricStatus_isPrefill (hPos : 0 < dpSize) :
    (symmetricStatus dpSize numReqs queryLen isPrefill).isPrefill.any id = isPrefill := by
  obtain ⟨n, rfl⟩ : ∃ n, dpSize = n + 1 := ⟨dpSize - 1, by omega⟩
  simp [symmetricStatus, reportedStatus, List.any_replicate]

theorem symmetricStatus_maxNumReqs (hPos : 0 < dpSize) :
    (symmetricStatus dpSize numReqs queryLen isPrefill).maxNumReqs = numReqs := by
  have hOwn : ∀ i < dpSize,
      (symmetricStatus dpSize numReqs queryLen isPrefill).numReqs.getD i 0 = numReqs := by
    intro i hi
    unfold symmetricStatus
    rw [numReqs_reportedStatus (by simpa using hi), List.getElem_replicate]
  have hFirst : 0 ∈ (symmetricStatus dpSize numReqs queryLen isPrefill).busy :=
    symmetricStatus_mem_busy.2 hPos
  refine le_antisymm (DPStatus.maxNumReqs_le fun i hi => ?_) ?_
  · exact le_of_eq (hOwn i (symmetricStatus_mem_busy.1 hi))
  · exact le_of_eq_of_le (hOwn 0 hPos).symm (DPStatus.numReqs_le_max hFirst)

end Symmetric

/-! ### What the warm-up leaves behind -/

/-- The configurations the runner builds: decode buckets that ascend, and no specialized
decode on a single rank. -/
structure RunnerConfig.Valid (cfg : RunnerConfig) : Prop where
  ascend : cfg.shape.decodeBatchBuckets.Pairwise (· < ·)
  buckets : cfg.shape.decodeBatchBuckets ≠ []
  dpSize : 1 ≤ cfg.dpSize
  specialized : cfg.shape.specializedMoeDecode = true → 1 < cfg.dpSize

/-- Token dimension of a decode graph of the warm-up, no peer prefilling. -/
def RunnerConfig.decodePadding (cfg : RunnerConfig) (numReqs queryLen : Nat) : Option Nat :=
  if cfg.dpSize = 1 then none
  else if cfg.shape.specializedMoeDecode then some (numReqs * queryLen)
  else some cfg.shape.maxNumTokens

section WarmRuns

variable {cfg : RunnerConfig} {numReqs queryLen : Nat} {row : List (Option ForwardShape)}

/-- The forward of a warm-up run whose query length is already that of the window. -/
private theorem warm_forward {isPrefill : Bool} {padded : Option Nat} {desc : Option BatchDescriptor}
    {shape : Option ForwardShape} (hDesc : desc = some ⟨numReqs, queryLen, padded⟩)
    (hWindow : isPrefill = false → cfg.usesFixedDecodeWindow = true →
      cfg.numSpecTokens + 1 ≤ queryLen)
    (hForward : (RankCall.dummyRun numReqs queryLen isPrefill true).forward cfg desc = .ok shape) :
    queryLen * numReqs ≤ cfg.shape.maxNumTokens ∧
      shape = some ⟨numReqs, queryLen, padded⟩ := by
  subst hDesc
  have hTarget : (RankCall.dummyRun numReqs queryLen isPrefill true).targetQueryLen cfg
      ⟨numReqs, queryLen, padded⟩ = queryLen := by
    simp only [RankCall.targetQueryLen]
    split
    · rename_i hFixed
      simp only [Bool.and_eq_true, Bool.not_eq_true'] at hFixed
      exact Nat.max_eq_left (hWindow hFixed.1 hFixed.2)
    · rfl
  simp only [RankCall.forward, hTarget] at hForward
  split at hForward
  · cases hForward
  · split at hForward
    · rename_i hTokens
      exact ⟨hTokens, (Except.ok.inj hForward).symm⟩
    · cases hForward

private theorem warm_input {isPrefill : Bool}
    (hWindow : isPrefill = false → cfg.usesFixedDecodeWindow = true →
      cfg.numSpecTokens + 1 ≤ queryLen) :
    (RankCall.dummyRun numReqs queryLen isPrefill true).input cfg =
      ⟨numReqs, numReqs * queryLen, isPrefill, false⟩ := by
  have hQuery : (RankCall.dummyRun numReqs queryLen isPrefill true).queryLen cfg = queryLen := by
    simp only [RankCall.queryLen, Bool.true_and]
    split
    · rename_i hFixed
      simp only [Bool.and_eq_true, Bool.not_eq_true'] at hFixed
      exact Nat.max_eq_left (hWindow hFixed.1 hFixed.2)
    · rfl
  simp [RankCall.input, hQuery, RankCall.numReqs, RankCall.isPrefill, RankCall.isIdle]

private theorem groupStatus_symmetric {input : RankInput} {isPrefill : Bool}
    (hInput : input = ⟨numReqs, numReqs * queryLen, isPrefill, false⟩) :
    groupStatus cfg (List.replicate cfg.dpSize input) =
      if cfg.dpSize = 1 then none
      else some (symmetricStatus cfg.dpSize numReqs queryLen isPrefill) := by
  subst hInput
  rfl

/-- A decode run of the warm-up compiles its own bucket. -/
theorem warm_decode (hValid : cfg.Valid) (hBucket : numReqs ∈ cfg.shape.decodeBatchBuckets)
    (hWindow : cfg.usesFixedDecodeWindow = true → cfg.numSpecTokens + 1 ≤ queryLen)
    (hRun : runGroup cfg (List.replicate cfg.dpSize (.dummyRun numReqs queryLen false true)) none =
      .ok row) :
    numReqs * queryLen ≤ cfg.shape.maxNumTokens ∧ 1 ≤ numReqs ∧
      (cfg.dpSize ≠ 1 → numReqs ≤ 8191) ∧
      row = List.replicate cfg.dpSize
        (some ⟨numReqs, queryLen, cfg.decodePadding numReqs queryLen⟩) := by
  have hPos : 0 < cfg.dpSize := hValid.dpSize
  obtain ⟨desc, shape, -, hFits, hDecide, hForward, rfl⟩ := runGroup_replicate hPos hRun
  have hInput : (RankCall.dummyRun numReqs queryLen false true).input cfg =
      ⟨numReqs, numReqs * queryLen, false, false⟩ := warm_input fun _ => hWindow
  rw [groupStatus_symmetric hInput, hInput] at hDecide
  rw [hInput] at hFits
  have hReqs := RankInput.decision_reqs hDecide
  have hPadded : ownReqsPadded cfg.shape numReqs false = .ok numReqs :=
    ShapeConfig.findBucket_self hValid.ascend hBucket
  have hDesc : desc = some ⟨numReqs, queryLen, cfg.decodePadding numReqs queryLen⟩ := by
    rw [RankInput.decision_eq hReqs, hPadded] at hDecide
    by_cases hOne : cfg.dpSize = 1
    · simpa [hOne, bind, Except.bind, BatchDescriptor.create, Functor.map, Except.map,
        RunnerConfig.decodePadding, eq_comm] using hDecide
    · have hBusy : (symmetricStatus cfg.dpSize numReqs queryLen false).busy ≠ [] :=
        symmetricStatus_busy hPos
      simp only [hOne, if_false, bind, Except.bind] at hDecide
      cases hSpecialized : cfg.shape.specializedMoeDecode with
      | false =>
          rw [determineAcrossDp_unspecialized hBusy hSpecialized] at hDecide
          cases hCreate : BatchDescriptor.create numReqs queryLen (some cfg.shape.maxNumTokens) with
          | error error => simp [hCreate, Functor.map, Except.map] at hDecide
          | ok created =>
              obtain ⟨-, rfl⟩ := BatchDescriptor.create_eq_ok.1 hCreate
              simpa [hCreate, Functor.map, Except.map, RunnerConfig.decodePadding, hOne,
                hSpecialized, eq_comm] using hDecide
      | true =>
          have hMax : cfg.shape.findBucket
              (symmetricStatus cfg.dpSize numReqs queryLen false).maxNumReqs = .ok numReqs := by
            rw [symmetricStatus_maxNumReqs hPos]
            exact ShapeConfig.findBucket_self hValid.ascend hBucket
          rw [determineAcrossDp_agreed hBusy hSpecialized (symmetricStatus_isPrefill hPos)
            symmetricStatus_uniform (symmetricStatus_agreed hPos hReqs) hMax,
            symmetricStatus_maxQueryLen hPos hReqs] at hDecide
          simpa [Functor.map, Except.map, RunnerConfig.decodePadding, hOne, hSpecialized,
            eq_comm] using hDecide
  obtain ⟨hTokens, hShape⟩ := warm_forward hDesc (fun _ => hWindow) hForward
  refine ⟨by rwa [Nat.mul_comm] at hTokens, hReqs, fun hMany => (hFits hMany).2, by rw [hShape]⟩

/-- A run with a pinned token dimension compiles its bucket at that dimension. -/
theorem warm_pinned {pinned : Nat} (hValid : cfg.Valid)
    (hBucket : numReqs ∈ cfg.shape.decodeBatchBuckets)
    (hWindow : cfg.usesFixedDecodeWindow = true → cfg.numSpecTokens + 1 ≤ queryLen)
    (hRun : runGroup cfg (List.replicate cfg.dpSize (.dummyRun numReqs queryLen false true))
      (some pinned) = .ok row) :
    numReqs * queryLen ≤ pinned ∧
      row = List.replicate cfg.dpSize (some ⟨numReqs, queryLen, some pinned⟩) := by
  obtain ⟨desc, shape, -, -, hDecide, hForward, rfl⟩ := runGroup_replicate hValid.dpSize hRun
  have hInput : (RankCall.dummyRun numReqs queryLen false true).input cfg =
      ⟨numReqs, numReqs * queryLen, false, false⟩ := warm_input fun _ => hWindow
  rw [hInput] at hDecide
  have hReqs := RankInput.decision_reqs hDecide
  have hPadded : ownReqsPadded cfg.shape numReqs false = .ok numReqs :=
    ShapeConfig.findBucket_self hValid.ascend hBucket
  rw [RankInput.decision_eq hReqs, hPadded] at hDecide
  simp only [bind, Except.bind] at hDecide
  cases hCreate : BatchDescriptor.create numReqs queryLen (some pinned) with
  | error error => simp [hCreate, Functor.map, Except.map] at hDecide
  | ok created =>
      obtain ⟨hFit, rfl⟩ := BatchDescriptor.create_eq_ok.1 hCreate
      have hDesc : desc = some ⟨numReqs, queryLen, some pinned⟩ := by
        simpa [hCreate, Functor.map, Except.map, eq_comm] using hDecide
      obtain ⟨-, hShape⟩ := warm_forward hDesc (fun _ => hWindow) hForward
      exact ⟨hFit, by rw [hShape]⟩

/-- The prefill run compiles one request at the full token dimension. -/
theorem warm_prefill (hValid : cfg.Valid)
    (hRun : runGroup cfg (List.replicate cfg.dpSize
      (.dummyRun 1 cfg.shape.maxNumTokens true true)) none = .ok row) :
    1 ≤ cfg.maxNumReqs ∧ (cfg.dpSize ≠ 1 → cfg.shape.maxNumTokens ≤ 65535) ∧
      row = List.replicate cfg.dpSize (some ⟨1, cfg.shape.maxNumTokens,
        if cfg.dpSize = 1 then none else some cfg.shape.maxNumTokens⟩) := by
  have hPos : 0 < cfg.dpSize := hValid.dpSize
  obtain ⟨desc, shape, hCheck, hFits, hDecide, hForward, rfl⟩ := runGroup_replicate hPos hRun
  have hInput : (RankCall.dummyRun 1 cfg.shape.maxNumTokens true true).input cfg =
      ⟨1, 1 * cfg.shape.maxNumTokens, true, false⟩ := warm_input (by simp)
  rw [groupStatus_symmetric hInput, hInput] at hDecide
  rw [hInput] at hFits
  have hMax : 1 ≤ cfg.maxNumReqs := by
    simp only [RankCall.check] at hCheck
    split at hCheck
    · assumption
    · cases hCheck
  have hDesc : desc = some ⟨1, cfg.shape.maxNumTokens,
      if cfg.dpSize = 1 then none else some cfg.shape.maxNumTokens⟩ := by
    have hPadded : ownReqsPadded cfg.shape 1 true = .ok 1 := rfl
    rw [RankInput.decision_eq le_rfl, hPadded] at hDecide
    by_cases hOne : cfg.dpSize = 1
    · simpa [hOne, bind, Except.bind, BatchDescriptor.create, Functor.map, Except.map,
        eq_comm] using hDecide
    · have hBusy : (symmetricStatus cfg.dpSize 1 cfg.shape.maxNumTokens true).busy ≠ [] :=
        symmetricStatus_busy hPos
      have hCreate : BatchDescriptor.create 1 cfg.shape.maxNumTokens
          (some cfg.shape.maxNumTokens) = .ok ⟨1, cfg.shape.maxNumTokens, _⟩ :=
        BatchDescriptor.create_eq_ok.2 ⟨by omega, rfl⟩
      simp only [hOne, if_false, bind, Except.bind] at hDecide
      cases hSpecialized : cfg.shape.specializedMoeDecode with
      | false =>
          rw [determineAcrossDp_unspecialized hBusy hSpecialized, hCreate] at hDecide
          simpa [Functor.map, Except.map, hOne, eq_comm] using hDecide
      | true =>
          rw [determineAcrossDp_anyPrefill (ShapeConfig.hasTop hValid.ascend hValid.buckets) hBusy
            hSpecialized (symmetricStatus_isPrefill hPos), if_pos rfl, hCreate] at hDecide
          simpa [Functor.map, Except.map, hOne, eq_comm] using hDecide
  obtain ⟨-, hShape⟩ := warm_forward hDesc (by simp) hForward
  refine ⟨hMax, fun hMany => ?_, by rw [hShape]⟩
  simpa using (hFits hMany).1

end WarmRuns

/-- Facts a finished warm-up leaves on a rank: the shapes it compiled and the bounds its
assertions checked. -/
structure Warmed (cfg : RunnerConfig) (top : Nat) (shapes : List ForwardShape) : Prop where
  reqs : 1 ≤ cfg.maxNumReqs
  packs : cfg.dpSize ≠ 1 → cfg.shape.maxNumTokens ≤ 65535
  prefill : ⟨1, cfg.shape.maxNumTokens,
    if cfg.dpSize = 1 then none else some cfg.shape.maxNumTokens⟩ ∈ shapes
  bucket : ∀ numReqs ∈ cfg.shape.decodeBatchBuckets,
    1 ≤ numReqs ∧ (cfg.dpSize ≠ 1 → numReqs ≤ 8191)
  fits : ∀ numReqs ∈ cfg.shape.decodeBatchBuckets, ∀ queryLen ∈ cfg.warmupQueryLens,
    numReqs * queryLen ≤ cfg.shape.maxNumTokens
  decode : ∀ numReqs ∈ cfg.shape.decodeBatchBuckets, ∀ queryLen ∈ cfg.warmupQueryLens,
    ⟨numReqs, queryLen, cfg.decodePadding numReqs queryLen⟩ ∈ shapes
  padded : cfg.shape.specializedMoeDecode = true → ∀ queryLen ∈ cfg.warmupQueryLens,
    ⟨top, queryLen, some cfg.shape.maxNumTokens⟩ ∈ shapes
  asymmetric : cfg.shape.specializedMoeDecode = true → cfg.speculative.isSome = true →
    cfg.usesFixedDecodeWindow = false →
    ⟨top, 1, some (top * (cfg.numSpecTokens + 1))⟩ ∈ shapes

theorem mem_warmedOn {runs : List (List (Option ForwardShape))} {dpSize r : Nat}
    {shape : ForwardShape} (hRow : List.replicate dpSize (some shape) ∈ runs) (hr : r < dpSize) :
    shape ∈ warmedOn runs r := by
  unfold warmedOn
  refine List.mem_filterMap.2 ⟨_, hRow, ?_⟩
  simp [List.getD_eq_getElem?_getD, hr]

private theorem window_le {cfg : RunnerConfig} {queryLen : Nat}
    (hQuery : queryLen ∈ cfg.warmupQueryLens) (hFixed : cfg.usesFixedDecodeWindow = true) :
    cfg.numSpecTokens + 1 ≤ queryLen := by
  unfold RunnerConfig.warmupQueryLens at hQuery
  unfold RunnerConfig.numSpecTokens
  cases hSpec : cfg.speculative with
  | none => simp [RunnerConfig.usesFixedDecodeWindow, hSpec] at hFixed
  | some spec =>
      simp only [hSpec, hFixed, if_true, List.mem_singleton] at hQuery
      exact le_of_eq hQuery.symm

theorem warmupModel_warmed {cfg : RunnerConfig} {runs : List (List (Option ForwardShape))}
    {top r : Nat} (hValid : cfg.Valid) (hTop : cfg.shape.HasTop top)
    (hWarm : warmupModel cfg = .ok runs) (hr : r < cfg.dpSize) :
    Warmed cfg top (warmedOn runs r) := by
  have hTopMem : top ∈ cfg.shape.decodeBatchBuckets := List.mem_of_getLast? hTop.last
  obtain ⟨plan, hPlan, hRuns⟩ : ∃ plan, warmupPlan cfg = .ok plan ∧
      plan.mapM (fun run => runGroup cfg (List.replicate cfg.dpSize run.1) run.2) = .ok runs := by
    unfold warmupModel at hWarm
    cases hPlan : warmupPlan cfg with
    | error error => simp [hPlan, bind, Except.bind] at hWarm
    | ok plan => exact ⟨plan, rfl, by simpa [hPlan, bind, Except.bind] using hWarm⟩
  have hListed : (RankCall.dummyRun 1 cfg.shape.maxNumTokens true true, none) ∈ plan ∧
      (∀ numReqs ∈ cfg.shape.decodeBatchBuckets, ∀ queryLen ∈ cfg.warmupQueryLens,
        (RankCall.dummyRun numReqs queryLen false true, none) ∈ plan) ∧
      (cfg.shape.specializedMoeDecode = true → ∀ queryLen ∈ cfg.warmupQueryLens,
        (RankCall.dummyRun top queryLen false true, some cfg.shape.maxNumTokens) ∈ plan) ∧
      (cfg.shape.specializedMoeDecode = true → cfg.speculative.isSome = true →
        cfg.usesFixedDecodeWindow = false →
        (RankCall.dummyRun top 1 false true, some (top * (cfg.numSpecTokens + 1))) ∈ plan) := by
    unfold warmupPlan at hPlan
    cases hSpecialized : cfg.shape.specializedMoeDecode with
    | false =>
        simp only [hSpecialized, Bool.not_false, if_true, pure, Except.pure,
          Except.ok.injEq] at hPlan
        subst hPlan
        refine ⟨by simp, fun numReqs hReqs queryLen hQuery => ?_, by simp, by simp⟩
        simp only [List.mem_append, List.mem_flatMap, List.mem_map]
        exact .inr ⟨numReqs, hReqs, queryLen, hQuery, rfl⟩
    | true =>
        simp only [hSpecialized, Bool.not_true, Bool.false_eq_true, if_false,
          hTop.topBucket_eq, Except.mapError, bind, Except.bind, pure, Except.pure,
          Except.ok.injEq] at hPlan
        subst hPlan
        refine ⟨by simp, fun numReqs hReqs queryLen hQuery => ?_, fun _ queryLen hQuery => ?_,
          fun _ hSome hNotFixed => ?_⟩
        · simp only [List.mem_append, List.mem_flatMap, List.mem_map]
          exact .inl (.inl (.inr ⟨numReqs, hReqs, queryLen, hQuery, rfl⟩))
        · simp only [List.mem_append, List.mem_map]
          exact .inl (.inr ⟨queryLen, hQuery, rfl⟩)
        · obtain ⟨⟨method, numSpec⟩, hSpec⟩ := Option.isSome_iff_exists.1 hSome
          simp only [List.mem_append]
          refine .inr ?_
          simp [hSpec, hNotFixed, RunnerConfig.numSpecTokens]
  obtain ⟨hPrefill, hDecodes, hPadded, hAsym⟩ := hListed
  have hRowOf : ∀ {run}, run ∈ plan → ∃ row ∈ runs,
      runGroup cfg (List.replicate cfg.dpSize run.1) run.2 = .ok row :=
    fun hRun => mem_of_mapM hRuns hRun
  have hDecode : ∀ numReqs ∈ cfg.shape.decodeBatchBuckets, ∀ queryLen ∈ cfg.warmupQueryLens,
      numReqs * queryLen ≤ cfg.shape.maxNumTokens ∧ 1 ≤ numReqs ∧
        (cfg.dpSize ≠ 1 → numReqs ≤ 8191) ∧
        ⟨numReqs, queryLen, cfg.decodePadding numReqs queryLen⟩ ∈ warmedOn runs r := by
    intro numReqs hReqs queryLen hQuery
    obtain ⟨row, hRow, hRun⟩ := hRowOf (hDecodes numReqs hReqs queryLen hQuery)
    obtain ⟨hFits, hPos, hPacked, rfl⟩ := warm_decode hValid hReqs (window_le hQuery) hRun
    exact ⟨hFits, hPos, hPacked, mem_warmedOn hRow hr⟩
  obtain ⟨someQuery, hSomeQuery⟩ : ∃ queryLen, queryLen ∈ cfg.warmupQueryLens := by
    unfold RunnerConfig.warmupQueryLens
    split
    · exact ⟨1, by simp⟩
    · split <;> exact ⟨_, List.mem_cons_self⟩
  obtain ⟨prefillRow, hPrefillRow, hPrefillRun⟩ := hRowOf hPrefill
  obtain ⟨hMax, hPacks, rfl⟩ := warm_prefill hValid hPrefillRun
  refine
    { reqs := hMax
      packs := hPacks
      prefill := mem_warmedOn hPrefillRow hr
      bucket := fun numReqs hReqs =>
        ⟨(hDecode numReqs hReqs _ hSomeQuery).2.1, (hDecode numReqs hReqs _ hSomeQuery).2.2.1⟩
      fits := fun numReqs hReqs queryLen hQuery => (hDecode numReqs hReqs queryLen hQuery).1
      decode := fun numReqs hReqs queryLen hQuery =>
        (hDecode numReqs hReqs queryLen hQuery).2.2.2
      padded := fun hSpecialized queryLen hQuery => ?_
      asymmetric := fun hSpecialized hSome hNotFixed => ?_ }
  · obtain ⟨row, hRow, hRun⟩ := hRowOf (hPadded hSpecialized queryLen hQuery)
    obtain ⟨-, rfl⟩ := warm_pinned hValid hTopMem (window_le hQuery) hRun
    exact mem_warmedOn hRow hr
  · obtain ⟨row, hRow, hRun⟩ := hRowOf (hAsym hSpecialized hSome hNotFixed)
    obtain ⟨-, rfl⟩ := warm_pinned hValid hTopMem (by simp [hNotFixed]) hRun
    exact mem_warmedOn hRow hr

/-! ### Serving steps -/

/-- What a rank runs while serving: one prefill chunk, a decode batch some bucket holds, with
drafts only under a drafter, or the idle dummy step. -/
def RankCall.Serving (cfg : RunnerConfig) : RankCall → Prop
  | .prefill numTokens => 1 ≤ numTokens ∧ numTokens ≤ cfg.shape.maxNumTokens
  | .decode numReqs drafted => 1 ≤ numReqs ∧
      (∃ bucket ∈ cfg.shape.decodeBatchBuckets, numReqs ≤ bucket) ∧
      (drafted = true → cfg.speculative.isSome = true)
  | .dummyRun numReqs numTokensPerReq isPrefill warmup =>
      RankCall.dummyRun numReqs numTokensPerReq isPrefill warmup = RankCall.idle

section Serving

variable {cfg : RunnerConfig} {top : Nat} {calls : List RankCall} {call : RankCall}

theorem mem_warmupQueryLens_fixed (hFixed : cfg.usesFixedDecodeWindow = true) :
    cfg.warmupQueryLens = [cfg.numSpecTokens + 1] := by
  unfold RunnerConfig.warmupQueryLens RunnerConfig.numSpecTokens
  cases hSpec : cfg.speculative with
  | none => simp [RunnerConfig.usesFixedDecodeWindow, hSpec] at hFixed
  | some spec => simp [hFixed]

theorem one_mem_warmupQueryLens (hFixed : cfg.usesFixedDecodeWindow = false) :
    1 ∈ cfg.warmupQueryLens := by
  unfold RunnerConfig.warmupQueryLens
  split
  · simp
  · simp [hFixed]

/-- A decode batch is staged at one of the compiled query lengths. -/
theorem decode_queryLen_mem {numReqs : Nat} {drafted : Bool}
    (hDrafted : drafted = true → cfg.speculative.isSome = true) :
    (RankCall.decode numReqs drafted).queryLen cfg ∈ cfg.warmupQueryLens := by
  unfold RankCall.queryLen
  simp only
  cases hFixed : cfg.usesFixedDecodeWindow with
  | true => simp [mem_warmupQueryLens_fixed hFixed]
  | false =>
      cases drafted with
      | false => simpa using one_mem_warmupQueryLens hFixed
      | true =>
          obtain ⟨⟨method, numSpec⟩, hSpec⟩ := Option.isSome_iff_exists.1 (hDrafted rfl)
          simp [RunnerConfig.warmupQueryLens, hSpec, hFixed, RunnerConfig.numSpecTokens]

theorem one_le_of_mem_warmupQueryLens {queryLen : Nat} (hQuery : queryLen ∈ cfg.warmupQueryLens) :
    1 ≤ queryLen := by
  unfold RunnerConfig.warmupQueryLens at hQuery
  split at hQuery
  · simp_all
  · split at hQuery
    · simp_all
    · simp only [List.mem_cons, List.not_mem_nil, or_false] at hQuery
      omega

theorem RankCall.Serving.one_le (hServing : call.Serving cfg) : 1 ≤ call.numReqs := by
  cases call with
  | prefill numTokens => exact le_rfl
  | decode numReqs drafted => exact hServing.1
  | dummyRun numReqs numTokensPerReq isPrefill warmup =>
      cases hServing
      exact le_rfl

/-- The query length an idle rank stages on a batch it was given. -/
theorem idle_target_mem {desc : BatchDescriptor}
    (hFixed : cfg.usesFixedDecodeWindow = true → desc.queryLen ≤ cfg.numSpecTokens + 1)
    (hOwn : cfg.usesFixedDecodeWindow = false → desc.queryLen ∈ cfg.warmupQueryLens) :
    RankCall.idle.targetQueryLen cfg desc ∈ cfg.warmupQueryLens := by
  simp only [RankCall.idle, RankCall.targetQueryLen, Bool.not_false, Bool.true_and]
  split
  · rename_i hWindow
    rw [Nat.max_eq_right (hFixed hWindow), mem_warmupQueryLens_fixed hWindow]
    exact List.mem_cons_self
  · rename_i hWindow
    exact hOwn (by simpa using hWindow)

/-- An idle rank runs the shape of the batch it was given, at the target length. -/
theorem idle_forward {desc : BatchDescriptor} {numReqsPadded : Nat} {padded : Option Nat}
    {target : Nat} (hReqs : desc.numReqsPadded = numReqsPadded)
    (hPadded : desc.numTokensPadded = padded)
    (hTarget : RankCall.idle.targetQueryLen cfg desc = target)
    (hFits : ∀ n, padded = some n → numReqsPadded * target ≤ n)
    (hTokens : target ≤ cfg.shape.maxNumTokens) :
    RankCall.idle.forward cfg (some desc) = .ok (some ⟨numReqsPadded, target, padded⟩) := by
  have hAll : (padded.all fun n => decide (numReqsPadded * target ≤ n)) = true := by
    cases padded with
    | none => rfl
    | some n => simpa using hFits n rfl
  unfold RankCall.idle at hTarget ⊢
  simp [RankCall.forward, hReqs, hPadded, hTarget, hAll, hTokens]

/-- The rank's forward on this batch goes through, in a shape every warm-up compiled. -/
def RankCall.Runs (cfg : RunnerConfig) (top : Nat) (call : RankCall)
    (desc : Option BatchDescriptor) : Prop :=
  ∃ shape, call.forward cfg desc = .ok shape ∧
    ∀ shapes, Warmed cfg top shapes → ∀ run, shape = some run → run ∈ shapes

private theorem runs_idle {desc : BatchDescriptor} {warm : List ForwardShape}
    {numReqsPadded : Nat} {padded : Option Nat} (hWarmed : Warmed cfg top warm)
    (hBucket : numReqsPadded ∈ cfg.shape.decodeBatchBuckets)
    (hReqs : desc.numReqsPadded = numReqsPadded) (hPadded : desc.numTokensPadded = padded)
    (hTarget : RankCall.idle.targetQueryLen cfg desc ∈ cfg.warmupQueryLens)
    (hFits : ∀ n, padded = some n → numReqsPadded * RankCall.idle.targetQueryLen cfg desc ≤ n)
    (hShape : ∀ shapes, Warmed cfg top shapes →
      ⟨numReqsPadded, RankCall.idle.targetQueryLen cfg desc, padded⟩ ∈ shapes) :
    RankCall.idle.Runs cfg top (some desc) := by
  have hMul := hWarmed.fits numReqsPadded hBucket _ hTarget
  have hPos := (hWarmed.bucket numReqsPadded hBucket).1
  have hTokens : RankCall.idle.targetQueryLen cfg desc ≤ cfg.shape.maxNumTokens :=
    le_trans (Nat.le_mul_of_pos_left _ hPos) hMul
  refine ⟨_, idle_forward hReqs hPadded rfl hFits hTokens, fun shapes hShapes run hRun => ?_⟩
  cases hRun
  exact hShape shapes hShapes

/-- A rank that keeps its own batch: on a single rank, and without specialized decode. -/
private theorem runs_own {warm : List ForwardShape} {pad : Option Nat} (hTop : cfg.shape.HasTop top)
    (hWarmed : Warmed cfg top warm) (hServing : call.Serving cfg)
    (hPad : pad = if cfg.dpSize = 1 then none else some cfg.shape.maxNumTokens)
    (hDecode : ∀ numReqs queryLen, cfg.decodePadding numReqs queryLen = pad) :
    ∃ padded, ownReqsPadded cfg.shape call.numReqs call.isPrefill = .ok padded ∧
      padded * call.queryLen cfg ≤ cfg.shape.maxNumTokens ∧
      call.Runs cfg top (some ⟨padded, call.queryLen cfg, pad⟩) := by
  have hPadFits : ∀ {n m}, n ≤ cfg.shape.maxNumTokens → pad = some m → n ≤ m := by
    intro n m hn hm
    rw [hPad] at hm
    split at hm
    · cases hm
    · cases hm
      exact hn
  cases call with
  | prefill numTokens =>
      refine ⟨1, rfl, by simpa [RankCall.queryLen] using hServing.2, _, rfl,
        fun shapes hShapes run hRun => ?_⟩
      cases hRun
      rw [hPad]
      exact hShapes.prefill
  | decode numReqs drafted =>
      obtain ⟨-, ⟨bucket, hBucketMem, hLe⟩, hDrafted⟩ := hServing
      obtain ⟨padded, hPadded, -, -⟩ := hTop.findBucket_ok (le_trans hLe (hTop.le _ hBucketMem))
      have hMem := (ShapeConfig.findBucket_mem hPadded).1
      have hQuery : (RankCall.decode numReqs drafted).queryLen cfg ∈ cfg.warmupQueryLens :=
        decode_queryLen_mem hDrafted
      refine ⟨padded, hPadded, hWarmed.fits _ hMem _ hQuery, _, rfl,
        fun shapes hShapes run hRun => ?_⟩
      cases hRun
      simpa [hDecode, RankCall.targetQueryLen] using hShapes.decode _ hMem _ hQuery
  | dummyRun numReqs numTokensPerReq isPrefill warmup =>
      cases hServing
      have hOne : 1 ≤ top :=
        (hWarmed.bucket top (List.mem_of_getLast? hTop.last)).1
      obtain ⟨padded, hPadded, -, -⟩ := hTop.findBucket_ok hOne
      have hMem := (ShapeConfig.findBucket_mem hPadded).1
      have hTarget : RankCall.idle.targetQueryLen cfg ⟨padded, 1, pad⟩ ∈ cfg.warmupQueryLens :=
        idle_target_mem (fun _ => by simp) one_mem_warmupQueryLens
      have hFits := hWarmed.fits _ hMem _ hTarget
      refine ⟨padded, hPadded, ?_, ?_⟩
      · refine le_trans (Nat.mul_le_mul_left padded ?_) hFits
        exact one_le_of_mem_warmupQueryLens hTarget
      · refine runs_idle hWarmed hMem rfl rfl hTarget (fun n hn => hPadFits hFits hn)
          fun shapes hShapes => ?_
        have hShape := hShapes.decode _ hMem _ hTarget
        rwa [hDecode] at hShape

/-- A rank whose peer prefills, under specialized decode. -/
private theorem runs_padded {warm : List ForwardShape} (hTop : cfg.shape.HasTop top)
    (hWarmed : Warmed cfg top warm) (hServing : call.Serving cfg) (hMany : cfg.dpSize ≠ 1)
    (hSpecialized : cfg.shape.specializedMoeDecode = true) :
    (if call.isPrefill then call.numReqs else top) * call.queryLen cfg ≤ cfg.shape.maxNumTokens ∧
      call.Runs cfg top (some ⟨if call.isPrefill then call.numReqs else top, call.queryLen cfg,
        some cfg.shape.maxNumTokens⟩) := by
  have hTopMem : top ∈ cfg.shape.decodeBatchBuckets := List.mem_of_getLast? hTop.last
  cases call with
  | prefill numTokens =>
      refine ⟨by simpa [RankCall.isPrefill, RankCall.numReqs, RankCall.queryLen] using hServing.2,
        _, rfl, fun shapes hShapes run hRun => ?_⟩
      cases hRun
      have hShape := hShapes.prefill
      rw [if_neg hMany] at hShape
      exact hShape
  | decode numReqs drafted =>
      have hQuery : (RankCall.decode numReqs drafted).queryLen cfg ∈ cfg.warmupQueryLens :=
        decode_queryLen_mem hServing.2.2
      refine ⟨hWarmed.fits _ hTopMem _ hQuery, _, rfl, fun shapes hShapes run hRun => ?_⟩
      cases hRun
      exact hShapes.padded hSpecialized _ hQuery
  | dummyRun numReqs numTokensPerReq isPrefill warmup =>
      cases hServing
      have hTarget : RankCall.idle.targetQueryLen cfg ⟨top, 1, some cfg.shape.maxNumTokens⟩ ∈
          cfg.warmupQueryLens := idle_target_mem (fun _ => by simp) one_mem_warmupQueryLens
      have hFits := hWarmed.fits _ hTopMem _ hTarget
      refine ⟨?_, ?_⟩
      · refine le_trans (Nat.mul_le_mul_left top ?_) hFits
        exact one_le_of_mem_warmupQueryLens hTarget
      · refine runs_idle hWarmed hTopMem rfl rfl hTarget (fun n hn => ?_)
          fun shapes hShapes => hShapes.padded hSpecialized _ hTarget
        cases hn
        exact hFits

/-- A rank on a decode step whose busy ranks agree on the query length. -/
private theorem runs_agreed {warm : List ForwardShape} {bucket maxQueryLen : Nat}
    (hWarmed : Warmed cfg top warm) (hServing : call.Serving cfg) (hMany : cfg.dpSize ≠ 1)
    (hSpecialized : cfg.shape.specializedMoeDecode = true) (hDecode : call.isPrefill = false)
    (hBucket : bucket ∈ cfg.shape.decodeBatchBuckets) (hMax : maxQueryLen ∈ cfg.warmupQueryLens)
    (hOwn : call.isIdle = false → call.queryLen cfg = maxQueryLen) :
    call.Runs cfg top (some ⟨bucket, maxQueryLen, some (bucket * maxQueryLen)⟩) := by
  have hPadding : cfg.decodePadding bucket maxQueryLen = some (bucket * maxQueryLen) := by
    simp [RunnerConfig.decodePadding, hMany, hSpecialized]
  cases call with
  | prefill numTokens => cases hDecode
  | decode numReqs drafted =>
      refine ⟨_, rfl, fun shapes hShapes run hRun => ?_⟩
      cases hRun
      have hShape := hShapes.decode _ hBucket _ hMax
      rw [hPadding] at hShape
      simpa [RankCall.targetQueryLen, hOwn rfl] using hShape
  | dummyRun numReqs numTokensPerReq isPrefill warmup =>
      cases hServing
      have hTarget : RankCall.idle.targetQueryLen cfg
          ⟨bucket, maxQueryLen, some (bucket * maxQueryLen)⟩ = maxQueryLen := by
        simp only [RankCall.idle, RankCall.targetQueryLen, Bool.not_false, Bool.true_and]
        split
        · rename_i hFixed
          rw [mem_warmupQueryLens_fixed hFixed, List.mem_singleton] at hMax
          rw [hMax, Nat.max_self]
        · rfl
      refine runs_idle hWarmed hBucket rfl rfl (by rw [hTarget]; exact hMax) (fun n hn => ?_)
        fun shapes hShapes => ?_
      · cases hn
        rw [hTarget]
      · rw [hTarget, ← hPadding]
        exact hShapes.decode _ hBucket _ hMax

/-- A rank on a decode step where some rank drafted and another did not. -/
private theorem runs_asymmetric {warm : List ForwardShape} (hTop : cfg.shape.HasTop top)
    (hWarmed : Warmed cfg top warm) (hServing : call.Serving cfg) (hMany : cfg.dpSize ≠ 1)
    (hSpecialized : cfg.shape.specializedMoeDecode = true) (hDecode : call.isPrefill = false)
    (hSpec : cfg.speculative.isSome = true) (hFixed : cfg.usesFixedDecodeWindow = false) :
    call.queryLen cfg ≤ cfg.numSpecTokens + 1 ∧
      call.Runs cfg top
        (some ⟨top, call.queryLen cfg, some (top * (cfg.numSpecTokens + 1))⟩) := by
  have hTopMem : top ∈ cfg.shape.decodeBatchBuckets := List.mem_of_getLast? hTop.last
  cases call with
  | prefill numTokens => cases hDecode
  | decode numReqs drafted =>
      cases drafted with
      | false =>
          have hQuery : (RankCall.decode numReqs false).queryLen cfg = 1 := by
            simp [RankCall.queryLen, hFixed]
          refine ⟨by omega, _, rfl, fun shapes hShapes run hRun => ?_⟩
          cases hRun
          simpa [RankCall.targetQueryLen, hQuery] using hShapes.asymmetric hSpecialized hSpec hFixed
      | true =>
          have hQuery : (RankCall.decode numReqs true).queryLen cfg = cfg.numSpecTokens + 1 := by
            simp [RankCall.queryLen]
          have hMem : (RankCall.decode numReqs true).queryLen cfg ∈ cfg.warmupQueryLens :=
            decode_queryLen_mem hServing.2.2
          refine ⟨by omega, _, rfl, fun shapes hShapes run hRun => ?_⟩
          cases hRun
          have hShape := hShapes.decode _ hTopMem _ hMem
          simpa [RankCall.targetQueryLen, hQuery, RunnerConfig.decodePadding, hMany,
            hSpecialized] using hShape
  | dummyRun numReqs numTokensPerReq isPrefill warmup =>
      cases hServing
      have hTarget : RankCall.idle.targetQueryLen cfg
          ⟨top, RankCall.idle.queryLen cfg, some (top * (cfg.numSpecTokens + 1))⟩ = 1 := by
        simp [RankCall.idle, RankCall.targetQueryLen, RankCall.queryLen, hFixed]
      refine ⟨by simp [RankCall.queryLen], ?_⟩
      change RankCall.idle.Runs cfg top
        (some ⟨top, RankCall.idle.queryLen cfg, some (top * (cfg.numSpecTokens + 1))⟩)
      refine runs_idle hWarmed hTopMem rfl rfl
        (by rw [hTarget]; exact one_mem_warmupQueryLens hFixed) (fun n hn => ?_)
        fun shapes hShapes => ?_
      · cases hn
        rw [hTarget]
        exact Nat.mul_le_mul_left top (by omega)
      · rw [hTarget]
        exact hShapes.asymmetric hSpecialized hSpec hFixed

/-! The status of a serving step, read off the calls. -/

variable (cfg calls) in
/-- What the ranks of a serving step report. -/
def servingStatus : DPStatus :=
  reportedStatus (calls.map (RankCall.input cfg))

theorem mem_servingStatus_busy {i : Nat} : i ∈ (servingStatus cfg calls).busy ↔
    ∃ hi : i < calls.length, calls[i].isIdle = false := by
  unfold servingStatus
  rw [mem_busy]
  simp [RankCall.input]

theorem servingStatus_queryLen (hServing : ∀ call ∈ calls, call.Serving cfg) {i : Nat}
    (hi : i < calls.length) :
    (servingStatus cfg calls).queryLen i = calls[i].queryLen cfg := by
  have hPos := (hServing _ (List.getElem_mem hi)).one_le
  unfold servingStatus
  rw [queryLen_reportedStatus (by simpa using hi)]
  simp only [List.getElem_map, RankCall.input]
  exact Nat.mul_div_cancel_left _ (by omega)

theorem servingStatus_uniform : (servingStatus cfg calls).Uniform := by
  intro i hi
  obtain ⟨hLt, -⟩ := mem_servingStatus_busy.1 hi
  simp [servingStatus, reportedStatus, List.getD, hLt, RankCall.input]

theorem servingStatus_isPrefill : (servingStatus cfg calls).isPrefill.any id =
    calls.any RankCall.isPrefill := by
  simp [servingStatus, reportedStatus, RankCall.input, List.any_map, Function.comp_def]

theorem RankCall.Serving.numReqs_le_top (hTop : cfg.shape.HasTop top) (hOne : 1 ≤ top)
    (hServing : call.Serving cfg) : call.numReqs ≤ top := by
  cases call with
  | prefill numTokens => exact hOne
  | decode numReqs drafted =>
      obtain ⟨-, ⟨bucket, hBucket, hLe⟩, -⟩ := hServing
      exact le_trans hLe (hTop.le bucket hBucket)
  | dummyRun numReqs numTokensPerReq isPrefill warmup =>
      cases hServing
      exact hOne

theorem servingStatus_maxNumReqs_le (hTop : cfg.shape.HasTop top) (hOne : 1 ≤ top)
    (hServing : ∀ call ∈ calls, call.Serving cfg) :
    (servingStatus cfg calls).maxNumReqs ≤ top := by
  refine DPStatus.maxNumReqs_le fun i hi => ?_
  obtain ⟨hLt, -⟩ := mem_servingStatus_busy.1 hi
  have hOwn : (servingStatus cfg calls).numReqs.getD i 0 = calls[i].numReqs := by
    unfold servingStatus
    rw [numReqs_reportedStatus (by simpa using hLt), List.getElem_map]
    rfl
  rw [hOwn]
  exact (hServing _ (List.getElem_mem hLt)).numReqs_le_top hTop hOne

/-- Without a prefill on the step, every busy rank decodes at a compiled query length. -/
theorem busy_queryLen_mem (hServing : ∀ call ∈ calls, call.Serving cfg)
    (hDecode : calls.any RankCall.isPrefill = false) {i : Nat} (hi : i < calls.length)
    (hBusy : calls[i].isIdle = false) : calls[i].queryLen cfg ∈ cfg.warmupQueryLens := by
  have hMem := List.getElem_mem hi
  have hOwn := hServing _ hMem
  have hNot : calls[i].isPrefill = false := by
    simpa using (List.any_eq_false.1 hDecode) _ hMem
  cases hCall : calls[i] with
  | prefill numTokens => simp [hCall, RankCall.isPrefill] at hNot
  | decode numReqs drafted =>
      rw [hCall] at hOwn
      exact decode_queryLen_mem hOwn.2.2
  | dummyRun numReqs numTokensPerReq isPrefill warmup =>
      rw [hCall] at hOwn hBusy
      cases hOwn
      cases hBusy

/-- Busy ranks that disagree on the query length mean that one drafted and another did not. -/
theorem asymmetric_spec (hServing : ∀ call ∈ calls, call.Serving cfg)
    (hDecode : calls.any RankCall.isPrefill = false)
    (hAsym : ¬ (servingStatus cfg calls).Agreed) :
    cfg.speculative.isSome = true ∧ cfg.usesFixedDecodeWindow = false ∧
      (servingStatus cfg calls).maxQueryLen = cfg.numSpecTokens + 1 := by
  have hQuery : ∀ i ∈ (servingStatus cfg calls).busy,
      (servingStatus cfg calls).queryLen i ∈ cfg.warmupQueryLens := by
    intro i hi
    obtain ⟨hLt, hBusy⟩ := mem_servingStatus_busy.1 hi
    rw [servingStatus_queryLen hServing hLt]
    exact busy_queryLen_mem hServing hDecode hLt hBusy
  -- One compiled length leaves nothing to disagree on.
  have hNotOne : ∀ queryLen, cfg.warmupQueryLens ≠ [queryLen] := by
    intro queryLen hOne
    refine hAsym fun i hi => le_antisymm (DPStatus.queryLen_le_max hi) ?_
    refine DPStatus.maxQueryLen_le fun j hj => ?_
    have hI := hQuery i hi
    have hJ := hQuery j hj
    rw [hOne, List.mem_singleton] at hI hJ
    omega
  obtain ⟨⟨method, numSpec⟩, hSpec⟩ : ∃ spec, cfg.speculative = some spec := by
    cases hSpec : cfg.speculative with
    | none => exact absurd (by simp [RunnerConfig.warmupQueryLens, hSpec]) (hNotOne 1)
    | some spec => exact ⟨spec, rfl⟩
  have hFixed : cfg.usesFixedDecodeWindow = false := by
    cases hFixed : cfg.usesFixedDecodeWindow with
    | false => rfl
    | true => exact absurd (mem_warmupQueryLens_fixed hFixed) (hNotOne _)
  have hLens : cfg.warmupQueryLens = [1, cfg.numSpecTokens + 1] := by
    simp [RunnerConfig.warmupQueryLens, hSpec, hFixed, RunnerConfig.numSpecTokens]
  refine ⟨by simp [hSpec], hFixed, ?_⟩
  rw [hLens] at hQuery
  simp only [List.mem_cons, List.not_mem_nil, or_false] at hQuery
  refine le_antisymm (DPStatus.maxQueryLen_le fun i hi => ?_) ?_
  · have := hQuery i hi
    omega
  · by_contra hShort
    refine hAsym fun i hi => ?_
    have hI := hQuery i hi
    have hLe := DPStatus.queryLen_le_max hi
    have hMaxLe : (servingStatus cfg calls).maxQueryLen ≤ 1 := DPStatus.maxQueryLen_le fun j hj => by
      have hJ := hQuery j hj
      have hJLe := DPStatus.queryLen_le_max hj
      omega
    omega

/-- The decision of every rank of a serving step, and the shape it then runs. -/
theorem serving_decision {warm : List ForwardShape}
    (hTop : cfg.shape.HasTop top) (hWarmed : Warmed cfg top warm)
    (hServing : ∀ call ∈ calls, call.Serving cfg) (hCall : call ∈ calls) :
    ∃ desc, RankInput.decision cfg.shape
        (groupStatus cfg (calls.map (RankCall.input cfg))) none (call.input cfg) = .ok desc ∧
      call.Runs cfg top desc := by
  have hOwn := hServing call hCall
  have hInput : call.input cfg =
      ⟨call.numReqs, call.numReqs * call.queryLen cfg, call.isPrefill, call.isIdle⟩ := rfl
  rw [hInput, RankInput.decision_eq hOwn.one_le]
  by_cases hOne : cfg.dpSize = 1
  · have hSingle : none = if cfg.dpSize = 1 then none else some cfg.shape.maxNumTokens := by
      simp [hOne]
    obtain ⟨padded, hPadded, -, hRuns⟩ := runs_own hTop hWarmed hOwn hSingle
      (fun _ _ => by simp [RunnerConfig.decodePadding, hOne])
    refine ⟨_, ?_, hRuns⟩
    simp [groupStatus, hOne, hPadded, bind, Except.bind, BatchDescriptor.create, Functor.map,
      Except.map]
  have hTopMem : top ∈ cfg.shape.decodeBatchBuckets := List.mem_of_getLast? hTop.last
  have hTopPos : 1 ≤ top := (hWarmed.bucket top hTopMem).1
  have hStatus : groupStatus cfg (calls.map (RankCall.input cfg)) =
      some (servingStatus cfg calls) := by
    simp [groupStatus, hOne, servingStatus]
  have hPadded : ∃ padded, ownReqsPadded cfg.shape call.numReqs call.isPrefill = .ok padded := by
    cases hPrefill : call.isPrefill with
    | true => exact ⟨_, rfl⟩
    | false =>
        obtain ⟨padded, hFind, -⟩ := hTop.findBucket_ok (hOwn.numReqs_le_top hTop hTopPos)
        exact ⟨padded, hFind⟩
  obtain ⟨padded, hPadded⟩ := hPadded
  rw [hStatus, hPadded]
  simp only [bind, Except.bind]
  by_cases hBusy : (servingStatus cfg calls).busy = []
  · -- A drained group: the call is the idle dummy run.
    obtain ⟨i, hi, rfl⟩ := List.getElem_of_mem hCall
    have hIdle : calls[i] = RankCall.idle := by
      have hNot : ¬ i ∈ (servingStatus cfg calls).busy := by simp [hBusy]
      rw [mem_servingStatus_busy] at hNot
      cases hShape : calls[i] with
      | prefill numTokens => exact absurd ⟨hi, by rw [hShape]; rfl⟩ hNot
      | decode numReqs drafted => exact absurd ⟨hi, by rw [hShape]; rfl⟩ hNot
      | dummyRun numReqs numTokensPerReq isPrefill warmup =>
          rw [hShape] at hOwn
          exact hOwn
    refine ⟨none, ?_, none, ?_, fun shapes _ run hRun => ?_⟩
    · rw [determineAcrossDp_allIdle hBusy]
      rfl
    · rw [hIdle]
      rfl
    · cases hRun
  cases hSpecialized : cfg.shape.specializedMoeDecode with
  | false =>
      have hMany : some cfg.shape.maxNumTokens =
          if cfg.dpSize = 1 then none else some cfg.shape.maxNumTokens := by
        simp [hOne]
      obtain ⟨own, hOwnPadded, hFits, hRuns⟩ := runs_own hTop hWarmed hOwn hMany
        (fun _ _ => by simp [RunnerConfig.decodePadding, hOne, hSpecialized])
      rw [hPadded] at hOwnPadded
      cases hOwnPadded
      refine ⟨_, ?_, hRuns⟩
      rw [determineAcrossDp_unspecialized hBusy hSpecialized,
        BatchDescriptor.create_eq_ok.2 ⟨hFits, rfl⟩]
      rfl
  | true =>
      cases hAny : calls.any RankCall.isPrefill with
      | true =>
          obtain ⟨hFits, hRuns⟩ := runs_padded hTop hWarmed hOwn hOne hSpecialized
          refine ⟨_, ?_, hRuns⟩
          rw [determineAcrossDp_anyPrefill hTop hBusy hSpecialized
            (servingStatus_isPrefill.trans hAny), BatchDescriptor.create_eq_ok.2 ⟨hFits, rfl⟩]
          rfl
      | false =>
          have hDecode : call.isPrefill = false := by
            simpa using (List.any_eq_false.1 hAny) call hCall
          by_cases hAgreed : (servingStatus cfg calls).Agreed
          · obtain ⟨bucket, hBucket, -⟩ :=
              hTop.findBucket_ok (servingStatus_maxNumReqs_le hTop hTopPos hServing)
            have hMax : (servingStatus cfg calls).maxQueryLen ∈ cfg.warmupQueryLens := by
              obtain ⟨i, hi⟩ := List.exists_mem_of_ne_nil _ hBusy
              obtain ⟨hLt, hBusyI⟩ := mem_servingStatus_busy.1 hi
              rw [← hAgreed i hi, servingStatus_queryLen hServing hLt]
              exact busy_queryLen_mem hServing hAny hLt hBusyI
            refine ⟨_, ?_, runs_agreed hWarmed hOwn hOne hSpecialized hDecode
              (ShapeConfig.findBucket_mem hBucket).1 hMax fun hIdle => ?_⟩
            · rw [determineAcrossDp_agreed hBusy hSpecialized (servingStatus_isPrefill.trans hAny)
                servingStatus_uniform hAgreed hBucket]
              rfl
            · obtain ⟨i, hi, rfl⟩ := List.getElem_of_mem hCall
              rw [← servingStatus_queryLen hServing hi]
              exact hAgreed i (mem_servingStatus_busy.2 ⟨hi, hIdle⟩)
          · obtain ⟨hSpec, hFixed, hMax⟩ := asymmetric_spec hServing hAny hAgreed
            obtain ⟨hLe, hRuns⟩ := runs_asymmetric hTop hWarmed hOwn hOne hSpecialized hDecode
              hSpec hFixed
            refine ⟨_, ?_, hRuns⟩
            rw [determineAcrossDp_qlenAsym hTop hBusy hSpecialized
              (servingStatus_isPrefill.trans hAny) servingStatus_uniform hAgreed, hMax,
              BatchDescriptor.create_eq_ok.2 ⟨Nat.mul_le_mul_left top hLe, rfl⟩]
            rfl

/-- What a serving rank reports fits the packed word: the warm-up packed larger counts. -/
theorem RankCall.Serving.fitsPacked {warm : List ForwardShape} (hTop : cfg.shape.HasTop top)
    (hWarmed : Warmed cfg top warm) (hMany : cfg.dpSize ≠ 1) (hServing : call.Serving cfg) :
    (call.input cfg).FitsPacked := by
  have hTopMem : top ∈ cfg.shape.decodeBatchBuckets := List.mem_of_getLast? hTop.last
  have hPacks := hWarmed.packs hMany
  have hTopReqs := (hWarmed.bucket top hTopMem).2 hMany
  have hReqs := hServing.numReqs_le_top hTop (hWarmed.bucket top hTopMem).1
  refine ⟨?_, le_trans hReqs hTopReqs⟩
  cases call with
  | prefill numTokens =>
      have hLe : numTokens ≤ cfg.shape.maxNumTokens := hServing.2
      simp only [RankCall.input, RankCall.numReqs, RankCall.queryLen]
      omega
  | decode numReqs drafted =>
      refine le_trans (le_trans (Nat.mul_le_mul_right _ hReqs) ?_) hPacks
      exact hWarmed.fits top hTopMem _ (decode_queryLen_mem hServing.2.2)
  | dummyRun numReqs numTokensPerReq isPrefill warmup =>
      cases hServing
      simp [RankCall.input, RankCall.numReqs, RankCall.queryLen]

theorem RankCall.Serving.check {warm : List ForwardShape} (hWarmed : Warmed cfg top warm)
    (hServing : call.Serving cfg) : call.check cfg = .ok () := by
  cases call with
  | prefill numTokens => rfl
  | decode numReqs drafted => rfl
  | dummyRun numReqs numTokensPerReq isPrefill warmup =>
      cases hServing
      simp [RankCall.check, hWarmed.reqs]

/-- One serving step of the group goes through, rank by rank on a compiled shape. -/
theorem runGroup_serving {warm : List ForwardShape}
    (hTop : cfg.shape.HasTop top) (hWarmed : Warmed cfg top warm)
    (hServing : ∀ call ∈ calls, call.Serving cfg) :
    ∃ row, runGroup cfg calls none = .ok row ∧ row.length = calls.length ∧
      ∀ run, some run ∈ row → ∀ shapes, Warmed cfg top shapes → run ∈ shapes := by
  obtain ⟨checked, hChecked, -⟩ := mapM_ok (RankCall.check cfg) (fun _ _ => True) calls
    fun call hCall => ⟨(), (hServing call hCall).check hWarmed, trivial⟩
  have hFits : cfg.dpSize ≠ 1 → ∀ input ∈ calls.map (RankCall.input cfg), input.FitsPacked := by
    intro hMany input hInput
    obtain ⟨call, hCall, rfl⟩ := List.mem_map.1 hInput
    exact (hServing call hCall).fitsPacked hTop hWarmed hMany
  -- Every rank decides on a batch its forward can run.
  obtain ⟨descs, hDescs, hRuns⟩ := mapM_ok (fun call => RankInput.decision cfg.shape
      (groupStatus cfg (calls.map (RankCall.input cfg))) none (call.input cfg))
    (RankCall.Runs cfg top) calls
    fun call hCall => serving_decision hTop hWarmed hServing hCall
  have hDecide : decideGroup cfg (calls.map (RankCall.input cfg)) none = .ok descs := by
    rw [decideGroup_eq hFits, List.mapM_map]
    exact hDescs
  obtain ⟨row, hRow, hPost⟩ := mapM_ok
    (fun rank : RankCall × Option BatchDescriptor => rank.1.forward cfg rank.2)
    (fun _ shape => ∀ shapes, Warmed cfg top shapes → ∀ run, shape = some run → run ∈ shapes)
    (calls.zip descs) fun rank hRank => (List.forall₂_iff_zip.1 hRuns).2 hRank
  have hLength : (calls.zip descs).length = calls.length := by
    rw [List.length_zip, ← hRuns.length_eq, Nat.min_self]
  refine ⟨row, ?_, by rw [← hPost.length_eq, hLength], fun run hRun shapes hShapes => ?_⟩
  · simp [runGroup, hChecked, hDecide, hRow, bind, Except.bind, Except.mapError]
  · obtain ⟨r, hr, hOwn⟩ := List.getElem_of_mem hRun
    have hAt := hPost.get (by rw [hPost.length_eq]; exact hr) hr
    exact hAt shapes hShapes run hOwn

/-- Every shape a rank of a serving group runs is one its warm-up ran, whatever the phases,
counts and idleness of the ranks; no assertion on the way fires. -/
theorem runGroup_warmed {runs : List (List (Option ForwardShape))} (hValid : cfg.Valid)
    (hWarm : warmupModel cfg = .ok runs) (hRanks : calls.length = cfg.dpSize)
    (hServing : ∀ call ∈ calls, call.Serving cfg) :
    ∃ row, runGroup cfg calls none = .ok row ∧ row.length = cfg.dpSize ∧
      ∀ r run, row[r]? = some (some run) → run ∈ warmedOn runs r := by
  have hTop := ShapeConfig.hasTop hValid.ascend hValid.buckets
  have hWarmed : ∀ r < cfg.dpSize, Warmed cfg _ (warmedOn runs r) := fun r hr =>
    warmupModel_warmed hValid hTop hWarm hr
  obtain ⟨row, hRow, hLength, hShapes⟩ :=
    runGroup_serving hTop (hWarmed 0 hValid.dpSize) hServing
  refine ⟨row, hRow, hLength.trans hRanks, fun r run hRun => ?_⟩
  obtain ⟨hr, hOwn⟩ := List.getElem?_eq_some_iff.1 hRun
  exact hShapes run (hOwn ▸ List.getElem_mem hr) _ (hWarmed r (by omega))

end Serving

/-- Two ranks under a suffix drafter with specialized MoE decode. -/
def RunnerConfig.suffixPair : RunnerConfig where
  shape := ⟨[1, 4], 16, true⟩
  dpSize := 2
  maxNumReqs := 4
  speculative := some (.suffix, 1)

/-- Instance of `runGroup_warmed`: one rank verifies drafts while its peer is idle. -/
theorem runGroup_warmed_suffixPair :
    ∃ runs, warmupModel RunnerConfig.suffixPair = .ok runs ∧
      ∃ row, runGroup RunnerConfig.suffixPair [.decode 3 true, .idle] none = .ok row ∧
        row.length = 2 ∧ ∀ r run, row[r]? = some (some run) → run ∈ warmedOn runs r := by
  cases hWarm : warmupModel RunnerConfig.suffixPair with
  | error error => exact absurd hWarm (by intro h; cases h)
  | ok runs =>
      refine ⟨runs, rfl, runGroup_warmed ⟨by decide, by decide, by decide, by decide⟩ hWarm rfl ?_⟩
      intro call hCall
      simp only [List.mem_cons, List.not_mem_nil, or_false] at hCall
      rcases hCall with rfl | rfl
      · exact ⟨by decide, ⟨4, by decide, by decide⟩, fun _ => rfl⟩
      · rfl

end VllmRbln.DataParallel
