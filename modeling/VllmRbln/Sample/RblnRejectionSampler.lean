import Mathlib.Analysis.SpecialFunctions.Exp
import VllmRbln.Sample.RejectionSampler

/-! The two implementations behind `RBLNRejectionSampler.forward`: the host one, which makes
probabilities of the logits first, and the compiled one, whose inputs are persistent buffers of a
fixed size. -/
namespace VllmRbln.Sample

open Extremes Leading Ragged Rows Slices

def greedyTopK : Nat := 1

/-- `vllm`'s and `torch`'s operations on rows, and `torch.ops.rbln.rejection_sample`, which gives
the recovered ids and the number of accepted drafts of each request. A row holds `⊥` where a
filter has taken an entry out. -/
structure TensorOps (V : Nat) (K : Type) where
  softmax : Row V (WithBot K) → Row V K
  applyTopKTopP : Row V K → Option Nat → Option K → Row V (WithBot K)
  rejectionSample : List Int → List (Row V K) → List Nat → Option (List Nat) → Option (List K) →
    List (List Int) × List Nat

/-- The entry above all others. -/
def IsTop {V : Nat} {K : Type} [LT K] (row : Row V K) (v : Fin V) : Prop :=
  ∀ w, w ≠ v → row w < row v

section Impl

variable {V : Nat} [NeZero V] {K : Type} [Field K] [LinearOrder K]

/-! ### The host implementation -/

/-- `torch_expand_kernel`. -/
def torchExpandKernel {α : Type} [DecidableEq α] (input : List α) (cuNumTokens : List Nat)
    (numTokens : Nat) (replaceFrom replaceTo : α) : List α :=
  let counts := List.zipWith (· - ·) cuNumTokens (startsOf cuNumTokens)
  let expanded := repeatEach input counts
  let expanded :=
    if replaceFrom ≠ replaceTo then expanded.map fun x => if x = replaceFrom then replaceTo else x
    else expanded
  if expanded.length ≠ numTokens then
    if numTokens < expanded.length then expanded.take numTokens
    else expanded ++ List.replicate (numTokens - expanded.length) replaceTo
  else expanded

def expandBatchToTokens {α : Type} [DecidableEq α] (x : List α) (cuNumTokens : List Nat)
    (numTokens : Nat) (replaceFrom replaceTo : α) : List α :=
  torchExpandKernel x cuNumTokens numTokens replaceFrom replaceTo

/-- A parameter for each row, where the batch has one. -/
def rowParameters {α : Type} (numTokens : Nat) (values : Option (List α)) : List (Option α) :=
  match values with
  | some values => values.map some
  | none => List.replicate numTokens none

/-- `TorchRejectionSamplerImpl.apply_sampling_constraints`. -/
def applySamplingConstraints (ops : TensorOps V K) (logits : List (Row V K))
    (cuNumDraftTokens : List Nat) (samplingMetadata : SamplingMetadata K) :
    List (Row V (WithBot K)) :=
  if samplingMetadata.allGreedy then logits.map fun row v => (row v : WithBot K)
  else
    let numTokens := logits.length
    let temperature := expandBatchToTokens (samplingMetadata.temperature.getD []) cuNumDraftTokens
      numTokens (greedyTemperature K) 1
    let logits := List.zipWith (fun row t v => row v / t) logits temperature
    let topK := rowParameters numTokens (samplingMetadata.topK.map fun topK =>
      expandBatchToTokens topK cuNumDraftTokens numTokens 0 0)
    let topP := rowParameters numTokens (samplingMetadata.topP.map fun topP =>
      expandBatchToTokens topP cuNumDraftTokens numTokens 0 0)
    List.zipWith (fun row filter => ops.applyTopKTopP row filter.1 filter.2) logits (topK.zip topP)

/-- `TorchRejectionSamplerImpl.rejection_sample`. -/
def torchImplRejectionSample (ops : TensorOps V K) (draftTokenIds : List Int)
    (numDraftTokens : List Nat) (maxSpecLen : Nat) (cuNumDraftTokens : List Nat)
    (draftProbs : Option (List (Row V K))) (targetLogits : List (Row V K))
    (bonusTokenIds : List Int) (samplingMetadata : SamplingMetadata K) (empty : Nat → Int)
    (uniform : List K) (q : List (Row V K)) (syntheticConditionalRates : Option (Nat → K)) :
    Option (List (List Int)) :=
  let targetLogits := applySamplingConstraints ops targetLogits cuNumDraftTokens samplingMetadata
  let targetProbs := targetLogits.map ops.softmax
  torchRejectionSample draftTokenIds numDraftTokens maxSpecLen cuNumDraftTokens draftProbs
    targetProbs bonusTokenIds samplingMetadata empty uniform q syntheticConditionalRates

/-! ### The compiled implementation -/

/-- A tensor of a fixed length. -/
abbrev Buffer (α : Type) (n : Nat) := { xs : List α // xs.length = n }

/-- `torch.full`. -/
def Buffer.full {α : Type} (n : Nat) (value : α) : Buffer α n :=
  ⟨List.replicate n value, List.length_replicate⟩

/-- `buffer[:len(xs)] = xs`. -/
def Buffer.fillFront {α : Type} {n : Nat} (buffer : Buffer α n) (xs : List α) : Buffer α n :=
  ⟨(xs ++ buffer.val.drop xs.length).take n, by
    have hLength := buffer.property
    rw [List.length_take, List.length_append, List.length_drop]
    omega⟩

/-- An entry of `_graph_input_buffers`. Left out are those that each step overwrites whole. -/
structure GraphInputBuffers (V : Nat) (K : Type) (bufLen : Nat) where
  draftTokenIds : Buffer Int bufLen
  targetLogits : Option (Buffer (Row V K) bufLen)

/-- One round of the loop that spreads the packed ids over the rows, on `draft_per_batch` and
`src_offset`. -/
def spreadStep (draftTokenIds : List Int) (acc : List (List Int) × Nat) (entry : Nat × Nat) :
    List (List Int) × Nat :=
  let n := entry.1
  let i := entry.2
  let srcOffset := acc.2
  if n = 0 then acc
  else
    (acc.1.modify i fun row => assign row 0 (slice draftTokenIds srcOffset n), srcOffset + n)

def spreadDrafts (draftTokenIds : List Int) (numDraftTokens : List Nat) (maxSpecLen : Nat) :
    List (List Int) :=
  let filled := List.replicate numDraftTokens.length
    (List.replicate maxSpecLen placeholderTokenId)
  (numDraftTokens.zipIdx.foldl (spreadStep draftTokenIds) (filled, 0)).1

def buildOpTopKTopP (samplingMetadata : SamplingMetadata K) (batchSize vocabSize : Nat) :
    Option (List Nat) × Option (List K) :=
  if samplingMetadata.allGreedy then (some (List.replicate batchSize greedyTopK), none)
  else
    let topK := samplingMetadata.topK
    let topP := samplingMetadata.topP
    if samplingMetadata.allRandom then (topK, topP)
    else
      let isGreedy := (samplingMetadata.temperature.getD []).map
        fun t => decide (t = greedyTemperature K)
      let topK := topK.getD (List.replicate batchSize vocabSize)
      (some (List.zipWith (fun greedy k => if greedy then greedyTopK else k) isGreedy topK), topP)

/-- The divisor of each padded row. -/
def rowTemperature (samplingMetadata : SamplingMetadata K) (batchSize maxSpecLen numTokens : Nat)
    (cuNumDraftTokens : List Nat) : List K :=
  let paddedLen := batchSize * maxSpecLen
  let ones := List.replicate paddedLen (1 : K)
  match samplingMetadata.temperature with
  | none => ones
  | some temperature =>
      if samplingMetadata.allGreedy then ones
      else
        let temperature :=
          if samplingMetadata.allRandom then temperature
          else temperature.map fun t => if t = greedyTemperature K then 1 else t
        if paddedLen = numTokens then temperature.flatMap fun t => List.replicate maxSpecLen t
        else
          assign ones 0 (expandBatchToTokens temperature cuNumDraftTokens numTokens 0 0)

/-- A request's row of the graph's output, its entries chosen by comparisons with the number of
accepted drafts. -/
def graphRow (maxSpecLen : Nat) (drafts recovered : List Int) (numAccepted numDrafts : Nat)
    (bonus : Int) : List Int :=
  let allAccepted := decide (numAccepted = numDrafts)
  let partiallyAccepted := decide (0 < numDrafts) && decide (numAccepted ≠ numDrafts)
  let accepted := (List.range maxSpecLen).map fun j =>
    if j < numAccepted then drafts.getD j placeholderTokenId else placeholderTokenId
  let head := (List.range maxSpecLen).map fun j =>
    if decide (j = numAccepted) && partiallyAccepted then recovered.getD j placeholderTokenId
    else accepted.getD j placeholderTokenId
  let out := head ++ [placeholderTokenId]
  (List.range (maxSpecLen + 1)).map fun j =>
    if allAccepted && decide (j = numDrafts) then bonus else out.getD j placeholderTokenId

/-- The compiled graph. -/
def rblnRejectionSample (ops : TensorOps V K) (draftTokenIds : List Int)
    (targetLogits : List (Row V K)) (cuNumDraftTokens : List Nat) (topK : Option (List Nat))
    (topP : Option (List K)) (temperature : List K) (draftPerBatch : List (List Int))
    (bonus : List Int) (numDraftTokens : List Nat) (maxSpecLen : Nat) : List (List Int) :=
  let targetLogits := List.zipWith (fun row t v => row v / t) targetLogits temperature
  let targetProbs := targetLogits.map fun row => ops.softmax fun v => (row v : WithBot K)
  let sampled := ops.rejectionSample draftTokenIds targetProbs cuNumDraftTokens topK topP
  (List.range numDraftTokens.length).map fun r =>
    graphRow maxSpecLen (draftPerBatch.getD r []) (sampled.1.getD r []) (sampled.2.getD r 0)
      (numDraftTokens.getD r 0) (bonus.getD r placeholderTokenId)

/-- `RBLNRejectionSamplerImpl.rejection_sample`. `graphInputBuffers` is the entry of the batch's
shape, none before its first step; `argmaxOp` is `torch.ops.rbln.argmax`. -/
def rblnImplRejectionSample (ops : TensorOps V K) (argmaxOp : Row V K → Int)
    (numSpecTokens : Nat) (draftTokenIds : List Int) (numDraftTokens : List Nat)
    (maxSpecLen : Nat) (cuNumDraftTokens : List Nat) (targetLogits : List (Row V K))
    (bonusTokenIds : Option (List Int)) (bonusLogits : Option (List (Row V K)))
    (samplingMetadata : SamplingMetadata K)
    (graphInputBuffers : Option
      (GraphInputBuffers V K (numDraftTokens.length * numSpecTokens))) :
    Option (List (List Int) × GraphInputBuffers V K (numDraftTokens.length * numSpecTokens)) :=
  if maxSpecLen > numSpecTokens then none
  else if draftTokenIds.any (· < 0) then none
  else if bonusTokenIds.isNone = bonusLogits.isNone then none
  else if targetLogits.length ≠ draftTokenIds.length then none
  else
    let maxSpecLen := numSpecTokens
    let batchSize := numDraftTokens.length
    let numTokens := draftTokenIds.length
    let paddedLen := batchSize * maxSpecLen
    let bufs := graphInputBuffers.getD ⟨Buffer.full _ 0, none⟩
    let reshapedDraftTokenIds := bufs.draftTokenIds.fillFront draftTokenIds
    let logitsBuffer := (bufs.targetLogits.getD (Buffer.full _ 0)).fillFront targetLogits
    let whole := decide (paddedLen = numTokens)
    let reshapedTargetLogits := if whole then targetLogits else logitsBuffer.val
    let draftPerBatch :=
      if whole then (List.range batchSize).map fun i => slice draftTokenIds (i * maxSpecLen) maxSpecLen
      else spreadDrafts draftTokenIds numDraftTokens maxSpecLen
    let filters := buildOpTopKTopP samplingMetadata batchSize V
    let temperature := rowTemperature samplingMetadata batchSize maxSpecLen numTokens
      cuNumDraftTokens
    let bonus := (bonusLogits.map (·.map argmaxOp)).getD (bonusTokenIds.getD [])
    some (rblnRejectionSample ops reshapedDraftTokenIds.val reshapedTargetLogits cuNumDraftTokens
        filters.1 filters.2 temperature draftPerBatch bonus numDraftTokens maxSpecLen,
      { draftTokenIds := reshapedDraftTokenIds
        targetLogits := if whole then bufs.targetLogits else some logitsBuffer })

/-! ### The batch through both -/

namespace Batch

/-- The step's batch through the host implementation, the drafts' targets being logits. -/
def torchImpl (ops : TensorOps V K) (batch : Batch V K) (empty : Nat → Int)
    (rates : Option (Nat → K)) : Option (List (List Int)) :=
  torchImplRejectionSample ops (batch.packed Draft.id) batch.numDraftTokens batch.maxSpecLen
    batch.cuNumDraftTokens batch.draftProbs (batch.packed Draft.target) batch.bonusTokenIds
    batch.samplingMetadata empty (batch.packed Draft.uniform) (batch.requests.map Request.q) rates

/-- The step's batch through the compiled implementation. -/
def rblnImpl (ops : TensorOps V K) (argmaxOp : Row V K → Int) (numSpecTokens : Nat)
    (batch : Batch V K) (bonusTokenIds : Option (List Int)) (bonusLogits : Option (List (Row V K)))
    (graphInputBuffers : Option
      (GraphInputBuffers V K (batch.numDraftTokens.length * numSpecTokens))) :
    Option (List (List Int) ×
      GraphInputBuffers V K (batch.numDraftTokens.length * numSpecTokens)) :=
  rblnImplRejectionSample ops argmaxOp numSpecTokens (batch.packed Draft.id) batch.numDraftTokens
    batch.maxSpecLen batch.cuNumDraftTokens (batch.packed Draft.target) bonusTokenIds bonusLogits
    batch.samplingMetadata graphInputBuffers

end Batch

/-- What is relied on of the operations. A greedy request has `top_k` 1; for it the accepted drafts
are the leading ones that the distributions' tops equal, and the tops are recovered, both read from
the request's own packed rows. -/
structure TensorOps.Lawful (ops : TensorOps V K) : Prop where
  softmax_lt : ∀ row v w, row v < row w → ops.softmax row v < ops.softmax row w
  keepsTop : ∀ row topK topP v, (∀ k ∈ topK, 0 < k) → IsTop row v →
    IsTop (ops.applyTopKTopP row topK topP) v
  greedy : ∀ draftTokenIds targetProbs cuNumDraftTokens topK topP r (tops : List (Fin V)),
    topK[r]? = some greedyTopK →
    (∀ id ∈ slice draftTokenIds ((startsOf cuNumDraftTokens).getD r 0) tops.length,
      inVocab V id = true) →
    (List.zipWith (· - ·) cuNumDraftTokens (startsOf cuNumDraftTokens)).getD r 0 = tops.length →
    List.Forall₂ IsTop
      (slice targetProbs ((startsOf cuNumDraftTokens).getD r 0) tops.length) tops →
    (ops.rejectionSample draftTokenIds targetProbs cuNumDraftTokens (some topK) topP).2.getD r 0 =
        (((slice draftTokenIds ((startsOf cuNumDraftTokens).getD r 0) tops.length).zip
          tops).takeWhile fun entry => decide (entry.1 = tokenId entry.2)).length ∧
      ∀ j top, tops[j]? = some top →
        ((ops.rejectionSample draftTokenIds targetProbs cuNumDraftTokens (some topK) topP).1.getD r
          []).getD j placeholderTokenId = tokenId top

omit [Field K] in
theorem argmax_of_isTop {row : Row V K} {v : Fin V} (hTop : IsTop row v) : argmax row = v := by
  have hSome : (List.finRange V).argmax row = some v := by
    rw [List.argmax_eq_some_iff]
    refine ⟨List.mem_finRange v, ?_, ?_⟩
    · intro w _
      by_cases hEq : w = v
      · rw [hEq]
      · exact (hTop w hEq).le
    · intro w _ hLe
      by_contra hLt
      have hNe : w ≠ v := fun hEq => hLt (hEq ▸ le_rfl)
      exact absurd (hTop w hNe) (not_lt.2 hLe)
  rw [argmax, hSome, Option.getD_some]

end Impl

/-! ### The host implementation's distributions -/

section Expansion

variable {V : Nat} {K : Type}

/-- A request's parameter spread over its drafts. -/
theorem Batch.expandBatchToTokens_eq {α : Type} [DecidableEq α] (value : Request V K → α)
    (batch : Batch V K) (replaceFrom replaceTo : α) :
    expandBatchToTokens (batch.requests.map value) batch.cuNumDraftTokens batch.numDraftTokens.sum
      replaceFrom replaceTo = batch.perDraft fun request _ =>
        if value request = replaceFrom then replaceTo else value request := by
  have hExpanded : repeatEach (batch.requests.map value)
      (List.zipWith (· - ·) batch.cuNumDraftTokens (startsOf batch.cuNumDraftTokens)) =
      batch.perDraft fun request _ => value request := by
    rw [Batch.cuNumDraftTokens, cumsum, startsOf, lengths_cumsumFrom, Batch.numDraftTokens, repeatEach_map]
    apply List.flatMap_congr
    intro request _
    rw [List.map_const']
    rfl
  have hReplaced : (if replaceFrom ≠ replaceTo then
      (batch.perDraft fun request _ => value request).map fun x =>
        if x = replaceFrom then replaceTo else x
      else batch.perDraft fun request _ => value request) = batch.perDraft fun request _ =>
        if value request = replaceFrom then replaceTo else value request := by
    split
    · exact Batch.map_perDraft _ _ batch
    · rename_i hSame
      have hSame := not_not.1 hSame
      apply congrArg fun f => batch.perDraft f
      funext request _
      split
      · rename_i hEq
        rw [hEq, hSame]
      · rfl
  rw [expandBatchToTokens, torchExpandKernel]
  simp only [hExpanded, hReplaced, Batch.length_perDraft, ne_eq, not_true, if_false]

theorem Batch.rowParameters_eq {α : Type} (used : Bool) (value : Request V K → α)
    (batch : Batch V K) :
    rowParameters batch.numDraftTokens.sum
      (if used then some (batch.perDraft fun request _ => value request) else none) =
      batch.perDraft fun request _ => if used then some (value request) else none := by
  cases used with
  | true => exact map_perDraft _ _ batch
  | false => exact replicate_perDraft _ batch

/-- A filter's parameter for each row. -/
theorem Batch.expandParameter_eq {α : Type} [DecidableEq α] (zero : α) (used : Bool)
    (value : Request V K → α) (batch : Batch V K) :
    rowParameters batch.numDraftTokens.sum
      ((if used then some (batch.requests.map value) else none).map fun values =>
        expandBatchToTokens values batch.cuNumDraftTokens batch.numDraftTokens.sum zero zero) =
      batch.perDraft fun request _ => if used then some (value request) else none := by
  have hExpanded : ((if used then some (batch.requests.map value) else none).map fun values =>
      expandBatchToTokens values batch.cuNumDraftTokens batch.numDraftTokens.sum zero zero) =
      if used then some (batch.perDraft fun request _ => value request) else none := by
    cases used with
    | true =>
        simp only [if_true, Option.map_some]
        rw [expandBatchToTokens_eq]
        apply congrArg fun f => some (batch.perDraft f)
        funext request _
        exact ite_eq_right_iff.2 fun hZero => hZero.symm
    | false => rfl
  rw [hExpanded, rowParameters_eq]

end Expansion

section Targets

variable {V : Nat} {K : Type}

/-- The request with other rows at its drafts. -/
def Request.withTargets (f : Draft V K → Row V K) (request : Request V K) : Request V K :=
  { request with drafts := request.drafts.map fun draft => { draft with target := f draft } }

namespace Batch

def withTargets (f : Request V K → Draft V K → Row V K) (batch : Batch V K) : Batch V K :=
  { batch with
    requests := batch.requests.map fun request => request.withTargets (f request)
    nonempty := by
      intro hNil
      exact batch.nonempty (List.map_eq_nil_iff.1 hNil) }

theorem count_withTargets (f : Draft V K → Row V K) (request : Request V K) :
    (request.withTargets f).count = request.count :=
  List.length_map _

theorem map_withTargets {α : Type} (f : Request V K → Draft V K → Row V K)
    {g : Request V K → α} (hSame : ∀ f request, g (Request.withTargets f request) = g request)
    (batch : Batch V K) : (batch.withTargets f).requests.map g = batch.requests.map g := by
  rw [withTargets, List.map_map]
  apply List.map_congr_left
  intro request _
  exact hSame _ _

theorem packed_withTargets {α : Type} (f : Request V K → Draft V K → Row V K) (g : Draft V K → α)
    (batch : Batch V K) :
    (batch.withTargets f).packed g =
      batch.perDraft fun request draft => g { draft with target := f request draft } := by
  rw [packed, withTargets, List.flatMap_map]
  apply List.flatMap_congr
  intro request _
  exact List.map_map

theorem numDraftTokens_withTargets (f : Request V K → Draft V K → Row V K) (batch : Batch V K) :
    (batch.withTargets f).numDraftTokens = batch.numDraftTokens :=
  map_withTargets f count_withTargets batch

variable [Field K] [LinearOrder K]

theorem samplingMetadata_withTargets (f : Request V K → Draft V K → Row V K) (batch : Batch V K) :
    (batch.withTargets f).samplingMetadata = batch.samplingMetadata := by
  have hGreedy : (batch.withTargets f).requests.all Request.greedy =
      batch.requests.all Request.greedy := by
    rw [withTargets, List.all_map]
    rfl
  have hRandom : (batch.withTargets f).requests.all (!Request.greedy ·) =
      batch.requests.all (!Request.greedy ·) := by
    rw [withTargets, List.all_map]
    rfl
  have hTemperature := map_withTargets f (g := Request.temperature) (fun _ _ => rfl) batch
  have hTopK := map_withTargets f (g := (·.topK.val)) (fun _ _ => rfl) batch
  have hTopP := map_withTargets f (g := Request.topP) (fun _ _ => rfl) batch
  rw [samplingMetadata, hGreedy, hRandom, hTemperature, hTopK, hTopP]
  rfl

end Batch

end Targets

section Proofs

variable {V : Nat} [NeZero V] {K : Type} [Field K] [LinearOrder K]

namespace Batch

variable {batch : Batch V K} {request : Request V K} {r : Nat}

/-- A draft's logits behind the sampling constraints of its request. -/
def constrainedLogits (ops : TensorOps V K) (batch : Batch V K) (request : Request V K)
    (draft : Draft V K) : Row V (WithBot K) :=
  if batch.requests.all Request.greedy then fun v => (draft.target v : WithBot K)
  else
    ops.applyTopKTopP (fun v => draft.target v / if request.greedy then 1 else request.temperature)
      (if batch.withTopK then some request.topK.val else none)
      (if batch.withTopP then some request.topP else none)

omit [NeZero V] in
theorem applySamplingConstraints_eq (ops : TensorOps V K) (batch : Batch V K) :
    applySamplingConstraints ops (batch.packed Draft.target) batch.cuNumDraftTokens
      batch.samplingMetadata = batch.perDraft (batch.constrainedLogits ops) := by
  rw [applySamplingConstraints]
  cases hGreedy : batch.samplingMetadata.allGreedy with
  | true =>
      have hAll : batch.requests.all Request.greedy = true := hGreedy
      rw [if_pos rfl, map_packed]
      apply congrArg fun f => batch.perDraft f
      funext request draft v
      rw [constrainedLogits, if_pos hAll]
  | false =>
      have hAll : batch.requests.all Request.greedy = false := hGreedy
      have hTemperature : batch.samplingMetadata.temperature =
          some (batch.requests.map Request.temperature) := by
        simp only [samplingMetadata, hAll, Bool.false_eq_true, if_false]
      have hTopK : batch.samplingMetadata.topK =
          if batch.withTopK then some (batch.requests.map (·.topK.val)) else none := rfl
      have hTopP : batch.samplingMetadata.topP =
          if batch.withTopP then some (batch.requests.map Request.topP) else none := rfl
      simp only [Bool.false_eq_true, if_false, length_packed, hTemperature, Option.getD_some, hTopK,
        hTopP, expandParameter_eq, expandBatchToTokens_eq]
      have hTarget : batch.packed Draft.target = batch.perDraft fun _ draft => draft.target := rfl
      rw [hTarget, zipWith_perDraft, List.zip, zipWith_perDraft, zipWith_perDraft]
      apply congrArg fun f => batch.perDraft f
      funext request draft
      rw [constrainedLogits, hAll, Request.greedy]
      simp

/-- The distributions that the host implementation samples from. -/
def constrained (ops : TensorOps V K) (batch : Batch V K) : Batch V K :=
  batch.withTargets fun request draft => ops.softmax (batch.constrainedLogits ops request draft)

omit [NeZero V] in
theorem maxSpecLen_constrained (ops : TensorOps V K) (batch : Batch V K) :
    (batch.constrained ops).maxSpecLen = batch.maxSpecLen :=
  congrArg (List.foldl max 0) (numDraftTokens_withTargets _ batch)

theorem torchImpl_eq (ops : TensorOps V K) (batch : Batch V K) (empty : Nat → Int)
    (rates : Option (Nat → K)) :
    batch.torchImpl ops empty rates = (batch.constrained ops).torchRejectionSample empty rates := by
  have hCounts : (batch.constrained ops).numDraftTokens = batch.numDraftTokens :=
    numDraftTokens_withTargets _ batch
  have hTotals : (batch.constrained ops).cuNumDraftTokens = batch.cuNumDraftTokens := by
    rw [cuNumDraftTokens, hCounts, cuNumDraftTokens]
  have hIds : (batch.constrained ops).packed Draft.id = batch.packed Draft.id :=
    packed_withTargets _ Draft.id batch
  have hUniform : (batch.constrained ops).packed Draft.uniform = batch.packed Draft.uniform :=
    packed_withTargets _ Draft.uniform batch
  have hDraftProbs : (batch.constrained ops).draftProbs = batch.draftProbs := by
    have hPacked : (batch.constrained ops).packed Draft.draftProbs = batch.packed Draft.draftProbs :=
      packed_withTargets _ Draft.draftProbs batch
    rw [draftProbs, hPacked]
    rfl
  have hTarget : (batch.constrained ops).packed Draft.target =
      (batch.perDraft (batch.constrainedLogits ops)).map ops.softmax := by
    rw [map_perDraft]
    exact packed_withTargets _ Draft.target batch
  have hBonus : (batch.constrained ops).bonusTokenIds = batch.bonusTokenIds :=
    map_withTargets _ (fun _ _ => rfl) batch
  have hQ : (batch.constrained ops).requests.map Request.q = batch.requests.map Request.q :=
    map_withTargets _ (fun _ _ => rfl) batch
  have hMetadata : (batch.constrained ops).samplingMetadata = batch.samplingMetadata :=
    samplingMetadata_withTargets _ batch
  rw [torchImpl, torchImplRejectionSample, applySamplingConstraints_eq, torchRejectionSample,
    hCounts, maxSpecLen_constrained, hTotals, hIds, hUniform, hDraftProbs, hTarget, hBonus, hQ, hMetadata]

omit [NeZero V] in
/-- The constraints leave the top of a greedy request's logits on top. -/
theorem constrained_isTop {ops : TensorOps V K} (hOps : ops.Lawful) (hGreedy : request.greedy = true)
    {draft : Draft V K} {v : Fin V} (hTop : IsTop draft.target v) :
    IsTop (ops.softmax (batch.constrainedLogits ops request draft)) v := by
  have hConstrained : IsTop (batch.constrainedLogits ops request draft) v := by
    rw [constrainedLogits]
    split
    · intro w hNe
      exact WithBot.coe_lt_coe.2 (hTop w hNe)
    · apply hOps.keepsTop
      · intro k hk
        cases hUsed : batch.withTopK with
        | true =>
            rw [hUsed] at hk
            cases hk
            exact request.topK.property
        | false =>
            rw [hUsed] at hk
            cases hk
      · simpa using hTop
  intro w hNe
  exact hOps.softmax_lt _ w v (hConstrained w hNe)

/-- The host implementation's row of a greedy request. -/
theorem torchImpl_row {ops : TensorOps V K} (hOps : ops.Lawful) (empty : Nat → Int)
    (hRow : batch.requests[r]? = some request) (hGreedy : request.greedy = true)
    (hUnique : ∀ draft ∈ request.drafts, ∃ v, IsTop draft.target v) :
    ∃ rows, batch.torchImpl ops empty none = some rows ∧
      rows[r]? = some (padTo placeholderTokenId (batch.maxSpecLen + 1) request.targetChoices) := by
  refine ⟨_, (torchImpl_eq ops batch empty none).trans (torchRejectionSample_eq _ empty none), ?_⟩
  have hConstrained : (batch.constrained ops).requests[r]? = some (request.withTargets fun draft =>
      ops.softmax (batch.constrainedLogits ops request draft)) := by
    rw [constrained, withTargets, List.getElem?_map, hRow]
    rfl
  have hKind : (request.withTargets fun draft =>
      ops.softmax (batch.constrainedLogits ops request draft)).greedy = true := hGreedy
  rw [List.getElem?_map, hConstrained, Option.map_some, sampledRow, maxSpecLen_constrained,
    Request.sampled_eq_targetChoices hKind, Request.targetChoices, Request.withTargets, verified_map]
  apply congrArg fun row => some (padTo placeholderTokenId (batch.maxSpecLen + 1) row)
  have hArgmax : ∀ draft ∈ request.drafts,
      argmax (ops.softmax (batch.constrainedLogits ops request draft)) = argmax draft.target := by
    intro draft hMem
    obtain ⟨v, hTop⟩ := hUnique draft hMem
    rw [argmax_of_isTop hTop, argmax_of_isTop (constrained_isTop hOps hGreedy hTop)]
  apply verified_congr
  · intro draft hMem
    rw [hArgmax draft hMem]
  · intro draft _ _
    rfl
  · intro draft hMem _
    rw [hArgmax draft hMem]

end Batch

end Proofs

/-! ### The compiled implementation's inputs -/

theorem Buffer.fillFront_val {α : Type} {n : Nat} (buffer : Buffer α n) {xs : List α}
    (hFit : xs.length ≤ n) : (buffer.fillFront xs).val = xs ++ buffer.val.drop xs.length := by
  have hLength := buffer.property
  apply List.take_of_length_le
  rw [List.length_append, List.length_drop]
  omega

section Inputs

variable {V : Nat} {K : Type}

namespace Batch

variable {batch : Batch V K} {request : Request V K} {r numSpecTokens : Nat}

/-- No request has more drafts than a row of the graph has room for. -/
def Fits (batch : Batch V K) (numSpecTokens : Nat) : Prop :=
  ∀ request ∈ batch.requests, request.count ≤ numSpecTokens

theorem Fits.maxSpecLen_le (hFits : batch.Fits numSpecTokens) : batch.maxSpecLen ≤ numSpecTokens := by
  apply foldl_max_le (Nat.zero_le _)
  intro count hMem
  obtain ⟨request, hRequest, rfl⟩ := List.mem_map.1 hMem
  exact hFits request hRequest

theorem sum_le_of_fits {requests : List (Request V K)}
    (hFits : ∀ request ∈ requests, request.count ≤ numSpecTokens) :
    (requests.map Request.count).sum ≤ requests.length * numSpecTokens := by
  induction requests with
  | nil => exact Nat.zero_le _
  | cons request requests ih =>
      have hRest := ih fun request hMem => hFits request (List.mem_cons_of_mem _ hMem)
      have hFirst := hFits request List.mem_cons_self
      rw [List.map_cons, List.sum_cons, List.length_cons, Nat.succ_mul]
      omega

theorem offset_add_le_padded (hFits : batch.Fits numSpecTokens)
    (hRow : batch.requests[r]? = some request) :
    offset Request.count batch.requests r + request.count ≤
      batch.requests.length * numSpecTokens :=
  (offset_add_le hRow).trans (sum_le_of_fits hFits)

/-- Packed inputs that fill the graph's are full in every row. -/
theorem full_of_sum {requests : List (Request V K)}
    (hFits : ∀ request ∈ requests, request.count ≤ numSpecTokens)
    (hSum : requests.length * numSpecTokens = (requests.map Request.count).sum) :
    ∀ request ∈ requests, request.count = numSpecTokens := by
  induction requests with
  | nil =>
      intro request hMem
      cases hMem
  | cons request requests ih =>
      have hRest := fun request hMem => hFits request (List.mem_cons_of_mem _ hMem)
      have hFirst := hFits request List.mem_cons_self
      have hLe := sum_le_of_fits hRest
      rw [List.map_cons, List.sum_cons, List.length_cons, Nat.succ_mul] at hSum
      intro other hMem
      rcases List.mem_cons.1 hMem with rfl | hMem
      · omega
      · exact ih hRest (by omega) other hMem

theorem offset_full {requests : List (Request V K)}
    (hFull : ∀ request ∈ requests, request.count = numSpecTokens) (hLe : r ≤ requests.length) :
    offset Request.count requests r = r * numSpecTokens := by
  rw [offset, List.map_congr_left (g := fun _ => numSpecTokens)]
  · rw [List.map_const', List.sum_replicate, List.length_take, Nat.min_eq_left hLe]
    rfl
  · intro request hMem
    exact hFull request (List.mem_of_mem_take hMem)

/-- A request's drafts in its row of the graph's input. -/
def draftRow (numSpecTokens : Nat) (request : Request V K) : List Int :=
  padTo placeholderTokenId numSpecTokens (request.drafts.map Draft.id)

theorem view_eq (hFits : batch.Fits numSpecTokens)
    (hSum : batch.requests.length * numSpecTokens = batch.numDraftTokens.sum) :
    ((List.range batch.requests.length).map fun i =>
      slice (batch.packed Draft.id) (i * numSpecTokens) numSpecTokens) =
      batch.requests.map (draftRow numSpecTokens) := by
  have hFull := full_of_sum hFits hSum
  apply map_range_rows
  intro r request hRow
  have hCount := hFull request (List.mem_of_getElem? hRow)
  have hSlice := slice_perDraft (fun _ => Draft.id) hRow
  rw [offset_full hFull (lt_of_row hRow).le, hCount] at hSlice
  rw [draftRow, padTo, List.length_map, ← Request.count, hCount, Nat.sub_self, List.replicate_zero,
    List.append_nil]
  exact hSlice

theorem spreadStep_row (numSpecTokens : Nat) {ids : List Int} (front back : List (List Int))
    {src : Nat} (hSlice : slice ids src request.count = request.drafts.map Draft.id) :
    spreadStep ids (front ++ List.replicate numSpecTokens placeholderTokenId :: back, src)
        (request.count, front.length) =
      (front ++ draftRow numSpecTokens request :: back, src + request.count) := by
  rw [spreadStep]
  split
  · rename_i hNone
    have hNil : request.drafts = [] := List.length_eq_zero_iff.1 hNone
    have hBlank : draftRow numSpecTokens request =
        List.replicate numSpecTokens placeholderTokenId := by
      rw [draftRow, hNil]
      rfl
    have hZero : request.count = 0 := hNone
    rw [hBlank, hZero, Nat.add_zero]
  · rw [modify_append, hSlice, assign_replicate]
    rfl

/-- The loop behind some rows: those are spread, the others still blank. -/
theorem spread_loop (numSpecTokens : Nat) (ids : List Int) (done rest : List (Request V K))
    (hIds : ids = (done ++ rest).flatMap fun request => request.drafts.map Draft.id) :
    (((rest.map Request.count).zipIdx done.length).foldl (spreadStep ids)
      (done.map (draftRow numSpecTokens) ++
        rest.map (fun _ => List.replicate numSpecTokens placeholderTokenId),
        (done.map Request.count).sum)).1 = (done ++ rest).map (draftRow numSpecTokens) := by
  induction rest generalizing done with
  | nil => simp
  | cons request rest ih =>
      have hSplit : done ++ request :: rest = (done ++ [request]) ++ rest := by simp
      have hNext := ih (done ++ [request]) (by rw [hIds, hSplit])
      have hSlice : slice ids (done.map Request.count).sum request.count =
          request.drafts.map Draft.id := by
        have hRow : (done ++ request :: rest)[done.length]? = some request := by simp
        have hOffset : offset Request.count (done ++ request :: rest) done.length =
            (done.map Request.count).sum := by
          rw [offset, List.take_left]
        rw [hIds, ← hOffset]
        apply slice_flatMap _ hRow
        intro request _
        exact List.length_map _
      have hStep := spreadStep_row numSpecTokens (done.map (draftRow numSpecTokens))
        (rest.map fun _ => List.replicate numSpecTokens placeholderTokenId) hSlice
      rw [List.length_map] at hStep
      simp only [List.map_cons, List.zipIdx_cons, List.foldl_cons, hStep]
      simp only [List.map_append, List.map_cons, List.map_nil, List.sum_append, List.sum_cons,
        List.sum_nil, List.length_append, List.length_singleton, List.append_assoc,
        List.singleton_append, Nat.add_zero] at hNext
      rw [hNext, List.map_append, List.map_cons]

theorem spreadDrafts_eq (batch : Batch V K) (numSpecTokens : Nat) :
    spreadDrafts (batch.packed Draft.id) batch.numDraftTokens numSpecTokens =
      batch.requests.map (draftRow numSpecTokens) := by
  have hLoop := spread_loop numSpecTokens (batch.packed Draft.id) [] batch.requests rfl
  rw [List.map_const', List.map_nil, List.nil_append] at hLoop
  rw [spreadDrafts, numDraftTokens, List.length_map]
  exact hLoop

end Batch

end Inputs

section Graph

variable {V : Nat} {K : Type} [Field K] [LinearOrder K]

namespace Batch

variable {batch : Batch V K} {request : Request V K} {r numSpecTokens : Nat}

theorem not_allRandom (hRow : batch.requests[r]? = some request) (hGreedy : request.greedy = true) :
    batch.samplingMetadata.allRandom = false := by
  apply List.all_eq_false.2
  refine ⟨request, List.mem_of_getElem? hRow, ?_⟩
  rw [hGreedy]
  exact Bool.false_ne_true

/-- A greedy request's rows are divided by 1. -/
theorem rowTemperature_greedy (hFits : batch.Fits numSpecTokens)
    (hRow : batch.requests[r]? = some request) (hGreedy : request.greedy = true) :
    slice (rowTemperature batch.samplingMetadata batch.requests.length numSpecTokens
      batch.numDraftTokens.sum batch.cuNumDraftTokens) (offset Request.count batch.requests r)
      request.count = request.drafts.map fun _ => 1 := by
  have hOnes : slice (List.replicate (batch.requests.length * numSpecTokens) (1 : K))
      (offset Request.count batch.requests r) request.count = request.drafts.map fun _ => 1 := by
    rw [slice_replicate (offset_add_le_padded hFits hRow), List.map_const']
    rfl
  have hRandom := not_allRandom hRow hGreedy
  have hZero : request.temperature = greedyTemperature K := of_decide_eq_true hGreedy
  rw [rowTemperature]
  cases hTemperature : batch.samplingMetadata.temperature with
  | none => exact hOnes
  | some temperature =>
      have hList : temperature = batch.requests.map Request.temperature := by
        rw [samplingMetadata] at hTemperature
        split at hTemperature
        · cases hTemperature
        · exact (Option.some.inj hTemperature).symm
      simp only [hRandom, Bool.false_eq_true, if_false, hList, List.map_map]
      split
      · exact hOnes
      split
      · rename_i hWhole
        have hFull := full_of_sum hFits hWhole
        rw [List.flatMap_map, slice_flatMap _ hRow]
        · rw [Function.comp_apply, if_pos hZero, List.map_const', ← hFull request
            (List.mem_of_getElem? hRow)]
          rfl
        · intro request hMem
          rw [List.length_replicate, hFull request hMem]
      · rw [expandBatchToTokens_eq, assign, List.take_zero, List.nil_append, slice_append,
          slice_perDraft _ hRow]
        · apply List.map_congr_left
          intro draft _
          rw [Function.comp_apply, if_pos hZero, if_neg one_ne_zero]
        · rw [length_perDraft]
          exact offset_add_le hRow

/-- A greedy request is encoded by its `top_k`. -/
theorem buildOpTopKTopP_greedy (hRow : batch.requests[r]? = some request)
    (hGreedy : request.greedy = true) :
    ∃ topK, (buildOpTopKTopP batch.samplingMetadata batch.requests.length V).1 = some topK ∧
      topK[r]? = some greedyTopK := by
  have hLt := lt_of_row hRow
  have hRandom := not_allRandom hRow hGreedy
  rw [buildOpTopKTopP]
  split
  · refine ⟨_, rfl, ?_⟩
    rw [List.getElem?_replicate, if_pos hLt]
  · rename_i hMixed
    have hTemperature : batch.samplingMetadata.temperature =
        some (batch.requests.map Request.temperature) := if_neg hMixed
    rw [hRandom]
    refine ⟨_, rfl, ?_⟩
    have hMask : ((batch.samplingMetadata.temperature.getD []).map fun t =>
        decide (t = greedyTemperature K))[r]? = some true := by
      rw [hTemperature, Option.getD_some, List.map_map, List.getElem?_map, hRow, ← hGreedy]
      rfl
    have hTopK : ∃ k, (batch.samplingMetadata.topK.getD
        (List.replicate batch.requests.length V))[r]? = some k := by
      rw [samplingMetadata]
      cases batch.withTopK with
      | true => exact ⟨_, by simp [hRow]; rfl⟩
      | false => exact ⟨V, by simp [hLt]⟩
    obtain ⟨k, hk⟩ := hTopK
    rw [List.getElem?_zipWith, hMask, hk]
    rfl

variable [NeZero V]

omit [Field K] [LinearOrder K] [NeZero V] in
/-- The comparisons give the accepted drafts, then the recovered or the bonus token. -/
theorem graphRow_eq {accepts : Draft V K → Bool} {repair : Draft V K → Int} {recovered : List Int}
    {drafts : List (Draft V K)} {bonus : Int} {m : Nat} (hFit : drafts.length ≤ numSpecTokens)
    (hKept : m = (drafts.takeWhile accepts).length)
    (hRecovered : ∀ j draft, drafts[j]? = some draft →
      recovered.getD j placeholderTokenId = repair draft) :
    graphRow numSpecTokens (padTo placeholderTokenId numSpecTokens (drafts.map Draft.id)) recovered
        m drafts.length bonus =
      padTo placeholderTokenId (numSpecTokens + 1)
        (verified accepts Draft.id repair bonus drafts) := by
  have hLe : m ≤ drafts.length := by
    rw [hKept]
    exact (List.takeWhile_prefix accepts).length_le
  have hWidth : (verified accepts Draft.id repair bonus drafts).length ≤ numSpecTokens + 1 :=
    length_verified_le.trans (Nat.succ_le_succ hFit)
  apply List.ext_getElem?
  intro j
  by_cases hj : j ≤ numSpecTokens
  · rw [padTo_verified_getElem? hFit hj hKept, graphRow, List.getElem?_map,
      List.getElem?_range (Nat.lt_succ_of_le hj), Option.map_some]
    apply congrArg some
    simp only [getD_append_singleton, getD_map_range]
    rcases Nat.lt_trichotomy j m with hBefore | rfl | hBehind
    · have hNot : j ≠ drafts.length := by omega
      have hInside : j < numSpecTokens := by omega
      simp only [hNot, hBefore, hBefore.ne, hInside, decide_false, Bool.and_false, Bool.false_and,
        Bool.false_eq_true, if_false, if_true]
      rw [List.getD_eq_getElem?_getD, padTo_getElem?, List.getElem?_map]
      rw [List.length_map]
      omega
    · simp only [Nat.lt_irrefl, if_false, if_true]
      by_cases hAll : j = drafts.length
      · subst hAll
        simp
      · have hLt : j < drafts.length := by omega
        have hInside : j < numSpecTokens := by omega
        have hSome : 0 < drafts.length := by omega
        have hGet := List.getElem?_eq_getElem hLt
        simp only [hAll, hInside, hSome, decide_false, decide_true, Bool.and_self,
          Bool.false_eq_true, if_false, if_true, ne_eq, not_false_eq_true]
        rw [hRecovered j _ hGet, hGet]
        rfl
    · have hNot : ¬ (m = drafts.length ∧ j = drafts.length) := by omega
      have hKeptNot : ¬ j < m := by omega
      simp only [hKeptNot, hBehind.ne', decide_false, Bool.false_and, Bool.false_eq_true, if_false,
        ite_self]
      rw [if_neg]
      simpa using hNot
  · rw [List.getElem?_eq_none, List.getElem?_eq_none]
    · rw [padTo_length hWidth]
      omega
    · rw [graphRow, List.length_map, List.length_range]
      omega

/-- The graph's row of a greedy request, from what its inputs hold in the request's rows. -/
theorem rblnRejectionSample_row {ops : TensorOps V K} (hOps : ops.Lawful)
    (hRow : batch.requests[r]? = some request) (hFits : batch.Fits numSpecTokens)
    (hUnique : ∀ draft ∈ request.drafts, ∃ v, IsTop draft.target v)
    (hVocab : ∀ draft ∈ request.drafts, inVocab V draft.id = true)
    {draftTokenIds bonus : List Int} {targetLogits : List (Row V K)} {topK : List Nat}
    {topP : Option (List K)} {temperature : List K}
    (hIds : slice draftTokenIds (offset Request.count batch.requests r) request.count =
      request.drafts.map Draft.id)
    (hLogits : slice targetLogits (offset Request.count batch.requests r) request.count =
      request.drafts.map Draft.target)
    (hTemperature : slice temperature (offset Request.count batch.requests r) request.count =
      request.drafts.map fun _ => 1)
    (hTopK : topK[r]? = some greedyTopK)
    (hBonus : bonus.getD r placeholderTokenId = request.bonusTokenId) :
    (rblnRejectionSample ops draftTokenIds targetLogits batch.cuNumDraftTokens (some topK) topP
      temperature (batch.requests.map (draftRow numSpecTokens)) bonus batch.numDraftTokens
      numSpecTokens)[r]? =
      some (padTo placeholderTokenId (numSpecTokens + 1) request.targetChoices) := by
  have hFit := hFits request (List.mem_of_getElem? hRow)
  have hCount : batch.numDraftTokens.getD r 0 = request.count := by
    rw [List.getD_eq_getElem?_getD, numDraftTokens, List.getElem?_map, hRow]
    rfl
  have hDrafts : (batch.requests.map (draftRow numSpecTokens)).getD r [] =
      draftRow numSpecTokens request := by
    rw [List.getD_eq_getElem?_getD, List.getElem?_map, hRow]
    rfl
  let tops : List (Fin V) := request.drafts.map fun draft => argmax draft.target
  have hTops : tops.length = request.count := List.length_map _
  let probs : List (Row V K) :=
    (List.zipWith (fun row t v => row v / t) targetLogits temperature).map fun row =>
      ops.softmax fun v => (row v : WithBot K)
  have hProbs : List.Forall₂ IsTop
      (slice probs (offset Request.count batch.requests r) request.count) tops := by
    rw [slice_map, slice_zipWith, hLogits, hTemperature, List.zipWith_map, List.zipWith_self,
      List.map_map, List.forall₂_map_left_iff, List.forall₂_map_right_iff, List.forall₂_same]
    intro draft hMem w hNe
    obtain ⟨v, hTop⟩ := hUnique draft hMem
    have hEq := argmax_of_isTop hTop
    rw [hEq] at hNe ⊢
    apply hOps.softmax_lt
    apply WithBot.coe_lt_coe.2
    show draft.target w / 1 < draft.target v / 1
    rw [div_one, div_one]
    exact hTop w hNe
  have hStart := start_getD hRow
  have hSampled := hOps.greedy draftTokenIds probs batch.cuNumDraftTokens topK topP r tops hTopK
    (by
      rw [hStart, hTops, hIds]
      intro id hMem
      obtain ⟨draft, hDraft, rfl⟩ := List.mem_map.1 hMem
      exact hVocab draft hDraft)
    (by rw [lens_getD hRow, hTops])
    (by rwa [hStart, hTops])
  rw [hStart, hTops, hIds] at hSampled
  obtain ⟨hAccepted, hRecovered⟩ := hSampled
  have hKept : (((request.drafts.map Draft.id).zip tops).takeWhile fun entry =>
      decide (entry.1 = tokenId entry.2)).length =
      (request.drafts.takeWhile fun draft =>
        decide (draft.id = tokenId (argmax draft.target))).length := by
    rw [List.zip_map', List.takeWhile_map, List.length_map]
    rfl
  rw [hKept] at hAccepted
  have hLt : r < batch.numDraftTokens.length := by
    rw [numDraftTokens, List.length_map]
    exact lt_of_row hRow
  rw [rblnRejectionSample, List.getElem?_map, List.getElem?_range hLt, Option.map_some, hCount,
    hDrafts, hBonus, Request.targetChoices]
  apply congrArg some
  apply graphRow_eq hFit hAccepted
  intro j draft hDraft
  apply hRecovered j
  rw [List.getElem?_map, hDraft]
  rfl

/-- Both implementations are given the same bonus tokens, the compiled one as ids or as logits. -/
def SameBonus (batch : Batch V K) (argmaxOp : Row V K → Int) (bonusTokenIds : Option (List Int))
    (bonusLogits : Option (List (Row V K))) : Prop :=
  (bonusTokenIds = some batch.bonusTokenIds ∧ bonusLogits = none) ∨
    (bonusTokenIds = none ∧ bonusLogits.map (·.map argmaxOp) = some batch.bonusTokenIds)

/-- The compiled implementation's row of a greedy request, whatever earlier steps left in the
buffers. -/
theorem rblnImpl_row {ops : TensorOps V K} (hOps : ops.Lawful) {argmaxOp : Row V K → Int}
    (hFits : batch.Fits numSpecTokens)
    (hVocab : ∀ request ∈ batch.requests, ∀ draft ∈ request.drafts, inVocab V draft.id = true)
    {bonusTokenIds : Option (List Int)} {bonusLogits : Option (List (Row V K))}
    (hBonus : batch.SameBonus argmaxOp bonusTokenIds bonusLogits)
    (graphInputBuffers : Option
      (GraphInputBuffers V K (batch.numDraftTokens.length * numSpecTokens))) :
    ∃ rows bufs, batch.rblnImpl ops argmaxOp numSpecTokens bonusTokenIds bonusLogits
        graphInputBuffers = some (rows, bufs) ∧
      rows.length = batch.requests.length ∧
      ∀ (r : Nat) (request : Request V K), batch.requests[r]? = some request →
        request.greedy = true →
        (∀ draft ∈ request.drafts, ∃ v, IsTop draft.target v) →
        rows[r]? = some (padTo placeholderTokenId (numSpecTokens + 1) request.targetChoices) := by
  have hMax : ¬ batch.maxSpecLen > numSpecTokens := not_lt.2 hFits.maxSpecLen_le
  have hReal : ¬ ((batch.packed Draft.id).any fun id => decide (id < 0)) = true := by
    intro hAny
    obtain ⟨id, hMem, hNegative⟩ := List.any_eq_true.1 hAny
    obtain ⟨request, hRequest, hId⟩ := List.mem_flatMap.1 hMem
    obtain ⟨draft, hDraft, rfl⟩ := List.mem_map.1 hId
    have hInside := hVocab request hRequest draft hDraft
    rw [inVocab, Bool.and_eq_true] at hInside
    exact absurd (of_decide_eq_true hInside.1) (not_le.2 (of_decide_eq_true hNegative))
  have hShape : ¬ (batch.packed Draft.target).length ≠ (batch.packed Draft.id).length := by
    rw [length_packed, length_packed]
    exact not_not.2 rfl
  have hSize : batch.numDraftTokens.length = batch.requests.length := List.length_map _
  have hIds : (batch.packed Draft.id).length ≤ batch.numDraftTokens.length * numSpecTokens := by
    rw [length_packed, hSize]
    exact sum_le_of_fits hFits
  have hLogits : (batch.packed Draft.target).length ≤
      batch.numDraftTokens.length * numSpecTokens := by
    rwa [not_not.1 hShape]
  have hOne : ¬ bonusTokenIds.isNone = bonusLogits.isNone := by
    rcases hBonus with ⟨rfl, rfl⟩ | ⟨rfl, hSame⟩
    · exact Bool.false_ne_true
    · cases bonusLogits with
      | none => cases hSame
      | some logits => exact Bool.false_ne_true.symm
  have hBonusIds : (bonusLogits.map (·.map argmaxOp)).getD (bonusTokenIds.getD []) =
      batch.bonusTokenIds := by
    rcases hBonus with ⟨rfl, rfl⟩ | ⟨rfl, hSame⟩
    · rfl
    · rw [hSame, Option.getD_some]
  have hPerBatch : (if decide (batch.numDraftTokens.length * numSpecTokens =
        (batch.packed Draft.id).length) then
        (List.range batch.numDraftTokens.length).map fun i =>
          slice (batch.packed Draft.id) (i * numSpecTokens) numSpecTokens
      else spreadDrafts (batch.packed Draft.id) batch.numDraftTokens numSpecTokens) =
      batch.requests.map (draftRow numSpecTokens) := by
    rw [length_packed, hSize]
    split
    · rename_i hWhole
      exact view_eq hFits (of_decide_eq_true hWhole)
    · exact spreadDrafts_eq batch numSpecTokens
  unfold rblnImpl rblnImplRejectionSample
  rw [if_neg hMax, if_neg hReal, if_neg hOne, if_neg hShape]
  simp only [hPerBatch, hBonusIds]
  refine ⟨_, _, rfl, ?_, ?_⟩
  · rw [rblnRejectionSample, List.length_map, List.length_range, hSize]
  intro r request hRow hGreedy hUnique
  obtain ⟨topK, hTopK, hEncoded⟩ := buildOpTopKTopP_greedy hRow hGreedy
  rw [← hSize] at hTopK
  rw [hTopK]
  apply rblnRejectionSample_row hOps hRow hFits hUnique
    (hVocab request (List.mem_of_getElem? hRow)) _ _ _ hEncoded (bonus_getD hRow)
  · rw [Buffer.fillFront_val _ hIds, slice_append]
    · exact slice_perDraft (fun _ => Draft.id) hRow
    · rw [length_packed]
      exact offset_add_le hRow
  · split
    · exact slice_perDraft (fun _ => Draft.target) hRow
    · rw [Buffer.fillFront_val _ hLogits, slice_append]
      · exact slice_perDraft (fun _ => Draft.target) hRow
      · rw [length_packed]
        exact offset_add_le hRow
  · rw [length_packed, hSize]
    exact rowTemperature_greedy hFits hRow hGreedy

end Batch

/-- The host path samples, of any drafts, an accepted prefix and one token more, all real tokens
where the bonus is one; a greedy row holds the target's own choices. Of drafts inside the vocabulary
the compiled path makes the same greedy rows, padded to its own width. -/
theorem rejectionSample_exact [NeZero V] (ops : TensorOps V K) (hOps : ops.Lawful)
    (argmaxOp : Row V K → Int) (batch : Batch V K) (empty : Nat → Int) :
    (∀ rates, ∃ rows, batch.torchRejectionSample empty rates = some rows ∧
      rows.length = batch.requests.length ∧
      ∀ (r : Nat) (request : Request V K), batch.requests[r]? = some request →
        ∃ kept next, kept = (request.entries.takeWhile
            (request.accepts rates batch.withDraftProbs)).map (fun entry => entry.1.id) ∧
          rows[r]? = some (padTo placeholderTokenId (batch.maxSpecLen + 1) (kept ++ [next])) ∧
          (inVocab V request.bonusTokenId = true → ∀ id ∈ kept ++ [next], inVocab V id = true) ∧
          (request.greedy = true → rates = none → kept ++ [next] = request.targetChoices)) ∧
    ∀ numSpecTokens bonusTokenIds bonusLogits graphInputBuffers, batch.Fits numSpecTokens →
      (∀ request ∈ batch.requests, ∀ draft ∈ request.drafts, inVocab V draft.id = true) →
      batch.SameBonus argmaxOp bonusTokenIds bonusLogits →
      ∃ torchRows rows bufs, batch.torchImpl ops empty none = some torchRows ∧
        batch.rblnImpl ops argmaxOp numSpecTokens bonusTokenIds bonusLogits graphInputBuffers =
          some (rows, bufs) ∧
        rows.length = torchRows.length ∧
        ∀ (r : Nat) (request : Request V K), batch.requests[r]? = some request →
          request.greedy = true → (∀ draft ∈ request.drafts, ∃ v, IsTop draft.target v) →
          torchRows[r]? =
              some (padTo placeholderTokenId (batch.maxSpecLen + 1) request.targetChoices) ∧
            rows[r]? =
              some (padTo placeholderTokenId (numSpecTokens + 1) request.targetChoices) := by
  constructor
  · intro rates
    refine ⟨_, Batch.torchRejectionSample_eq batch empty rates, List.length_map _, ?_⟩
    intro r request hRow
    refine ⟨_, nextOf (request.accepts rates batch.withDraftProbs)
      (request.repair batch.withDraftProbs) request.bonusTokenId request.entries, rfl, ?_,
      Request.sampled_inVocab rates batch.withDraftProbs, ?_⟩
    · rw [List.getElem?_map, hRow]
      rfl
    · rintro hGreedy rfl
      exact Request.sampled_eq_targetChoices hGreedy batch.withDraftProbs
  · intro numSpecTokens bonusTokenIds bonusLogits graphInputBuffers hFits hVocab hBonus
    obtain ⟨rows, bufs, hRbln, hLength, hRows⟩ :=
      Batch.rblnImpl_row hOps hFits hVocab hBonus graphInputBuffers
    have hTorch := (Batch.torchImpl_eq ops batch empty none).trans
      (Batch.torchRejectionSample_eq _ empty none)
    refine ⟨_, rows, bufs, hTorch, hRbln, ?_, ?_⟩
    · rw [hLength, List.length_map, Batch.constrained, Batch.withTargets, List.length_map]
    intro r request hRow hGreedy hUnique
    refine ⟨?_, hRows r request hRow hGreedy hUnique⟩
    obtain ⟨torchRows, hTorchRows, hTorchRow⟩ :=
      Batch.torchImpl_row hOps empty hRow hGreedy hUnique
    rw [hTorch] at hTorchRows
    rw [Option.some.inj hTorchRows]
    exact hTorchRow

end Graph

/-! ### Over the reals -/

/-- The share of an entry in a softmax, none for one that is filtered out. -/
noncomputable def softmaxWeight (logit : WithBot ℝ) : ℝ := logit.recBotCoe 0 Real.exp

theorem softmaxWeight_lt {x y : WithBot ℝ} (hLt : x < y) : softmaxWeight x < softmaxWeight y := by
  cases y with
  | bot => exact absurd hLt not_lt_bot
  | coe y =>
      cases x with
      | bot => exact Real.exp_pos y
      | coe x => exact Real.exp_lt_exp.2 (WithBot.coe_lt_coe.1 hLt)

theorem softmaxWeight_nonneg (x : WithBot ℝ) : 0 ≤ softmaxWeight x := by
  cases x with
  | bot => exact le_rfl
  | coe x => exact (Real.exp_pos x).le

section Real

variable {V : Nat} [NeZero V]

/-- The leading drafts that the tops equal, and the tops, for every request. -/
noncomputable def sampleGreedy (draftTokenIds : List Int) (targetProbs : List (Row V ℝ))
    (cuNumDraftTokens : List Nat) : List (List Int) × List Nat :=
  let start := startsOf cuNumDraftTokens
  let lens := List.zipWith (· - ·) cuNumDraftTokens start
  let tops := fun r => (slice targetProbs (start.getD r 0) (lens.getD r 0)).map argmax
  ((List.range cuNumDraftTokens.length).map fun r => (tops r).map tokenId,
    (List.range cuNumDraftTokens.length).map fun r =>
      (((slice draftTokenIds (start.getD r 0) (lens.getD r 0)).zip (tops r)).takeWhile fun entry =>
        decide (entry.1 = tokenId entry.2)).length)

/-- The operations on real logits, where no filter is set and every request is greedy. -/
noncomputable def realOps : TensorOps V ℝ where
  softmax row v := softmaxWeight (row v) / ∑ w, softmaxWeight (row w)
  applyTopKTopP row _ _ v := (row v : WithBot ℝ)
  rejectionSample draftTokenIds targetProbs cuNumDraftTokens _ _ :=
    sampleGreedy draftTokenIds targetProbs cuNumDraftTokens

theorem map_argmax {rows : List (Row V ℝ)} {tops : List (Fin V)}
    (hTops : List.Forall₂ IsTop rows tops) : rows.map argmax = tops := by
  induction hTops with
  | nil => rfl
  | cons hTop _ ih => rw [List.map_cons, argmax_of_isTop hTop, ih]

theorem realOps_lawful : (realOps : TensorOps V ℝ).Lawful where
  softmax_lt := by
    intro row v w hLt
    have hWeight := softmaxWeight_lt hLt
    have hPos : 0 < ∑ w, softmaxWeight (row w) := by
      apply Finset.sum_pos' (fun w _ => softmaxWeight_nonneg (row w))
      exact ⟨w, Finset.mem_univ w, (softmaxWeight_nonneg (row v)).trans_lt hWeight⟩
    exact div_lt_div_of_pos_right hWeight hPos
  keepsTop := by
    intro row _ _ v _ hTop w hNe
    exact WithBot.coe_lt_coe.2 (hTop w hNe)
  greedy := by
    intro draftTokenIds targetProbs cuNumDraftTokens _ _ r tops _ _ hLength hTops
    have hOp : ∀ topK topP,
        (realOps : TensorOps V ℝ).rejectionSample draftTokenIds targetProbs cuNumDraftTokens topK
          topP = sampleGreedy draftTokenIds targetProbs cuNumDraftTokens := fun _ _ => rfl
    simp only [hOp, sampleGreedy, getD_map_range]
    by_cases hLt : r < cuNumDraftTokens.length
    · simp only [hLt, if_true, hLength, map_argmax hTops]
      refine ⟨trivial, ?_⟩
      intro j top hTop
      rw [List.getD_eq_getElem?_getD, List.getElem?_map, hTop]
      rfl
    · have hNone : (List.zipWith (· - ·) cuNumDraftTokens (startsOf cuNumDraftTokens)).getD r 0 =
          0 := by
        rw [List.getD_eq_getElem?_getD, List.getElem?_eq_none]
        · rfl
        · rw [List.length_zipWith]
          omega
      have hNil : tops = [] := List.length_eq_zero_iff.1 (hLength.symm.trans hNone)
      subst hNil
      simp [hLt]

end Real

/-- A request with one draft, which is the target's choice, and one without any. -/
noncomputable def shortBatch : Batch 2 ℝ where
  requests := [
    { drafts := [{ id := 1, target := ![0, 1], draftProbs := ![0, 0], uniform := 0 }]
      bonusTokenId := 0, temperature := 0, topK := ⟨2, Nat.two_pos⟩, topP := 1, q := ![1, 1] },
    { drafts := [], bonusTokenId := 1, temperature := 0, topK := ⟨2, Nat.two_pos⟩, topP := 1
      q := ![1, 1] }]
  withDraftProbs := false
  withTopK := false
  withTopP := false
  nonempty := List.cons_ne_nil _ _

theorem shortBatch_fits : shortBatch.Fits 2 := by
  intro request hMem
  simp only [shortBatch, List.mem_cons, List.not_mem_nil, or_false] at hMem
  rcases hMem with rfl | rfl
  · exact Nat.le_succ 1
  · exact Nat.zero_le 2

theorem shortBatch_inVocab :
    ∀ request ∈ shortBatch.requests, ∀ draft ∈ request.drafts, inVocab 2 draft.id = true := by
  intro request hMem draft hDraft
  simp only [shortBatch, List.mem_cons, List.not_mem_nil, or_false] at hMem
  rcases hMem with rfl | rfl
  · rw [List.mem_singleton.1 hDraft]
    rfl
  · cases hDraft

theorem shortBatch_sameBonus : shortBatch.SameBonus (fun _ => 0) (some [0, 1]) none :=
  Or.inl ⟨rfl, rfl⟩

theorem rejectionSample_exact_short :
    ∃ torchRows rows bufs, shortBatch.torchImpl realOps (fun _ => 0) none = some torchRows ∧
      shortBatch.rblnImpl realOps (fun _ => 0) 2 (some [0, 1]) none
        (some ⟨Buffer.full _ 7, some (Buffer.full _ ![1, 0])⟩) = some (rows, bufs) ∧
      rows.length = torchRows.length ∧
      ∀ (r : Nat) (request : Request 2 ℝ), shortBatch.requests[r]? = some request →
        request.greedy = true → (∀ draft ∈ request.drafts, ∃ v, IsTop draft.target v) →
        torchRows[r]? =
            some (padTo placeholderTokenId (shortBatch.maxSpecLen + 1) request.targetChoices) ∧
          rows[r]? = some (padTo placeholderTokenId (2 + 1) request.targetChoices) :=
  (rejectionSample_exact realOps realOps_lawful (fun _ => 0) shortBatch (fun _ => 0)).2 2
    (some [0, 1]) none (some ⟨Buffer.full _ 7, some (Buffer.full _ ![1, 0])⟩) shortBatch_fits
    shortBatch_inVocab shortBatch_sameBonus

/-- The compiled rows have the width of the configuration, the host's that of the step. -/
theorem rejectionSample_widths :
    ∃ torchRows rows bufs, shortBatch.torchImpl realOps (fun _ => 0) none = some torchRows ∧
      shortBatch.rblnImpl realOps (fun _ => 0) 2 (some [0, 1]) none none = some (rows, bufs) ∧
      torchRows[1]? = some [1, -1] ∧ rows[1]? = some [1, -1, -1] ∧ rows ≠ torchRows := by
  have hRow : shortBatch.requests[1]? = some
      { drafts := [], bonusTokenId := 1, temperature := 0, topK := ⟨2, Nat.two_pos⟩, topP := 1
        q := ![1, 1] } := rfl
  have hGreedy := decide_eq_true (rfl : (0 : ℝ) = greedyTemperature ℝ)
  obtain ⟨torchRows, hTorch, hTorchRow⟩ := Batch.torchImpl_row realOps_lawful (fun _ => 0) hRow
    hGreedy (fun draft hMem => absurd hMem List.not_mem_nil)
  obtain ⟨rows, bufs, hRbln, _, hRows⟩ := Batch.rblnImpl_row realOps_lawful shortBatch_fits
    shortBatch_inVocab shortBatch_sameBonus none
  have hRblnRow := hRows 1 _ hRow hGreedy (fun draft hMem => absurd hMem List.not_mem_nil)
  refine ⟨torchRows, rows, bufs, hTorch, hRbln, hTorchRow, hRblnRow, ?_⟩
  rintro rfl
  rw [hTorchRow] at hRblnRow
  cases hRblnRow

end VllmRbln.Sample
