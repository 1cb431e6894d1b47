import Mathlib.Algebra.Field.Defs
import Mathlib.Data.List.FinRange
import Mathlib.Data.List.MinMax
import VllmRbln.Common.Extremes
import VllmRbln.Common.Leading

/-! Rejection sampling of drafted tokens on the host: `torch_rejection_sample` and its kernels, over
drafts packed one request behind the other. -/
namespace VllmRbln.Sample

open Extremes Leading Ragged Rows Slices

/-- A row over the vocabulary. -/
abbrev Row (V : Nat) (K : Type) := Fin V → K

def placeholderTokenId : Int := -1

def greedyTemperature (K : Type) [Zero K] : K := 0

def tokenId {V : Nat} (v : Fin V) : Int := (v : Nat)

/-- The draft id is a real token. -/
def inVocab (V : Nat) (id : Int) : Bool := 0 ≤ id && id < V

theorem tokenId_inVocab {V : Nat} (v : Fin V) : inVocab V (tokenId v) = true := by
  have hLower : (0 : Int) ≤ tokenId v := Int.natCast_nonneg v
  have hUpper : tokenId v < (V : Int) := Int.ofNat_lt.2 v.isLt
  rw [inVocab, decide_eq_true hLower, decide_eq_true hUpper, Bool.and_self]

/-- A drafted token, what the target says at its position (logits, or the probabilities made of
them), the probabilities it was drafted from and the position's uniform draw. -/
structure Draft (V : Nat) (K : Type) where
  id : Int
  target : Row V K
  draftProbs : Row V K
  uniform : K

/-- A request of the batch, with its exponential draws `q`. vLLM stores an unset `top_k` as the
vocabulary size. -/
structure Request (V : Nat) (K : Type) where
  drafts : List (Draft V K)
  bonusTokenId : Int
  temperature : K
  topK : { k : Nat // 0 < k }
  topP : K
  q : Row V K

/-- The parts of vLLM's `SamplingMetadata` that the samplers read. -/
structure SamplingMetadata (K : Type) where
  temperature : Option (List K)
  allGreedy : Bool
  allRandom : Bool
  topK : Option (List Nat)
  topP : Option (List K)

section Kernels

variable {V : Nat} [NeZero V] {K : Type} [Field K] [LinearOrder K]

/-- `argmax(dim=-1)`: the first of the largest. -/
def argmax (row : Row V K) : Fin V := ((List.finRange V).argmax row).getD 0

/-- `clamp(0, vocab_size - 1)` of a draft id. -/
def clampId (V : Nat) [NeZero V] (id : Int) : Fin V :=
  ⟨min id.toNat (V - 1), by have := Nat.pos_of_neZero V; omega⟩

/-- What `torch_rejection_greedy_sample_kernel` leaves in `output_token_ids[req_idx]`. In synthetic
mode `synthetic` holds the uniform draws and the rates. -/
def greedyRow (cuNumDraftTokens : List Nat) (draftTokenIds : List Int)
    (targetArgmax : List (Fin V)) (bonusTokenIds : List Int) (isGreedyMask : List Bool)
    (synthetic : Option (List K × (Nat → K))) (reqIdx : Nat) (output : List Int) : List Int :=
  if !isGreedyMask.getD reqIdx false then output
  else
    let start := startsOf cuNumDraftTokens
    let n := (List.zipWith (· - ·) cuNumDraftTokens start).getD reqIdx 0
    let bonus := bonusTokenIds.getD reqIdx placeholderTokenId
    if n = 0 then output.set 0 bonus
    else
      let s := start.getD reqIdx 0
      let d := slice draftTokenIds s n
      let t := (slice targetArgmax s n).map tokenId
      match synthetic with
      | some (uniformProbs, rates) =>
          let u := slice uniformProbs s n
          let rate := (List.range n).map rates
          let accepted := List.zipWith (· && ·)
            (List.zipWith (fun u rate => decide (u < rate)) u rate) (d.map (inVocab V))
          let rej := accepted.map (!·)
          if rej.any id then
            let k := rej.findIdx id
            (assign output 0 (d.take k)).set k (t.getD k placeholderTokenId)
          else (assign output 0 d).set n bonus
      | none =>
          let mismatch := List.zipWith (fun d t => decide (d ≠ t)) d t
          if mismatch.any id then
            let outLen := mismatch.findIdx id + 1
            assign output 0 (t.take outLen)
          else (assign output 0 t).set n bonus

def torchRejectionGreedySampleKernel (outputTokenIds : List (List Int))
    (cuNumDraftTokens : List Nat) (draftTokenIds : List Int) (targetArgmax : List (Fin V))
    (bonusTokenIds : List Int) (isGreedy : Option (List Bool)) (batchSize : Nat)
    (synthetic : Option (List K × (Nat → K))) : List (List Int) :=
  let isGreedyMask := isGreedy.getD (List.replicate batchSize true)
  (List.range batchSize).foldl (fun output reqIdx => output.modify reqIdx
    (greedyRow cuNumDraftTokens draftTokenIds targetArgmax bonusTokenIds isGreedyMask synthetic
      reqIdx)) outputTokenIds

/-- The draws that accept a draft, before the ids outside the vocabulary are taken out. -/
def drawsAccept (draftTokenIds : List Int) (draftProbs : Option (List (Row V K)))
    (targetProbs : List (Row V K)) (u : List K) (s n : Nat) (rates : Option (Nat → K)) : List Bool :=
  match rates with
  | some rates => List.zipWith (fun u rate => decide (u < rate)) u ((List.range n).map rates)
  | none =>
      let safeIds := draftTokenIds.map (clampId V)
      let tProb := List.zipWith (fun row v => row v) (slice targetProbs s n) safeIds
      match draftProbs with
      | none => List.zipWith (fun t u => decide (u ≤ t)) tProb u
      | some draftProbs =>
          let dProb := List.zipWith (fun row v => row v) (slice draftProbs s n) safeIds
          List.zipWith (· && ·) (dProb.map fun d => decide (0 < d))
            (List.zipWith (fun ratio u => decide (u ≤ ratio)) (List.zipWith (· / ·) tProb dProb) u)

/-- What `torch_rejection_random_sample_kernel` leaves in `output_token_ids[req_idx]`. -/
def randomRow (cuNumDraftTokens : List Nat) (draftTokenIds : List Int)
    (draftProbs : Option (List (Row V K))) (targetProbs : List (Row V K))
    (bonusTokenIds recoveredTokenIds : List Int) (uniformProbs : List K)
    (isGreedyMask : List Bool) (rates : Option (Nat → K)) (reqIdx : Nat) (output : List Int) :
    List Int :=
  if isGreedyMask.getD reqIdx false then output
  else
    let start := startsOf cuNumDraftTokens
    let n := (List.zipWith (· - ·) cuNumDraftTokens start).getD reqIdx 0
    let bonus := bonusTokenIds.getD reqIdx placeholderTokenId
    if n = 0 then output.set 0 bonus
    else
      let s := start.getD reqIdx 0
      let dIds := slice draftTokenIds s n
      let u := slice uniformProbs s n
      let invalidMask := dIds.map (!inVocab V ·)
      let accept := List.zipWith (fun accept invalid => accept && !invalid)
        (drawsAccept dIds draftProbs targetProbs u s n rates) invalidMask
      let rejected := accept.map (!·)
      if rejected.any id then
        let k := rejected.findIdx id
        (assign output 0 (slice draftTokenIds s k)).set k
          (recoveredTokenIds.getD (s + k) placeholderTokenId)
      else (assign output 0 dIds).set n bonus

def torchRejectionRandomSampleKernel (outputTokenIds : List (List Int))
    (cuNumDraftTokens : List Nat) (draftTokenIds : List Int)
    (draftProbs : Option (List (Row V K))) (targetProbs : List (Row V K))
    (bonusTokenIds recoveredTokenIds : List Int) (uniformProbs : List K)
    (isGreedy : Option (List Bool)) (batchSize : Nat) (rates : Option (Nat → K)) :
    List (List Int) :=
  let isGreedyMask := isGreedy.getD (List.replicate batchSize false)
  (List.range batchSize).foldl (fun output reqIdx => output.modify reqIdx
    (randomRow cuNumDraftTokens draftTokenIds draftProbs targetProbs bonusTokenIds
      recoveredTokenIds uniformProbs isGreedyMask rates reqIdx)) outputTokenIds

/-- The target without the drafted token, where that is one. -/
def withoutDrafted (draftId : Int) (targetProbs : Row V K) : Row V K :=
  let safe := clampId V draftId
  let keep := !inVocab V draftId
  Function.update targetProbs safe (if keep then targetProbs safe else 0)

def aboveDraft (targetProbs draftProbs : Row V K) : Row V K := fun v =>
  max (targetProbs v - draftProbs v) 0

/-- `empty` is what `torch.empty_like` finds in memory. -/
def torchSampleRecoveredTokensKernel (empty : Nat → Int) (cuNumDraftTokens : List Nat)
    (draftTokenIds : List Int) (draftProbs : Option (List (Row V K)))
    (targetProbs : List (Row V K)) (q : List (Row V K)) (batchSize : Nat) : List Int :=
  let start := startsOf cuNumDraftTokens
  let lens := List.zipWith (· - ·) cuNumDraftTokens start
  (List.range batchSize).foldl (fun recoveredTokenIds reqIdx =>
    let n := lens.getD reqIdx 0
    if n = 0 then recoveredTokenIds
    else
      let s := start.getD reqIdx 0
      let prob := match draftProbs with
        | none => List.zipWith withoutDrafted (slice draftTokenIds s n) (slice targetProbs s n)
        | some draftProbs => List.zipWith aboveDraft (slice targetProbs s n) (slice draftProbs s n)
      let scores := prob.map fun row v => row v / q.getD reqIdx 0 v
      assign recoveredTokenIds s (scores.map fun row => tokenId (argmax row)))
    ((List.range draftTokenIds.length).map empty)

/-- `uniform` and `q` are the uniform and the exponential draws. -/
def torchRejectionSample (draftTokenIds : List Int) (numDraftTokens : List Nat)
    (maxSpecLen : Nat) (cuNumDraftTokens : List Nat) (draftProbs : Option (List (Row V K)))
    (targetProbs : List (Row V K)) (bonusTokenIds : List Int)
    (samplingMetadata : SamplingMetadata K) (empty : Nat → Int) (uniform : List K)
    (q : List (Row V K)) (syntheticConditionalRates : Option (Nat → K)) :
    Option (List (List Int)) :=
  let batchSize := numDraftTokens.length
  if targetProbs.length ≠ draftTokenIds.length then none
  else
    let outputTokenIds :=
      List.replicate batchSize (List.replicate (maxSpecLen + 1) placeholderTokenId)
    let isGreedy :=
      if samplingMetadata.allGreedy then none
      else samplingMetadata.temperature.map (·.map fun t => decide (t = greedyTemperature K))
    let uniformProbs :=
      if syntheticConditionalRates.isSome || !samplingMetadata.allGreedy then some uniform else none
    let synthetic := syntheticConditionalRates.bind fun rates => uniformProbs.map (·, rates)
    let outputTokenIds :=
      if !samplingMetadata.allRandom then
        torchRejectionGreedySampleKernel outputTokenIds cuNumDraftTokens draftTokenIds
          (targetProbs.map argmax) bonusTokenIds isGreedy batchSize synthetic
      else outputTokenIds
    if !samplingMetadata.allRandom && samplingMetadata.allGreedy then some outputTokenIds
    else
      let recoveredTokenIds := torchSampleRecoveredTokensKernel empty cuNumDraftTokens
        draftTokenIds draftProbs targetProbs q batchSize
      uniformProbs.map fun uniformProbs =>
        torchRejectionRandomSampleKernel outputTokenIds cuNumDraftTokens draftTokenIds draftProbs
          targetProbs bonusTokenIds recoveredTokenIds uniformProbs isGreedy batchSize
          syntheticConditionalRates

end Kernels

/-! ### A batch -/

/-- The requests of a step and the parameters that its sampling metadata carry. -/
structure Batch (V : Nat) (K : Type) where
  requests : List (Request V K)
  withDraftProbs : Bool
  withTopK : Bool
  withTopP : Bool
  nonempty : requests ≠ []

section Packing

variable {V : Nat} {K : Type}

def Request.count (request : Request V K) : Nat := request.drafts.length

/-- Each draft with its position among the request's. -/
def Request.entries (request : Request V K) : List (Draft V K × Nat) := request.drafts.zipIdx

theorem map_entries {α : Type} (f : Draft V K → α) (request : Request V K) :
    request.drafts.map f = request.entries.map fun entry => f entry.1 := by
  conv_lhs => rw [← List.zipIdx_map_fst 0 request.drafts, List.map_map]
  rfl

theorem range_entries {α : Type} (f : Nat → α) (request : Request V K) :
    (List.range request.count).map f = request.entries.map fun entry => f entry.2 := by
  rw [Request.count, List.range_eq_range', ← List.zipIdx_map_snd 0 request.drafts, List.map_map]
  rfl

theorem length_entries (request : Request V K) : request.entries.length = request.count :=
  List.length_zipIdx

namespace Batch

def numDraftTokens (batch : Batch V K) : List Nat := batch.requests.map Request.count

def cuNumDraftTokens (batch : Batch V K) : List Nat := cumsum batch.numDraftTokens

def maxSpecLen (batch : Batch V K) : Nat := batch.numDraftTokens.foldl max 0

/-- A tensor over the drafted positions. -/
def packed {α : Type} (f : Draft V K → α) (batch : Batch V K) : List α :=
  batch.requests.flatMap fun request => request.drafts.map f

/-- A tensor over the drafted positions, of values that depend on the request. -/
def perDraft {α : Type} (f : Request V K → Draft V K → α) (batch : Batch V K) : List α :=
  batch.requests.flatMap fun request => request.drafts.map (f request)

def draftProbs (batch : Batch V K) : Option (List (Row V K)) :=
  if batch.withDraftProbs then some (batch.packed Draft.draftProbs) else none

def bonusTokenIds (batch : Batch V K) : List Int := batch.requests.map Request.bonusTokenId

variable {batch : Batch V K} {request : Request V K} {r : Nat}

theorem length_perDraft {α : Type} (f : Request V K → Draft V K → α) (batch : Batch V K) :
    (batch.perDraft f).length = batch.numDraftTokens.sum := by
  apply length_flatMap_of_count
  intro request _
  exact List.length_map _

theorem map_perDraft {α β : Type} (g : α → β) (f : Request V K → Draft V K → α)
    (batch : Batch V K) : (batch.perDraft f).map g = batch.perDraft fun r d => g (f r d) := by
  rw [perDraft, List.map_flatMap]
  apply List.flatMap_congr
  intro request _
  exact List.map_map

theorem zipWith_perDraft {α β γ : Type} (g : α → β → γ) (a : Request V K → Draft V K → α)
    (b : Request V K → Draft V K → β) (batch : Batch V K) :
    List.zipWith g (batch.perDraft a) (batch.perDraft b) =
      batch.perDraft fun r d => g (a r d) (b r d) := by
  rw [perDraft, perDraft, zipWith_flatMap]
  · apply List.flatMap_congr
    intro request _
    rw [List.zipWith_map, List.zipWith_self]
  · intro request _
    rw [List.length_map, List.length_map]

theorem replicate_perDraft {α : Type} (value : α) (batch : Batch V K) :
    List.replicate batch.numDraftTokens.sum value = batch.perDraft fun _ _ => value := by
  apply Eq.symm
  apply List.eq_replicate_iff.2
  refine ⟨length_perDraft _ batch, ?_⟩
  intro entry hMem
  obtain ⟨request, _, hEntry⟩ := List.mem_flatMap.1 hMem
  obtain ⟨_, _, hEq⟩ := List.mem_map.1 hEntry
  exact hEq.symm

theorem slice_perDraft {α : Type} (f : Request V K → Draft V K → α)
    (hRow : batch.requests[r]? = some request) :
    slice (batch.perDraft f) (offset Request.count batch.requests r) request.count =
      request.drafts.map (f request) := by
  apply slice_flatMap _ hRow
  intro request _
  exact List.length_map _

theorem map_packed {α β : Type} (g : α → β) (f : Draft V K → α) (batch : Batch V K) :
    (batch.packed f).map g = batch.packed fun draft => g (f draft) :=
  map_perDraft g (fun _ => f) batch

theorem length_packed {α : Type} (f : Draft V K → α) (batch : Batch V K) :
    (batch.packed f).length = batch.numDraftTokens.sum :=
  length_perDraft (fun _ => f) batch

/-- What the kernels read of a request in a packed tensor. -/
theorem slice_packed {α : Type} (f : Draft V K → α) (hRow : batch.requests[r]? = some request) :
    slice (batch.packed f) (offset Request.count batch.requests r) request.count =
      request.entries.map fun entry => f entry.1 := by
  rw [← map_entries]
  exact slice_perDraft (fun _ => f) hRow

theorem start_getD (hRow : batch.requests[r]? = some request) :
    (startsOf batch.cuNumDraftTokens).getD r 0 = offset Request.count batch.requests r :=
  getD_startsOf Request.count hRow

theorem lens_getD (hRow : batch.requests[r]? = some request) :
    (List.zipWith (· - ·) batch.cuNumDraftTokens (startsOf batch.cuNumDraftTokens)).getD r 0 =
      request.count :=
  getD_lengths Request.count hRow

theorem bonus_getD (hRow : batch.requests[r]? = some request) :
    batch.bonusTokenIds.getD r placeholderTokenId = request.bonusTokenId := by
  rw [bonusTokenIds, List.getD_eq_getElem?_getD, List.getElem?_map, hRow]
  rfl

theorem count_le_maxSpecLen (hRow : batch.requests[r]? = some request) :
    request.count ≤ batch.maxSpecLen :=
  (le_foldl_max _ 0).2 _ (List.mem_map_of_mem (List.mem_of_getElem? hRow))

end Batch

end Packing

section Kinds

variable {V : Nat} {K : Type} [Field K] [LinearOrder K]

def Request.greedy (request : Request V K) : Bool :=
  decide (request.temperature = greedyTemperature K)

namespace Batch

def samplingMetadata (batch : Batch V K) : SamplingMetadata K where
  temperature :=
    if batch.requests.all Request.greedy then none
    else some (batch.requests.map Request.temperature)
  allGreedy := batch.requests.all Request.greedy
  allRandom := batch.requests.all (!Request.greedy ·)
  topK := if batch.withTopK then some (batch.requests.map (·.topK.val)) else none
  topP := if batch.withTopP then some (batch.requests.map Request.topP) else none

/-- The mask tells the requests' kinds. -/
def Masks (batch : Batch V K) (mask : List Bool) : Prop :=
  ∀ r request, batch.requests[r]? = some request → mask.getD r false = request.greedy

theorem masks_temperature (batch : Batch V K) :
    batch.Masks ((batch.requests.map Request.temperature).map
      fun t => decide (t = greedyTemperature K)) := by
  intro r request hRow
  rw [List.map_map, List.getD_eq_getElem?_getD, List.getElem?_map, hRow]
  rfl

theorem masks_replicate {batch : Batch V K} {masked : Bool} (hAll : ∀ request ∈ batch.requests, request.greedy = masked) :
    batch.Masks (List.replicate batch.requests.length masked) := by
  intro r request hRow
  rw [List.getD_eq_getElem?_getD, List.getElem?_replicate, if_pos (lt_of_row hRow),
    Option.getD_some, hAll request (List.mem_of_getElem? hRow)]

end Batch

end Kinds

section Batch

variable {V : Nat} [NeZero V] {K : Type} [Field K] [LinearOrder K]

namespace Batch

/-- The step's batch through the host path. -/
def torchRejectionSample (batch : Batch V K) (empty : Nat → Int) (rates : Option (Nat → K)) :
    Option (List (List Int)) :=
  Sample.torchRejectionSample (batch.packed Draft.id) batch.numDraftTokens batch.maxSpecLen
    batch.cuNumDraftTokens batch.draftProbs (batch.packed Draft.target) batch.bonusTokenIds
    batch.samplingMetadata empty (batch.packed Draft.uniform) (batch.requests.map Request.q) rates

end Batch

namespace Request

/-- Whether the draws let a draft of a random request pass. -/
def drawAccepts (withDraftProbs : Bool) (draft : Draft V K) : Bool :=
  let v := clampId V draft.id
  if withDraftProbs then
    decide (0 < draft.draftProbs v) && decide (draft.uniform ≤ draft.target v / draft.draftProbs v)
  else decide (draft.uniform ≤ draft.target v)

/-- A drafted token passes: by its rate in synthetic mode, else as the target's own choice in a
greedy request and by the draws in a random one. -/
def accepts (rates : Option (Nat → K)) (withDraftProbs : Bool) (request : Request V K)
    (entry : Draft V K × Nat) : Bool :=
  match rates, request.greedy with
  | some rates, _ => decide (entry.1.uniform < rates entry.2) && inVocab V entry.1.id
  | none, true => decide (entry.1.id = tokenId (argmax entry.1.target))
  | none, false => drawAccepts withDraftProbs entry.1 && inVocab V entry.1.id

/-- The token in place of a rejected one. -/
def recovered (withDraftProbs : Bool) (request : Request V K) (draft : Draft V K) : Int :=
  let prob := if withDraftProbs then aboveDraft draft.target draft.draftProbs
    else withoutDrafted draft.id draft.target
  tokenId (argmax fun v => prob v / request.q v)

def repair (withDraftProbs : Bool) (request : Request V K) (entry : Draft V K × Nat) : Int :=
  if request.greedy then tokenId (argmax entry.1.target)
  else request.recovered withDraftProbs entry.1

/-- The accepted drafts and one token behind them. -/
def sampled (rates : Option (Nat → K)) (withDraftProbs : Bool) (request : Request V K) : List Int :=
  verified (request.accepts rates withDraftProbs) (fun entry => entry.1.id)
    (request.repair withDraftProbs) request.bonusTokenId request.entries

end Request

namespace Batch

variable {batch : Batch V K} {request : Request V K} {r width : Nat}

/-- A request without drafts gets its bonus token. -/
theorem set_bonus (rates : Option (Nat → K)) (withDraftProbs : Bool) (hNone : request.count = 0) :
    (List.replicate (width + 1) placeholderTokenId).set 0 request.bonusTokenId =
      padTo placeholderTokenId (width + 1) (request.sampled rates withDraftProbs) := by
  have hEmpty : request.entries = [] := List.length_eq_zero_iff.1 (by rw [length_entries, hNone])
  have hFit : ([] : List Int).length < width + 1 := Nat.succ_pos width
  rw [Request.sampled, hEmpty]
  exact set_assign_replicate placeholderTokenId request.bonusTokenId hFit

theorem repair_greedy (hGreedy : request.greedy = true) (withDraftProbs : Bool) :
    (request.entries.map fun entry => argmax entry.1.target).map tokenId =
      request.entries.map (request.repair withDraftProbs) := by
  rw [List.map_map]
  apply List.map_congr_left
  intro entry _
  rw [Request.repair, hGreedy]
  rfl

theorem rejects_synthetic (rates : Nat → K) (withDraftProbs : Bool) :
    (List.zipWith (· && ·)
      (List.zipWith (fun u rate => decide (u < rate))
        (request.entries.map fun entry => entry.1.uniform) ((List.range request.count).map rates))
      ((request.entries.map fun entry => entry.1.id).map (inVocab V))).map (!·) =
      request.entries.map fun entry => !request.accepts (some rates) withDraftProbs entry := by
  rw [range_entries, List.zipWith_map, List.zipWith_self, List.map_map, List.zipWith_map,
    List.zipWith_self, List.map_map]
  rfl

theorem rejects_greedy (hGreedy : request.greedy = true) (withDraftProbs : Bool) :
    List.zipWith (fun d t => decide (d ≠ t)) (request.entries.map fun entry => entry.1.id)
      ((request.entries.map fun entry => argmax entry.1.target).map tokenId) =
      request.entries.map fun entry => !request.accepts none withDraftProbs entry := by
  rw [List.map_map, List.zipWith_map, List.zipWith_self]
  apply List.map_congr_left
  intro entry _
  rw [Request.accepts]
  · exact decide_not
  · exact hGreedy

/-- Outside synthetic mode the kept drafts of a greedy request are the target's own choices. -/
theorem sampled_greedy (hGreedy : request.greedy = true) (withDraftProbs : Bool) :
    request.sampled none withDraftProbs =
      verified (request.accepts none withDraftProbs) (request.repair withDraftProbs)
        (request.repair withDraftProbs) request.bonusTokenId request.entries := by
  apply verified_congr
  · intro entry _
    rfl
  · intro entry _ hAccepted
    rw [Request.accepts] at hAccepted
    · rw [Request.repair, hGreedy]
      exact of_decide_eq_true hAccepted
    · exact hGreedy
  · intro entry _ _
    rfl

/-- The greedy kernel's writes to the row of a greedy request. -/
theorem greedyRow_greedy {mask : List Bool} (hMask : mask.getD r false = true)
    (hGreedy : request.greedy = true) (hRow : batch.requests[r]? = some request)
    (hFit : request.count ≤ width) (rates : Option (Nat → K)) :
    greedyRow batch.cuNumDraftTokens (batch.packed Draft.id)
      (batch.packed fun draft => argmax draft.target) batch.bonusTokenIds mask
      (rates.map fun rates => (batch.packed Draft.uniform, rates)) r
      (List.replicate (width + 1) placeholderTokenId) =
      padTo placeholderTokenId (width + 1) (request.sampled rates batch.withDraftProbs) := by
  have hEntries := length_entries request
  rw [← hEntries] at hFit
  rw [greedyRow, hMask]
  simp only [Bool.not_true, Bool.false_eq_true, if_false, lens_getD hRow, start_getD hRow,
    bonus_getD hRow, slice_packed _ hRow]
  split
  · rename_i hNone
    exact set_bonus rates _ hNone
  cases rates with
  | some rates =>
      simp only [Option.map_some, slice_packed _ hRow]
      rw [rejects_synthetic rates batch.withDraftProbs, repair_greedy hGreedy batch.withDraftProbs]
      split
      · rename_i hAny
        apply scan_rejected hFit hAny rfl List.map_take.symm
        intro entry hEntry
        rw [List.getD_eq_getElem?_getD, List.getElem?_map, hEntry]
        rfl
      · rename_i hAll
        rw [← hEntries]
        exact scan_accepted hFit hAll
  | none =>
      simp only [Option.map_none]
      rw [rejects_greedy hGreedy batch.withDraftProbs, repair_greedy hGreedy batch.withDraftProbs,
        sampled_greedy hGreedy]
      split
      · rename_i hAny
        exact scan_repairs hAny rfl List.map_take.symm
      · rename_i hAll
        rw [← hEntries]
        exact scan_accepted hFit hAll

/-- The random kernel's loop over the recovered tokens fills each request's slice. -/
theorem recovered_packed (batch : Batch V K) (empty : Nat → Int) :
    torchSampleRecoveredTokensKernel empty batch.cuNumDraftTokens (batch.packed Draft.id)
      batch.draftProbs (batch.packed Draft.target) (batch.requests.map Request.q)
      batch.numDraftTokens.length =
      batch.requests.flatMap fun request =>
        request.drafts.map (request.recovered batch.withDraftProbs) := by
  have hEmpty : ((List.range (batch.packed Draft.id).length).map empty).length =
      (batch.requests.map Request.count).sum := by
    rw [List.length_map, List.length_range, length_packed, numDraftTokens]
  rw [torchSampleRecoveredTokensKernel, numDraftTokens, List.length_map]
  apply foldl_assign Request.count _ _ hEmpty
  · intro request _
    exact List.length_map _
  · intro recovered r request hRow
    have hQ : (batch.requests.map Request.q).getD r 0 = request.q := by
      rw [List.getD_eq_getElem?_getD, List.getElem?_map, hRow]
      rfl
    have hProb : (match batch.draftProbs with
        | none => List.zipWith withoutDrafted
            (slice (batch.packed Draft.id) (offset Request.count batch.requests r) request.count)
            (slice (batch.packed Draft.target) (offset Request.count batch.requests r) request.count)
        | some draftProbs => List.zipWith aboveDraft
            (slice (batch.packed Draft.target) (offset Request.count batch.requests r) request.count)
            (slice draftProbs (offset Request.count batch.requests r) request.count)) =
        request.drafts.map fun draft =>
          if batch.withDraftProbs then aboveDraft draft.target draft.draftProbs
          else withoutDrafted draft.id draft.target := by
      rw [draftProbs]
      cases batch.withDraftProbs with
      | true =>
          simp only [if_true, slice_packed _ hRow]
          rw [List.zipWith_map, List.zipWith_self, map_entries]
      | false =>
          simp only [Bool.false_eq_true, if_false, slice_packed _ hRow]
          rw [List.zipWith_map, List.zipWith_self, map_entries]
    simp only [lens_getD hRow, start_getD hRow, hQ]
    split
    · rename_i hNone
      rw [List.length_eq_zero_iff.1 hNone, List.map_nil, assign_nil]
    · rw [hProb, List.map_map, List.map_map]
      rfl

theorem drawsAccept_row (hRow : batch.requests[r]? = some request) (rates : Option (Nat → K)) :
    drawsAccept (request.entries.map fun entry => entry.1.id) batch.draftProbs
      (batch.packed Draft.target) (request.entries.map fun entry => entry.1.uniform)
      (offset Request.count batch.requests r) request.count rates =
      request.entries.map fun entry => match rates with
        | some rates => decide (entry.1.uniform < rates entry.2)
        | none => Request.drawAccepts batch.withDraftProbs entry.1 := by
  cases rates with
  | some rates =>
      simp only [drawsAccept]
      rw [range_entries, List.zipWith_map, List.zipWith_self]
  | none =>
      simp only [drawsAccept, draftProbs, Request.drawAccepts]
      cases batch.withDraftProbs with
      | false =>
          simp only [Bool.false_eq_true, if_false, slice_packed _ hRow]
          rw [List.map_map, List.zipWith_map, List.zipWith_self, List.zipWith_map, List.zipWith_self]
          rfl
      | true =>
          simp only [if_true, slice_packed _ hRow]
          rw [List.map_map, List.zipWith_map, List.zipWith_self, List.zipWith_map, List.zipWith_self,
            List.zipWith_map, List.zipWith_self, List.zipWith_map, List.zipWith_self, List.map_map,
            List.zipWith_map, List.zipWith_self]
          rfl

theorem rejects_random (hRandom : request.greedy = false)
    (hRow : batch.requests[r]? = some request) (rates : Option (Nat → K)) :
    (List.zipWith (fun accept invalid => accept && !invalid)
      (drawsAccept (request.entries.map fun entry => entry.1.id) batch.draftProbs
        (batch.packed Draft.target) (request.entries.map fun entry => entry.1.uniform)
        (offset Request.count batch.requests r) request.count rates)
      ((request.entries.map fun entry => entry.1.id).map (!inVocab V ·))).map (!·) =
      request.entries.map fun entry => !request.accepts rates batch.withDraftProbs entry := by
  rw [drawsAccept_row hRow, List.map_map, List.zipWith_map, List.zipWith_self, List.map_map]
  apply List.map_congr_left
  intro entry _
  cases rates with
  | some rates =>
      simp only [Function.comp_apply, Bool.not_not, Request.accepts]
  | none =>
      simp only [Function.comp_apply, Bool.not_not, Request.accepts, hRandom]

/-- The random kernel's writes to the row of a random request. -/
theorem randomRow_random {mask : List Bool} (hMask : mask.getD r false = false)
    (hRandom : request.greedy = false) (hRow : batch.requests[r]? = some request)
    (hFit : request.count ≤ width) (rates : Option (Nat → K)) :
    randomRow batch.cuNumDraftTokens (batch.packed Draft.id) batch.draftProbs
      (batch.packed Draft.target) batch.bonusTokenIds
      (batch.requests.flatMap fun request =>
        request.drafts.map (request.recovered batch.withDraftProbs))
      (batch.packed Draft.uniform) mask rates r
      (List.replicate (width + 1) placeholderTokenId) =
      padTo placeholderTokenId (width + 1) (request.sampled rates batch.withDraftProbs) := by
  have hEntries := length_entries request
  rw [← hEntries] at hFit
  rw [randomRow, hMask]
  simp only [Bool.false_eq_true, if_false, lens_getD hRow, start_getD hRow, bonus_getD hRow,
    slice_packed _ hRow]
  split
  · rename_i hNone
    exact set_bonus rates _ hNone
  rw [rejects_random hRandom hRow]
  split
  · rename_i hAny
    obtain ⟨entry, hEntry, _⟩ := verified_of_rejected (fun entry => entry.1.id)
      (request.repair batch.withDraftProbs) request.bonusTokenId hAny
    have hLt := lt_of_row hEntry
    rw [hEntries] at hLt
    apply scan_rejected hFit hAny rfl
    · rw [slice_take hLt.le, slice_packed _ hRow, List.map_take]
    · intro other hOther
      have hWidth : ∀ request ∈ batch.requests,
          (request.drafts.map (request.recovered batch.withDraftProbs)).length = request.count :=
        fun request _ => List.length_map _
      rw [List.getD_eq_getElem?_getD, getElem?_flatMap_row hWidth hRow hLt, map_entries,
        List.getElem?_map, hOther, Option.map_some, Option.getD_some, Request.repair, hRandom]
      rfl
  · rename_i hAll
    rw [← hEntries]
    exact scan_accepted hFit hAll

def blankRow (batch : Batch V K) : List Int :=
  List.replicate (batch.maxSpecLen + 1) placeholderTokenId

/-- The row of a request in the output. -/
def sampledRow (batch : Batch V K) (rates : Option (Nat → K)) (request : Request V K) : List Int :=
  padTo placeholderTokenId (batch.maxSpecLen + 1) (request.sampled rates batch.withDraftProbs)

theorem greedyPass {isGreedy : Option (List Bool)} (rates : Option (Nat → K))
    (hMasks : batch.Masks (isGreedy.getD (List.replicate batch.requests.length true))) :
    torchRejectionGreedySampleKernel (batch.requests.map fun _ => batch.blankRow)
      batch.cuNumDraftTokens (batch.packed Draft.id)
      (batch.packed fun draft => argmax draft.target) batch.bonusTokenIds isGreedy
      batch.requests.length (rates.map fun rates => (batch.packed Draft.uniform, rates)) =
      batch.requests.map fun request =>
        if request.greedy then batch.sampledRow rates request else batch.blankRow := by
  apply foldl_modify_map
  intro r request hRow
  have hMask := hMasks r request hRow
  cases hGreedy : request.greedy with
  | true =>
      rw [hGreedy] at hMask
      exact greedyRow_greedy hMask hGreedy hRow (count_le_maxSpecLen hRow) rates
  | false =>
      rw [hGreedy] at hMask
      rw [greedyRow, hMask]
      rfl

theorem randomPass {isGreedy : Option (List Bool)} (rates : Option (Nat → K))
    (hMasks : batch.Masks (isGreedy.getD (List.replicate batch.requests.length false))) :
    torchRejectionRandomSampleKernel
      (batch.requests.map fun request =>
        if request.greedy then batch.sampledRow rates request else batch.blankRow)
      batch.cuNumDraftTokens (batch.packed Draft.id) batch.draftProbs (batch.packed Draft.target)
      batch.bonusTokenIds
      (batch.requests.flatMap fun request =>
        request.drafts.map (request.recovered batch.withDraftProbs))
      (batch.packed Draft.uniform) isGreedy batch.requests.length rates =
      batch.requests.map (batch.sampledRow rates) := by
  apply foldl_modify_map
  intro r request hRow
  have hMask := hMasks r request hRow
  cases hGreedy : request.greedy with
  | true =>
      rw [hGreedy] at hMask
      rw [randomRow, hMask]
      rfl
  | false =>
      rw [hGreedy] at hMask
      exact randomRow_random hMask hGreedy hRow (count_le_maxSpecLen hRow) rates

/-- Every request's row, written once, by the kernel of its kind. -/
theorem torchRejectionSample_eq (batch : Batch V K) (empty : Nat → Int) (rates : Option (Nat → K)) :
    batch.torchRejectionSample empty rates = some (batch.requests.map (batch.sampledRow rates)) := by
  have hShape : (batch.packed Draft.target).length = (batch.packed Draft.id).length := by
    rw [length_packed, length_packed]
  have hSize : batch.numDraftTokens.length = batch.requests.length := List.length_map _
  have hBlank : List.replicate batch.requests.length
      (List.replicate (batch.maxSpecLen + 1) placeholderTokenId) =
      batch.requests.map fun _ => batch.blankRow := by
    rw [List.map_const']
    rfl
  have hRecovered := recovered_packed batch empty
  rw [hSize] at hRecovered
  rw [torchRejectionSample, Sample.torchRejectionSample, if_neg (not_not.2 hShape)]
  simp only [hSize, hBlank, hRecovered, map_packed]
  have hSynthetic : ∀ greedy : Bool, (rates.bind fun synthetic =>
      (if rates.isSome || !greedy then some (batch.packed Draft.uniform) else none).map
        (·, synthetic)) = rates.map fun rates => (batch.packed Draft.uniform, rates) := by
    intro greedy
    cases rates <;> rfl
  simp only [hSynthetic]
  cases hGreedy : batch.samplingMetadata.allGreedy with
  | true =>
      have hKinds : ∀ request ∈ batch.requests, request.greedy = true := by
        simpa [samplingMetadata] using hGreedy
      have hMixed : batch.samplingMetadata.allRandom = false := by
        obtain ⟨request, hMem⟩ := List.exists_mem_of_ne_nil _ batch.nonempty
        apply List.all_eq_false.2
        refine ⟨request, hMem, ?_⟩
        rw [hKinds request hMem]
        exact Bool.false_ne_true
      simp only [hMixed, Bool.not_false, Bool.and_self, if_true]
      rw [greedyPass rates (masks_replicate hKinds)]
      apply congrArg some
      apply List.map_congr_left
      intro request hMem
      rw [hKinds request hMem, if_pos rfl]
  | false =>
      have hTemperature : batch.samplingMetadata.temperature =
          some (batch.requests.map Request.temperature) := by
        have hAll : batch.requests.all Request.greedy = false := hGreedy
        simp only [samplingMetadata, hAll, Bool.false_eq_true, if_false]
      have hMasks := masks_temperature batch
      simp only [hTemperature, Bool.not_false, Bool.or_true, Bool.and_false, Bool.false_eq_true,
        if_false, if_true, Option.map_some]
      apply congrArg some
      cases hRandom : batch.samplingMetadata.allRandom with
      | true =>
          -- no request for the greedy kernel, which is not launched
          have hKinds : ∀ request ∈ batch.requests, request.greedy = false := by
            simpa [samplingMetadata] using hRandom
          have hUnwritten : (batch.requests.map fun _ => batch.blankRow) =
              batch.requests.map fun request =>
                if request.greedy then batch.sampledRow rates request else batch.blankRow := by
            apply List.map_congr_left
            intro request hMem
            rw [hKinds request hMem]
            rfl
          simp only [Bool.not_true, Bool.false_eq_true, if_false]
          rw [hUnwritten]
          exact randomPass rates hMasks
      | false =>
          simp only [Bool.not_false, if_true]
          rw [greedyPass rates hMasks]
          exact randomPass rates hMasks

end Batch

/-! ### What the rows hold -/

namespace Request

theorem accepts_inVocab {request : Request V K} {rates : Option (Nat → K)} {withDraftProbs : Bool}
    {entry : Draft V K × Nat} (hAccepted : request.accepts rates withDraftProbs entry = true) :
    inVocab V entry.1.id = true := by
  cases rates with
  | some rates =>
      rw [accepts, Bool.and_eq_true] at hAccepted
      exact hAccepted.2
  | none =>
      cases hGreedy : request.greedy with
      | true =>
          simp only [accepts, hGreedy, decide_eq_true_eq] at hAccepted
          rw [hAccepted]
          exact tokenId_inVocab _
      | false =>
          simp only [accepts, hGreedy, Bool.and_eq_true] at hAccepted
          exact hAccepted.2

/-- Whatever was drafted, only real tokens leave the sampler. -/
theorem sampled_inVocab {request : Request V K} (rates : Option (Nat → K)) (withDraftProbs : Bool)
    (hBonus : inVocab V request.bonusTokenId = true) :
    ∀ id ∈ request.sampled rates withDraftProbs, inVocab V id = true := by
  apply forall_mem_verified
  · intro entry _ hAccepted
    exact accepts_inVocab hAccepted
  · intro entry _
    rw [repair]
    split
    · exact tokenId_inVocab _
    · exact tokenId_inVocab _
  · exact hBonus

/-- The drafts that are the target's own choices, then its choice at the first that is not, or the
bonus token. -/
def targetChoices (request : Request V K) : List Int :=
  verified (fun draft => decide (draft.id = tokenId (argmax draft.target))) Draft.id
    (fun draft => tokenId (argmax draft.target)) request.bonusTokenId request.drafts

theorem sampled_eq_targetChoices {request : Request V K} (hGreedy : request.greedy = true)
    (withDraftProbs : Bool) : request.sampled none withDraftProbs = request.targetChoices := by
  have hDrafts : request.drafts = request.entries.map Prod.fst :=
    (List.zipIdx_map_fst 0 request.drafts).symm
  rw [targetChoices, hDrafts, verified_map]
  apply verified_congr
  · intro entry _
    simp only [accepts, hGreedy]
  · intro entry _ _
    rfl
  · intro entry _ _
    rw [repair, hGreedy]
    rfl

end Request

end Batch

end VllmRbln.Sample
