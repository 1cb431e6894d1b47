import Mathlib.Algebra.BigOperators.Group.Finset.Sigma
import Mathlib.Algebra.Field.Rat
import Mathlib.Algebra.Module.Defs
import Mathlib.Algebra.Order.Ring.Unbundled.Rat
import VllmRbln.Common.Rows
import VllmRbln.FusedMoe.Routing

/-! The fused-MoE forward (`fused_moe/runner/moe_runner.py`) with all-gather dispatch and
reduce-scatter combine, over the data-parallel metadata of `forward_context.py`. A
`[B, L, H]` tensor is its list of `B * L` rows: the reshapes of the source keep the
row-major order. -/
namespace VllmRbln.FusedMoe

set_option linter.unusedSectionVars false

open VllmRbln.Rows

/-- The assertions of the metadata and of `forward`. -/
inductive MoeError
  | acrossDpMissing
  | paddedTokensMissing
  | acrossDpGiven
  | paddedTokensGiven
  | notDivisible (rows dpSize : Nat)
  | wrongPart (rows maxPad : Nat)
  deriving DecidableEq, Repr

/-- `RBLNDPMetadata`; `maxPadsAcrossDp` is the length of its tensor. -/
structure DPMetadata where
  numTokensAcrossDpCpu : List Nat
  maxPadsAcrossDp : Option Nat
  deriving DecidableEq, Repr

def DPMetadata.make (dpSize numTokens : Nat) (numTokensAcrossDp : Option (List Nat))
    (numPaddedTokens : Option Nat) : Except MoeError DPMetadata :=
  if 1 < dpSize then
    match numTokensAcrossDp, numPaddedTokens with
    | none, _ => .error .acrossDpMissing
    | some _, none => .error .paddedTokensMissing
    | some across, some maxPad => .ok ⟨across, some maxPad⟩
  else
    match numTokensAcrossDp, numPaddedTokens with
    | some _, _ => .error .acrossDpGiven
    | none, some _ => .error .paddedTokensGiven
    | none, none => .ok ⟨[numTokens], none⟩

section TokensMask

variable {K : Type} [Zero K] [One K]

/-- `get_tokens_mask` with its defaults: one for the real rows of every rank's slot,
zero for the padding behind them. -/
def getTokensMask (dp : DPMetadata) (numTokens : Nat) : List K :=
  let maxPad :=
    if dp.numTokensAcrossDpCpu.length = 1 then numTokens else dp.maxPadsAcrossDp.getD 0
  (dp.numTokensAcrossDpCpu.map fun count =>
    (List.range maxPad).map fun pos => if pos < count then 1 else 0).flatten

/-- The mask is one at every real row of a rank's slot. -/
theorem getTokensMask_real {across : List Nat} {maxPad r i count numTokens : Nat}
    (hRank : across[r]? = some count) (hReal : i < count) (hPad : i < maxPad)
    (hWidth : across.length = 1 → numTokens = maxPad) :
    (getTokensMask ⟨across, some maxPad⟩ numTokens : List K)[r * maxPad + i]? = some 1 := by
  have hPads : (if across.length = 1 then numTokens else (some maxPad).getD 0) = maxPad := by
    split
    · rename_i hOne
      exact hWidth hOne
    · rfl
  let slots : List (List K) := across.map fun count =>
    (List.range maxPad).map fun pos => if pos < count then 1 else 0
  have hSlots : ∀ slot ∈ slots, slot.length = maxPad := by
    intro slot hSlot
    obtain ⟨c, -, rfl⟩ := List.mem_map.1 hSlot
    simp
  have hSlot : slots[r]? =
      some ((List.range maxPad).map fun pos => if pos < count then 1 else 0) := by
    simp [slots, List.getElem?_map, hRank]
  simp only [getTokensMask, hPads]
  rw [flatten_getElem? hSlots hSlot hPad]
  simp [List.getElem?_map, List.getElem?_range hPad, hReal]

end TokensMask

/-- One fused-MoE layer of a model, with its expert placement. `router` is the gate of the
model block, computed on one token; `owner e` is the rank that holds expert `e`. -/
structure MoERunner (K H : Type) where
  numExperts : Nat
  ops : TensorOps K
  routerConfig : RouterConfig K
  router : H → List K
  expert : Nat → H → H
  owner : Nat → Nat
  useMoeTokensMask : Bool

variable {K H : Type} [Field K] [LinearOrder K] [AddCommMonoid H] [Module K H]

/-- `masked_routing_weights`, one column per token, before the mask. -/
def MoERunner.routing (moe : MoERunner K H) (hidden : List H) : List (List K) :=
  hidden.map fun x => routeToken moe.ops moe.routerConfig (moe.router x)

/-- `masked_routing_weights * tokens_mask`. -/
def MoERunner.maskedRouting (moe : MoERunner K H) (dp : DPMetadata) (numTokens : Nat)
    (hidden : List H) : List (List K) :=
  if moe.useMoeTokensMask then
    List.zipWith (fun weights mask => weights.map (· * mask)) (moe.routing hidden)
      (getTokensMask dp numTokens)
  else moe.routing hidden

/-- The weighted sum of the experts in `held` on one token. -/
def MoERunner.mix (moe : MoERunner K H) (held : Nat → Bool) (x : H) (weights : List K) : H :=
  ∑ e ∈ (Finset.range moe.numExperts).filter (fun e => held e), weights.getD e 0 • moe.expert e x

/-- `quant_method.apply` on the experts that are local to the caller. -/
def MoERunner.apply (moe : MoERunner K H) (held : Nat → Bool) (hidden : List H)
    (weights : List (List K)) : List H :=
  List.zipWith (moe.mix held) hidden weights

/-- The `DP == 1` path: one rank holds every expert. -/
def MoERunner.forwardSingle (moe : MoERunner K H) (dp : DPMetadata) (hidden : List H) : List H :=
  moe.apply (fun _ => true) hidden (moe.maskedRouting dp hidden.length hidden)

/-- `all_hidden`, reshaped: the hidden states of every rank, padded and gathered. -/
def gatheredHidden (maxPad : Nat) (hidden : List (List H)) : List H :=
  allGather (hidden.map (padTo 0 maxPad))

/-- What rank `q` computes on the gathered tokens with its own experts. -/
def MoERunner.partialOutput (moe : MoERunner K H) (dp : DPMetadata) (maxPad : Nat)
    (hidden : List (List H)) (q : Nat) : List H :=
  let gathered := gatheredHidden maxPad hidden
  moe.apply (fun e => moe.owner e = q) gathered (moe.maskedRouting dp maxPad gathered)

/-- The `DP > 1` path of rank `r`, with the hidden states every rank brings to it. -/
def MoERunner.forwardAcrossDp (moe : MoERunner K H) (dp : DPMetadata) (hidden : List (List H))
    (r : Nat) : Except MoeError (List H) :=
  let maxPad := dp.maxPadsAcrossDp.getD 0
  let dpSize := hidden.length
  let t := (hidden.getD r []).length
  let contribs := (List.range dpSize).map (moe.partialOutput dp maxPad hidden)
  let total := (contribs.getD r []).length
  if total % dpSize ≠ 0 then .error (.notDivisible total dpSize)
  else
    let final := reduceScatter contribs total r
    if final.length ≠ maxPad then .error (.wrongPart final.length maxPad)
    else .ok (final.take t)

/-- `forward` of rank `r`. -/
def MoERunner.forward (moe : MoERunner K H) (dp : DPMetadata) (hidden : List (List H))
    (r : Nat) : Except MoeError (List H) :=
  if 1 < hidden.length then moe.forwardAcrossDp dp hidden r
  else .ok (moe.forwardSingle dp (hidden.getD r []))

/-- The metadata a step publishes on rank `r`: the counts and the padded length of the
group across data-parallel ranks, this rank's own count on a single rank. -/
def DPMetadata.ofStep (counts : List Nat) (maxPad r : Nat) : Except MoeError DPMetadata :=
  if 1 < counts.length then DPMetadata.make counts.length (counts.getD r 0) (some counts) (some maxPad)
  else DPMetadata.make counts.length (counts.getD r 0) none none

/-! ### Rows of the forward -/

theorem MoERunner.routing_length (moe : MoERunner K H) (hidden : List H) :
    (moe.routing hidden).length = hidden.length := by
  simp [routing]

/-- A row the mask keeps is routed as the token alone is. -/
theorem MoERunner.maskedRouting_getElem? (moe : MoERunner K H) {dp : DPMetadata} {hidden : List H}
    {numTokens j : Nat} {x : H} (hRow : hidden[j]? = some x)
    (hMask : (getTokensMask dp numTokens : List K)[j]? = some 1) :
    (moe.maskedRouting dp numTokens hidden)[j]? =
      some (routeToken moe.ops moe.routerConfig (moe.router x)) := by
  have hRouting : (moe.routing hidden)[j]? =
      some (routeToken moe.ops moe.routerConfig (moe.router x)) := by
    simp [routing, List.getElem?_map, hRow]
  unfold maskedRouting
  split
  · rw [List.getElem?_zipWith, hRouting, hMask]
    simp
  · exact hRouting

theorem MoERunner.maskedRouting_length (moe : MoERunner K H) {dp : DPMetadata} {hidden : List H}
    {numTokens : Nat} (hMask : (getTokensMask dp numTokens : List K).length = hidden.length) :
    (moe.maskedRouting dp numTokens hidden).length = hidden.length := by
  unfold maskedRouting
  split
  · rw [List.length_zipWith, moe.routing_length, hMask, Nat.min_self]
  · exact moe.routing_length hidden

/-- Experts partitioned over the ranks: the ranks' partial sums add up to the whole one. -/
theorem MoERunner.sum_mix (moe : MoERunner K H) {dpSize : Nat}
    (hOwner : ∀ e < moe.numExperts, moe.owner e < dpSize) (x : H) (weights : List K) :
    ∑ q ∈ Finset.range dpSize, moe.mix (fun e => moe.owner e = q) x weights =
      moe.mix (fun _ => true) x weights := by
  have hMaps : ∀ e ∈ Finset.range moe.numExperts, moe.owner e ∈ Finset.range dpSize := by
    intro e he
    exact Finset.mem_range.2 (hOwner e (Finset.mem_range.1 he))
  simpa [mix] using Finset.sum_fiberwise_of_maps_to hMaps
    (fun e => weights.getD e 0 • moe.expert e x)

section Gathered

variable {hidden : List (List H)} {counts : List Nat} {maxPad : Nat}

private theorem padded_width (hStaged : ∀ rows ∈ hidden, rows.length ≤ maxPad) :
    ∀ slot ∈ hidden.map (padTo 0 maxPad), slot.length = maxPad := by
  intro slot hSlot
  obtain ⟨rows, hRows, rfl⟩ := List.mem_map.1 hSlot
  exact padTo_length (hStaged rows hRows)

theorem gatheredHidden_length (hStaged : ∀ rows ∈ hidden, rows.length ≤ maxPad) :
    (gatheredHidden maxPad hidden).length = hidden.length * maxPad := by
  unfold gatheredHidden allGather
  rw [flatten_length (padded_width hStaged), List.length_map]

/-- Row `i` of rank `r` is the row at offset `i` of its slot. -/
theorem gatheredHidden_getElem? (hStaged : ∀ rows ∈ hidden, rows.length ≤ maxPad) {r i : Nat}
    {rows : List H} (hRank : hidden[r]? = some rows) (hRow : i < rows.length) :
    (gatheredHidden maxPad hidden)[r * maxPad + i]? = rows[i]? := by
  have hFit : rows.length ≤ maxPad := hStaged rows (List.mem_of_getElem? hRank)
  have hSlot : (hidden.map (padTo 0 maxPad))[r]? = some (padTo 0 maxPad rows) := by
    rw [List.getElem?_map, hRank]
    rfl
  unfold gatheredHidden allGather
  rw [flatten_getElem? (padded_width hStaged) hSlot (by omega), padTo_getElem? hRow]

theorem getTokensMask_length (hMany : counts.length ≠ 1) :
    (getTokensMask ⟨counts, some maxPad⟩ maxPad : List K).length = counts.length * maxPad := by
  unfold getTokensMask
  simp only [hMany, if_false, Option.getD_some]
  have hSlots : ∀ slot ∈ counts.map fun count =>
      (List.range maxPad).map fun pos => if pos < count then (1 : K) else 0,
      slot.length = maxPad := by
    intro slot hSlot
    obtain ⟨count, -, rfl⟩ := List.mem_map.1 hSlot
    simp
  rw [flatten_length hSlots, List.length_map]

theorem MoERunner.partialOutput_length (moe : MoERunner K H)
    (hStaged : ∀ rows ∈ hidden, rows.length ≤ maxPad) (hRanks : counts.length = hidden.length)
    (hMany : counts.length ≠ 1) (q : Nat) :
    (moe.partialOutput ⟨counts, some maxPad⟩ maxPad hidden q).length =
      hidden.length * maxPad := by
  have hGathered := gatheredHidden_length hStaged
  have hMask : (getTokensMask ⟨counts, some maxPad⟩ maxPad : List K).length =
      (gatheredHidden maxPad hidden).length := by
    rw [getTokensMask_length hMany, hGathered, hRanks]
  unfold partialOutput apply
  rw [List.length_zipWith, moe.maskedRouting_length hMask, hGathered, Nat.min_self]

/-- What rank `q` adds to a real row of rank `r`. -/
theorem MoERunner.partialOutput_getElem? (moe : MoERunner K H)
    (hStaged : ∀ rows ∈ hidden, rows.length ≤ maxPad) {r i count : Nat}
    {rows : List H} {x : H} (hRank : hidden[r]? = some rows) (hCount : counts[r]? = some count)
    (hReal : i < count) (hRow : rows[i]? = some x) (q : Nat) :
    (moe.partialOutput ⟨counts, some maxPad⟩ maxPad hidden q)[r * maxPad + i]? =
      some (moe.mix (fun e => moe.owner e = q) x
        (routeToken moe.ops moe.routerConfig (moe.router x))) := by
  obtain ⟨hBound, -⟩ := List.getElem?_eq_some_iff.1 hRow
  have hFit : rows.length ≤ maxPad := hStaged rows (List.mem_of_getElem? hRank)
  have hX : (gatheredHidden maxPad hidden)[r * maxPad + i]? = some x := by
    rw [gatheredHidden_getElem? hStaged hRank hBound, hRow]
  have hMask : (getTokensMask ⟨counts, some maxPad⟩ maxPad : List K)[r * maxPad + i]? = some 1 :=
    getTokensMask_real hCount hReal (by omega) fun _ => rfl
  unfold partialOutput apply
  rw [List.getElem?_zipWith, hX, moe.maskedRouting_getElem? hX hMask]

end Gathered

/-- Row `i` of the single-rank path, for a real token. -/
theorem MoERunner.forwardSingle_getElem? (moe : MoERunner K H) {rows : List H} {count i : Nat}
    {x : H} (hReal : i < count) (hRow : rows[i]? = some x) :
    (moe.forwardSingle ⟨[count], none⟩ rows)[i]? =
      some (moe.mix (fun _ => true) x (routeToken moe.ops moe.routerConfig (moe.router x))) := by
  obtain ⟨hBound, -⟩ := List.getElem?_eq_some_iff.1 hRow
  have hMask : (getTokensMask ⟨[count], none⟩ rows.length : List K)[i]? = some 1 := by
    simp [getTokensMask, List.getElem?_range hBound, hReal]
  unfold forwardSingle apply
  rw [List.getElem?_zipWith, hRow, moe.maskedRouting_getElem? hRow hMask]

theorem MoERunner.forwardSingle_length (moe : MoERunner K H) (rows : List H) (count : Nat) :
    (moe.forwardSingle ⟨[count], none⟩ rows).length = rows.length := by
  have hMask : (getTokensMask ⟨[count], none⟩ rows.length : List K).length = rows.length := by
    simp [getTokensMask]
  unfold forwardSingle apply
  rw [List.length_zipWith, moe.maskedRouting_length hMask, Nat.min_self]

/-- Every real row of the data-parallel path is the row the single-rank path computes. -/
theorem MoERunner.forwardAcrossDp_eq (moe : MoERunner K H) {hidden : List (List H)}
    {counts : List Nat} {maxPad r count : Nat} {rows : List H}
    (hMany : 1 < hidden.length) (hRanks : counts.length = hidden.length)
    (hStaged : ∀ rows ∈ hidden, rows.length ≤ maxPad)
    (hOwner : ∀ e < moe.numExperts, moe.owner e < hidden.length)
    (hRank : hidden[r]? = some rows) (hCount : counts[r]? = some count)
    (hReal : count ≤ rows.length) :
    ∃ out, moe.forwardAcrossDp ⟨counts, some maxPad⟩ hidden r = .ok out ∧
      out.length = rows.length ∧
      out.take count = (moe.forwardSingle ⟨[count], none⟩ rows).take count := by
  obtain ⟨hBound, -⟩ := List.getElem?_eq_some_iff.1 hRank
  have hFit : rows.length ≤ maxPad := hStaged rows (List.mem_of_getElem? hRank)
  have hNotOne : counts.length ≠ 1 := by omega
  let contribs := (List.range hidden.length).map
    (moe.partialOutput ⟨counts, some maxPad⟩ maxPad hidden)
  have hContrib : ∀ q < hidden.length, contribs.getD q [] =
      moe.partialOutput ⟨counts, some maxPad⟩ maxPad hidden q := by
    intro q hq
    rw [List.getD_eq_getElem?_getD, List.getElem?_map, List.getElem?_range hq]
    rfl
  have hTotal : (contribs.getD r []).length = hidden.length * maxPad := by
    rw [hContrib r hBound]
    exact moe.partialOutput_length hStaged hRanks hNotOne r
  have hGroup : contribs.length = hidden.length := by simp [contribs]
  have hPart : hidden.length * maxPad / contribs.length = maxPad := by
    rw [hGroup, Nat.mul_div_cancel_left _ (by omega)]
  have hFinal : (reduceScatter contribs (hidden.length * maxPad) r).length = maxPad := by
    rw [reduceScatter_length, hPart]
  have hOwn : hidden.getD r [] = rows := by
    rw [List.getD_eq_getElem?_getD, hRank]
    rfl
  refine ⟨(reduceScatter contribs (hidden.length * maxPad) r).take rows.length, ?_, ?_, ?_⟩
  · have hForward : moe.forwardAcrossDp ⟨counts, some maxPad⟩ hidden r =
        if (contribs.getD r []).length % hidden.length ≠ 0 then
          .error (.notDivisible (contribs.getD r []).length hidden.length)
        else if (reduceScatter contribs (contribs.getD r []).length r).length ≠ maxPad then
          .error (.wrongPart (reduceScatter contribs (contribs.getD r []).length r).length maxPad)
        else .ok ((reduceScatter contribs (contribs.getD r []).length r).take
          (hidden.getD r []).length) := rfl
    rw [hForward, hTotal, hOwn, if_neg (by simp), if_neg (by simpa using hFinal)]
  · rw [List.length_take, hFinal, Nat.min_eq_left hFit]
  · -- Row by row: the ranks' shares of a real row add up to the sum over all experts.
    refine List.ext_getElem? fun i => ?_
    by_cases hi : i < count
    · obtain ⟨x, hRow⟩ : ∃ x, rows[i]? = some x := ⟨rows[i], List.getElem?_eq_getElem (by omega)⟩
      rw [List.getElem?_take_of_lt hi, List.getElem?_take_of_lt hi,
        List.getElem?_take_of_lt (by omega), moe.forwardSingle_getElem? hi hRow]
      unfold reduceScatter
      rw [List.getElem?_map, List.getElem?_range (by rw [hPart]; omega), hPart, hGroup,
        Option.map_some, ← moe.sum_mix hOwner]
      congr 1
      refine Finset.sum_congr rfl fun q hq => ?_
      rw [hContrib q (Finset.mem_range.1 hq), List.getD_eq_getElem?_getD,
        moe.partialOutput_getElem? hStaged hRank hCount hi hRow q]
      rfl
    · rw [List.getElem?_eq_none (by rw [List.length_take]; omega),
        List.getElem?_eq_none (by rw [List.length_take]; omega)]

/-- The data-parallel forward refines the single-rank one: on every rank the forward
returns, and the rows of its real tokens are those of the `DP == 1` path on its own
tokens, whatever the other ranks and the padding rows bring. -/
theorem MoERunner.forward_eq_single (moe : MoERunner K H) {hidden : List (List H)}
    {counts : List Nat} {maxPad r count : Nat} {rows : List H}
    (hRanks : counts.length = hidden.length)
    (hStaged : ∀ rows ∈ hidden, rows.length ≤ maxPad)
    (hOwner : ∀ e < moe.numExperts, moe.owner e < hidden.length)
    (hRank : hidden[r]? = some rows) (hCount : counts[r]? = some count)
    (hReal : count ≤ rows.length) :
    ∃ dp single out, DPMetadata.ofStep counts maxPad r = .ok dp ∧
      DPMetadata.make 1 count none none = .ok single ∧
      moe.forward dp hidden r = .ok out ∧ out.length = rows.length ∧
      out.take count = (moe.forwardSingle single rows).take count := by
  obtain ⟨hBound, -⟩ := List.getElem?_eq_some_iff.1 hRank
  have hOwn : hidden.getD r [] = rows := by
    rw [List.getD_eq_getElem?_getD, hRank]
    rfl
  have hSingle : DPMetadata.make 1 count none none = .ok ⟨[count], none⟩ := rfl
  by_cases hMany : 1 < hidden.length
  · obtain ⟨out, hOut, hLength, hRows⟩ :=
      moe.forwardAcrossDp_eq hMany hRanks hStaged hOwner hRank hCount hReal
    refine ⟨⟨counts, some maxPad⟩, ⟨[count], none⟩, out, ?_, hSingle, ?_, hLength, hRows⟩
    · unfold DPMetadata.ofStep DPMetadata.make
      rw [if_pos (by omega), if_pos (by omega)]
    · unfold forward
      rw [if_pos hMany, hOut]
  · have hCounts : counts.getD r 0 = count := by
      rw [List.getD_eq_getElem?_getD, hCount]
      rfl
    refine ⟨⟨[count], none⟩, ⟨[count], none⟩, moe.forwardSingle ⟨[count], none⟩ rows, ?_, hSingle,
      ?_, moe.forwardSingle_length rows count, rfl⟩
    · unfold DPMetadata.ofStep DPMetadata.make
      rw [if_neg (by omega), if_neg (by omega), hCounts]
    · unfold forward
      rw [if_neg hMany, hOwn]

/-- A layer of two experts on two ranks: plain top-1 routing on the largest logit. -/
def MoERunner.small : MoERunner ℚ ℚ where
  numExperts := 2
  ops :=
    { sigmoid := fun x => x
      exp := fun x => x
      topk := fun values k => ((List.range values.length).mergeSort fun i j =>
        decide (values.getD j 0 ≤ values.getD i 0)).take k
      minScale := 1 / 10 ^ 20
      minusInf := 0 }
  routerConfig := ⟨1, .plain, false, none, none, 0⟩
  router := fun x => [x, 4 - x]
  expert := fun e x => if e = 0 then 2 * x else 3 * x
  owner := fun e => e
  useMoeTokensMask := true

theorem MoERunner.forward_eq_single_small :
    ∃ dp single out, DPMetadata.ofStep [2, 1] 3 1 = .ok dp ∧
      DPMetadata.make 1 1 none none = .ok single ∧
      MoERunner.small.forward dp [[1, 3], [5, 7]] 1 = .ok out ∧ out.length = 2 ∧
      out.take 1 = (MoERunner.small.forwardSingle single [5, 7]).take 1 := by
  have hStaged : ∀ rows ∈ ([[1, 3], [5, 7]] : List (List ℚ)), rows.length ≤ 3 := by decide
  have hOwner : ∀ e < MoERunner.small.numExperts,
      MoERunner.small.owner e < ([[1, 3], [5, 7]] : List (List ℚ)).length := by decide
  have hReal : 1 ≤ ([5, 7] : List ℚ).length := by decide
  exact MoERunner.small.forward_eq_single rfl hStaged hOwner rfl rfl hReal

end VllmRbln.FusedMoe
