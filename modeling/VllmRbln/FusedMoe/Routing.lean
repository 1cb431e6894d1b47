import Mathlib.Algebra.Field.Defs
import Mathlib.Order.Lattice

/-! Top-k expert routing of one token (`fused_moe/runner/moe_runner.py`). The source
works on `[E, T]` tables with every operation along the expert axis, so a table is
routed column by column and one column is a list over the experts. -/
namespace VllmRbln.FusedMoe

/-- `scoring_func` of the router; every name but the first two takes the last branch. -/
inductive ScoringFunc
  | sigmoid | softmax | plain
  deriving DecidableEq, Repr

/-- The tensor kernels the routing chain calls. `topk` returns the selected positions
of a list; `minScale` is the `1e-20` of `clamp_min`. -/
structure TensorOps (K : Type) where
  sigmoid : K → K
  exp : K → K
  topk : List K → Nat → List Nat
  minScale : K
  minusInf : K

/-- What `forward` reads off `self.router`. `numExpertGroup` is none without grouped top-k. -/
structure RouterConfig (K : Type) where
  topK : Nat
  scoringFunc : ScoringFunc
  renormalize : Bool
  eScoreCorrectionBias : Option (List K)
  numExpertGroup : Option Nat
  topkGroup : Nat

variable {K : Type} [Field K] [LinearOrder K]

def gather (values : List K) (positions : List Nat) : List K :=
  positions.map (values.getD · 0)

def scatter {α : Type} (into : List α) (positions : List Nat) (values : List α) : List α :=
  (positions.zip values).foldl (fun acc entry => acc.set entry.1 entry.2) into

def TensorOps.softmax (ops : TensorOps K) (values : List K) : List K :=
  let scaled := values.map ops.exp
  scaled.map (· / scaled.sum)

/-- `w / w.sum(dim=0).clamp_min(1e-20)`. -/
def TensorOps.rescale (ops : TensorOps K) (weights : List K) : List K :=
  weights.map (· / max weights.sum ops.minScale)

/-- `reshape(G, epg)` of one token's scores. -/
def splitGroups (numGroups perGroup : Nat) (scores : List K) : List (List K) :=
  (List.range numGroups).map fun g => (scores.drop (g * perGroup)).take perGroup

/-- `_apply_grouped_topk_torch` on one token. -/
def applyGroupedTopk (ops : TensorOps K) (cfg : RouterConfig K) (numGroups : Nat)
    (logits : List K) : List K :=
  let perGroup := logits.length / numGroups
  let scores :=
    match cfg.scoringFunc with
    | .sigmoid => logits.map ops.sigmoid
    | .softmax =>
        if cfg.eScoreCorrectionBias.isSome || !cfg.renormalize then ops.softmax logits else logits
    | .plain => logits
  let grouped := splitGroups numGroups perGroup scores
  match cfg.eScoreCorrectionBias with
  | some bias =>
      let biased := splitGroups numGroups perGroup (List.zipWith (· + ·) scores bias)
      let groupScores := biased.map fun group => (gather group (ops.topk group 2)).sum
      let groups := ops.topk groupScores cfg.topkGroup
      let masked := (List.range logits.length).map fun e =>
        if groups.contains (e / perGroup) then scores.getD e 0 else ops.minusInf
      let experts := ops.topk (List.zipWith (· + ·) masked bias) cfg.topK
      let weights := gather masked experts
      let weights := if cfg.renormalize then ops.rescale weights else weights
      scatter (List.replicate logits.length 0) experts weights
  | none =>
      let groupScores := grouped.map fun group => group.foldl max (group.headD 0)
      let groups := ops.topk groupScores cfg.topkGroup
      let gathered := (groups.map (grouped.getD · [])).flatten
      let picks := ops.topk gathered cfg.topK
      let weights := gather gathered picks
      let weights :=
        match cfg.scoringFunc, cfg.renormalize with
        | _, false => weights
        | .softmax, true => ops.softmax weights
        | _, true => ops.rescale weights
      let routed := scatter (List.replicate gathered.length 0) picks weights
      (scatter (List.replicate numGroups (List.replicate perGroup 0)) groups
        (splitGroups groups.length perGroup routed)).flatten

/-- The routing chain of `forward` on one token: the weight of every expert, zero for
the experts that are not selected. -/
def routeToken (ops : TensorOps K) (cfg : RouterConfig K) (logits : List K) : List K :=
  match cfg.numExpertGroup with
  | some numGroups => applyGroupedTopk ops cfg numGroups logits
  | none =>
      let zeros := List.replicate logits.length 0
      match cfg.scoringFunc with
      | .sigmoid =>
          let scores := logits.map ops.sigmoid
          let scoresForTopk :=
            match cfg.eScoreCorrectionBias with
            | some bias => List.zipWith (· + ·) scores bias
            | none => scores
          let experts := ops.topk scoresForTopk cfg.topK
          let weights := gather scores experts
          let weights := if cfg.renormalize then ops.rescale weights else weights
          scatter zeros experts weights
      | .softmax =>
          if cfg.renormalize then
            let experts := ops.topk logits cfg.topK
            scatter zeros experts (ops.softmax (gather logits experts))
          else
            let routing := ops.softmax logits
            let experts := ops.topk routing cfg.topK
            scatter zeros experts (gather routing experts)
      | .plain =>
          let experts := ops.topk logits cfg.topK
          let weights := gather logits experts
          let weights := if cfg.renormalize then ops.rescale weights else weights
          scatter zeros experts weights

end VllmRbln.FusedMoe
