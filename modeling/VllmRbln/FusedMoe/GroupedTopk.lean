import Mathlib.Algebra.BigOperators.Fin
import Mathlib.Algebra.Order.BigOperators.Group.Finset
import Mathlib.Analysis.SpecialFunctions.Sigmoid
import Mathlib.Logic.Equiv.Fin.Basic
import VllmRbln.Common.Topk
import VllmRbln.FusedMoe.Routing

/-! Grouped top-k routing of a batch (`_apply_grouped_topk_torch`,
`fused_moe/runner/moe_runner.py`), on whole tables: `[T, E]` logits in, `[E, T]` weights out, with
the reshapes, gathers and scatters between them. A shape is a product of `Fin`s, laid out row by
row. -/
namespace VllmRbln.FusedMoe.GroupedTopk

open Topk

/-! ### Tables -/

section Table

variable {α : Type} {T G S n m k : Nat}

/-- `x.reshape(T, G, epg)`. -/
def splitExperts (x : Fin T → Fin (G * n) → α) : Fin T → Fin G → Fin n → α :=
  fun t g i => x t (finProdFinEquiv (g, i))

/-- `x.permute(1, 2, 0).reshape(G * epg, T)`. -/
def expertsFirst (x : Fin T → Fin G → Fin n → α) : Fin (G * n) → Fin T → α :=
  fun e t => x t (finProdFinEquiv.symm e).1 (finProdFinEquiv.symm e).2

/-- `x.reshape(G, epg, T).permute(2, 0, 1)`. -/
def tokensFirst (x : Fin (G * n) → Fin T → α) : Fin T → Fin G → Fin n → α :=
  fun t g i => x (finProdFinEquiv (g, i)) t

/-- `torch.gather(x, 1, index)`. -/
def gatherGroups (x : Fin T → Fin G → Fin n → α) (index : Fin T → Fin S → Fin n → Fin G) :
    Fin T → Fin S → Fin n → α :=
  fun t s i => x t (index t s i) i

/-- `x.gather(0, index)`. -/
def gatherRows (x : Fin m → Fin T → α) (index : Fin k → Fin T → Fin m) : Fin k → Fin T → α :=
  fun j t => x (index j t) t

/-- An entry of a scatter: what it holds after the writes that hit it, one after the other. -/
def written (entry : α) (hit : Fin k → Bool) (src : Fin k → α) : α :=
  (List.finRange k).foldl (fun entry j => if hit j then src j else entry) entry

/-- `x.scatter(1, index, src)`. -/
def scatterGroups (x : Fin T → Fin G → Fin n → α) (index : Fin T → Fin S → Fin n → Fin G)
    (src : Fin T → Fin S → Fin n → α) : Fin T → Fin G → Fin n → α :=
  fun t g i => written (x t g i) (fun s => index t s i = g) (fun s => src t s i)

/-- `x.scatter_(0, index, src)`. -/
def scatterRows (x : Fin m → Fin T → α) (index : Fin k → Fin T → Fin m) (src : Fin k → Fin T → α) :
    Fin m → Fin T → α :=
  fun e t => written (x e t) (fun j => index j t = e) (fun j => src j t)

theorem foldl_of_not_hit {entry : α} {hit : Fin k → Bool} {src : Fin k → α} {order : List (Fin k)}
    (hNone : ∀ j ∈ order, hit j = false) :
    order.foldl (fun entry j => if hit j then src j else entry) entry = entry := by
  induction order with
  | nil => rfl
  | cons j order ih =>
      rw [List.foldl_cons, hNone j List.mem_cons_self, if_neg Bool.false_ne_true]
      exact ih fun other hMem => hNone other (List.mem_cons_of_mem _ hMem)

theorem written_of_not_hit {entry : α} {hit : Fin k → Bool} {src : Fin k → α}
    (hNone : ∀ j, hit j = false) : written entry hit src = entry :=
  foldl_of_not_hit fun j _ => hNone j

theorem written_of_hit {entry : α} {hit : Fin k → Bool} {src : Fin k → α} {j : Fin k}
    (hHit : hit j = true) (hOnly : ∀ other, hit other = true → other = j) :
    written entry hit src = src j := by
  have hMem := List.mem_finRange j
  unfold written
  generalize List.finRange k = order at hMem
  induction order generalizing entry with
  | nil => cases hMem
  | cons first rest ih =>
      rw [List.foldl_cons]
      by_cases hRest : j ∈ rest
      · exact ih hRest
      · obtain rfl : j = first := by
          rcases List.mem_cons.1 hMem with hFirst | hTail
          · exact hFirst
          · exact absurd hTail hRest
        -- nothing behind the last write hits the entry again
        rw [if_pos hHit]
        apply foldl_of_not_hit
        intro other hOther
        rw [Bool.eq_false_iff]
        intro hAgain
        exact hRest (hOnly other hAgain ▸ hOther)

/-! ### The selected groups in the full space -/

def groupOf (e : Fin (G * n)) : Fin G := (finProdFinEquiv.symm e).1

/-- The expert behind an entry of the selected groups. -/
def place (groups : Fin S → Fin G) (entry : Fin (S * n)) : Fin (G * n) :=
  finProdFinEquiv (groups (finProdFinEquiv.symm entry).1, (finProdFinEquiv.symm entry).2)

theorem place_injective {groups : Fin S → Fin G} (hGroups : Function.Injective groups) :
    Function.Injective (place groups : Fin (S * n) → Fin (G * n)) := by
  intro entry other hSame
  have hPair := Prod.mk.inj (finProdFinEquiv.injective hSame)
  apply finProdFinEquiv.symm.injective
  exact Prod.ext (hGroups hPair.1) hPair.2

theorem groupOf_place (groups : Fin S → Fin G) (entry : Fin (S * n)) :
    groupOf (place groups entry) = groups (finProdFinEquiv.symm entry).1 := by
  rw [groupOf, place, Equiv.symm_apply_apply]

theorem mem_range_place (groups : Fin S → Fin G) (e : Fin (G * n)) :
    e ∈ Set.range (place groups : Fin (S * n) → Fin (G * n)) ↔ groupOf e ∈ Set.range groups := by
  constructor
  · rintro ⟨entry, rfl⟩
    exact ⟨_, (groupOf_place groups entry).symm⟩
  · rintro ⟨s, hGroup⟩
    refine ⟨finProdFinEquiv (s, (finProdFinEquiv.symm e).2), ?_⟩
    rw [place, Equiv.symm_apply_apply, hGroup]
    exact finProdFinEquiv.apply_symm_apply e

/-- A scatter of whole groups puts each entry at its expert. -/
theorem scatterGroups_place {groups : Fin T → Fin S → Fin G} {t : Fin T}
    (hGroups : Function.Injective (groups t)) (x : Fin T → Fin G → Fin n → α)
    (src : Fin T → Fin S → Fin n → α) (entry : Fin (S * n)) :
    expertsFirst (scatterGroups x (fun t s _ => groups t s) src) (place (groups t) entry) t =
      src t (finProdFinEquiv.symm entry).1 (finProdFinEquiv.symm entry).2 := by
  rw [expertsFirst, place, Equiv.symm_apply_apply]
  apply written_of_hit
  · exact decide_eq_true rfl
  · intro other hHit
    exact hGroups (of_decide_eq_true hHit)

theorem scatterGroups_apart {groups : Fin T → Fin S → Fin G} {t : Fin T} {e : Fin (G * n)}
    (hApart : groupOf e ∉ Set.range (groups t)) (x : Fin T → Fin G → Fin n → α)
    (src : Fin T → Fin S → Fin n → α) :
    expertsFirst (scatterGroups x (fun t s _ => groups t s) src) e t =
      x t (finProdFinEquiv.symm e).1 (finProdFinEquiv.symm e).2 := by
  apply written_of_not_hit
  intro s
  apply decide_eq_false
  intro hHit
  exact hApart ⟨s, hHit⟩

theorem scatterRows_pick {index : Fin k → Fin T → Fin m} {t : Fin T}
    (hIndex : Function.Injective fun j => index j t) (x : Fin m → Fin T → α)
    (src : Fin k → Fin T → α) (j : Fin k) : scatterRows x index src (index j t) t = src j t := by
  apply written_of_hit
  · exact decide_eq_true rfl
  · intro other hHit
    exact hIndex (of_decide_eq_true hHit)

theorem scatterRows_apart {index : Fin k → Fin T → Fin m} {t : Fin T} {e : Fin m}
    (hApart : ∀ j, index j t ≠ e) (x : Fin m → Fin T → α) (src : Fin k → Fin T → α) :
    scatterRows x index src e t = x e t := by
  apply written_of_not_hit
  intro j
  exact decide_eq_false (hApart j)

end Table

/-! ### The routing -/

/-- The functions on the scores. `minScale` is the `1e-20` of `clamp_min`. -/
structure ScoreOps (K : Type) where
  sigmoid : K → K
  softmax : ∀ {n : Nat}, (Fin n → K) → Fin n → K
  minScale : K

/-- An `e_score_correction_bias`, which needs two experts in a group. -/
structure Correction (K : Type) (G epg : Nat) where
  bias : Fin (G * epg) → K
  two_le : 2 ≤ epg

/-- The arguments of the routing beside the logits, inside their shapes. -/
structure Router (K : Type) (G epg : Nat) where
  topK : Nat
  topkGroup : Nat
  scoringFunc : ScoringFunc
  renormalize : Bool
  correction : Option (Correction K G epg)
  topkGroup_le : topkGroup ≤ G
  topK_le : topK ≤ topkGroup * epg
  perGroup_pos : 0 < epg

theorem Router.topK_le_experts {K : Type} {G epg : Nat} (router : Router K G epg) :
    router.topK ≤ G * epg :=
  router.topK_le.trans (Nat.mul_le_mul_right epg router.topkGroup_le)

section Model

variable {K : Type} [Field K] [LinearOrder K] {T G epg k : Nat}

/-- `w / w.sum(dim=0).clamp_min(1e-20)` of a column. An entry is a number or minus infinity. -/
def rescale (minScale : K) (weights : Fin k → WithBot K) : Fin k → WithBot K :=
  let scale := max (∑ j, weights j) (minScale : WithBot K)
  fun j => (weights j).map (· / scale.unbotD minScale)

namespace Router

variable (ops : ScoreOps K) (router : Router K G epg)

/-- The scoring function, where it runs in front of the selection. -/
def scores (logits : Fin T → Fin (G * epg) → K) : Fin T → Fin (G * epg) → K :=
  match router.scoringFunc with
  | .sigmoid => fun t e => ops.sigmoid (logits t e)
  | .softmax =>
      if router.correction.isSome || !router.renormalize then fun t => ops.softmax (logits t)
      else logits
  | .plain => logits

/-- `torch.topk(group_scores, topk_group, dim=1)`. -/
def selectedGroupIdx (groupScores : Fin T → Fin G → K) : Fin T → Fin router.topkGroup → Fin G :=
  fun t => topk (groupScores t) router.topkGroup router.topkGroup_le

/-- The branch with a bias, in the full expert space. -/
def routeBiased (correction : Correction K G epg) (scores : Fin T → Fin (G * epg) → K) :
    Fin (G * epg) → Fin T → WithBot K :=
  let grouped := splitExperts scores
  let biased := splitExperts fun t e => scores t e + correction.bias e
  let groupScores := fun t g =>
    ∑ i : Fin 2, biased t g (topk (biased t g) 2 correction.two_le i)
  let selectedGroupIdx := router.selectedGroupIdx groupScores
  let idxExpanded := fun t s (_ : Fin epg) => selectedGroupIdx t s
  let gathered := gatherGroups grouped idxExpanded
  let minusInf : Fin T → Fin G → Fin epg → WithBot K := fun _ _ _ => ⊥
  let groupedMasked := scatterGroups minusInf idxExpanded fun t s i => (gathered t s i : WithBot K)
  let scoresT := expertsFirst groupedMasked
  let scoresForTopk := fun e t => scoresT e t + (correction.bias e : WithBot K)
  let selectedExperts := fun j t =>
    topk (fun e => scoresForTopk e t) router.topK router.topK_le_experts j
  let topkWeights := gatherRows scoresT selectedExperts
  let topkWeights :=
    if router.renormalize then fun j t => rescale ops.minScale (fun j => topkWeights j t) j
    else topkWeights
  scatterRows (fun _ _ => 0) selectedExperts topkWeights

/-- The branch without one, in the space of the selected groups. -/
def routePlain (scores : Fin T → Fin (G * epg) → K) : Fin (G * epg) → Fin T → WithBot K :=
  let grouped := splitExperts scores
  let groupScores := fun t g =>
    Finset.univ.sup' ⟨(⟨0, router.perGroup_pos⟩ : Fin epg), Finset.mem_univ _⟩ (grouped t g)
  let selectedGroupIdx := router.selectedGroupIdx groupScores
  let idxExpanded := fun t s (_ : Fin epg) => selectedGroupIdx t s
  let gathered := gatherGroups grouped idxExpanded
  let gatheredFlat := expertsFirst gathered
  let selectedExperts := fun j t => topk (fun e => gatheredFlat e t) router.topK router.topK_le j
  let topkWeights := gatherRows gatheredFlat selectedExperts
  let topkWeights : Fin router.topK → Fin T → WithBot K :=
    match router.scoringFunc, router.renormalize with
    | _, false => fun j t => topkWeights j t
    | .softmax, true => fun j t => ops.softmax (fun j => topkWeights j t) j
    | _, true => fun j t => rescale ops.minScale (fun j => (topkWeights j t : WithBot K)) j
  let routedFlat := scatterRows (fun _ _ => 0) selectedExperts topkWeights
  let routedT := tokensFirst routedFlat
  let resultT := scatterGroups (fun _ _ _ => 0) idxExpanded routedT
  expertsFirst resultT

/-- `_apply_grouped_topk_torch`. -/
def applyGroupedTopkTorch (logits : Fin T → Fin (G * epg) → K) :
    Fin (G * epg) → Fin T → WithBot K :=
  match router.correction with
  | some correction => router.routeBiased ops correction (router.scores ops logits)
  | none => router.routePlain ops (router.scores ops logits)

end Router

theorem rescale_coe (minScale : K) (weights : Fin k → K) (j : Fin k) :
    rescale minScale (fun j => (weights j : WithBot K)) j =
      ((weights j / max (∑ j, weights j) minScale : K) : WithBot K) := by
  have hSum : ∑ j, (weights j : WithBot K) = ((∑ j, weights j : K) : WithBot K) := by
    induction (Finset.univ : Finset (Fin k)) using Finset.induction_on with
    | empty => rfl
    | insert j rest hNew ih =>
        rw [Finset.sum_insert hNew, Finset.sum_insert hNew, ih, WithBot.coe_add]
  rw [rescale, hSum, ← WithBot.coe_max, WithBot.unbotD_coe]
  rfl

/-- A higher logit has a higher softmax, and only a higher one. -/
def ScoreOps.SoftmaxIncreasing (ops : ScoreOps K) : Prop :=
  ∀ {n : Nat} (logits : Fin n → K) (i j : Fin n),
    ops.softmax logits i ≤ ops.softmax logits j ↔ logits i ≤ logits j

/-! ### What is routed -/

/-- The sum of the `count` highest values. -/
def BestSum {ι : Type} (count : Nat) (values : ι → K) (total : K) : Prop :=
  ∃ picks : Fin count → ι, IsTopk values (fun _ => True) picks ∧ total = ∑ i, values (picks i)

namespace Router

variable (ops : ScoreOps K) (router : Router K G epg)

/-- A token's scores. -/
def ownScore (logits : Fin (G * epg) → K) : Fin (G * epg) → K :=
  match router.scoringFunc with
  | .sigmoid => fun e => ops.sigmoid (logits e)
  | .softmax => ops.softmax logits
  | .plain => logits

/-- What a token's experts compete by. -/
def rank (logits : Fin (G * epg) → K) (e : Fin (G * epg)) : K :=
  match router.correction with
  | some correction => router.ownScore ops logits e + correction.bias e
  | none => router.ownScore ops logits e

/-- The weight of the `j`-th of the selected experts. -/
def weight (logits : Fin (G * epg) → K) (experts : Fin router.topK → Fin (G * epg))
    (j : Fin router.topK) : K :=
  if router.renormalize then
    match router.correction, router.scoringFunc with
    | none, .softmax => ops.softmax (fun j => logits (experts j)) j
    | _, _ => router.ownScore ops logits (experts j) /
        max (∑ j, router.ownScore ops logits (experts j)) ops.minScale
  else router.ownScore ops logits (experts j)

/-- A column of weights: those of the best experts of the best groups, and zeros. -/
structure Routes (logits : Fin (G * epg) → K) (column : Fin (G * epg) → WithBot K)
    (groupScore : Fin G → K) (groups : Fin router.topkGroup → Fin G)
    (experts : Fin router.topK → Fin (G * epg)) : Prop where
  groupScores : ∀ g, BestSum (if router.correction.isSome then 2 else 1)
    (fun i => router.rank ops logits (finProdFinEquiv (g, i))) (groupScore g)
  bestGroups : IsTopk groupScore (fun _ => True) groups
  bestExperts : IsTopk (router.rank ops logits) (fun e => groupOf e ∈ Set.range groups) experts
  selected : ∀ j, column (experts j) = router.weight ops logits experts j
  others : ∀ e, e ∉ Set.range experts → column e = 0

variable {ops router}

theorem routeBiased_routes {correction : Correction K G epg}
    (hCorrection : router.correction = some correction) (logits : Fin T → Fin (G * epg) → K)
    (t : Fin T) :
    ∃ groupScore groups experts, router.Routes ops (logits t)
      (fun e => router.routeBiased ops correction
        (fun t => router.ownScore ops (logits t)) e t) groupScore groups experts := by
  let scores : Fin T → Fin (G * epg) → K := fun t => router.ownScore ops (logits t)
  let biased := splitExperts fun t e => scores t e + correction.bias e
  let groupScores : Fin T → Fin G → K := fun t g =>
    ∑ i : Fin 2, biased t g (topk (biased t g) 2 correction.two_le i)
  let groups : Fin T → Fin router.topkGroup → Fin G := router.selectedGroupIdx groupScores
  let gathered : Fin T → Fin router.topkGroup → Fin epg → K :=
    gatherGroups (splitExperts scores) fun t s _ => groups t s
  let scoresT : Fin (G * epg) → Fin T → WithBot K := expertsFirst
    (scatterGroups (fun _ _ _ => ⊥) (fun t s _ => groups t s) fun t s i => (gathered t s i))
  let experts : Fin router.topK → Fin T → Fin (G * epg) := fun j t =>
    topk (fun e => scoresT e t + (correction.bias e : WithBot K)) router.topK
      router.topK_le_experts j
  have hRank : ∀ e, router.rank ops (logits t) e = scores t e + correction.bias e := by
    intro e
    rw [rank, hCorrection]
  have hGroups : IsTopk (groupScores t) (fun _ => True) (groups t) := topk_isTopk _ _
  have hShown : ∀ entry, scoresT (place (groups t) entry) t = scores t (place (groups t) entry) := by
    intro entry
    exact scatterGroups_place hGroups.injective _ _ entry
  have hHidden : ∀ e, groupOf e ∉ Set.range (groups t) → scoresT e t = ⊥ := by
    intro e hApart
    exact scatterGroups_apart hApart _ _
  have hTop : IsTopk (router.rank ops (logits t)) (fun e => groupOf e ∈ Set.range (groups t))
      (fun j => experts j t) := by
    have hMasked := IsTopk.of_masked (router.rank ops (logits t))
      (fun e => scoresT e t + (correction.bias e : WithBot K))
      (place_injective hGroups.injective) router.topK_le
      (fun entry => by rw [hShown, hRank, WithBot.coe_add])
      (fun e hOut => by
        rw [mem_range_place] at hOut
        rw [hHidden e hOut, WithBot.bot_add])
      (topk_isTopk _ router.topK_le_experts)
    simp only [mem_range_place] at hMasked
    exact hMasked
  have hOwn : ∀ j, gatherRows scoresT experts j t = scores t (experts j t) := by
    intro j
    obtain ⟨entry, hEntry⟩ := (mem_range_place (groups t) (experts j t)).2 (hTop.inside j)
    show scoresT (experts j t) t = _
    rw [← hEntry, hShown]
  have hRoute : router.routeBiased ops correction scores = scatterRows (fun _ _ => 0) experts
      (if router.renormalize then
        fun j t => rescale ops.minScale (fun j => gatherRows scoresT experts j t) j
      else gatherRows scoresT experts) := rfl
  refine ⟨groupScores t, groups t, fun j => experts j t, ?_, hGroups, hTop, ?_, ?_⟩
  · intro g
    rw [hCorrection]
    refine ⟨topk (biased t g) 2 correction.two_le, ?_, ?_⟩
    · simp only [hRank]
      exact topk_isTopk _ _
    · simp only [hRank]
      rfl
  · intro j
    refine (congrFun (congrFun hRoute _) t).trans ?_
    rw [scatterRows_pick hTop.injective, weight, hCorrection]
    cases router.renormalize with
    | true =>
        simp only [if_true, hOwn]
        exact rescale_coe _ _ j
    | false => exact hOwn j
  · intro e hOut
    apply (congrFun (congrFun hRoute _) t).trans
    exact scatterRows_apart (fun j hEq => hOut ⟨j, hEq⟩) _ _

/-- A group's maximum stands at one of its experts. -/
theorem bestSum_one {values : Fin epg → K} {i : Fin epg}
    (hMax : ∀ other, values other ≤ values i) : BestSum 1 values (values i) := by
  refine ⟨fun _ => i, ⟨Function.injective_of_subsingleton _, fun _ => trivial, ?_⟩, ?_⟩
  · intro other _ _ _
    exact hMax other
  · rw [Fin.sum_univ_one]

theorem routePlain_routes (hNone : router.correction = none)
    (scores logits : Fin T → Fin (G * epg) → K) (t : Fin T)
    (hOrder : ∀ e e', scores t e ≤ scores t e' →
      router.ownScore ops (logits t) e ≤ router.ownScore ops (logits t) e')
    (hRaw : router.scoringFunc = .softmax → router.renormalize = true → scores t = logits t)
    (hOwn : router.scoringFunc ≠ .softmax ∨ router.renormalize = false →
      scores t = router.ownScore ops (logits t)) :
    ∃ groupScore groups experts, router.Routes ops (logits t)
      (fun e => router.routePlain ops scores e t) groupScore groups experts := by
  let grouped : Fin T → Fin G → Fin epg → K := splitExperts scores
  let groupScores : Fin T → Fin G → K := fun t g =>
    Finset.univ.sup' ⟨(⟨0, router.perGroup_pos⟩ : Fin epg), Finset.mem_univ _⟩ (grouped t g)
  let groups : Fin T → Fin router.topkGroup → Fin G := router.selectedGroupIdx groupScores
  let gatheredFlat : Fin (router.topkGroup * epg) → Fin T → K :=
    expertsFirst (gatherGroups grouped fun t s _ => groups t s)
  let picks : Fin router.topK → Fin T → Fin (router.topkGroup * epg) := fun j t =>
    topk (fun entry => gatheredFlat entry t) router.topK router.topK_le j
  let taken : Fin router.topK → Fin T → K := gatherRows gatheredFlat picks
  let weights : Fin router.topK → Fin T → WithBot K :=
    match router.scoringFunc, router.renormalize with
    | _, false => fun j t => taken j t
    | .softmax, true => fun j t => ops.softmax (fun j => taken j t) j
    | _, true => fun j t => rescale ops.minScale (fun j => (taken j t : WithBot K)) j
  have hRoute : router.routePlain ops scores = expertsFirst (scatterGroups (fun _ _ _ => 0)
      (fun t s _ => groups t s) (tokensFirst (scatterRows (fun _ _ => 0) picks weights))) := rfl
  have hRank : router.rank ops (logits t) = router.ownScore ops (logits t) := by
    funext e
    rw [rank, hNone]
  have hGroups : IsTopk (groupScores t) (fun _ => True) (groups t) := topk_isTopk _ _
  have hPicks : IsTopk (fun entry => scores t (place (groups t) entry)) (fun _ => True)
      (fun j => picks j t) := topk_isTopk _ router.topK_le
  have hTop : IsTopk (router.rank ops (logits t)) (fun e => groupOf e ∈ Set.range (groups t))
      (fun j => place (groups t) (picks j t)) := by
    have hPlaced := (hPicks.map (place_injective hGroups.injective)).congr hOrder
    simp only [mem_range_place] at hPlaced
    rw [hRank]
    exact hPlaced
  -- the expert that gives a group its score
  have hMaxima : ∀ g, ∃ i, groupScores t g = grouped t g i := by
    intro g
    obtain ⟨i, -, hMax⟩ := Finset.exists_mem_eq_sup'
      ⟨(⟨0, router.perGroup_pos⟩ : Fin epg), Finset.mem_univ _⟩ (grouped t g)
    exact ⟨i, hMax⟩
  choose best hBest using hMaxima
  have hEntry : ∀ entry, router.routePlain ops scores (place (groups t) entry) t =
      scatterRows (fun _ _ => 0) picks weights entry t := by
    intro entry
    rw [hRoute, scatterGroups_place hGroups.injective, tokensFirst]
    exact congrArg (fun entry => scatterRows (fun _ _ => 0) picks weights entry t)
      (finProdFinEquiv.apply_symm_apply entry)
  refine ⟨fun g => router.ownScore ops (logits t) (finProdFinEquiv (g, best g)), groups t,
    fun j => place (groups t) (picks j t), ?_, ?_, hTop, ?_, ?_⟩
  · intro g
    rw [hNone, hRank]
    apply bestSum_one
    intro other
    apply hOrder
    show grouped t g other ≤ grouped t g (best g)
    rw [← hBest g]
    exact Finset.le_sup' (grouped t g) (Finset.mem_univ other)
  · apply hGroups.congr
    intro g g' hLe
    rw [hBest g, hBest g'] at hLe
    exact hOrder _ _ hLe
  · intro j
    have hPick : router.routePlain ops scores (place (groups t) (picks j t)) t = weights j t := by
      rw [hEntry]
      exact scatterRows_pick hPicks.injective _ weights j
    have hTaken : ∀ j, taken j t = scores t (place (groups t) (picks j t)) := fun _ => rfl
    refine hPick.trans ?_
    cases hRenorm : router.renormalize with
    | false =>
        have hScores := hOwn (Or.inr hRenorm)
        have hWeights : weights j t = (taken j t : WithBot K) := by
          simp only [weights, hRenorm]
        rw [hWeights, hTaken, hScores, weight, hRenorm]
        rfl
    | true =>
        cases hFunc : router.scoringFunc with
        | softmax =>
            have hScores := hRaw hFunc hRenorm
            have hWeights : weights j t =
                (ops.softmax (fun j => taken j t) j : WithBot K) := by
              simp only [weights, hRenorm, hFunc]
            rw [hWeights]
            simp only [hTaken, hScores, weight, hRenorm, hNone, hFunc, if_true]
        | sigmoid =>
            have hScores := hOwn (Or.inl (by rw [hFunc]; exact ScoringFunc.noConfusion))
            have hWeights : weights j t = rescale ops.minScale
                (fun j => (taken j t : WithBot K)) j := by
              simp only [weights, hRenorm, hFunc]
            rw [hWeights, rescale_coe]
            simp only [hTaken, hScores, weight, hRenorm, hNone, hFunc, if_true]
        | plain =>
            have hScores := hOwn (Or.inl (by rw [hFunc]; exact ScoringFunc.noConfusion))
            have hWeights : weights j t = rescale ops.minScale
                (fun j => (taken j t : WithBot K)) j := by
              simp only [weights, hRenorm, hFunc]
            rw [hWeights, rescale_coe]
            simp only [hTaken, hScores, weight, hRenorm, hNone, hFunc, if_true]
  · intro e hOut
    by_cases hGroup : groupOf e ∈ Set.range (groups t)
    · obtain ⟨entry, rfl⟩ := (mem_range_place (groups t) e).2 hGroup
      show router.routePlain ops scores _ t = 0
      rw [hEntry]
      apply scatterRows_apart
      intro j hEq
      exact hOut ⟨j, congrArg _ hEq⟩
    · apply (congrFun (congrFun hRoute e) t).trans
      exact scatterGroups_apart hGroup _ _

omit [Field K] [LinearOrder K] in
theorem scores_eq (ops : ScoreOps K) (router : Router K G epg) (logits : Fin T → Fin (G * epg) → K)
    (hFull : router.scoringFunc = .softmax → router.correction.isSome || !router.renormalize) :
    router.scores ops logits = fun t => router.ownScore ops (logits t) := by
  funext t
  cases hFunc : router.scoringFunc with
  | sigmoid => simp only [scores, ownScore, hFunc]
  | softmax => simp only [scores, ownScore, hFunc, hFull hFunc, if_true]
  | plain => simp only [scores, ownScore, hFunc]

/-- The weights of a column are those of its token's best experts, each at its own id. -/
theorem applyGroupedTopkTorch_routes (ops : ScoreOps K) (router : Router K G epg)
    (hSoftmax : ops.SoftmaxIncreasing) (logits : Fin T → Fin (G * epg) → K) (t : Fin T) :
    ∃ groupScore groups experts, router.Routes ops (logits t)
      (fun e => router.applyGroupedTopkTorch ops logits e t) groupScore groups experts := by
  cases hCorrection : router.correction with
  | some correction =>
      have hScores := scores_eq ops router logits fun _ => by
        rw [hCorrection]
        rfl
      rw [applyGroupedTopkTorch, hCorrection, hScores]
      exact routeBiased_routes hCorrection logits t
  | none =>
      rw [applyGroupedTopkTorch, hCorrection]
      by_cases hLate : router.scoringFunc = .softmax ∧ router.renormalize = true
      · -- the softmax comes behind the selection, which the logits order alike
        obtain ⟨hFunc, hRenorm⟩ := hLate
        have hScores : router.scores ops logits = logits := by
          simp only [scores, hFunc, hRenorm, hCorrection, Option.isSome_none, Bool.not_true,
            Bool.or_false, Bool.false_eq_true, if_false]
        rw [hScores]
        apply routePlain_routes hCorrection logits logits t
        · intro e e' hLe
          rw [ownScore, hFunc]
          exact (hSoftmax _ _ _).2 hLe
        · intro _ _
          rfl
        · rintro (hOther | hPlain)
          · exact absurd hFunc hOther
          · rw [hRenorm] at hPlain
            cases hPlain
      · have hScores := scores_eq ops router logits fun hFunc => by
          cases hRenorm : router.renormalize with
          | true => exact absurd ⟨hFunc, hRenorm⟩ hLate
          | false => exact Bool.or_true _
        rw [hScores]
        apply routePlain_routes hCorrection _ logits t
        · intro e e' hLe
          exact hLe
        · intro hFunc hRenorm
          exact absurd ⟨hFunc, hRenorm⟩ hLate
        · intro _
          rfl

end Router

end Model

/-! ### Over the reals -/

noncomputable def realOps : ScoreOps ℝ where
  sigmoid := Real.sigmoid
  softmax logits i := Real.exp (logits i) / ∑ j, Real.exp (logits j)
  minScale := 1 / 10 ^ 20

theorem realOps_softmaxIncreasing : realOps.SoftmaxIncreasing := by
  intro n logits i j
  have hSum : 0 < ∑ j, Real.exp (logits j) :=
    Finset.sum_pos (fun j _ => Real.exp_pos _) ⟨i, Finset.mem_univ i⟩
  show Real.exp (logits i) / _ ≤ Real.exp (logits j) / _ ↔ _
  rw [div_le_div_iff_of_pos_right hSum, Real.exp_le_exp]

/-- Two groups of two experts, one group for a token. -/
def pairRouter : Router ℝ 2 2 where
  topK := 2
  topkGroup := 1
  scoringFunc := .softmax
  renormalize := true
  correction := none
  topkGroup_le := Nat.le_succ 1
  topK_le := Nat.le_refl 2
  perGroup_pos := Nat.two_pos

theorem applyGroupedTopkTorch_routes_pair :
    ∃ groupScore groups experts, pairRouter.Routes realOps ![3, 1, 2, 4]
      (fun e => pairRouter.applyGroupedTopkTorch realOps (fun _ : Fin 1 => ![3, 1, 2, 4]) e 0)
      groupScore groups experts :=
  Router.applyGroupedTopkTorch_routes realOps pairRouter realOps_softmaxIncreasing
    (fun _ : Fin 1 => ![3, 1, 2, 4]) 0

/-- A single expert with a sigmoid. -/
def singleRouter : Router ℝ 1 1 where
  topK := 1
  topkGroup := 1
  scoringFunc := .sigmoid
  renormalize := true
  correction := none
  topkGroup_le := Nat.le_refl 1
  topK_le := Nat.le_refl 1
  perGroup_pos := Nat.one_pos

/-- Below the clamp a weight is not its share of the sum. -/
theorem renormalize_clamped :
    singleRouter.applyGroupedTopkTorch realOps (fun (_ : Fin 1) _ => -10 ^ 21) 0 0 ≠
      ((Real.sigmoid (-10 ^ 21) / ∑ _e : Fin 1, Real.sigmoid (-10 ^ 21) : ℝ) : WithBot ℝ) := by
  have hPos : 0 < Real.sigmoid (-10 ^ 21) := Real.sigmoid_pos _
  have hSmall : Real.sigmoid (-10 ^ 21) < 1 / 10 ^ 20 := by
    have hExp := Real.add_one_le_exp (10 ^ 21 : ℝ)
    rw [Real.sigmoid_def, neg_neg, ← one_div]
    apply one_div_lt_one_div_of_lt (by positivity)
    linarith
  have hNone : singleRouter.correction = none := rfl
  obtain ⟨_, _, experts, hRoutes⟩ := Router.routePlain_routes hNone
    (fun (_ : Fin 1) _ => realOps.sigmoid (-10 ^ 21)) (fun _ _ => -10 ^ 21) 0
    (fun _ _ hLe => hLe) (fun hFunc => nomatch hFunc) (fun _ => rfl)
  let first : Fin singleRouter.topK := ⟨0, Nat.one_pos⟩
  have hWeight := hRoutes.selected first
  have hFirst : experts first = 0 := by
    apply Fin.ext
    have hLt := (experts first).isLt
    omega
  rw [hFirst] at hWeight
  have hClamped : singleRouter.weight realOps (fun _ => -10 ^ 21) experts first =
      Real.sigmoid (-10 ^ 21) / (1 / 10 ^ 20) := by
    show Real.sigmoid (-10 ^ 21) / max (∑ _e : Fin 1, Real.sigmoid (-10 ^ 21)) (1 / 10 ^ 20) = _
    rw [Fin.sum_univ_one, max_eq_right hSmall.le]
  have hRoute : singleRouter.applyGroupedTopkTorch realOps (fun (_ : Fin 1) _ => -10 ^ 21) 0 0 =
      (Real.sigmoid (-10 ^ 21) / (1 / 10 ^ 20) : ℝ) := by
    rw [← hClamped]
    exact hWeight
  rw [hRoute, Fin.sum_univ_one, div_self hPos.ne']
  intro hSame
  have hOne := WithBot.coe_injective hSame
  rw [div_eq_one_iff_eq (by positivity)] at hOne
  exact absurd hOne hSmall.ne

end VllmRbln.FusedMoe.GroupedTopk
