import VllmRbln.Common.Permute
import Mathlib.Data.List.GetD

/-! The reordering of the persistent batch (`_may_reorder_batch` of
`v1/worker/rbln_model_runner.py`, `reorder_input_batch` of `v1/worker/utils.py`). The order is
applied twice over: to the fields of the batch in one gather, and as exchange records which the
logits processors replay over what they keep of each row. -/
namespace VllmRbln.ModelRunner

open Permute

inductive MoveDirectionality where
  | unidirectional
  | swap
  deriving DecidableEq, Repr

/-- A record of `batch_update_builder.moved`. -/
structure MoveRecord where
  src : Nat
  dst : Nat
  direction : MoveDirectionality
  deriving DecidableEq, Repr

/-- What the record does to the rows of a logits processor. -/
def MoveRecord.replay {β : Type*} (move : MoveRecord) (rows : Nat → β) : Nat → β :=
  match move.direction with
  | .unidirectional => Function.update rows move.dst (rows move.src)
  | .swap => exchange move.src move.dst rows

/-- The records of a step, in order. -/
def replay {β : Type*} (moves : List MoveRecord) (rows : Nat → β) : Nat → β :=
  moves.foldl (fun rows move => move.replay rows) rows

/-- One of `block_table.block_tables`. -/
structure BlockTable where
  numBlocksPerRow : List Nat
  blockTable : List (List Nat)
  deriving DecidableEq

/-- The rows that a pooling model does without. -/
structure SamplingRows (Scalar Generator : Type) where
  temperatureCpu : List Scalar
  topPCpu : List Scalar
  topKCpu : List Int
  frequencyPenaltiesCpu : List Scalar
  presencePenaltiesCpu : List Scalar
  repetitionPenaltiesCpu : List Scalar
  numAcceptedTokensCpu : List Nat
  generators : List (Nat × Generator)
  badWordsTokenIds : List (Nat × List (List Int))
  allowedTokenIdsMaskCpuTensor : Option (List (List Bool))
  deriving DecidableEq

/-- The persistent batch. Arrays have a row for every request it may hold, dictionaries are keyed
by row but for `req_id_to_index`, and `max_model_len` is the width of the token arrays. -/
structure InputBatch (ReqId Scalar Embeds Generator : Type) where
  isPoolingModel : Bool
  maxModelLen : Nat
  reqIds : List (Option ReqId)
  reqIdToIndex : List (ReqId × Nat)
  reqOutputTokenIds : List (Option (List Int))
  specTokenIds : List (List Int)
  numTokensNoSpec : List Nat
  numPromptTokens : List Nat
  numComputedTokensCpu : List Nat
  tokenIdsCpu : List (List Int)
  isTokenIds : List (List Bool)
  reqPromptEmbeds : List (Nat × Embeds)
  blockTables : List BlockTable
  requestLoraMapping : List Nat
  sampling : SamplingRows Scalar Generator
  moved : List MoveRecord
  deriving DecidableEq

variable {ReqId Scalar Embeds Generator : Type}

/-! ### The gather -/

/-- The columns that mean anything. -/
def InputBatch.validW (ib : InputBatch ReqId Scalar Embeds Generator) (n : Nat) : Option Nat := do
  let maxSpec := (((ib.specTokenIds.take n).map List.length).max?).getD 0
  -- `.max()` of no rows is a ValueError
  let longest ← (ib.numTokensNoSpec.take n).max?
  return min (longest + maxSpec) ib.maxModelLen

/-- Columns of row `k` that hold its tokens and drafts. -/
def InputBatch.tokenColumns (ib : InputBatch ReqId Scalar Embeds Generator) (k : Nat) : Nat :=
  min (ib.numTokensNoSpec.getD k 0 + (ib.specTokenIds.getD k []).length) ib.maxModelLen

theorem le_max? {values : List Nat} {largest value : Nat} (hMax : values.max? = some largest)
    (hMem : value ∈ values) : value ≤ largest :=
  (List.max?_eq_some_iff.1 hMax).2 value hMem

theorem getD_mem_take {α : Type*} {rows : List α} {k n : Nat} (hRow : k < n)
    (hFit : n ≤ rows.length) (default : α) : rows.getD k default ∈ rows.take n := by
  apply List.mem_of_getElem? (i := k)
  rw [List.getElem?_take_of_lt hRow, List.getD_eq_getElem?_getD,
    List.getElem?_eq_getElem (Nat.lt_of_lt_of_le hRow hFit), Option.getD_some]

/-- The gathered columns take in the tokens and drafts of every row. -/
theorem tokenColumns_le_validW {ib : InputBatch ReqId Scalar Embeds Generator} {n width : Nat}
    (hWidth : ib.validW n = some width) {k : Nat} (hRow : k < n)
    (hTokens : n ≤ ib.numTokensNoSpec.length) (hSpec : n ≤ ib.specTokenIds.length) :
    ib.tokenColumns k ≤ width := by
  unfold InputBatch.validW at hWidth
  cases hMax : (ib.numTokensNoSpec.take n).max? with
  | none => simp [hMax] at hWidth
  | some longest =>
      simp only [hMax, Option.bind_eq_bind, Option.bind_some, Option.pure_def,
        Option.some.injEq] at hWidth
      have hToks : ib.numTokensNoSpec.getD k 0 ≤ longest :=
        le_max? hMax (getD_mem_take hRow hTokens 0)
      have hDrafts : (ib.specTokenIds.getD k []).length ≤
          (((ib.specTokenIds.take n).map List.length).max?).getD 0 := by
        have hMem : (ib.specTokenIds.getD k []).length ∈
            (ib.specTokenIds.take n).map List.length :=
          List.mem_map_of_mem (getD_mem_take hRow hSpec [])
        cases hLongest : ((ib.specTokenIds.take n).map List.length).max? with
        | none =>
            rw [List.max?_eq_none_iff] at hLongest
            rw [hLongest] at hMem
            cases hMem
        | some maxSpec => exact le_max? hLongest hMem
      unfold InputBatch.tokenColumns
      omega

theorem validW_isSome {ib : InputBatch ReqId Scalar Embeds Generator} {n : Nat} (hSome : 0 < n)
    (hTokens : n ≤ ib.numTokensNoSpec.length) : ∃ width, ib.validW n = some width := by
  unfold InputBatch.validW
  cases hMax : (ib.numTokensNoSpec.take n).max? with
  | none =>
      rw [List.max?_eq_none_iff, List.take_eq_nil_iff] at hMax
      rcases hMax with hZero | hNil
      · omega
      · rw [hNil, List.length_nil] at hTokens
        omega
  | some longest => exact ⟨_, rfl⟩

theorem validW_le {ib : InputBatch ReqId Scalar Embeds Generator} {n width : Nat}
    (hWidth : ib.validW n = some width) : width ≤ ib.maxModelLen := by
  unfold InputBatch.validW at hWidth
  cases hMax : (ib.numTokensNoSpec.take n).max? with
  | none => simp [hMax] at hWidth
  | some longest =>
      simp only [hMax, Option.bind_eq_bind, Option.bind_some, Option.pure_def,
        Option.some.injEq] at hWidth
      omega

variable [DecidableEq ReqId]

/-- `req_id_to_index[rid] = k`, unless the row has no id. -/
def assignId (reqIdToIndex : List (ReqId × Nat)) : Option ReqId × Nat → List (ReqId × Nat)
  | (none, _) => reqIdToIndex
  | (some rid, k) => Dict.assign rid k reqIdToIndex

def reindexIds (reqIds : List (Option ReqId)) (reqIdToIndex : List (ReqId × Nat)) :
    List (ReqId × Nat) :=
  reqIds.zipIdx.foldl assignId reqIdToIndex

def BlockTable.reorder (perm : List Nat) (bt : BlockTable) : Option BlockTable := do
  let numBlocksPerRow ← reindex perm bt.numBlocksPerRow
  let blockTable ← reindex perm bt.blockTable
  return { numBlocksPerRow, blockTable }

/-- The mask is there once a request restricts its tokens. -/
def reorderMask (perm : List Nat) : Option (List (List Bool)) → Option (Option (List (List Bool)))
  | none => some none
  | some mask => (reindex perm mask).map some

def SamplingRows.reorder (perm : List Nat) (rows : SamplingRows Scalar Generator) :
    Option (SamplingRows Scalar Generator) := do
  let temperatureCpu ← reindex perm rows.temperatureCpu
  let topPCpu ← reindex perm rows.topPCpu
  let topKCpu ← reindex perm rows.topKCpu
  let frequencyPenaltiesCpu ← reindex perm rows.frequencyPenaltiesCpu
  let presencePenaltiesCpu ← reindex perm rows.presencePenaltiesCpu
  let repetitionPenaltiesCpu ← reindex perm rows.repetitionPenaltiesCpu
  let numAcceptedTokensCpu ← reindex perm rows.numAcceptedTokensCpu
  let allowedTokenIdsMaskCpuTensor ← reorderMask perm rows.allowedTokenIdsMaskCpuTensor
  return {
    temperatureCpu, topPCpu, topKCpu, frequencyPenaltiesCpu, presencePenaltiesCpu,
    repetitionPenaltiesCpu, numAcceptedTokensCpu, allowedTokenIdsMaskCpuTensor
    generators := rekey perm rows.generators
    badWordsTokenIds := rekey perm rows.badWordsTokenIds }

/-- A pooling model returns before its sampling rows. -/
def InputBatch.reorderSampling (perm : List Nat) (ib : InputBatch ReqId Scalar Embeds Generator) :
    Option (SamplingRows Scalar Generator) :=
  if ib.isPoolingModel then some ib.sampling else ib.sampling.reorder perm

/-- `reorder_input_batch`; none is an exception. -/
def reorderInputBatch (perm : List Nat) (ib : InputBatch ReqId Scalar Embeds Generator) :
    Option (InputBatch ReqId Scalar Embeds Generator) := do
  let n := perm.length
  let validW ← ib.validW n
  let reqIds ← reindex perm ib.reqIds
  let reqOutputTokenIds ← reindex perm ib.reqOutputTokenIds
  let specTokenIds ← reindex perm ib.specTokenIds
  let reqIdToIndex := reindexIds (reqIds.take n) ib.reqIdToIndex
  let numTokensNoSpec ← reindex perm ib.numTokensNoSpec
  let numPromptTokens ← reindex perm ib.numPromptTokens
  let numComputedTokensCpu ← reindex perm ib.numComputedTokensCpu
  let tokenIdsCpu ← reindexColumns perm validW ib.tokenIdsCpu
  let isTokenIds ← reindexColumns perm validW ib.isTokenIds
  let reqPromptEmbeds :=
    if ib.reqPromptEmbeds.isEmpty then ib.reqPromptEmbeds else rekey perm ib.reqPromptEmbeds
  let blockTables ← ib.blockTables.mapM fun bt => bt.reorder perm
  let requestLoraMapping ← reindex perm ib.requestLoraMapping
  let sampling ← ib.reorderSampling perm
  return { ib with
    reqIds, reqIdToIndex, reqOutputTokenIds, specTokenIds, numTokensNoSpec, numPromptTokens,
    numComputedTokensCpu, tokenIdsCpu, isTokenIds, reqPromptEmbeds, blockTables,
    requestLoraMapping, sampling }

/-! ### The records -/

/-- The `while` loop over one cycle; none is out of fuel. -/
def followCycle (src : Nat) : Nat → Nat → List (Nat × Nat) → List MoveRecord →
    Option (List (Nat × Nat) × List MoveRecord)
  | 0, dst, srcToDst, moved => if src = dst then some (srcToDst, moved) else none
  | fuel + 1, dst, srcToDst, moved =>
      if src = dst then some (srcToDst, moved)
      else
        let nextDst := (srcToDst.lookup dst).getD dst
        followCycle src fuel nextDst (Dict.assign dst dst srcToDst) (moved ++ [⟨src, dst, .swap⟩])

/-- The `for` loop over the keys of `src_to_dst`, with `fuel` for each cycle. -/
def emitSwaps (fuel : Nat) : List Nat → List (Nat × Nat) → List MoveRecord →
    Option (List MoveRecord)
  | [], _, moved => some moved
  | src :: keys, srcToDst, moved => do
      let dst ← srcToDst.lookup src
      let (srcToDst, moved) ← followCycle src fuel dst srcToDst moved
      emitSwaps fuel keys srcToDst moved

/-- A pooling model has no logits processors to tell. -/
def InputBatch.emitMoved (n : Nat) (srcToDst : List (Nat × Nat))
    (ib : InputBatch ReqId Scalar Embeds Generator) : Option (List MoveRecord) :=
  if ib.isPoolingModel then some ib.moved
  else emitSwaps n (Dict.keys srcToDst) srcToDst ib.moved

/-- `np.all(toks[:-1] >= toks[1:])`. -/
def nonIncreasing (toks : List Nat) : Bool :=
  (List.zipWith (fun a b => decide (b ≤ a)) toks.dropLast toks.tail).all id

def InputBatch.withMoved (ib : InputBatch ReqId Scalar Embeds Generator)
    (moved : List MoveRecord) : InputBatch ReqId Scalar Embeds Generator :=
  { ib with moved }

/-- `_may_reorder_batch` past its shortcut. A cycle cannot be longer than the batch, whose size is
the fuel. -/
def sortBatch (ib : InputBatch ReqId Scalar Embeds Generator) :
    Option (InputBatch ReqId Scalar Embeds Generator) := do
  let n := ib.reqIds.length
  let toks := ib.numTokensNoSpec.take n
  let origIndices := List.range n
  let sortedOrder := argsortStable (toks.map fun tok : Nat => (tok : Int) * (-1))
  let srcIndices ← take sortedOrder origIndices
  let srcToDst := srcIndices.zip origIndices
  let moved ← ib.emitMoved n srcToDst
  reorderInputBatch sortedOrder (ib.withMoved moved)

/-- `_may_reorder_batch`. -/
def mayReorderBatch (sortBatchByLength : Bool) (kvCacheGroups : Nat)
    (ib : InputBatch ReqId Scalar Embeds Generator) :
    Option (InputBatch ReqId Scalar Embeds Generator) :=
  if !sortBatchByLength || kvCacheGroups == 0 then some ib
  else
    let n := ib.reqIds.length
    let toks := ib.numTokensNoSpec.take n
    if n ≤ 1 || nonIncreasing toks then some ib else sortBatch ib

/-! ### What a batch is, and what it is to be permuted -/

structure BlockTable.Fits (n : Nat) (bt : BlockTable) : Prop where
  counts : n ≤ bt.numBlocksPerRow.length
  rows : n ≤ bt.blockTable.length

structure SamplingRows.Fits (n : Nat) (rows : SamplingRows Scalar Generator) : Prop where
  temperature : n ≤ rows.temperatureCpu.length
  topP : n ≤ rows.topPCpu.length
  topK : n ≤ rows.topKCpu.length
  frequencyPenalties : n ≤ rows.frequencyPenaltiesCpu.length
  presencePenalties : n ≤ rows.presencePenaltiesCpu.length
  repetitionPenalties : n ≤ rows.repetitionPenaltiesCpu.length
  numAcceptedTokens : n ≤ rows.numAcceptedTokensCpu.length
  generators : ∀ k ∈ Dict.keys rows.generators, k < n
  badWords : ∀ k ∈ Dict.keys rows.badWordsTokenIds, k < n
  allowedTokenIds : ∀ mask ∈ rows.allowedTokenIdsMaskCpuTensor, n ≤ mask.length

/-- The arrays have room for the requests, which are told apart by their ids. -/
structure InputBatch.WellFormed (ib : InputBatch ReqId Scalar Embeds Generator) : Prop where
  distinct : ib.reqIds.Nodup
  indexed : ∀ rid k, ib.reqIdToIndex.lookup rid = some k ↔ ib.reqIds[k]? = some (some rid)
  outputTokens : ib.reqIds.length ≤ ib.reqOutputTokenIds.length
  specTokens : ib.reqIds.length ≤ ib.specTokenIds.length
  numTokens : ib.reqIds.length ≤ ib.numTokensNoSpec.length
  numPromptTokens : ib.reqIds.length ≤ ib.numPromptTokens.length
  numComputedTokens : ib.reqIds.length ≤ ib.numComputedTokensCpu.length
  tokenIds : ib.reqIds.length ≤ ib.tokenIdsCpu.length
  isTokenIds : ib.reqIds.length ≤ ib.isTokenIds.length
  tokenWidth : ∀ row ∈ ib.tokenIdsCpu, row.length = ib.maxModelLen
  isTokenWidth : ∀ row ∈ ib.isTokenIds, row.length = ib.maxModelLen
  promptEmbeds : ∀ k ∈ Dict.keys ib.reqPromptEmbeds, k < ib.reqIds.length
  tables : ∀ bt ∈ ib.blockTables, bt.Fits ib.reqIds.length
  loraMapping : ib.reqIds.length ≤ ib.requestLoraMapping.length
  sampling : ib.isPoolingModel = false → ib.sampling.Fits ib.reqIds.length

structure BlockTable.Permuted (order : List Nat) (old new : BlockTable) : Prop where
  counts : Moved order old.numBlocksPerRow new.numBlocksPerRow
  rows : Moved order old.blockTable new.blockTable

structure SamplingRows.Permuted (order : List Nat) (old new : SamplingRows Scalar Generator) :
    Prop where
  temperature : Moved order old.temperatureCpu new.temperatureCpu
  topP : Moved order old.topPCpu new.topPCpu
  topK : Moved order old.topKCpu new.topKCpu
  frequencyPenalties : Moved order old.frequencyPenaltiesCpu new.frequencyPenaltiesCpu
  presencePenalties : Moved order old.presencePenaltiesCpu new.presencePenaltiesCpu
  repetitionPenalties : Moved order old.repetitionPenaltiesCpu new.repetitionPenaltiesCpu
  numAcceptedTokens : Moved order old.numAcceptedTokensCpu new.numAcceptedTokensCpu
  generators : MovedKeys order old.generators new.generators
  badWords : MovedKeys order old.badWordsTokenIds new.badWordsTokenIds
  allowedTokenIds : Option.Rel (Moved order) old.allowedTokenIdsMaskCpuTensor
    new.allowedTokenIdsMaskCpuTensor

/-- Every field has moved by the one order; the sampling rows of a pooling model, which it does
not use, have not. -/
structure InputBatch.Permuted (order : List Nat)
    (old new : InputBatch ReqId Scalar Embeds Generator) : Prop where
  reqIds : Moved order old.reqIds new.reqIds
  reqIdToIndex : ∀ rid k,
    new.reqIdToIndex.lookup rid = some k ↔ old.reqIdToIndex.lookup rid = some (source order k)
  outputTokens : Moved order old.reqOutputTokenIds new.reqOutputTokenIds
  specTokens : Moved order old.specTokenIds new.specTokenIds
  numTokens : Moved order old.numTokensNoSpec new.numTokensNoSpec
  numPromptTokens : Moved order old.numPromptTokens new.numPromptTokens
  numComputedTokens : Moved order old.numComputedTokensCpu new.numComputedTokensCpu
  tokenIds : ∀ k < old.reqIds.length, ∀ col < old.tokenColumns (source order k),
    (new.tokenIdsCpu.getD k [])[col]? = (old.tokenIdsCpu.getD (source order k) [])[col]?
  isTokenIds : ∀ k < old.reqIds.length, ∀ col < old.tokenColumns (source order k),
    (new.isTokenIds.getD k [])[col]? = (old.isTokenIds.getD (source order k) [])[col]?
  promptEmbeds : MovedKeys order old.reqPromptEmbeds new.reqPromptEmbeds
  tables : List.Forall₂ (BlockTable.Permuted order) old.blockTables new.blockTables
  loraMapping : Moved order old.requestLoraMapping new.requestLoraMapping
  sampling : if old.isPoolingModel then new.sampling = old.sampling
    else SamplingRows.Permuted order old.sampling new.sampling

/-- Longest first, rows of one length in their old order. -/
def StableDescending (toks : List Nat) (order : List Nat) : Prop :=
  order.Pairwise fun i j =>
    toks.getD j 0 < toks.getD i 0 ∨ toks.getD i 0 = toks.getD j 0 ∧ i < j

/-! ### The records do what the order does -/

theorem replay_append {β : Type*} (first second : List MoveRecord) (rows : Nat → β) :
    replay (first ++ second) rows = replay second (replay first rows) :=
  List.foldl_append

/-- `src_to_dst.get(x, x)`. -/
def destination (srcToDst : List (Nat × Nat)) (x : Nat) : Nat := (srcToDst.lookup x).getD x

theorem destination_assign (srcToDst : List (Nat × Nat)) (dst : Nat) :
    destination (Dict.assign dst dst srcToDst) =
      Function.update (destination srcToDst) dst dst := by
  funext x
  rw [destination, Dict.lookup_assign]
  by_cases hDst : x = dst
  · subst hDst
    rw [if_pos rfl, Option.getD_some, Function.update_self]
  · rw [if_neg hDst, Function.update_of_ne hDst, destination]

/-- The loop over a cycle ends, and what it emitted and what is left are what was left before. -/
theorem followCycle_spec {rest : Equiv.Perm Nat} {done : List Nat} {src dst fuel : Nat}
    {srcToDst : List (Nat × Nat)} {keys : Finset Nat} (moved : List MoveRecord)
    (hChasing : Chasing rest (destination srcToDst) done src dst)
    (hKeys : ∀ x, rest x ≠ x → x ∈ keys) (hFuel : (misplaced keys rest).card ≤ fuel) :
    ∃ rest' srcToDst' emitted,
      followCycle src fuel dst srcToDst moved = some (srcToDst', moved ++ emitted) ∧
      Pending rest' (destination srcToDst') (src :: done) ∧
      (∀ x, rest' x ≠ x → rest x ≠ x) ∧
      (∀ x ∈ Dict.keys srcToDst, x ∈ Dict.keys srcToDst') ∧
      ∀ (β : Type) (rows : Nat → β), replay emitted rows ∘ rest'.symm = rows ∘ rest.symm := by
  induction fuel generalizing rest dst srcToDst moved with
  | zero =>
      have hBack : src = dst := by
        by_contra hNe
        have hFewer := hChasing.misplaced_lt hNe hKeys
        omega
      refine ⟨rest, srcToDst, [], ?_, hChasing.close hBack, fun _ hMoved => hMoved,
        fun _ hMem => hMem, fun _ _ => rfl⟩
      rw [followCycle, if_pos hBack, List.append_nil]
  | succ fuel ih =>
      by_cases hBack : src = dst
      · refine ⟨rest, srcToDst, [], ?_, hChasing.close hBack, fun _ hMoved => hMoved,
          fun _ hMem => hMem, fun _ _ => rfl⟩
        rw [followCycle, if_pos hBack, List.append_nil]
      · have hFewer := hChasing.misplaced_lt hBack hKeys
        have hNext := hChasing.exchange hBack
        rw [← destination_assign] at hNext
        obtain ⟨rest', srcToDst', emitted, hRun, hPending, hFixed, hSame, hReplay⟩ :=
          ih (moved ++ [⟨src, dst, .swap⟩]) hNext
            (fun x hMoved => hKeys x (hChasing.moved_of_exchange hBack hMoved)) (by omega)
        refine ⟨rest', srcToDst', ⟨src, dst, .swap⟩ :: emitted, ?_, hPending, ?_, ?_, ?_⟩
        · rw [followCycle, if_neg hBack]
          show followCycle src fuel (destination srcToDst dst) _ _ = _
          rw [hRun, List.append_assoc, List.singleton_append]
        · intro x hMoved
          exact hChasing.moved_of_exchange hBack (hFixed x hMoved)
        · intro x hMem
          exact hSame x (Dict.mem_keys_assign.2 (Or.inr hMem))
        · intro β rows
          rw [← exchange_comp rest src dst rows, ← hReplay β (exchange src dst rows)]
          rfl

/-- Once every cycle is closed the records have done all there was to do. -/
theorem emitSwaps_spec {rest : Equiv.Perm Nat} {done keys : List Nat} {fuel : Nat}
    {srcToDst : List (Nat × Nat)} {all : Finset Nat} (moved : List MoveRecord)
    (hPending : Pending rest (destination srcToDst) done) (hNodup : keys.Nodup)
    (hFresh : ∀ x ∈ keys, x ∉ done) (hRows : ∀ x ∈ keys, x ∈ Dict.keys srcToDst)
    (hLeft : ∀ x, rest x ≠ x → x ∈ keys) (hAll : ∀ x, rest x ≠ x → x ∈ all)
    (hFuel : all.card ≤ fuel) :
    ∃ emitted, emitSwaps fuel keys srcToDst moved = some (moved ++ emitted) ∧
      ∀ (β : Type) (rows : Nat → β), replay emitted rows = rows ∘ rest.symm := by
  induction keys generalizing rest done srcToDst moved with
  | nil =>
      refine ⟨[], by rw [emitSwaps, List.append_nil], ?_⟩
      intro β rows
      funext x
      have hFixed : rest x = x := by
        by_contra hMoved
        cases hLeft x hMoved
      show rows x = rows (rest.symm x)
      rw [rest.symm_apply_eq.2 hFixed.symm]
  | cons src keys ih =>
      obtain ⟨hNot, hRest⟩ := List.nodup_cons.1 hNodup
      obtain ⟨dst, hDst⟩ :=
        Option.isSome_iff_exists.1 (Dict.lookup_isSome.2 (hRows src List.mem_cons_self))
      have hHead : destination srcToDst src = dst := by
        rw [destination, hDst, Option.getD_some]
      have hChasing := hPending.chase (hFresh src List.mem_cons_self)
      rw [hHead] at hChasing
      have hEnough : (misplaced all rest).card ≤ fuel :=
        Nat.le_trans (Finset.card_filter_le _ _) hFuel
      obtain ⟨rest', srcToDst', first, hRun, hClosed, hFixed, hSame, hFirst⟩ :=
        followCycle_spec moved hChasing hAll hEnough
      obtain ⟨second, hTail, hSecond⟩ := ih (moved ++ first) hClosed hRest
        (by
          intro x hMem hDone
          rcases List.mem_cons.1 hDone with rfl | hDone
          · exact hNot hMem
          · exact hFresh x (List.mem_cons_of_mem _ hMem) hDone)
        (fun x hMem => hSame x (hRows x (List.mem_cons_of_mem _ hMem)))
        (by
          intro x hMoved
          rcases List.mem_cons.1 (hLeft x (hFixed x hMoved)) with rfl | hMem
          · exact absurd (hClosed.fixed x List.mem_cons_self) hMoved
          · exact hMem)
        (fun x hMoved => hAll x (hFixed x hMoved))
      refine ⟨first ++ second, ?_, ?_⟩
      · rw [emitSwaps, hDst, Option.bind_eq_bind, Option.bind_some, hRun, Option.bind_eq_bind,
          Option.bind_some]
        show emitSwaps fuel keys srcToDst' (moved ++ first) = _
        rw [hTail, List.append_assoc]
      · intro β rows
        rw [replay_append, hSecond, hFirst]

/-- The records of the whole loop put every row where the gather puts it. -/
theorem emitSwaps_order {order : List Nat} (hPerm : order.Perm (List.range order.length))
    (moved : List MoveRecord) :
    ∃ emitted, emitSwaps order.length (Dict.keys (order.zip (List.range order.length)))
        (order.zip (List.range order.length)) moved = some (moved ++ emitted) ∧
      ∀ (β : Type) (rows : Nat → β), replay emitted rows = rows ∘ source order := by
  have hNodup : order.Nodup := hPerm.nodup_iff.2 List.nodup_range
  have hMoves : ∀ x, ranking order hPerm x ≠ x → x ∈ order := by
    intro x hMoved
    by_contra hNot
    exact hMoved (target_of_not_mem hNot)
  have hPending : Pending (ranking order hPerm)
      (destination (order.zip (List.range order.length))) [] := ⟨nofun, fun _ _ => rfl⟩
  rw [keys_zip_range]
  apply emitSwaps_spec moved hPending hNodup (fun x _ => List.not_mem_nil) _ hMoves
    (fun x hMoved => List.mem_toFinset.2 (hMoves x hMoved)) (List.toFinset_card_le order)
  intro x hMem
  rwa [keys_zip_range]

/-! ### The gather moves every field -/

theorem lookup_assignId (index : List (ReqId × Nat)) (entry : Option ReqId) (k : Nat)
    (rid : ReqId) :
    (assignId index (entry, k)).lookup rid =
      if entry = some rid then some k else index.lookup rid := by
  cases entry with
  | none => simp [assignId]
  | some other =>
      rw [assignId, Dict.lookup_assign]
      simp [eq_comm]

/-- The ids of the batch are indexed by their rows, every other id as before. -/
theorem lookup_foldl_assignId {reqIds : List (Option ReqId)} (hDistinct : reqIds.Nodup)
    (base : Nat) (index : List (ReqId × Nat)) (rid : ReqId) :
    (some rid ∉ reqIds →
      ((reqIds.zipIdx base).foldl assignId index).lookup rid = index.lookup rid) ∧
    ∀ k : Nat, reqIds[k]? = some (some rid) →
      ((reqIds.zipIdx base).foldl assignId index).lookup rid = some (base + k) := by
  induction reqIds generalizing base index with
  | nil => exact ⟨fun _ => rfl, fun k hRow => nomatch hRow⟩
  | cons entry reqIds ih =>
      obtain ⟨hNot, hRest⟩ := List.nodup_cons.1 hDistinct
      obtain ⟨hOther, hIndexed⟩ := ih hRest (base + 1) (assignId index (entry, base))
      rw [List.zipIdx_cons, List.foldl_cons]
      constructor
      · intro hAbsent
        rw [List.mem_cons, not_or] at hAbsent
        rw [hOther hAbsent.2, lookup_assignId, if_neg (Ne.symm hAbsent.1)]
      · intro k hRow
        cases k with
        | zero =>
            rw [List.getElem?_cons_zero, Option.some.injEq] at hRow
            subst hRow
            rw [hOther hNot, lookup_assignId, if_pos rfl, Nat.add_zero]
        | succ k =>
            rw [List.getElem?_cons_succ] at hRow
            rw [hIndexed k hRow, Nat.add_right_comm, Nat.add_assoc]

/-- Ids that were indexed by their rows are indexed by their new rows. -/
theorem reindexIds_moved {order : List Nat} {old new : List (Option ReqId)}
    {reqIdToIndex : List (ReqId × Nat)} (hPerm : order.Perm (List.range order.length))
    (hLength : old.length = order.length) (hDistinct : old.Nodup)
    (hIndexed : ∀ rid k, reqIdToIndex.lookup rid = some k ↔ old[k]? = some (some rid))
    (hMoved : Moved order old new) (rid : ReqId) (k : Nat) :
    (reindexIds (new.take order.length) reqIdToIndex).lookup rid = some k ↔
      reqIdToIndex.lookup rid = some (source order k) := by
  have hWhole : new.take order.length = new :=
    List.take_of_length_le (by rw [hMoved.1, hLength])
  have hSource : ∀ j, source order ((ranking order hPerm) j) = j :=
    (ranking order hPerm).symm_apply_apply
  have hNew : new.Nodup := by
    apply List.nodup_iff_getElem?_ne_getElem?.2
    intro i j hLt hBound hEq
    have hSame : source order i = source order j := by
      rw [hMoved.2, hMoved.2] at hEq
      have hInside : source order i < old.length := by
        rw [hLength]
        apply source_lt hPerm
        rw [← hLength, ← hMoved.1]
        omega
      exact (List.getElem?_inj hInside hDistinct).1 hEq
    have hBack : i = j := (ranking order hPerm).symm.injective hSame
    omega
  obtain ⟨hOther, hRow⟩ := lookup_foldl_assignId hNew 0 reqIdToIndex rid
  rw [hIndexed, ← hMoved.2, hWhole, reindexIds]
  constructor
  · intro hLookup
    by_cases hMem : some rid ∈ new
    · obtain ⟨j, hJ⟩ := List.mem_iff_getElem?.1 hMem
      rw [hRow j hJ, Nat.zero_add, Option.some.injEq] at hLookup
      subst hLookup
      exact hJ
    · rw [hOther hMem, hIndexed] at hLookup
      exfalso
      apply hMem
      apply List.mem_of_getElem? (i := ranking order hPerm k)
      rw [hMoved.2, hSource, hLookup]
  · intro hK
    rw [hRow k hK, Nat.zero_add]

/-- An empty dictionary has nothing to move. -/
theorem rekey_unless_empty {α : Type*} {order : List Nat} {dict : List (Nat × α)}
    (hKeys : ∀ k ∈ Dict.keys dict, k < order.length) :
    MovedKeys order dict (if dict.isEmpty then dict else rekey order dict) := by
  by_cases hEmpty : dict.isEmpty
  · rw [if_pos hEmpty]
    intro k
    rw [List.isEmpty_iff.1 hEmpty, List.lookup_nil, List.lookup_nil]
  · rw [if_neg hEmpty]
    exact rekey_moved hKeys

section Gather

variable {order : List Nat} (hPerm : order.Perm (List.range order.length))

include hPerm

theorem BlockTable.reorder_permuted {bt : BlockTable} (hFits : bt.Fits order.length) :
    ∃ new, bt.reorder order = some new ∧ BlockTable.Permuted order bt new := by
  obtain ⟨counts, hCounts, movedCounts⟩ := reindex_moved hPerm hFits.counts
  obtain ⟨rows, hRows, movedRows⟩ := reindex_moved hPerm hFits.rows
  refine ⟨⟨counts, rows⟩, ?_, movedCounts, movedRows⟩
  rw [BlockTable.reorder, hCounts, hRows]
  rfl

theorem reorder_tables {tables : List BlockTable} (hFits : ∀ bt ∈ tables, bt.Fits order.length) :
    ∃ new, tables.mapM (fun bt => bt.reorder order) = some new ∧
      List.Forall₂ (BlockTable.Permuted order) tables new := by
  induction tables with
  | nil => exact ⟨[], rfl, List.Forall₂.nil⟩
  | cons bt tables ih =>
      obtain ⟨first, hFirst, movedFirst⟩ :=
        BlockTable.reorder_permuted hPerm (hFits bt List.mem_cons_self)
      obtain ⟨rest, hRest, movedRest⟩ := ih fun other hMem => hFits other (List.mem_cons_of_mem _ hMem)
      refine ⟨first :: rest, ?_, List.Forall₂.cons movedFirst movedRest⟩
      rw [List.mapM_cons, hFirst, hRest]
      rfl

theorem reorderMask_permuted {mask : Option (List (List Bool))}
    (hFits : ∀ rows ∈ mask, order.length ≤ rows.length) :
    ∃ new, reorderMask order mask = some new ∧ Option.Rel (Moved order) mask new := by
  cases mask with
  | none => exact ⟨none, rfl, Option.Rel.none⟩
  | some rows =>
      obtain ⟨new, hNew, moved⟩ := reindex_moved hPerm (hFits rows rfl)
      refine ⟨some new, ?_, Option.Rel.some moved⟩
      rw [reorderMask, hNew, Option.map_some]

theorem SamplingRows.reorder_permuted {rows : SamplingRows Scalar Generator}
    (hFits : rows.Fits order.length) :
    ∃ new, rows.reorder order = some new ∧ SamplingRows.Permuted order rows new := by
  obtain ⟨temperature, hTemperature, movedTemperature⟩ := reindex_moved hPerm hFits.temperature
  obtain ⟨topP, hTopP, movedTopP⟩ := reindex_moved hPerm hFits.topP
  obtain ⟨topK, hTopK, movedTopK⟩ := reindex_moved hPerm hFits.topK
  obtain ⟨frequency, hFrequency, movedFrequency⟩ := reindex_moved hPerm hFits.frequencyPenalties
  obtain ⟨presence, hPresence, movedPresence⟩ := reindex_moved hPerm hFits.presencePenalties
  obtain ⟨repetition, hRepetition, movedRepetition⟩ :=
    reindex_moved hPerm hFits.repetitionPenalties
  obtain ⟨accepted, hAccepted, movedAccepted⟩ := reindex_moved hPerm hFits.numAcceptedTokens
  obtain ⟨mask, hMask, movedMask⟩ := reorderMask_permuted hPerm hFits.allowedTokenIds
  refine ⟨⟨temperature, topP, topK, frequency, presence, repetition, accepted,
    rekey order rows.generators, rekey order rows.badWordsTokenIds, mask⟩, ?_, movedTemperature,
    movedTopP, movedTopK, movedFrequency, movedPresence, movedRepetition, movedAccepted,
    rekey_moved hFits.generators, rekey_moved hFits.badWords, movedMask⟩
  rw [SamplingRows.reorder, hTemperature, hTopP, hTopK, hFrequency, hPresence, hRepetition,
    hAccepted, hMask]
  rfl

/-- Rows of tokens whose gathered columns take in those of every request. -/
theorem columns_moved {α : Type*} {old new : List (List α)} {width maxModelLen k col : Nat}
    (hMoved : MovedColumns order width old new) (hWidth : ∀ row ∈ old, row.length = maxModelLen)
    (hInside : width ≤ maxModelLen) (hFit : order.length ≤ old.length) (hRow : k < order.length)
    (hCol : col < width) :
    (new.getD k [])[col]? = (old.getD (source order k) [])[col]? := by
  have hSource : source order k < old.length := Nat.lt_of_lt_of_le (source_lt hPerm hRow) hFit
  have hNew : k < new.length := by
    rw [hMoved.1]
    omega
  have hOldRow := List.getElem?_eq_getElem hSource
  have hNewRow := List.getElem?_eq_getElem hNew
  rw [List.getD_eq_getElem?_getD, List.getD_eq_getElem?_getD, hOldRow, hNewRow, Option.getD_some,
    Option.getD_some]
  apply hMoved.getElem? hNewRow hOldRow hCol
  rw [hWidth _ (List.getElem_mem hSource)]
  exact hInside

end Gather

variable {ib : InputBatch ReqId Scalar Embeds Generator}

omit [DecidableEq ReqId] in
theorem reorderSampling_permuted {order : List Nat}
    (hPerm : order.Perm (List.range order.length))
    (hFits : ib.isPoolingModel = false → ib.sampling.Fits order.length) :
    ∃ new, ib.reorderSampling order = some new ∧
      if ib.isPoolingModel then new = ib.sampling
        else SamplingRows.Permuted order ib.sampling new := by
  unfold InputBatch.reorderSampling
  cases hPooling : ib.isPoolingModel with
  | true => exact ⟨ib.sampling, rfl, rfl⟩
  | false => exact SamplingRows.reorder_permuted hPerm (hFits hPooling)

theorem reorderInputBatch_permuted {order : List Nat} (wf : ib.WellFormed)
    (hPerm : order.Perm (List.range order.length)) (hLength : ib.reqIds.length = order.length)
    (hSome : 0 < order.length) :
    ∃ new, reorderInputBatch order ib = some new ∧ ib.Permuted order new ∧
      new.moved = ib.moved := by
  have hFit : ∀ {size : Nat}, ib.reqIds.length ≤ size → order.length ≤ size := by
    intro size hSize
    rwa [← hLength]
  obtain ⟨width, hWidth⟩ := validW_isSome hSome (hFit wf.numTokens)
  have hInside := validW_le hWidth
  obtain ⟨reqIds, hReqIds, movedReqIds⟩ := reindex_moved hPerm (Nat.le_of_eq hLength.symm)
  obtain ⟨outputs, hOutputs, movedOutputs⟩ := reindex_moved hPerm (hFit wf.outputTokens)
  obtain ⟨specs, hSpecs, movedSpecs⟩ := reindex_moved hPerm (hFit wf.specTokens)
  obtain ⟨toks, hToks, movedToks⟩ := reindex_moved hPerm (hFit wf.numTokens)
  obtain ⟨prompts, hPrompts, movedPrompts⟩ := reindex_moved hPerm (hFit wf.numPromptTokens)
  obtain ⟨computed, hComputed, movedComputed⟩ := reindex_moved hPerm (hFit wf.numComputedTokens)
  obtain ⟨tokens, hTokens, movedTokens⟩ := reindexColumns_moved hPerm width (hFit wf.tokenIds)
  obtain ⟨flags, hFlags, movedFlags⟩ := reindexColumns_moved hPerm width (hFit wf.isTokenIds)
  have hTableFits : ∀ bt ∈ ib.blockTables, bt.Fits order.length := by
    rw [← hLength]
    exact wf.tables
  obtain ⟨tables, hTables, movedTables⟩ := reorder_tables hPerm hTableFits
  obtain ⟨lora, hLora, movedLora⟩ := reindex_moved hPerm (hFit wf.loraMapping)
  obtain ⟨sampling, hSampling, movedSampling⟩ := reorderSampling_permuted hPerm
    (fun hPooling => by rw [← hLength]; exact wf.sampling hPooling)
  have movedEmbeds := rekey_unless_empty (by rw [← hLength]; exact wf.promptEmbeds)
  refine ⟨{ ib with
    reqIds, reqOutputTokenIds := outputs, specTokenIds := specs
    reqIdToIndex := reindexIds (reqIds.take order.length) ib.reqIdToIndex
    numTokensNoSpec := toks, numPromptTokens := prompts, numComputedTokensCpu := computed
    tokenIdsCpu := tokens, isTokenIds := flags
    reqPromptEmbeds :=
      if ib.reqPromptEmbeds.isEmpty then ib.reqPromptEmbeds else rekey order ib.reqPromptEmbeds
    blockTables := tables, requestLoraMapping := lora, sampling }, ?_, ?_, rfl⟩
  · simp only [reorderInputBatch, hWidth, hReqIds, hOutputs, hSpecs, hToks, hPrompts, hComputed,
      hTokens, hFlags, hTables, hLora, hSampling, Option.bind_eq_bind, Option.bind_some,
      Option.pure_def]
  · have hColumns : ∀ k < ib.reqIds.length, ∀ col < ib.tokenColumns (source order k),
        k < order.length ∧ col < width := by
      intro k hRow col hCol
      rw [hLength] at hRow
      have hMeant := tokenColumns_le_validW hWidth (source_lt hPerm hRow) (hFit wf.numTokens)
        (hFit wf.specTokens)
      exact ⟨hRow, Nat.lt_of_lt_of_le hCol hMeant⟩
    exact {
      reqIds := movedReqIds
      reqIdToIndex := reindexIds_moved hPerm hLength wf.distinct wf.indexed movedReqIds
      outputTokens := movedOutputs
      specTokens := movedSpecs
      numTokens := movedToks
      numPromptTokens := movedPrompts
      numComputedTokens := movedComputed
      tokenIds := fun k hRow col hCol =>
        columns_moved hPerm movedTokens wf.tokenWidth hInside (hFit wf.tokenIds)
          (hColumns k hRow col hCol).1 (hColumns k hRow col hCol).2
      isTokenIds := fun k hRow col hCol =>
        columns_moved hPerm movedFlags wf.isTokenWidth hInside (hFit wf.isTokenIds)
          (hColumns k hRow col hCol).1 (hColumns k hRow col hCol).2
      promptEmbeds := movedEmbeds
      tables := movedTables
      loraMapping := movedLora
      sampling := movedSampling }

/-! ### The order -/

theorem nonIncreasing_pairwise {toks : List Nat} (hCheck : nonIncreasing toks = true) :
    toks.Pairwise (· ≥ ·) := by
  rw [← List.isChain_iff_pairwise]
  induction toks with
  | nil => exact List.IsChain.nil
  | cons first toks ih =>
      cases toks with
      | nil => exact List.IsChain.singleton first
      | cons second toks =>
          have hSplit : nonIncreasing (first :: second :: toks) =
              (decide (second ≤ first) && nonIncreasing (second :: toks)) := rfl
          rw [hSplit, Bool.and_eq_true, decide_eq_true_eq] at hCheck
          exact List.IsChain.cons_cons hCheck.1 (ih hCheck.2)

theorem argsort_descending (toks : List Nat) (n : Nat) :
    StableDescending (toks.take n)
      (argsortStable ((toks.take n).map fun tok : Nat => (tok : Int) * (-1))) := by
  have hKey : ∀ i, ((toks.take n).map fun tok : Nat => (tok : Int) * (-1)).getD i 0 =
      -((toks.take n).getD i 0 : Int) := by
    intro i
    rw [List.getD_eq_getElem?_getD, List.getElem?_map, List.getD_eq_getElem?_getD]
    cases (toks.take n)[i]? with
    | none => rfl
    | some tok =>
        simp only [Option.map_some, Option.getD_some]
        omega
  apply (argsortStable_before _).imp
  intro i j hBefore
  unfold Before at hBefore
  rw [hKey, hKey] at hBefore
  omega

/-- Sorted rows are already in the order they would be sorted into. -/
theorem range_descending {toks : List Nat} (hSorted : toks.Pairwise (· ≥ ·)) :
    StableDescending toks (List.range toks.length) := by
  apply List.pairwise_iff_getElem.2
  intro i j hI hJ hLt
  rw [List.getElem_range, List.getElem_range]
  rw [List.length_range] at hI hJ
  have hGe : toks[i] ≥ toks[j] := List.pairwise_iff_getElem.1 hSorted i j hI hJ hLt
  rw [List.getD_eq_getElem toks 0 hI, List.getD_eq_getElem toks 0 hJ]
  omega

/-- Lengths gathered in a descending order descend. -/
theorem StableDescending.pairwise {order toks new : List Nat}
    (hOrder : StableDescending toks order) (hLength : new.length = order.length)
    (hMoved : ∀ k < order.length, new[k]? = toks[source order k]?) : new.Pairwise (· ≥ ·) := by
  apply List.pairwise_iff_getElem.2
  intro i j hI hJ hLt
  rw [hLength] at hI hJ
  have hRow : ∀ k (hK : k < order.length), new[k] = toks.getD (order[k]) 0 := by
    intro k hK
    have hSource : source order k = order[k] := by
      rw [source, List.getElem?_eq_getElem hK, Option.getD_some]
    have hNew := hMoved k hK
    rw [List.getElem?_eq_getElem (by rwa [hLength]), hSource] at hNew
    rw [List.getD_eq_getElem?_getD, ← hNew, Option.getD_some]
  rw [hRow i hI, hRow j hJ]
  have hBefore := List.pairwise_iff_getElem.1 hOrder i j hI hJ hLt
  omega

/-- The batch that stays as it is has moved by the order it is in. -/
theorem InputBatch.permuted_range (ib : InputBatch ReqId Scalar Embeds Generator) :
    ib.Permuted (List.range ib.reqIds.length) ib := by
  have hMoved : ∀ {α : Type} (rows : List α), Moved (List.range ib.reqIds.length) rows rows := by
    intro α rows
    exact ⟨rfl, fun k => by rw [source_range]⟩
  have hKeys : ∀ {α : Type} (dict : List (Nat × α)),
      MovedKeys (List.range ib.reqIds.length) dict dict := by
    intro α dict k
    rw [source_range]
  have hMask : Option.Rel (Moved (List.range ib.reqIds.length))
      ib.sampling.allowedTokenIdsMaskCpuTensor ib.sampling.allowedTokenIdsMaskCpuTensor := by
    cases ib.sampling.allowedTokenIdsMaskCpuTensor with
    | none => exact Option.Rel.none
    | some mask => exact Option.Rel.some (hMoved mask)
  exact {
    reqIds := hMoved _
    reqIdToIndex := fun rid k => by rw [source_range]
    outputTokens := hMoved _
    specTokens := hMoved _
    numTokens := hMoved _
    numPromptTokens := hMoved _
    numComputedTokens := hMoved _
    tokenIds := fun k _ col _ => by rw [source_range]
    isTokenIds := fun k _ col _ => by rw [source_range]
    promptEmbeds := hKeys _
    tables := List.forall₂_same.2 fun bt _ => ⟨hMoved _, hMoved _⟩
    loraMapping := hMoved _
    sampling := by
      cases ib.isPoolingModel with
      | true => exact rfl
      | false =>
          exact ⟨hMoved _, hMoved _, hMoved _, hMoved _, hMoved _, hMoved _, hMoved _, hKeys _,
            hKeys _, hMask⟩ }

/-- Whether the runner sorts at all. -/
def Sorts (sortBatchByLength : Bool) (kvCacheGroups : Nat) : Prop :=
  sortBatchByLength = true ∧ kvCacheGroups ≠ 0

instance (sortBatchByLength : Bool) (kvCacheGroups : Nat) :
    Decidable (Sorts sortBatchByLength kvCacheGroups) :=
  inferInstanceAs (Decidable (_ ∧ _))

/-- The records replay the order, except that a pooling model has none. -/
def Replays (ib : InputBatch ReqId Scalar Embeds Generator) (order : List Nat)
    (emitted : List MoveRecord) : Prop :=
  if ib.isPoolingModel then emitted = []
  else ∀ (β : Type) (rows : Nat → β), replay emitted rows = rows ∘ source order

omit [DecidableEq ReqId] in
theorem replays_range (ib : InputBatch ReqId Scalar Embeds Generator) :
    Replays ib (List.range ib.reqIds.length) [] := by
  unfold Replays
  split
  · rfl
  · intro β rows
    funext k
    show rows k = rows (source _ k)
    rw [source_range]

omit [DecidableEq ReqId] in
theorem emitMoved_replays {order : List Nat} (hPerm : order.Perm (List.range order.length))
    (ib : InputBatch ReqId Scalar Embeds Generator) :
    ∃ emitted, ib.emitMoved order.length (order.zip (List.range order.length)) =
      some (ib.moved ++ emitted) ∧ Replays ib order emitted := by
  unfold InputBatch.emitMoved Replays
  cases hPooling : ib.isPoolingModel with
  | true => exact ⟨[], congrArg some (List.append_nil _).symm, rfl⟩
  | false => exact emitSwaps_order hPerm ib.moved

/-- A batch out of order is put in order. -/
theorem sortBatch_permuted (wf : ib.WellFormed) (hSome : 0 < ib.reqIds.length) :
    ∃ order new emitted, sortBatch ib = some new ∧
      order.Perm (List.range ib.reqIds.length) ∧ ib.Permuted order new ∧
      new.moved = ib.moved ++ emitted ∧ Replays ib order emitted ∧
      StableDescending (ib.numTokensNoSpec.take ib.reqIds.length) order := by
  let toks := ib.numTokensNoSpec.take ib.reqIds.length
  let order := argsortStable (toks.map fun tok : Nat => (tok : Int) * (-1))
  have hLength : order.length = ib.reqIds.length := by
    rw [length_argsortStable, List.length_map, List.length_take_of_le wf.numTokens]
  have hPerm : order.Perm (List.range order.length) := by
    have hArgsort := argsortStable_perm (toks.map fun tok : Nat => (tok : Int) * (-1))
    rwa [← length_argsortStable] at hArgsort
  obtain ⟨emitted, hEmit, hReplays⟩ := emitMoved_replays hPerm ib
  have wfMoved : (ib.withMoved (ib.moved ++ emitted)).WellFormed := { wf with }
  obtain ⟨new, hNew, hPermuted, hMoved⟩ :=
    reorderInputBatch_permuted wfMoved hPerm hLength.symm (by rw [hLength]; exact hSome)
  refine ⟨order, new, emitted, ?_, by rwa [hLength] at hPerm, { hPermuted with }, hMoved, hReplays,
    argsort_descending _ _⟩
  have hTake := take_range hPerm
  rw [hLength] at hTake hEmit
  unfold sortBatch
  show (take order (List.range ib.reqIds.length) >>= _) = _
  rw [hTake, Option.bind_eq_bind, Option.bind_some]
  show (ib.emitMoved ib.reqIds.length (order.zip (List.range ib.reqIds.length)) >>= _) = _
  rw [hEmit, Option.bind_eq_bind, Option.bind_some, hNew]

/-- What sorting does to the lengths themselves. -/
theorem InputBatch.Permuted.numTokens_pairwise {order : List Nat}
    {new : InputBatch ReqId Scalar Embeds Generator} (hPermuted : ib.Permuted order new)
    (hPerm : order.Perm (List.range ib.reqIds.length)) (wf : ib.WellFormed)
    (hOrder : StableDescending (ib.numTokensNoSpec.take ib.reqIds.length) order) :
    (new.numTokensNoSpec.take ib.reqIds.length).Pairwise (· ≥ ·) := by
  have hLength : order.length = ib.reqIds.length := by
    rw [hPerm.length_eq, List.length_range]
  apply hOrder.pairwise
  · rw [hLength, List.length_take_of_le]
    rw [hPermuted.numTokens.1]
    exact wf.numTokens
  · intro k hRow
    have hSource : source order k < ib.reqIds.length := by
      rw [← hLength] at hPerm ⊢
      exact source_lt hPerm hRow
    rw [hLength] at hRow
    rw [List.getElem?_take_of_lt hRow, List.getElem?_take_of_lt hSource, hPermuted.numTokens.2]

/-- Reordering the batch moves everything by one order: the fields, whatever their shape, and what
the logits processors keep when they replay the records. The batch ends up longest first, with
ties in their old order, where the runner sorts, and as it was where it does not. -/
theorem mayReorderBatch_aligned (sortBatchByLength : Bool) (kvCacheGroups : Nat)
    (wf : ib.WellFormed) :
    ∃ order new emitted, mayReorderBatch sortBatchByLength kvCacheGroups ib = some new ∧
      order.Perm (List.range ib.reqIds.length) ∧ ib.Permuted order new ∧
      new.moved = ib.moved ++ emitted ∧ Replays ib order emitted ∧
      if Sorts sortBatchByLength kvCacheGroups then
        StableDescending (ib.numTokensNoSpec.take ib.reqIds.length) order ∧
        (new.numTokensNoSpec.take ib.reqIds.length).Pairwise (· ≥ ·)
      else new = ib := by
  by_cases hSorts : Sorts sortBatchByLength kvCacheGroups
  · have hGate : (!sortBatchByLength || kvCacheGroups == 0) = false := by
      simp [hSorts.1, hSorts.2]
    simp only [mayReorderBatch, hGate, if_pos hSorts]
    by_cases hShortcut :
        (decide (ib.reqIds.length ≤ 1) ||
          nonIncreasing (ib.numTokensNoSpec.take ib.reqIds.length)) = true
    · have hSorted : (ib.numTokensNoSpec.take ib.reqIds.length).Pairwise (· ≥ ·) := by
        rcases Bool.or_eq_true_iff.1 hShortcut with hOne | hCheck
        · have hBound : (ib.numTokensNoSpec.take ib.reqIds.length).length ≤ 1 := by
            rw [List.length_take_of_le wf.numTokens]
            exact of_decide_eq_true hOne
          apply List.pairwise_iff_getElem.2
          intro i j hI hJ hLt
          omega
        · exact nonIncreasing_pairwise hCheck
      have hRange := range_descending hSorted
      rw [List.length_take_of_le wf.numTokens] at hRange
      exact ⟨List.range ib.reqIds.length, ib, [], if_pos hShortcut, List.Perm.refl _,
        ib.permuted_range, (List.append_nil _).symm, replays_range ib, hRange, hSorted⟩
    · have hSome : 0 < ib.reqIds.length := by
        rw [Bool.or_eq_true, decide_eq_true_eq, not_or] at hShortcut
        omega
      obtain ⟨order, new, emitted, hRun, hPerm, hPermuted, hMoved, hReplays, hOrder⟩ :=
        sortBatch_permuted wf hSome
      exact ⟨order, new, emitted, (if_neg hShortcut).trans hRun, hPerm, hPermuted, hMoved, hReplays,
        hOrder, hPermuted.numTokens_pairwise hPerm wf hOrder⟩
  · have hGate : (!sortBatchByLength || kvCacheGroups == 0) = true := by
      rw [Sorts, not_and_or, Decidable.not_not] at hSorts
      simpa using hSorts
    exact ⟨List.range ib.reqIds.length, ib, [], if_pos hGate, List.Perm.refl _,
      ib.permuted_range, (List.append_nil _).symm, replays_range ib, by rw [if_neg hSorts]⟩

/-- Two requests of lengths 1 and 2 in rows three tokens wide. The last columns are left over from
requests that held the rows before. -/
def shortFirst (isPoolingModel : Bool) : InputBatch Nat Nat Nat Nat where
  isPoolingModel := isPoolingModel
  maxModelLen := 3
  reqIds := [some 10, some 11]
  reqIdToIndex := [(10, 0), (11, 1)]
  reqOutputTokenIds := [some [], some [7]]
  specTokenIds := [[], []]
  numTokensNoSpec := [1, 2]
  numPromptTokens := [1, 1]
  numComputedTokensCpu := [0, 1]
  tokenIdsCpu := [[5, 9, 9], [6, 7, 8]]
  isTokenIds := [[true, true, true], [true, true, true]]
  reqPromptEmbeds := [(0, 3)]
  blockTables := [⟨[1, 2], [[4, 0], [5, 6]]⟩]
  requestLoraMapping := [0, 1]
  sampling := {
    temperatureCpu := [1, 2], topPCpu := [1, 2], topKCpu := [1, 2]
    frequencyPenaltiesCpu := [1, 2], presencePenaltiesCpu := [1, 2]
    repetitionPenaltiesCpu := [1, 2], numAcceptedTokensCpu := [1, 2]
    generators := [(1, 8)], badWordsTokenIds := [(0, [[2]])]
    allowedTokenIdsMaskCpuTensor := some [[true], [false]] }
  moved := []

theorem shortFirst_wellFormed : (shortFirst false).WellFormed where
  distinct := by decide
  indexed := by
    intro rid k
    show List.lookup rid [(10, 0), (11, 1)] = some k ↔
      ([some 10, some 11] : List (Option Nat))[k]? = some (some rid)
    rw [Dict.lookup_cons, Dict.lookup_cons, List.lookup_nil]
    match k with
    | 0 => grind
    | 1 => grind
    | k + 2 => grind
  outputTokens := Nat.le_refl 2
  specTokens := Nat.le_refl 2
  numTokens := Nat.le_refl 2
  numPromptTokens := Nat.le_refl 2
  numComputedTokens := Nat.le_refl 2
  tokenIds := Nat.le_refl 2
  isTokenIds := Nat.le_refl 2
  tokenWidth := by decide
  isTokenWidth := by decide
  promptEmbeds := by decide
  tables := by
    intro bt hMem
    rw [List.mem_singleton.1 hMem]
    exact ⟨Nat.le_refl 2, Nat.le_refl 2⟩
  loraMapping := Nat.le_refl 2
  sampling := fun _ => ⟨Nat.le_refl 2, Nat.le_refl 2, Nat.le_refl 2, Nat.le_refl 2, Nat.le_refl 2,
    Nat.le_refl 2, Nat.le_refl 2, by decide, by decide, by decide⟩

theorem mayReorderBatch_aligned_shortFirst :
    ∃ order new emitted, mayReorderBatch true 1 (shortFirst false) = some new ∧
      order.Perm (List.range 2) ∧ (shortFirst false).Permuted order new ∧
      new.moved = [] ++ emitted ∧ Replays (shortFirst false) order emitted ∧
      if Sorts true 1 then
        StableDescending [1, 2] order ∧ (new.numTokensNoSpec.take 2).Pairwise (· ≥ ·)
      else new = shortFirst false :=
  mayReorderBatch_aligned true 1 shortFirst_wellFormed

/-- A runner that does not sort leaves the short request first. One that sorts leaves the columns
behind the tokens of the batch where they were, and the sampling rows of a pooling model, for
which it emits no records. -/
theorem mayReorderBatch_leaves :
    (mayReorderBatch false 1 (shortFirst false) = some (shortFirst false) ∧
      ¬(shortFirst false).numTokensNoSpec.Pairwise (· ≥ ·)) ∧
    (mayReorderBatch true 1 (shortFirst false)).map
      (fun new => (new.reqIds, new.tokenIdsCpu)) =
        some ([some 11, some 10], [[6, 7, 9], [5, 9, 8]]) ∧
    [6, 7, 9] ∉ (shortFirst false).tokenIdsCpu ∧
    (mayReorderBatch true 1 (shortFirst true)).map
      (fun new => (new.reqIds, new.sampling.temperatureCpu, new.moved)) =
        some ([some 11, some 10], [1, 2], []) := by
  decide

end VllmRbln.ModelRunner
