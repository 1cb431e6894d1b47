import Mathlib.Algebra.Order.BigOperators.Group.List
import Mathlib.Algebra.Order.Ring.Nat
import VllmRbln.Common.Cuts
import VllmRbln.Common.Slices
import VllmRbln.ModelRunner.Unpadded
import VllmRbln.SpecDecode.Eagle

/-! DFlash drafting behind a staged step (`v1/spec_decode/dflash.py`, the eagle branch of
`propose_draft_token_ids`). The draft layers' KV of the accepted context is projected from the
target's hidden states and copied into the cache run by run; one block of queries follows it. -/
namespace VllmRbln.DFlash

open Ragged Checked Cuts Slices DecodeWindow Eagle

/-- The proposer over hidden states `H` and the entries `E` that a layer caches for one token.
`project` is `project_context_kv` on one row: it works on every row and its position alone. The
projection's buffers hold what earlier steps left in them. -/
structure DFlashProposer (H E : Type) where
  runner : Runner
  notFixed : runner.usesFixedDecodeWindow = false
  vocabSize : Int
  parallelDraftingTokenId : Int
  blockSize : Nat
  blockSizePos : 0 < blockSize
  maxNumTokens : Nat
  numLayers : Nat
  project : Nat → H → Int → E
  projStates : List H
  projPositions : List Int

inductive DraftError
  | stage (error : StageError)
  | arange (start stop : Int)
  | contextTooLong (numContext maxNumTokens : Nat)
  | noBucket
  | shape (offset count : Nat)
  deriving DecidableEq

/-- What `_fill_first_pass_inputs` returns, and the part of each buffer that it fills. -/
structure FirstPass where
  numContext : Int
  ctxStarts : List Int
  validCtxLens : List Int
  positions : List Int
  inputIds : List Int
  ctxGather : List Int
  ctxPositions : List Int
  deriving DecidableEq

/-- Where a context token is stored. -/
structure Destination where
  req : Nat
  block : Nat
  offset : Nat
  deriving DecidableEq

/-- Context tokens stored one behind the other in a block. -/
structure Run where
  tokenStart : Nat
  count : Nat
  block : Nat
  offset : Nat
  deriving DecidableEq

/-- An entry copied into a layer's cache. -/
structure Write (E : Type) where
  layer : Nat
  block : Nat
  offset : Nat
  entry : E
  deriving DecidableEq

structure Drafting (E : Type) where
  first : FirstPass
  runs : List Run
  writes : List (Write E)
  deriving DecidableEq

/-- `values[indices]`. -/
def read {α : Type} (values : List α) (indices : List Int) : Except DraftError (List α) :=
  (takeAll values indices).mapError .stage

/-- `torch.arange`. -/
def arange (start stop : Int) : Except DraftError (List Int) :=
  if stop < start then .error (.arange start stop)
  else .ok ((List.range (stop - start).toNat).map fun j : Nat => start + j)

/-- Whether the token `i` continues the run of the token before it. -/
def continues (destinations : List Destination) (i : Nat) : Bool :=
  match destinations[i]?, destinations[i - 1]? with
  | some token, some before =>
      token.req == before.req && token.block == before.block && token.offset == before.offset + 1
  | _, _ => false

/-- The maximal runs of the first `numContext` tokens. -/
def runsOf (destinations : List Destination) (numContext : Nat) : List Run :=
  cuts (continues destinations)
    (fun start count =>
      let first := destinations.getD start ⟨0, 0, 0⟩
      ⟨start, count, first.block, first.offset⟩) numContext

namespace DFlashProposer

variable {H E : Type} (proposer : DFlashProposer H E)

def fillFirstPassInputs (nextTokenIds targetPositions : List Int) (queryStartLoc : List Nat)
    (numRejectedTokens : Option (List Int)) (numQueryPerReq : Nat) :
    Except DraftError FirstPass := do
  let qsl : List Int := queryStartLoc.map Nat.cast
  let ctxStartTok := qsl.dropLast
  let ctxEndTok := qsl.tail
  let validCtxEnd := numRejectedTokens.elim ctxEndTok (List.zipWith (· - ·) ctxEndTok)
  let validCtxLens := List.zipWith (· - ·) validCtxEnd ctxStartTok
  let lastPos ← read targetPositions (validCtxEnd.map (· - 1))
  let positions := lastPos.flatMap fun last : Int =>
    (List.range numQueryPerReq).map fun offset : Nat => last + 1 + offset
  let inputIds := (nextTokenIds.take ctxStartTok.length).flatMap fun token =>
    token :: List.replicate (numQueryPerReq - 1) proposer.parallelDraftingTokenId
  let ctxGather ← (ctxStartTok.zip validCtxLens).mapM fun (start, count) =>
    arange start (start + count)
  let ctxPositions ← read targetPositions ctxGather.flatten
  let ctxStarts ← read targetPositions ctxStartTok
  return { numContext := validCtxLens.sum, ctxStarts, validCtxLens, positions, inputIds,
           ctxGather := ctxGather.flatten, ctxPositions }

/-- `blocks`, `offsets` and `reqs` of `_write_context_kv`, token by token. -/
def destinations (blockTable : List (List Nat)) (reqOfToken : List Nat) (positions : List Int) :
    Except StageError (List Destination) :=
  (reqOfToken.zip positions).mapM fun (req, position) => do
    let table ← entryAt blockTable req
    let block ← entryAt table (position / (proposer.blockSize : Int))
    return ⟨req, block, (position % (proposer.blockSize : Int)).toNat⟩

/-- `project_context_kv`: one row of entries for each layer. -/
def projectContextKv (states : List H) (positions : List Int) : List (List E) :=
  (List.range proposer.numLayers).map fun layer =>
    List.zipWith (proposer.project layer) states positions

/-- One run's entries of a layer, copied to a slice of its block. A slice that leaves the block is
shorter than the run. -/
def copyRun (layer : Nat) (entries : List E) (run : Run) : Except DraftError (List (Write E)) :=
  if proposer.blockSize < run.offset + run.count then .error (.shape run.offset run.count)
  else .ok ((slice entries run.tokenStart run.count).zipIdx.map fun (entry, j) =>
    ⟨layer, run.block, run.offset + j, entry⟩)

def writeContextKv (targetHiddenStates : List H) (blockTable : List (List Nat)) (numReqs : Nat)
    (first : FirstPass) : Except DraftError (List Run × List (Write E)) := do
  let numContext := first.numContext.toNat
  let reqOfToken := repeatEach (List.range numReqs) (first.validCtxLens.map Int.toNat)
  let destinations ←
    (proposer.destinations blockTable reqOfToken first.ctxPositions).mapError .stage
  let runs := runsOf destinations numContext
  if proposer.maxNumTokens < numContext then
    throw (.contextTooLong numContext proposer.maxNumTokens)
  let states ← read targetHiddenStates first.ctxGather
  match [1 + proposer.runner.numSpecTokens, proposer.maxNumTokens].find? (numContext ≤ ·) with
  | none => throw .noBucket
  | some bucket =>
      let projStates := states ++ proposer.projStates.drop numContext
      let projPositions := first.ctxPositions ++ proposer.projPositions.drop numContext
      let entries := (proposer.projectContextKv (projStates.take bucket)
        (projPositions.take bucket)).map (·.take numContext)
      let writes ← entries.zipIdx.mapM fun (entries, layer) => do
        return (← runs.mapM (proposer.copyRun layer entries)).flatten
      return (runs, writes.flatten)

/-- The branch of `propose_draft_token_ids`, and `propose` up to its query pass. -/
def proposeDraftTokenIds (staged : Staged) (sampledTokenIds : List (List Int))
    (backupTokenIds : List Int) (targetHiddenStates : List H) (blockTable : List (List Nat)) :
    Except DraftError (Drafting E) := do
  let next := List.zipWith (fun (sampled : List Int) (rest : Bool × Int) =>
    nextTokenPadded proposer.vocabSize sampled rest.1 rest.2) sampledTokenIds
    (staged.discardRequestMask.zip backupTokenIds)
  let numTokens := staged.queryStartLoc.getLastD 0
  let numRejectedTokens := staged.specDecodeMetadata.map fun metadata =>
    (prepareInputsPadded metadata.cuNumDraftTokens (next.map Prod.snd) staged.queryStartLoc).2
  let first ← proposer.fillFirstPassInputs (next.map Prod.fst) (staged.positions.take numTokens)
    staged.queryStartLoc numRejectedTokens (1 + proposer.runner.numSpecTokens)
  let (runs, writes) ← proposer.writeContextKv targetHiddenStates blockTable
    staged.seqLens.length first
  return { first, runs, writes }

end DFlashProposer

/-! ### The accepted context -/

/-- The accepted context of a request: `count` staged rows from `slot` on, at the positions from
`first` on. -/
structure Context where
  slot : Nat
  first : Nat
  count : Nat

/-- A row of the context, over all requests. -/
structure ContextRow where
  req : Nat
  slot : Nat
  position : Nat

def contextRows (contexts : List Context) : List ContextRow :=
  contexts.zipIdx.flatMap fun (context, req) => (List.range context.count).map fun j =>
    ⟨req, context.slot + j, context.first + j⟩

/-- The contexts of a batch of packed rows: of each row, the first `count` entries. -/
def contextsOf {ρ : Type} (width first count : ρ → Nat) (rows : List ρ) : List Context :=
  rows.zipIdx.map fun (row, req) => ⟨offset width rows req, first row, count row⟩

/-- What the first pass makes of the contexts. -/
def firstPassOf (maskId : Int) (numQueryPerReq : Nat) (nextTokenIds : List Int)
    (contexts : List Context) : FirstPass where
  numContext := (contextRows contexts).length
  ctxStarts := contexts.map fun context => (context.first : Int)
  validCtxLens := contexts.map fun context => (context.count : Int)
  positions := contexts.flatMap fun context => (List.range numQueryPerReq).map fun offset =>
    ((context.first + context.count + offset : Nat) : Int)
  inputIds := (nextTokenIds.take contexts.length).flatMap fun token =>
    token :: List.replicate (numQueryPerReq - 1) maskId
  ctxGather := (contextRows contexts).map fun row => (row.slot : Int)
  ctxPositions := (contextRows contexts).map fun row => (row.position : Int)

section Contexts

variable {contexts : List Context}

theorem contextRows_map {α : Type} (f : Nat → Nat → α) (contexts : List Context) :
    ((contextRows contexts).map fun row => f row.slot row.position) =
      contexts.flatMap fun context => (List.range context.count).map fun j =>
        f (context.slot + j) (context.first + j) := by
  rw [contextRows, List.map_flatMap, flatMap_eq_zipIdx (fun context : Context =>
    (List.range context.count).map fun j => f (context.slot + j) (context.first + j)) contexts]
  apply List.flatMap_congr
  rintro ⟨context, req⟩ _
  rw [List.map_map]
  rfl

theorem length_contextRows (contexts : List Context) :
    (contextRows contexts).length = (contexts.map (·.count)).sum := by
  have hSlots := congrArg List.length (contextRows_map (fun slot _ => slot) contexts)
  rw [List.length_map] at hSlots
  rw [hSlots]
  exact length_flatMap_of_count _ fun context _ => by rw [List.length_map, List.length_range]

theorem sum_counts (contexts : List Context) :
    (contexts.map fun context => (context.count : Int)).sum = (contextRows contexts).length := by
  rw [length_contextRows]
  induction contexts with
  | nil => rfl
  | cons context contexts ih =>
      rw [List.map_cons, List.sum_cons, ih, List.map_cons, List.sum_cons, Int.natCast_add]

theorem mapError_ok {α : Type} (value : α) :
    (Except.ok value : Except StageError α).mapError DraftError.stage = .ok value := rfl

theorem read_cast {α : Type} {values out : List α} {slots : List Nat}
    (hRead : slots.map (fun slot => values[slot]?) = out.map some) :
    read values (slots.map Nat.cast) = .ok out := by
  rw [read, takeAll_cast hRead, mapError_ok]

theorem arange_cast (start count : Nat) :
    arange (start : Int) (start + count) =
      .ok ((List.range count).map fun j : Nat => ((start + j : Nat) : Int)) := by
  have hOrder : ¬ ((start : Int) + count < start) := by omega
  have hCount : ((start : Int) + count - start).toNat = count := by omega
  rw [arange, if_neg hOrder, hCount]
  rfl

/-- The first pass over contexts that are staged. -/
theorem fillFirstPassInputs_contexts {H E : Type} (proposer : DFlashProposer H E)
    {nextTokenIds targetPositions : List Int} {queryStartLoc : List Nat}
    {numRejectedTokens : Option (List Int)} (numQueryPerReq : Nat)
    (hStarts : queryStartLoc.dropLast = contexts.map (·.slot))
    (hEnds : numRejectedTokens.elim (queryStartLoc.map (Nat.cast : Nat → Int)).tail
        (List.zipWith (· - ·) (queryStartLoc.map Nat.cast).tail) =
      contexts.map fun context => ((context.slot + context.count : Nat) : Int))
    (hStaged : ∀ context ∈ contexts, 0 < context.count ∧ ∀ j < context.count,
      targetPositions[context.slot + j]? = some ((context.first + j : Nat) : Int)) :
    proposer.fillFirstPassInputs nextTokenIds targetPositions queryStartLoc numRejectedTokens
        numQueryPerReq =
      .ok (firstPassOf proposer.parallelDraftingTokenId numQueryPerReq nextTokenIds contexts) := by
  have hStartTok : (queryStartLoc.map (Nat.cast : Nat → Int)).dropLast =
      (contexts.map (·.slot)).map Nat.cast := by
    rw [List.dropLast_eq_take, List.length_map, ← List.map_take, ← List.dropLast_eq_take, hStarts]
  have hLens : List.zipWith (· - ·)
      (contexts.map fun context => ((context.slot + context.count : Nat) : Int))
      ((contexts.map (·.slot)).map Nat.cast) = contexts.map fun context => (context.count : Int) := by
    rw [List.map_map, zipWith_map_map]
    apply List.map_congr_left
    intro context _
    show ((context.slot + context.count : Nat) : Int) - (context.slot : Nat) = _
    omega
  have hLast : read targetPositions ((contexts.map fun context =>
      ((context.slot + context.count : Nat) : Int)).map (· - 1)) =
      .ok (contexts.map fun context => ((context.first + context.count : Nat) : Int) - 1) := by
    have hSlots : (contexts.map fun context =>
        ((context.slot + context.count : Nat) : Int)).map (· - 1) =
        (contexts.map fun context => context.slot + (context.count - 1)).map Nat.cast := by
      rw [List.map_map, List.map_map]
      apply List.map_congr_left
      intro context hMem
      have hPos := (hStaged context hMem).1
      show ((context.slot + context.count : Nat) : Int) - 1 =
        ((context.slot + (context.count - 1) : Nat) : Int)
      omega
    rw [hSlots]
    apply read_cast
    rw [List.map_map, List.map_map]
    apply List.map_congr_left
    intro context hMem
    obtain ⟨hPos, hRead⟩ := hStaged context hMem
    have hLastSlot := hRead (context.count - 1) (by omega)
    show targetPositions[context.slot + (context.count - 1)]? =
      some (((context.first + context.count : Nat) : Int) - 1)
    rw [hLastSlot]
    congr 1
    omega
  have hGather : ((contexts.map (·.slot)).map (Nat.cast : Nat → Int)).zip
      (contexts.map fun context => (context.count : Int)) =
      contexts.map fun context => ((context.slot : Int), (context.count : Int)) := by
    rw [List.map_map, List.zip, zipWith_map_map]
    rfl
  have hRanges : (contexts.map fun context => ((context.slot : Int), (context.count : Int))).mapM
      (fun (start, count) => arange start (start + count)) =
      .ok (contexts.map fun context => (List.range context.count).map fun j : Nat =>
        ((context.slot + j : Nat) : Int)) := by
    rw [List.mapM_map]
    exact mapM_eq_map fun context _ => arange_cast context.slot context.count
  have hFlat : (contexts.map fun context => (List.range context.count).map fun j : Nat =>
      ((context.slot + j : Nat) : Int)).flatten =
      ((contextRows contexts).map (·.slot)).map Nat.cast := by
    rw [contextRows_map fun slot _ => slot, List.map_flatMap, ← List.flatMap_def]
    apply List.flatMap_congr
    intro context _
    rw [List.map_map]
    rfl
  have hPositions : read targetPositions (((contextRows contexts).map (·.slot)).map Nat.cast) =
      .ok ((contextRows contexts).map fun row => (row.position : Int)) := by
    apply read_cast
    rw [contextRows_map fun slot _ => slot, contextRows_map fun _ position => (position : Int),
      List.map_flatMap, List.map_flatMap]
    apply List.flatMap_congr
    intro context hMem
    rw [List.map_map, List.map_map]
    apply List.map_congr_left
    intro j hRange
    exact (hStaged context hMem).2 j (List.mem_range.1 hRange)
  have hFirsts : read targetPositions ((contexts.map (·.slot)).map Nat.cast) =
      .ok (contexts.map fun context => (context.first : Int)) := by
    apply read_cast
    rw [List.map_map, List.map_map]
    apply List.map_congr_left
    intro context hMem
    obtain ⟨hPos, hRead⟩ := hStaged context hMem
    exact hRead 0 hPos
  have hQuery : (contexts.map fun context =>
        ((context.first + context.count : Nat) : Int) - 1).flatMap
        (fun last : Int => (List.range numQueryPerReq).map fun offset : Nat => last + 1 + offset) =
      contexts.flatMap fun context => (List.range numQueryPerReq).map fun offset =>
        ((context.first + context.count + offset : Nat) : Int) := by
    rw [List.flatMap_map]
    apply List.flatMap_congr
    intro context _
    apply List.map_congr_left
    intro offset _
    omega
  simp only [DFlashProposer.fillFirstPassInputs, hStartTok, hEnds, hLens, hLast, ok_bind, hGather,
    hRanges, hFlat, hPositions, hFirsts, hQuery, sum_counts, List.length_map]
  rw [firstPassOf, List.map_map]
  rfl

end Contexts

/-! ### The cache write -/

section Store

variable {H E : Type} (proposer : DFlashProposer H E)

/-- The block that the row's position falls into. -/
def blockOf (blockTable : List (List Nat)) (row : ContextRow) : Option Nat :=
  (blockTable[row.req]?).bind fun table => table[row.position / proposer.blockSize]?

/-- The projection of the row, at its position's slot of the layer's cache. -/
def writeOf (targetHiddenStates : List H) (blockTable : List (List Nat)) (layer : Nat)
    (row : ContextRow) : Option (Write E) :=
  (blockOf proposer blockTable row).bind fun block =>
    (targetHiddenStates[row.slot]?).map fun state =>
      ⟨layer, block, row.position % proposer.blockSize, proposer.project layer state row.position⟩

/-- Every row is stored once in every layer, in runs that stay inside their blocks. -/
structure Stored (targetHiddenStates : List H) (blockTable : List (List Nat))
    (rows : List ContextRow) (runs : List Run) (writes : List (Write E)) : Prop where
  covered : runs.flatMap (fun run => List.range' run.tokenStart run.count) =
    List.range rows.length
  inside : ∀ run ∈ runs, run.offset + run.count ≤ proposer.blockSize
  oneBlock : ∀ run ∈ runs, ∀ j < run.count, ∃ row, rows[run.tokenStart + j]? = some row ∧
    blockOf proposer blockTable row = some run.block ∧
    row.position % proposer.blockSize = run.offset + j
  once : writes.map some = (List.range proposer.numLayers).flatMap fun layer =>
    rows.map (writeOf proposer targetHiddenStates blockTable layer)

/-- A run's tokens follow each other in its block. -/
theorem run_destination {destinations : List Destination} {start count : Nat}
    (hInside : start + count ≤ destinations.length)
    (hJoined : ∀ k, start < k → k < start + count → continues destinations k = true) {j : Nat}
    (hj : j < count) :
    ∃ token, destinations[start + j]? = some token ∧
      token.block = (destinations.getD start ⟨0, 0, 0⟩).block ∧
      token.offset = (destinations.getD start ⟨0, 0, 0⟩).offset + j := by
  induction j with
  | zero =>
      have hLt : start < destinations.length := by omega
      refine ⟨destinations[start], List.getElem?_eq_getElem hLt, ?_, ?_⟩
      · rw [List.getD_eq_getElem _ _ hLt]
      · rw [List.getD_eq_getElem _ _ hLt, Nat.add_zero]
  | succ j ih =>
      obtain ⟨before, hBefore, hBlock, hOffset⟩ := ih (by omega)
      have hNext := hJoined (start + (j + 1)) (by omega) (by omega)
      have hLt : start + (j + 1) < destinations.length := by omega
      have hPrior : start + (j + 1) - 1 = start + j := by omega
      rw [continues, List.getElem?_eq_getElem hLt, hPrior, hBefore] at hNext
      simp only [Bool.and_eq_true, beq_iff_eq] at hNext
      refine ⟨_, List.getElem?_eq_getElem hLt, ?_, ?_⟩
      · rw [hNext.1.2, hBlock]
      · rw [hNext.2, hOffset, Nat.add_assoc]

/-- What a run is made of: destinations in one block, at offsets that count up. -/
def Run.Of (destinations : List Destination) (run : Run) : Prop :=
  0 < run.count ∧ run.tokenStart + run.count ≤ destinations.length ∧
    ∀ j < run.count, ∃ token, destinations[run.tokenStart + j]? = some token ∧
      token.block = run.block ∧ token.offset = run.offset + j

theorem runsOf_spec (destinations : List Destination) :
    (runsOf destinations destinations.length).flatMap
        (fun run => List.range' run.tokenStart run.count) = List.range destinations.length ∧
      ∀ run ∈ runsOf destinations destinations.length, run.Of destinations := by
  obtain ⟨spans, hCuts, hSpans⟩ := cuts_spans (continues destinations)
    (fun start count =>
      let first := destinations.getD start ⟨0, 0, 0⟩
      (⟨start, count, first.block, first.offset⟩ : Run)) destinations.length
  rw [runsOf, hCuts]
  constructor
  · rw [List.flatMap_map]
    exact hSpans.covers
  · intro run hMem
    obtain ⟨span, hSpan, rfl⟩ := List.mem_map.1 hMem
    have hInside := hSpans.inside span hSpan
    exact ⟨hSpans.filled span hSpan, hInside,
      fun j hj => run_destination hInside (hSpans.joined span hSpan) hj⟩

variable {proposer} {targetHiddenStates : List H} {blockTable : List (List Nat)}
  {rows : List ContextRow} {tokens : List Destination} {states : List H}

/-- The destination of a row. -/
def Placed (proposer : DFlashProposer H E) (blockTable : List (List Nat)) (row : ContextRow)
    (token : Destination) : Prop :=
  blockOf proposer blockTable row = some token.block ∧
    token.offset = row.position % proposer.blockSize

/-- A token of a run is one of the rows, stored where the run has it. -/
theorem Run.Of.row (hTokens : List.Forall₂ (Placed proposer blockTable) rows tokens) {run : Run}
    (hRun : run.Of tokens) {j : Nat} (hj : j < run.count) :
    ∃ row, rows[run.tokenStart + j]? = some row ∧
      blockOf proposer blockTable row = some run.block ∧
      row.position % proposer.blockSize = run.offset + j := by
  obtain ⟨-, hInside, hRead⟩ := hRun
  have hLength := hTokens.length_eq
  have hLt : run.tokenStart + j < rows.length := by omega
  have hRow := List.getElem?_eq_getElem hLt
  obtain ⟨token, hToken, hPlaced⟩ := getElem?_of_forall₂ hTokens hRow
  obtain ⟨other, hOther, hBlock, hOffset⟩ := hRead j hj
  rw [hToken] at hOther
  cases hOther
  refine ⟨_, hRow, ?_, ?_⟩
  · rw [hPlaced.1, hBlock]
  · rw [← hPlaced.2, hOffset]

theorem Run.Of.offset_add_le (hTokens : List.Forall₂ (Placed proposer blockTable) rows tokens)
    {run : Run} (hRun : run.Of tokens) : run.offset + run.count ≤ proposer.blockSize := by
  have hPos := hRun.1
  obtain ⟨row, -, -, hLast⟩ := hRun.row hTokens (j := run.count - 1) (by omega)
  have hMod := Nat.mod_lt row.position proposer.blockSizePos
  omega

/-- A run's copy writes the projections of its rows. -/
theorem copyRun_rows (hTokens : List.Forall₂ (Placed proposer blockTable) rows tokens)
    (hStates : List.Forall₂ (fun row state => targetHiddenStates[row.slot]? = some state) rows states)
    (layer : Nat) {run : Run} (hRun : run.Of tokens) :
    ∃ writes, proposer.copyRun layer (List.zipWith (proposer.project layer) states
        (rows.map fun row => (row.position : Int))) run = .ok writes ∧
      writes.map some = (List.range' run.tokenStart run.count).map fun i =>
        rows[i]?.bind (writeOf proposer targetHiddenStates blockTable layer) := by
  have hFits := hRun.offset_add_le hTokens
  refine ⟨_, by rw [DFlashProposer.copyRun, if_neg (Nat.not_lt.2 hFits)], ?_⟩
  apply List.ext_getElem?
  intro j
  rw [List.getElem?_map, List.getElem?_map, List.getElem?_zipIdx, List.getElem?_map, slice]
  by_cases hj : j < run.count
  · obtain ⟨row, hRow, hBlock, hOffset⟩ := hRun.row hTokens hj
    obtain ⟨state, hState, hRead⟩ := getElem?_of_forall₂ hStates hRow
    rw [List.getElem?_take_of_lt hj, List.getElem?_drop, List.getElem?_zipWith, hState,
      List.getElem?_map, hRow, List.getElem?_range' hj]
    simp [writeOf, hBlock, hRead, hOffset, hRow]
  · rw [List.getElem?_take_eq_none (Nat.le_of_not_lt hj), List.getElem?_eq_none]
    · rfl
    · rw [List.length_range']
      exact Nat.le_of_not_lt hj

/-- The runs' copies write every row of the layer. -/
theorem copyRuns_rows (hTokens : List.Forall₂ (Placed proposer blockTable) rows tokens)
    (hStates : List.Forall₂ (fun row state => targetHiddenStates[row.slot]? = some state) rows states)
    (layer : Nat) :
    ∃ copies, (runsOf tokens tokens.length).mapM (proposer.copyRun layer
        (List.zipWith (proposer.project layer) states
          (rows.map fun row => (row.position : Int)))) = .ok copies ∧
      copies.flatten.map some =
        rows.map (writeOf proposer targetHiddenStates blockTable layer) := by
  obtain ⟨hCovered, hRuns⟩ := runsOf_spec tokens
  obtain ⟨copies, hCopies, hEach⟩ := mapM_ok _ _ (runsOf tokens tokens.length)
    fun run hMem => copyRun_rows hTokens hStates layer (hRuns run hMem)
  refine ⟨copies, hCopies, ?_⟩
  have hFlat : ((runsOf tokens tokens.length).flatMap fun run =>
      (List.range' run.tokenStart run.count).map fun i =>
        rows[i]?.bind (writeOf proposer targetHiddenStates blockTable layer)) =
      (List.range rows.length).map fun i =>
        rows[i]?.bind (writeOf proposer targetHiddenStates blockTable layer) := by
    rw [hTokens.length_eq, ← hCovered, List.map_flatMap]
  rw [flatten_of_forall₂ hEach, hFlat]
  apply map_range_rows
  intro i row hRow
  rw [hRow, Option.bind_some]

theorem zipIdx_map_range {α : Type} (f : Nat → α) (n : Nat) :
    ((List.range n).map f).zipIdx = (List.range n).map fun i => (f i, i) := by
  apply List.ext_getElem
  · simp
  · intro i _ _
    simp

/-- The projection of the buffers' front, cut to the context again. -/
theorem projected_rows (proposer : DFlashProposer H E) (positions : List Int) {bucket : Nat}
    (hSame : positions.length = states.length) (hFit : states.length ≤ bucket) :
    (proposer.projectContextKv ((states ++ proposer.projStates.drop states.length).take bucket)
        ((positions ++ proposer.projPositions.drop states.length).take bucket)).map
        (·.take states.length) =
      (List.range proposer.numLayers).map fun layer =>
        List.zipWith (proposer.project layer) states positions := by
  rw [DFlashProposer.projectContextKv, List.map_map]
  apply List.map_congr_left
  intro layer _
  show (List.zipWith _ _ _).take states.length = _
  rw [List.take_zipWith, List.take_take, List.take_take, Nat.min_eq_left hFit,
    List.take_left' rfl, List.take_left' hSame]

theorem destinations_rows (hRows : ∀ row ∈ rows, (blockOf proposer blockTable row).isSome) :
    ∃ tokens, (rows.map fun row => (row.req, (row.position : Int))).mapM
        (fun (req, position) => do
          let table ← entryAt blockTable (req : Nat)
          let block ← entryAt table (position / (proposer.blockSize : Int))
          return (⟨req, block, (position % (proposer.blockSize : Int)).toNat⟩ : Destination)) =
        (.ok tokens : Except StageError _) ∧
      List.Forall₂ (Placed proposer blockTable) rows tokens := by
  rw [List.mapM_map]
  apply mapM_ok
  intro row hMem
  obtain ⟨block, hBlock⟩ := Option.isSome_iff_exists.1 (hRows row hMem)
  obtain ⟨table, hTable, hEntry⟩ := Option.bind_eq_some_iff.1 hBlock
  refine ⟨⟨row.req, block, row.position % proposer.blockSize⟩, ?_, hBlock, rfl⟩
  show (entryAt blockTable (row.req : Int) >>= fun table =>
    entryAt table ((row.position / proposer.blockSize : Nat) : Int) >>= fun block =>
      Except.ok (⟨row.req, block, row.position % proposer.blockSize⟩ : Destination)) = _
  rw [entryAt_cast hTable, ok_bind, entryAt_cast hEntry, ok_bind]

theorem takeAll_rows (hRows : ∀ row ∈ rows, row.slot < targetHiddenStates.length) :
    ∃ states, takeAll targetHiddenStates (rows.map fun row => (row.slot : Int)) = .ok states ∧
      List.Forall₂ (fun row state => targetHiddenStates[row.slot]? = some state) rows states := by
  rw [takeAll, List.mapM_map]
  apply mapM_ok
  intro row hMem
  have hRead := List.getElem?_eq_getElem (hRows row hMem)
  exact ⟨_, entryAt_cast hRead, hRead⟩

theorem reqOfToken_rows (contexts : List Context) (f : Nat → Int) :
    (repeatEach (List.range contexts.length)
        ((contexts.map fun context => (context.count : Int)).map Int.toNat)).zip
        ((contextRows contexts).map fun row => f row.position) =
      (contextRows contexts).map fun row => (row.req, f row.position) := by
  have hRange : List.range contexts.length = contexts.zipIdx.map Prod.snd := by
    rw [List.zipIdx_map_snd, List.range_eq_range']
  have hReqs : repeatEach (List.range contexts.length)
      ((contexts.map fun context => (context.count : Int)).map Int.toNat) =
      (contextRows contexts).map (·.req) := by
    rw [hRange, List.map_map, map_eq_zipIdx (Int.toNat ∘ fun context : Context =>
      (context.count : Int)) contexts, repeatEach_map, contextRows, List.map_flatMap]
    apply List.flatMap_congr
    rintro ⟨context, req⟩ _
    rw [List.map_map]
    exact (List.map_const' ..).symm ▸ by simp
  rw [hReqs, List.zip, zipWith_map_map]

/-- The cache write of a first pass stores its context. -/
theorem writeContextKv_rows {contexts : List Context} (maskId : Int) (numQueryPerReq : Nat)
    (nextTokenIds : List Int)
    (hTables : ∀ row ∈ contextRows contexts, (blockOf proposer blockTable row).isSome)
    (hHidden : ∀ row ∈ contextRows contexts, row.slot < targetHiddenStates.length)
    (hFit : (contextRows contexts).length ≤ proposer.maxNumTokens) :
    ∃ runs writes, proposer.writeContextKv targetHiddenStates blockTable contexts.length
        (firstPassOf maskId numQueryPerReq nextTokenIds contexts) = .ok (runs, writes) ∧
      Stored proposer targetHiddenStates blockTable (contextRows contexts) runs writes := by
  obtain ⟨tokens, hRun, hTokens⟩ := destinations_rows hTables
  obtain ⟨states, hRead, hStates⟩ := takeAll_rows hHidden
  obtain ⟨hCovered, hRuns⟩ := runsOf_spec tokens
  have hLength := hTokens.length_eq
  have hCount := hStates.length_eq
  obtain ⟨writes, hWrites, hEach⟩ := mapM_ok
    (fun (entry : List E × Nat) => do
      return (← (runsOf tokens tokens.length).mapM (proposer.copyRun entry.2 entry.1)).flatten)
    (fun entry written => written.map some =
      (contextRows contexts).map (writeOf proposer targetHiddenStates blockTable entry.2))
    ((List.range proposer.numLayers).map fun layer =>
      (List.zipWith (proposer.project layer) states
        ((contextRows contexts).map fun row => (row.position : Int)), layer))
    (by
      intro entry hMem
      obtain ⟨layer, -, rfl⟩ := List.mem_map.1 hMem
      obtain ⟨copies, hCopies, hAll⟩ := copyRuns_rows hTokens hStates layer
      exact ⟨copies.flatten, by rw [hCopies]; rfl, hAll⟩)
  refine ⟨runsOf tokens tokens.length, writes.flatten, ?_, ?_⟩
  · have hDestinations : proposer.destinations blockTable
        (repeatEach (List.range contexts.length)
          ((firstPassOf maskId numQueryPerReq nextTokenIds contexts).validCtxLens.map Int.toNat))
        (firstPassOf maskId numQueryPerReq nextTokenIds contexts).ctxPositions = .ok tokens := by
      rw [DFlashProposer.destinations, ← hRun]
      exact congrArg _ (reqOfToken_rows contexts Nat.cast)
    have hNumContext : (firstPassOf maskId numQueryPerReq nextTokenIds contexts).numContext.toNat =
        tokens.length := hLength
    have hBucket : ∃ bucket, [1 + proposer.runner.numSpecTokens, proposer.maxNumTokens].find?
        (fun size => decide (tokens.length ≤ size)) = some bucket ∧ tokens.length ≤ bucket := by
      cases hFind : [1 + proposer.runner.numSpecTokens, proposer.maxNumTokens].find?
          (fun size => decide (tokens.length ≤ size)) with
      | none =>
          have hNone := List.find?_eq_none.1 hFind proposer.maxNumTokens (by simp)
          simp only [decide_eq_true_eq] at hNone
          omega
      | some bucket => exact ⟨bucket, rfl, by simpa using List.find?_some hFind⟩
    obtain ⟨bucket, hFind, hBucket⟩ := hBucket
    have hStatesLength : states.length = tokens.length := by omega
    have hProjected := projected_rows proposer
      ((contextRows contexts).map fun row => (row.position : Int))
      (by rw [List.length_map, hCount]) (hStatesLength.trans_le hBucket)
    rw [hStatesLength] at hProjected
    have hGather : read targetHiddenStates
        (firstPassOf maskId numQueryPerReq nextTokenIds contexts).ctxGather = .ok states := by
      rw [read, firstPassOf, hRead, mapError_ok]
    have hShort : ¬ proposer.maxNumTokens < tokens.length := by omega
    have hPositions : (firstPassOf maskId numQueryPerReq nextTokenIds contexts).ctxPositions =
        (contextRows contexts).map fun row => (row.position : Int) := rfl
    rw [DFlashProposer.writeContextKv]
    simp only [hDestinations, hNumContext, hGather, hFind, if_neg hShort, mapError_ok, ok_bind]
    rw [hPositions, hProjected, zipIdx_map_range, hWrites]
    rfl
  · refine ⟨?_, ?_, ?_, ?_⟩
    · rw [hCovered, hLength]
    · intro run hMem
      exact (hRuns run hMem).offset_add_le hTokens
    · intro run hMem j hj
      exact (hRuns run hMem).row hTokens hj
    · rw [flatten_of_forall₂ hEach, List.flatMap_map]

end Store

/-! ### The contexts of a batch -/

section Batch

variable {ρ : Type} {width first count : ρ → Nat} {rows : List ρ}

theorem mem_contextsOf {context : Context} (hMem : context ∈ contextsOf width first count rows) :
    ∃ req row, rows[req]? = some row ∧
      context = ⟨offset width rows req, first row, count row⟩ := by
  obtain ⟨⟨row, req⟩, hEntry, rfl⟩ := List.mem_map.1 hMem
  exact ⟨req, row, List.mem_zipIdx_iff_getElem?.1 hEntry, rfl⟩

theorem getElem?_contextsOf {req : Nat} {row : ρ} (hRow : rows[req]? = some row) :
    (contextsOf width first count rows)[req]? =
      some ⟨offset width rows req, first row, count row⟩ := by
  rw [contextsOf, List.getElem?_map, List.getElem?_zipIdx, hRow]
  simp

variable (width first count rows) in
theorem length_contextsOf : (contextsOf width first count rows).length = rows.length := by
  rw [contextsOf, List.length_map, List.length_zipIdx]

/-- The first pass over a packed batch whose rejected tokens are all that lies behind the counts. -/
theorem fillFirstPassInputs_batch {H E : Type} (proposer : DFlashProposer H E)
    (first : ρ → Nat) (nextTokenIds : List Int) {numRejectedTokens : Option (List Int)}
    (numQueryPerReq : Nat)
    (hCounts : ∀ row ∈ rows, 0 < count row ∧ count row ≤ width row)
    (hRejected : numRejectedTokens = some (rows.map fun row => (width row : Int) - count row) ∨
      numRejectedTokens = none ∧ ∀ row ∈ rows, count row = width row) :
    proposer.fillFirstPassInputs nextTokenIds
        ((rows.flatMap fun row => (List.range (width row)).map (first row + ·)).map Nat.cast)
        (0 :: cumsum (rows.map width)) numRejectedTokens numQueryPerReq =
      .ok (firstPassOf proposer.parallelDraftingTokenId numQueryPerReq nextTokenIds
        (contextsOf width first count rows)) := by
  apply fillFirstPassInputs_contexts
  · rw [dropLast_cumsum_eq_zipIdx, contextsOf, List.map_map]
    rfl
  · rw [List.map_cons, List.tail_cons, cumsum_eq_zipIdx, contextsOf, List.map_map, List.map_map]
    rcases hRejected with rfl | ⟨rfl, hAll⟩
    · rw [map_eq_zipIdx (fun row => (width row : Int) - count row) rows]
      show List.zipWith _ _ _ = _
      rw [zipWith_map_map]
      apply List.map_congr_left
      rintro ⟨row, req⟩ _
      show ((offset width rows req + width row : Nat) : Int) - ((width row : Int) - count row) =
        ((offset width rows req + count row : Nat) : Int)
      omega
    · apply List.map_congr_left
      rintro ⟨row, req⟩ hMem
      have hRow := hAll row (List.fst_mem_of_mem_zipIdx hMem)
      show ((offset width rows req + width row : Nat) : Int) =
        ((offset width rows req + count row : Nat) : Int)
      rw [hRow]
  · intro context hMem
    obtain ⟨req, row, hRow, rfl⟩ := mem_contextsOf hMem
    obtain ⟨hPos, hLe⟩ := hCounts row (List.mem_of_getElem? hRow)
    refine ⟨hPos, ?_⟩
    intro j hj
    have hLt : j < width row := Nat.lt_of_lt_of_le hj hLe
    have hWidth : ∀ row ∈ rows, ((List.range (width row)).map (first row + ·)).length = width row :=
      fun row _ => by rw [List.length_map, List.length_range]
    have hRead := getElem?_flatMap_row hWidth hRow hLt
    rw [List.getElem?_map, hRead, List.getElem?_map, List.getElem?_range hLt]
    rfl

/-- A row of the batch's context. -/
theorem mem_contextRows {row : ContextRow}
    (hMem : row ∈ contextRows (contextsOf width first count rows)) :
    ∃ req owner j, rows[req]? = some owner ∧ j < count owner ∧
      row = ⟨req, offset width rows req + j, first owner + j⟩ := by
  obtain ⟨⟨context, req⟩, hContext, hRow⟩ := List.mem_flatMap.1 hMem
  obtain ⟨j, hRange, rfl⟩ := List.mem_map.1 hRow
  have hAt : (contextsOf width first count rows)[req]? = some context :=
    List.mem_zipIdx_iff_getElem?.1 hContext
  have hLt : req < rows.length := by
    rw [← length_contextsOf width first count rows]
    exact lt_of_row hAt
  have hOwner := List.getElem?_eq_getElem hLt
  rw [getElem?_contextsOf hOwner] at hAt
  cases hAt
  exact ⟨req, rows[req], j, hOwner, List.mem_range.1 hRange, rfl⟩

theorem length_contextRows_le (hCounts : ∀ row ∈ rows, count row ≤ width row) :
    (contextRows (contextsOf width first count rows)).length ≤ (rows.map width).sum := by
  have hMap : (contextsOf width first count rows).map (·.count) = rows.map count := by
    rw [contextsOf, List.map_map, map_eq_zipIdx count rows]
    rfl
  rw [length_contextRows, hMap]
  exact List.sum_le_sum hCounts

end Batch

/-! ### Exactness -/

/-- The position of the last token of the context: the last one accepted, of a request without
drafts the last one scheduled. -/
def lastContext (request : DecodeRequest) : Nat :=
  if request.row.scheduledSpecTokens.isSome then request.position
  else request.row.numComputedTokens + request.row.numScheduledTokens - 1

/-- A run of the request's staged rows that ends with its last token. In front of the scheduled
tokens stand only computed ones. -/
structure Context.Covers (staged : Staged) (req : Nat) (request : DecodeRequest)
    (context : Context) : Prop where
  staged : ∀ j < context.count, staged.slotAt ((context.slot + j : Nat) : Int) =
    some ((req : Int), ((context.first + j : Nat) : Int))
  computed : context.first ≤ request.row.numComputedTokens
  last : context.first + context.count = lastContext request + 1

/-- The drafting stands on the accepted context of every request, and on nothing behind it. -/
structure ExactContext {H E : Type} (proposer : DFlashProposer H E) (targetHiddenStates : List H)
    (blockTable : List (List Nat)) (staged : Staged) (requests : List DecodeRequest)
    (contexts : List Context) (drafting : Drafting E) : Prop where
  length : contexts.length = requests.length
  covers : ∀ (req : Nat) request context, requests[req]? = some request →
    contexts[req]? = some context → context.Covers staged req request
  gather : drafting.first.ctxGather = (contextRows contexts).map fun row => (row.slot : Int)
  ctxPositions : drafting.first.ctxPositions =
    (contextRows contexts).map fun row => (row.position : Int)
  query : drafting.first.positions = requests.flatMap fun request =>
    (List.range (1 + proposer.runner.numSpecTokens)).map fun offset =>
      ((lastContext request + 1 + offset : Nat) : Int)
  stored : Stored proposer targetHiddenStates blockTable (contextRows contexts) drafting.runs
    drafting.writes

/-- What the buffers, the target's hidden states and the block table of a step hold. -/
structure Room {H E : Type} (proposer : DFlashProposer H E) (targetHiddenStates : List H)
    (blockTable : List (List Nat)) (numReqs numTokens : Nat) : Prop where
  buffers : numTokens ≤ proposer.maxNumTokens
  hidden : numTokens ≤ targetHiddenStates.length
  tables : numReqs ≤ blockTable.length
  pages : ∀ table ∈ blockTable, proposer.runner.maxModelLen ≤ table.length * proposer.blockSize

/-- The flat arrays of a step whose requests take `width` slots each, at the positions from `first`
on. -/
structure Packed (staged : Staged) (requests : List DecodeRequest)
    (width first : DecodeRequest → Nat) : Prop where
  queryStartLoc : staged.queryStartLoc = 0 :: cumsum (requests.map width)
  reqIndices : staged.reqIndices = (requests.zipIdx.flatMap fun entry =>
    List.replicate (width entry.1) entry.2).map Nat.cast
  positions : staged.positions = (requests.flatMap fun request =>
    (List.range (width request)).map (first request + ·)).map Nat.cast
  seqLens : staged.seqLens.length = requests.length

/-- The drafting from given contexts. -/
def draftContexts {H E : Type} (proposer : DFlashProposer H E) (targetHiddenStates : List H)
    (blockTable : List (List Nat)) (nextTokenIds : List Int) (contexts : List Context) :
    Except DraftError (Drafting E) :=
  let first := firstPassOf proposer.parallelDraftingTokenId (1 + proposer.runner.numSpecTokens)
    nextTokenIds contexts
  (proposer.writeContextKv targetHiddenStates blockTable contexts.length first).map fun stored =>
    ⟨first, stored.1, stored.2⟩

section Exact

variable {H E : Type} {proposer : DFlashProposer H E} {targetHiddenStates : List H}
  {blockTable : List (List Nat)} {staged : Staged} {requests : List DecodeRequest}
  {width first count : DecodeRequest → Nat}

theorem offset_zipIdx (width : DecodeRequest → Nat) (requests : List DecodeRequest) (req : Nat) :
    offset (fun entry : DecodeRequest × Nat => width entry.1) requests.zipIdx req =
      offset width requests req := by
  rw [offset, offset]
  conv_rhs => rw [← List.zipIdx_map_fst 0 requests, ← List.map_take, List.map_map]
  rfl

theorem Packed.slotAt (hPacked : Packed staged requests width first) {req : Nat}
    {request : DecodeRequest} (hRequest : requests[req]? = some request) {j : Nat}
    (hj : j < width request) :
    staged.slotAt ((offset width requests req + j : Nat) : Int) =
      some ((req : Int), ((first request + j : Nat) : Int)) := by
  have hEntry : requests.zipIdx[req]? = some (request, req) := by
    rw [List.getElem?_zipIdx, hRequest]
    simp
  have hReqWidth : ∀ entry ∈ requests.zipIdx,
      (List.replicate (width entry.1) entry.2).length = width entry.1 :=
    fun entry _ => List.length_replicate
  have hWidth : ∀ request ∈ requests,
      ((List.range (width request)).map (first request + ·)).length = width request :=
    fun request _ => by rw [List.length_map, List.length_range]
  have hReq := getElem?_flatMap_row hReqWidth hEntry hj
  have hPosition := getElem?_flatMap_row hWidth hRequest hj
  rw [offset_zipIdx] at hReq
  rw [slotAt_cast, hPacked.reqIndices, hPacked.positions, List.zip, List.getElem?_zipWith,
    List.getElem?_map, List.getElem?_map, hReq, hPosition, List.getElem?_map,
    List.getElem?_range hj, List.getElem?_replicate, if_pos hj]
  rfl

/-- The drafting of a packed step, up to the cache write. -/
theorem propose_packed (hPacked : Packed staged requests width first)
    {sampledTokenIds : List (List Int)} {backupTokenIds : List Int} {next : List (Int × Int)}
    (hNext : List.zipWith (fun (sampled : List Int) (rest : Bool × Int) =>
        nextTokenPadded proposer.vocabSize sampled rest.1 rest.2) sampledTokenIds
      (staged.discardRequestMask.zip backupTokenIds) = next)
    (hCounts : ∀ request ∈ requests, 0 < count request ∧ count request ≤ width request)
    (hRejected : (staged.specDecodeMetadata.map fun metadata => (prepareInputsPadded
          metadata.cuNumDraftTokens (next.map Prod.snd) staged.queryStartLoc).2) =
        some (requests.map fun request => (width request : Int) - count request) ∨
      (staged.specDecodeMetadata.map fun metadata => (prepareInputsPadded
          metadata.cuNumDraftTokens (next.map Prod.snd) staged.queryStartLoc).2) = none ∧
        ∀ request ∈ requests, count request = width request) :
    proposer.proposeDraftTokenIds staged sampledTokenIds backupTokenIds targetHiddenStates
        blockTable =
      draftContexts proposer targetHiddenStates blockTable (next.map Prod.fst)
        (contextsOf width first count requests) := by
  have hTotal : staged.positions.take (staged.queryStartLoc.getLastD 0) =
      (requests.flatMap fun request =>
        (List.range (width request)).map (first request + ·)).map Nat.cast := by
    rw [hPacked.queryStartLoc, hPacked.positions]
    apply List.take_of_length_le
    rw [List.length_map, length_flatMap_of_count width
      (fun request _ => by rw [List.length_map, List.length_range]), List.getLastD_cons, cumsum,
      getLastD_cumsumFrom, Nat.zero_add]
  have hFill := fillFirstPassInputs_batch proposer first (next.map Prod.fst)
    (1 + proposer.runner.numSpecTokens) hCounts hRejected
  rw [← hPacked.queryStartLoc] at hFill
  rw [DFlashProposer.proposeDraftTokenIds]
  simp only [hNext, hTotal, hFill, ok_bind, hPacked.seqLens, draftContexts, length_contextsOf]
  cases proposer.writeContextKv targetHiddenStates blockTable requests.length _ <;> rfl

/-- The query block behind the contexts, request by request. -/
theorem query_contextsOf (numQueryPerReq : Nat) :
    (contextsOf width first count requests).flatMap (fun context =>
        (List.range numQueryPerReq).map fun offset =>
          ((context.first + context.count + offset : Nat) : Int)) =
      requests.flatMap fun request => (List.range numQueryPerReq).map fun offset =>
        ((first request + count request + offset : Nat) : Int) := by
  rw [contextsOf, List.flatMap_map, flatMap_eq_zipIdx (fun request : DecodeRequest =>
    (List.range numQueryPerReq).map fun offset =>
      ((first request + count request + offset : Nat) : Int)) requests]

/-- A packed step whose contexts end with the last accepted tokens is drafted from them exactly. -/
theorem exact_packed (hPacked : Packed staged requests width first)
    {sampledTokenIds : List (List Int)} {backupTokenIds : List Int} {nextTokenIds : List Int}
    (hRoom : Room proposer targetHiddenStates blockTable requests.length (requests.map width).sum)
    (hCounts : ∀ request ∈ requests, 0 < count request ∧ count request ≤ width request)
    (hInside : ∀ request ∈ requests, first request ≤ request.row.numComputedTokens ∧
      first request + width request ≤ proposer.runner.maxModelLen)
    (hPropose : proposer.proposeDraftTokenIds staged sampledTokenIds backupTokenIds
        targetHiddenStates blockTable =
      draftContexts proposer targetHiddenStates blockTable nextTokenIds
        (contextsOf width first count requests))
    (hLast : ∀ request ∈ requests, first request + count request = lastContext request + 1) :
    ∃ drafting, proposer.proposeDraftTokenIds staged sampledTokenIds backupTokenIds
        targetHiddenStates blockTable = .ok drafting ∧
      ExactContext proposer targetHiddenStates blockTable staged requests
        (contextsOf width first count requests) drafting := by
  have hTables : ∀ row ∈ contextRows (contextsOf width first count requests),
      (blockOf proposer blockTable row).isSome := by
    intro row hMem
    obtain ⟨req, request, j, hRequest, hj, rfl⟩ := mem_contextRows hMem
    have hIn := List.mem_of_getElem? hRequest
    have hCount := (hCounts request hIn).2
    have hLimit := (hInside request hIn).2
    have hReq : req < blockTable.length := Nat.lt_of_lt_of_le (lt_of_row hRequest) hRoom.tables
    have hPages := hRoom.pages blockTable[req] (List.getElem_mem hReq)
    have hPage : (first request + j) / proposer.blockSize < blockTable[req].length := by
      apply Nat.div_lt_of_lt_mul
      rw [Nat.mul_comm]
      omega
    rw [blockOf, List.getElem?_eq_getElem hReq, Option.bind_some, List.getElem?_eq_getElem hPage]
    rfl
  have hHidden : ∀ row ∈ contextRows (contextsOf width first count requests),
      row.slot < targetHiddenStates.length := by
    intro row hMem
    obtain ⟨req, request, j, hRequest, hj, rfl⟩ := mem_contextRows hMem
    have hCount := (hCounts request (List.mem_of_getElem? hRequest)).2
    have hOffset : offset width requests req + width request ≤ (requests.map width).sum :=
      offset_add_le hRequest
    have hStates := hRoom.hidden
    show offset width requests req + j < targetHiddenStates.length
    omega
  have hFit : (contextRows (contextsOf width first count requests)).length ≤
      proposer.maxNumTokens :=
    Nat.le_trans (length_contextRows_le fun request hMem => (hCounts request hMem).2) hRoom.buffers
  obtain ⟨runs, writes, hWrite, hStored⟩ := writeContextKv_rows
    proposer.parallelDraftingTokenId (1 + proposer.runner.numSpecTokens) nextTokenIds hTables
    hHidden hFit
  refine ⟨_, by rw [hPropose, draftContexts, hWrite]; rfl, length_contextsOf .., ?_, rfl, rfl, ?_,
    hStored⟩
  · intro req request context hRequest hContext
    rw [getElem?_contextsOf hRequest] at hContext
    cases hContext
    have hIn := List.mem_of_getElem? hRequest
    refine ⟨?_, (hInside request hIn).1, hLast request hIn⟩
    intro j hj
    exact hPacked.slotAt hRequest (Nat.lt_of_lt_of_le hj (hCounts request hIn).2)
  · show List.flatMap _ _ = _
    rw [query_contextsOf]
    apply List.flatMap_congr
    intro request hMem
    rw [hLast request hMem]

/-- An exact drafting ends every context with its request's last token. -/
theorem last_of_exact {sampledTokenIds : List (List Int)} {backupTokenIds : List Int}
    {nextTokenIds : List Int} {contexts : List Context} {drafting : Drafting E}
    (hPropose : proposer.proposeDraftTokenIds staged sampledTokenIds backupTokenIds
        targetHiddenStates blockTable =
      draftContexts proposer targetHiddenStates blockTable nextTokenIds
        (contextsOf width first count requests))
    (hDrafted : proposer.proposeDraftTokenIds staged sampledTokenIds backupTokenIds
      targetHiddenStates blockTable = .ok drafting)
    (hExact : ExactContext proposer targetHiddenStates blockTable staged requests contexts
      drafting) :
    ∀ request ∈ requests, first request + count request = lastContext request + 1 := by
  have hFirst : drafting.first.positions = requests.flatMap fun request =>
      (List.range (1 + proposer.runner.numSpecTokens)).map fun offset =>
        ((first request + count request + offset : Nat) : Int) := by
    rw [hPropose, draftContexts] at hDrafted
    cases hWrite : proposer.writeContextKv targetHiddenStates blockTable
        (contextsOf width first count requests).length
        (firstPassOf proposer.parallelDraftingTokenId (1 + proposer.runner.numSpecTokens)
          nextTokenIds (contextsOf width first count requests)) with
    | error error =>
        rw [hWrite] at hDrafted
        cases hDrafted
    | ok stored =>
        rw [hWrite] at hDrafted
        cases hDrafted
        exact query_contextsOf _
  rw [hExact.query] at hFirst
  intro request hMem
  have hBlock := eq_of_flatMap_eq (fun request _ => by
    rw [List.length_map, List.length_map]) hFirst request hMem
  have hHead := congrArg (fun block => block[0]?) hBlock
  simp only [List.getElem?_map, List.getElem?_range (show 0 < 1 + proposer.runner.numSpecTokens by
    omega), Option.map_some, Option.some.injEq] at hHead
  omega

end Exact

/-! ### The steps of the drafter -/

/-- What the scheduler, the persistent batch and the sampler give a step of the drafter: a prefill
chunk or a decode without drafts, or a decode whose drafts are verified. -/
inductive Legal {H E : Type} (proposer : DFlashProposer H E) (requests : List DecodeRequest) : Prop
  | undrafted (hNone : useSpecDecode (requests.map (·.row)) = false)
      (hRows : ∀ request ∈ requests, request.row.Scheduled proposer.runner)
  | drafted (hPhase : proposer.runner.isPrefill = false)
      (hSome : useSpecDecode (requests.map (·.row)) = true)
      (hVerified : ∀ request ∈ requests, request.Verified proposer.runner proposer.vocabSize)

/-- The number of slots that the step stages. -/
def numStaged (runner : Runner) (requests : List DecodeRequest) : Nat :=
  if runner.windowFixed (requests.map (·.row)) then
    (requests.map fun _ => runner.numSpecTokens + 1).sum
  else (requests.map (·.row.numScheduledTokens)).sum

/-- The step is staged and drafted from its accepted contexts. -/
def DraftsExactly {H E : Type} (proposer : DFlashProposer H E) (targetHiddenStates : List H)
    (blockTable : List (List Nat)) (requests : List DecodeRequest) : Prop :=
  ∃ staged drafting contexts,
    proposer.runner.prepareInputs (requests.map (·.row)) = .ok staged ∧
    proposer.proposeDraftTokenIds staged (requests.map (·.sampledTokenIds))
      (requests.map (·.backup)) targetHiddenStates blockTable = .ok drafting ∧
    ExactContext proposer targetHiddenStates blockTable staged requests contexts drafting

section Steps

variable {H E : Type} {proposer : DFlashProposer H E} {targetHiddenStates : List H}
  {blockTable : List (List Nat)} {requests : List DecodeRequest}

variable (proposer) in
theorem windowFixed_undrafted (hNone : useSpecDecode (requests.map (·.row)) = false) :
    proposer.runner.windowFixed (requests.map (·.row)) = false := by
  rw [Runner.windowFixed, proposer.notFixed, hNone, Bool.or_self, Bool.and_false]

theorem windowFixed_drafted (hPhase : proposer.runner.isPrefill = false)
    (hSome : useSpecDecode (requests.map (·.row)) = true) :
    proposer.runner.windowFixed (requests.map (·.row)) = true := by
  rw [Runner.windowFixed, hPhase, hSome, Bool.or_true]
  rfl

theorem zipIdx_rows {α : Type} (f : BatchRow → Nat → List α) (requests : List DecodeRequest) :
    ((requests.map (·.row)).zipIdx.flatMap fun entry => f entry.1 entry.2) =
      requests.zipIdx.flatMap fun entry => f entry.1.row entry.2 := by
  rw [List.zipIdx_map, List.flatMap_map]
  rfl

theorem packed_unpaddedOf (runner : Runner) (requests : List DecodeRequest) :
    Packed (unpaddedOf runner (requests.map (·.row))) requests
      (fun request => request.row.numScheduledTokens)
      (fun request => request.row.numComputedTokens) where
  queryStartLoc := by
    rw [unpaddedOf, List.map_map]
    rfl
  reqIndices := by
    rw [unpaddedOf, scheduledReqs,
      zipIdx_rows fun row req => List.replicate row.numScheduledTokens req]
  positions := by
    rw [unpaddedOf, List.flatMap_map]
    rfl
  seqLens := by
    rw [unpaddedOf, List.length_map, List.length_map]

theorem packed_stagedOf (runner : Runner) (requests : List DecodeRequest) :
    Packed (stagedOf runner (requests.map (·.row))) requests
      (fun _ => runner.numSpecTokens + 1) (fun request => request.row.first runner) where
  queryStartLoc := by
    rw [stagedOf, List.map_map]
    rfl
  reqIndices := by
    rw [stagedOf, reqSlots, zipIdx_rows fun _ req => List.replicate (runner.numSpecTokens + 1) req]
  positions := by
    rw [stagedOf, List.flatMap_map]
    rfl
  seqLens := by
    rw [stagedOf, List.length_map, List.length_map]

theorem lastContext_undrafted (hNone : useSpecDecode (requests.map (·.row)) = false)
    {request : DecodeRequest} (hMem : request ∈ requests) :
    lastContext request = request.row.numComputedTokens + request.row.numScheduledTokens - 1 := by
  have hRow := List.any_eq_false.1 hNone request.row (List.mem_map_of_mem hMem)
  rw [lastContext, if_neg hRow]

theorem lastContext_verified
    (hVerified : ∀ request ∈ requests, request.Verified proposer.runner proposer.vocabSize)
    {request : DecodeRequest} (hMem : request ∈ requests) :
    lastContext request = request.position := by
  unfold lastContext
  split
  · rfl
  · rename_i hNone
    have hDrafts := (hVerified request hMem).fits.drafts_add_one
    obtain ⟨-, hAccepted, -⟩ := accepted_inside hVerified hMem
    have hZero : request.row.numDraftTokens = 0 := by
      rw [BatchRow.numDraftTokens, Option.not_isSome_iff_eq_none.1 hNone]
      rfl
    unfold DecodeRequest.position
    omega

/-- A prefill chunk, or a decode without drafts, is drafted from its scheduled tokens. -/
theorem draftsExactly_undrafted (hRequests : requests ≠ [])
    (hNone : useSpecDecode (requests.map (·.row)) = false)
    (hRows : ∀ request ∈ requests, request.row.Scheduled proposer.runner)
    (hRoom : Room proposer targetHiddenStates blockTable requests.length
      (numStaged proposer.runner requests)) :
    DraftsExactly proposer targetHiddenStates blockTable requests := by
  have hFixed := windowFixed_undrafted proposer hNone
  have hStaged := prepareInputs_unpadded hFixed hNone (by simpa using hRequests)
    (by simpa using hRows)
  have hCounts : ∀ request ∈ requests, 0 < request.row.numScheduledTokens ∧
      request.row.numScheduledTokens ≤ request.row.numScheduledTokens :=
    fun request hMem => ⟨(hRows request hMem).scheduled, Nat.le_refl _⟩
  rw [numStaged, hFixed, if_neg Bool.false_ne_true] at hRoom
  obtain ⟨drafting, hDrafting, hExact⟩ := exact_packed (packed_unpaddedOf proposer.runner requests)
    hRoom hCounts (fun request hMem => ⟨Nat.le_refl _, (hRows request hMem).inside⟩)
    (propose_packed (packed_unpaddedOf proposer.runner requests) rfl hCounts
      (Or.inr ⟨rfl, fun _ _ => rfl⟩))
    (by
      intro request hMem
      have hPos := (hRows request hMem).scheduled
      rw [lastContext_undrafted hNone hMem]
      omega)
  exact ⟨_, drafting, _, hStaged, hDrafting, hExact⟩

/-- The rows of a window that a verified request is drafted from: all but the rejected ones. -/
def draftedCount (runner : Runner) (request : DecodeRequest) : Nat :=
  request.row.front runner + request.accepted + 1 + request.row.back runner

variable (targetHiddenStates blockTable) in
theorem propose_drafted
    (hSome : useSpecDecode (requests.map (·.row)) = true)
    (hVerified : ∀ request ∈ requests, request.Verified proposer.runner proposer.vocabSize) :
    proposer.proposeDraftTokenIds (stagedOf proposer.runner (requests.map (·.row)))
        (requests.map (·.sampledTokenIds)) (requests.map (·.backup)) targetHiddenStates blockTable =
      draftContexts proposer targetHiddenStates blockTable (requests.map (·.lastToken))
        (contextsOf (fun _ => proposer.runner.numSpecTokens + 1)
          (fun request => request.row.first proposer.runner) (draftedCount proposer.runner)
          requests) := by
  have hNext := next_window hVerified
  have hMeta : (stagedOf proposer.runner (requests.map (·.row))).specDecodeMetadata =
      some (metadataOf proposer.runner (requests.map (·.row))) := by
    rw [stagedOf, if_pos hSome]
  have hCounts : ∀ request ∈ requests, 0 < draftedCount proposer.runner request ∧
      draftedCount proposer.runner request ≤ proposer.runner.numSpecTokens + 1 := by
    intro request hMem
    have hParts := (hVerified request hMem).fits.parts
    obtain ⟨-, hAccepted, -⟩ := accepted_inside hVerified hMem
    unfold draftedCount
    omega
  refine (propose_packed (packed_stagedOf proposer.runner requests) hNext hCounts
    (Or.inl (by
      rw [hMeta, Option.map_some, List.map_map]
      congr 1
      have hRejected := rejected_window hVerified
      refine hRejected.trans (List.map_congr_left ?_)
      intro request hMem
      have hParts := (hVerified request hMem).fits.parts
      have hDrafts := (hVerified request hMem).fits.drafts_add_one
      obtain ⟨-, hAccepted, -⟩ := accepted_inside hVerified hMem
      unfold draftedCount
      omega))).trans ?_
  rw [List.map_map]
  rfl

/-- The padding behind a window is empty where all drafts fit, and where the limit is reached. -/
theorem back_eq_zero_iff {runner : Runner} {row : BatchRow} (hFits : row.Fits runner) :
    row.back runner = 0 ↔ row.numDraftTokens = runner.numSpecTokens ∨
      row.numComputedTokens + row.numScheduledTokens = runner.maxModelLen := by
  have hDrafts := hFits.drafts_add_one
  have hInside := hFits.inside
  have hWindow := hFits.inWindow
  unfold BatchRow.back BatchRow.front
  omega

/-- A decode with drafts is drafted from its accepted tokens where no window is padded behind. -/
theorem draftsExactly_drafted (hRequests : requests ≠ [])
    (hPhase : proposer.runner.isPrefill = false)
    (hSome : useSpecDecode (requests.map (·.row)) = true)
    (hVerified : ∀ request ∈ requests, request.Verified proposer.runner proposer.vocabSize)
    (hRoom : Room proposer targetHiddenStates blockTable requests.length
      (numStaged proposer.runner requests)) :
    DraftsExactly proposer targetHiddenStates blockTable requests ↔
      ∀ request ∈ requests, request.row.back proposer.runner = 0 := by
  have hFixed := windowFixed_drafted hPhase hSome
  have hStaged := prepareInputs_window hFixed (by simpa using hRequests) (fits_rows hVerified)
  have hPropose := propose_drafted targetHiddenStates blockTable hSome hVerified
  have hEnd : ∀ request ∈ requests, request.row.first proposer.runner +
      draftedCount proposer.runner request =
        lastContext request + 1 + request.row.back proposer.runner := by
    intro request hMem
    have hFirst := (hVerified request hMem).fits.first_add_front
    rw [lastContext_verified hVerified hMem]
    unfold draftedCount DecodeRequest.position
    omega
  rw [numStaged, hFixed, if_pos rfl] at hRoom
  constructor
  · rintro ⟨staged, drafting, contexts, hPrepared, hDrafted, hExact⟩ request hMem
    rw [hStaged] at hPrepared
    cases hPrepared
    have hLast := last_of_exact hPropose hDrafted hExact request hMem
    have hPadded := hEnd request hMem
    omega
  · intro hBack
    obtain ⟨drafting, hDrafting, hExact⟩ := exact_packed
      (packed_stagedOf proposer.runner requests) hRoom
      (by
        intro request hMem
        have hParts := (hVerified request hMem).fits.parts
        obtain ⟨-, hAccepted, -⟩ := accepted_inside hVerified hMem
        unfold draftedCount
        omega)
      (by
        intro request hMem
        have hFirst := (hVerified request hMem).fits.first_add_front
        exact ⟨by omega, (hVerified request hMem).fits.first_add_window⟩)
      hPropose
      (by
        intro request hMem
        rw [hEnd request hMem, hBack request hMem])
    exact ⟨_, drafting, _, hStaged, hDrafting, hExact⟩

/-- A step is drafted from its accepted contexts exactly when it brings no drafts, or brings every
request either all of its drafts or tokens up to the length limit. -/
theorem draftsExactly_iff (proposer : DFlashProposer H E) (targetHiddenStates : List H)
    (blockTable : List (List Nat)) (requests : List DecodeRequest) (hRequests : requests ≠ [])
    (hLegal : Legal proposer requests)
    (hRoom : Room proposer targetHiddenStates blockTable requests.length
      (numStaged proposer.runner requests)) :
    DraftsExactly proposer targetHiddenStates blockTable requests ↔
      useSpecDecode (requests.map (·.row)) = false ∨
        ∀ request ∈ requests, request.row.numDraftTokens = proposer.runner.numSpecTokens ∨
          request.row.numComputedTokens + request.row.numScheduledTokens =
            proposer.runner.maxModelLen := by
  cases hLegal with
  | undrafted hNone hRows =>
      exact iff_of_true (draftsExactly_undrafted hRequests hNone hRows hRoom) (Or.inl hNone)
  | drafted hPhase hSome hVerified =>
      rw [draftsExactly_drafted hRequests hPhase hSome hVerified hRoom, hSome]
      constructor
      · intro hBack
        refine Or.inr fun request hMem => ?_
        exact (back_eq_zero_iff (hVerified request hMem).fits).1 (hBack request hMem)
      · rintro (hNone | hEach) request hMem
        · cases hNone
        · exact (back_eq_zero_iff (hVerified request hMem).fits).2 (hEach request hMem)

end Steps

/-- Windows of four under a length limit of ten, and blocks of two. -/
def tenDFlashProposer : DFlashProposer Nat (Nat × Nat × Int) where
  runner := tenRunner
  notFixed := rfl
  vocabSize := 100
  parallelDraftingTokenId := 99
  blockSize := 2
  blockSizePos := Nat.two_pos
  maxNumTokens := 8
  numLayers := 2
  project := fun layer state position => (layer, state, position)
  projStates := List.replicate 8 0
  projPositions := List.replicate 8 0

/-- A request with all three drafts, of which the first is accepted. -/
def fullyDrafted : DecodeRequest :=
  ⟨⟨3, 4, 4, [0, 1, 2, 3, 14, 15, 16, 7, 8, 9], some [14, 15, 16]⟩, [14, 20], 2, 0⟩

theorem tenDFlashProposer_room :
    Room tenDFlashProposer [10, 11, 12, 13] [[7, 5, 6, 8, 9]] 1 4 := by
  refine ⟨by decide, by decide, by decide, ?_⟩
  intro table hMem
  rw [List.mem_singleton.1 hMem]
  decide

theorem draftsExactly_iff_full :
    DraftsExactly tenDFlashProposer [10, 11, 12, 13] [[7, 5, 6, 8, 9]] [fullyDrafted] := by
  refine (draftsExactly_iff tenDFlashProposer [10, 11, 12, 13] [[7, 5, 6, 8, 9]] [fullyDrafted]
    (by decide) (.drafted rfl rfl ?_) tenDFlashProposer_room).2 (Or.inr ?_)
  · intro request hMem
    rw [List.mem_singleton.1 hMem]
    exact ⟨⟨by decide, by decide, by decide, by decide, rfl, rfl, by decide⟩, by decide, by decide,
      by decide, by decide⟩
  · intro request hMem
    rw [List.mem_singleton.1 hMem]
    exact Or.inl rfl

/-- The same request where only one draft is left, which is accepted. -/
def truncatedDraft : DecodeRequest :=
  ⟨⟨3, 2, 4, [0, 1, 2, 3, 14, 5, 6, 7, 8, 9], some [14]⟩, [14, 20], 2, 0⟩

theorem truncatedDraft_verified : ∀ request ∈ [truncatedDraft],
    request.Verified tenDFlashProposer.runner tenDFlashProposer.vocabSize := by
  intro request hMem
  rw [List.mem_singleton.1 hMem]
  exact ⟨⟨by decide, by decide, by decide, by decide, rfl, rfl, by decide⟩, by decide, by decide,
    by decide, by decide⟩

/-- The two padded slots behind the draft are taken into the context. -/
theorem not_draftsExactly_truncated :
    Legal tenDFlashProposer [truncatedDraft] ∧
      Room tenDFlashProposer [10, 11, 12, 13] [[7, 5, 6, 8, 9]] 1
        (numStaged tenDFlashProposer.runner [truncatedDraft]) ∧
      ¬ DraftsExactly tenDFlashProposer [10, 11, 12, 13] [[7, 5, 6, 8, 9]] [truncatedDraft] := by
  refine ⟨.drafted rfl rfl truncatedDraft_verified, tenDFlashProposer_room, ?_⟩
  rw [draftsExactly_drafted (by decide) rfl rfl truncatedDraft_verified tenDFlashProposer_room]
  intro hBack
  have hTwo := hBack truncatedDraft List.mem_cons_self
  revert hTwo
  decide

end VllmRbln.DFlash
