import Mathlib.Algebra.Ring.Int.Defs
import VllmRbln.Common.Extremes
import VllmRbln.ModelRunner.DecodeWindow

/-! EAGLE drafting behind a verified decode step (`v1/spec_decode/eagle.py`,
`v1/spec_decode/utils.py`, the eagle branch of `propose_draft_token_ids`). The first pass runs
over the staged windows, shifted by one token; each later pass runs over one token of every
request. -/
namespace VllmRbln.Eagle

open Ragged Checked Extremes DecodeWindow

/-- The proposer, with its own persistent `input_ids`. It shares the runner's number of speculative
tokens and length limit; `draftMaxModelLen` is the draft model's, where its configuration names
one. -/
structure Proposer where
  runner : Runner
  draftMaxModelLen : Option Nat
  vocabSize : Int
  inputIds : List Int

/-- What one later pass is fed, beside the tokens drafted before it. -/
structure DraftPass where
  positions : List Int
  seqLens : List Int
  deriving DecidableEq

structure Proposal where
  nextTokenIds : List Int
  tokenIndicesToSample : List Int
  numRejectedTokens : Option (List Int)
  inputIds : List Int
  passes : List DraftPass
  deriving DecidableEq

/-! ### The padded batch -/

def isValid (vocabSize token : Int) : Bool := token != -1 && decide (token < vocabSize)

/-- `eagle_prepare_next_token_padded` on one request: its next token, and how many it sampled. -/
def nextTokenPadded (vocabSize : Int) (sampledTokenIds : List Int) (discard : Bool)
    (backup : Int) : Int × Int :=
  let validCount : Int := sampledTokenIds.countP (isValid vocabSize)
  let lastValidIndex : Int := (sampledTokenIds.zipIdx.map fun (token, offset) =>
    if isValid vocabSize token then (offset : Int) else -1).foldl max (-1)
  let lastValidToken := (sampledTokenIds.zipIdx.map fun (token, offset) =>
    if (offset : Int) = lastValidIndex then token else 0).sum
  let next := if 0 < validCount then lastValidToken else backup
  (if discard then backup else next, if discard then 0 else validCount)

/-- Each total less the one before it. -/
def differences (totals : List Nat) : List Int :=
  List.zipWith (fun total before : Nat => (total : Int) - before) totals (0 :: totals.dropLast)

/-- `eagle_prepare_inputs_padded`: the index of each request's last valid slot, were its window not
padded behind, and its number of rejected tokens. -/
def prepareInputsPadded (cuNumDraftTokens : List Nat) (validSampledTokensCount : List Int)
    (queryStartLoc : List Nat) : List Int × List Int :=
  let numRejectedTokens := List.zipWith
    (fun drafts valid : Int => if 0 < drafts then drafts + 1 - valid else 0)
    (differences cuNumDraftTokens) validSampledTokensCount
  let lastSlots : List Int := queryStartLoc.tail.map fun loc : Nat => (loc : Int) - 1
  (List.zipWith (· - ·) lastSlots numRejectedTokens, numRejectedTokens)

/-! ### The first pass -/

/-- `values[index] = value`. -/
def setAt (values : List Int) (index value : Int) : Except StageError (List Int) :=
  let position := if index < 0 then index + values.length else index
  if position < 0 ∨ values.length ≤ position then .error .index
  else .ok (values.set position.toNat value)

/-- `values[indices] = entries`. -/
def scatter (values : List Int) : List (Int × Int) → Except StageError (List Int)
  | [] => .ok values
  | (index, entry) :: rest => do scatter (← setAt values index entry) rest

/-- `_preprocess` on the proposer's `input_ids`: the target's tokens moved up by one, and each
request's next token behind its last valid one. -/
def preprocess (inputIds targetTokenIds nextTokenIds tokenIndicesToSample : List Int) :
    Except StageError (List Int) :=
  let shifted := targetTokenIds.tail ++ inputIds.drop (targetTokenIds.length - 1)
  scatter shifted (tokenIndicesToSample.zip nextTokenIds)

/-! ### The later passes -/

/-- `count` later passes of `propose`, each one position on from the pass before. -/
def laterPasses (maxModelLen : Nat) : Nat → List Int → List Int → List DraftPass
  | 0, _, _ => []
  | count + 1, positions, seqLens =>
      let positions := positions.map (· + 1)
      let seqLens := List.zipWith
        (fun position length : Int => if (maxModelLen : Int) ≤ position then 1 else length + 1)
        positions seqLens
      ⟨positions, seqLens⟩ :: laterPasses maxModelLen count positions seqLens

namespace Proposer

variable (proposer : Proposer)

def effectiveDrafterMaxModelLen : Nat := proposer.draftMaxModelLen.getD proposer.runner.maxModelLen

/-- `input_fits_in_drafter`, without which nothing is drafted. -/
def inputFitsInDrafter (staged : Staged) : Bool :=
  decide (staged.seqLens.foldl max 0 + proposer.runner.numSpecTokens ≤
    proposer.effectiveDrafterMaxModelLen)

/-- The eagle branch of `propose_draft_token_ids`, and `propose` up to the draft model's own
outputs. -/
def proposeDraftTokenIds (staged : Staged) (sampledTokenIds : List (List Int))
    (backupTokenIds : List Int) : Except StageError Proposal := do
  let next := List.zipWith (fun (sampled : List Int) (rest : Bool × Int) =>
    nextTokenPadded proposer.vocabSize sampled rest.1 rest.2) sampledTokenIds
    (staged.discardRequestMask.zip backupTokenIds)
  let nextTokenIds := next.map Prod.fst
  let validSampledTokensCount := next.map Prod.snd
  let numTokens := staged.queryStartLoc.getLastD 0
  let (lastSlots, numRejectedTokens) : List Int × Option (List Int) :=
    match staged.specDecodeMetadata with
    | none => (staged.queryStartLoc.tail.map fun loc : Nat => (loc : Int) - 1, none)
    | some metadata =>
        let padded := prepareInputsPadded metadata.cuNumDraftTokens validSampledTokensCount
          staged.queryStartLoc
        (padded.1, some padded.2)
  let tokenIndicesToSample := List.zipWith (· - ·) lastSlots staged.backPad
  let inputIds ← preprocess proposer.inputIds (staged.inputIds.take numTokens) nextTokenIds
    tokenIndicesToSample
  let positions ← takeAll staged.positions tokenIndicesToSample
  let seqLens : List Int := staged.seqLens.map fun length : Nat => (length : Int)
  let seqLens := match numRejectedTokens with
    | none => seqLens
    | some rejected => List.zipWith (· - ·) seqLens rejected
  return { nextTokenIds, tokenIndicesToSample, numRejectedTokens, inputIds,
           passes := laterPasses proposer.runner.maxModelLen (proposer.runner.numSpecTokens - 1)
             positions seqLens }

end Proposer

/-! ### The sampled tokens of a request -/

/-- The largest offset of a run of valid tokens is its last. -/
theorem lastValid_valid {vocabSize : Int} {tokens : List Int}
    (hValid : ∀ token ∈ tokens, isValid vocabSize token = true) (start : Nat) {best : Int}
    (hBest : best < start) :
    ((tokens.zipIdx start).map fun (token, offset) =>
      if isValid vocabSize token then (offset : Int) else -1).foldl max best =
      if tokens = [] then best else (start : Int) + tokens.length - 1 := by
  induction tokens generalizing start best with
  | nil => rfl
  | cons token tokens ih =>
      have hHead := hValid token List.mem_cons_self
      have hMax : max best (start : Int) = start := by omega
      rw [List.zipIdx_cons, List.map_cons, List.foldl_cons]
      simp only [hHead, if_true, hMax]
      rw [ih (fun other hMem => hValid other (List.mem_cons_of_mem _ hMem)) (start + 1) (by omega)]
      cases tokens with
      | nil => simp
      | cons other tokens =>
          simp only [reduceCtorEq, if_false, List.length_cons]
          omega

/-- Tokens that do not count leave the largest offset as it is. -/
theorem lastValid_invalid {vocabSize : Int} {tokens : List Int}
    (hInvalid : ∀ token ∈ tokens, isValid vocabSize token = false) (start : Nat) {best : Int}
    (hBest : -1 ≤ best) :
    ((tokens.zipIdx start).map fun (token, offset) =>
      if isValid vocabSize token then (offset : Int) else -1).foldl max best = best := by
  induction tokens generalizing start with
  | nil => rfl
  | cons token tokens ih =>
      have hHead := hInvalid token List.mem_cons_self
      have hMax : max best (-1) = best := by omega
      rw [List.zipIdx_cons, List.map_cons, List.foldl_cons]
      simp only [hHead, Bool.false_eq_true, if_false, hMax]
      exact ih (fun other hMem => hInvalid other (List.mem_cons_of_mem _ hMem)) (start + 1)

/-- The sum of one entry and zeros. -/
theorem sum_at_offset (tokens : List Int) (start offset : Nat) :
    ((tokens.zipIdx start).map fun (token, place) =>
      if (place : Int) = ((start + offset : Nat) : Int) then token else 0).sum =
      tokens.getD offset 0 := by
  induction tokens generalizing start offset with
  | nil => rfl
  | cons token tokens ih =>
      rw [List.zipIdx_cons, List.map_cons, List.sum_cons]
      cases offset with
      | zero =>
          have hRest : ((tokens.zipIdx (start + 1)).map fun (token, place) =>
              if (place : Int) = ((start + 0 : Nat) : Int) then token else 0).sum = 0 := by
            apply List.sum_eq_zero
            intro entry hMem
            obtain ⟨⟨other, place⟩, hOther, rfl⟩ := List.mem_map.1 hMem
            have hPlace := List.le_snd_of_mem_zipIdx hOther
            change start + 1 ≤ place at hPlace
            have hNe : (place : Int) ≠ ((start + 0 : Nat) : Int) := by omega
            exact if_neg hNe
          rw [hRest]
          simp
      | succ offset =>
          have hNe : (start : Int) ≠ ((start + (offset + 1) : Nat) : Int) := by omega
          have hShift : start + (offset + 1) = start + 1 + offset := by omega
          show (if (start : Int) = ((start + (offset + 1) : Nat) : Int) then token else 0) + _ = _
          rw [if_neg hNe, Int.zero_add, hShift, ih, List.getD_cons_succ]

/-- A request of a verified step: its row of the batch, the tokens sampled for it (the accepted
drafts and one more), how many placeholders stand behind them, and its backup token. -/
structure DecodeRequest where
  row : BatchRow
  tokens : List Int
  placeholders : Nat
  backup : Int

namespace DecodeRequest

variable (request : DecodeRequest)

def sampledTokenIds : List Int := request.tokens ++ List.replicate request.placeholders (-1)

def accepted : Nat := request.tokens.length - 1

/-- The position of the last accepted token. -/
def position : Nat := request.row.numComputedTokens + request.accepted

def lastToken : Int := request.tokens.getLastD 0

/-- A decode of the request that computes all its tokens, verified by the sampler. -/
structure Verified (runner : Runner) (vocabSize : Int) : Prop where
  fits : request.row.Fits runner
  settled : request.row.numTokens ≤ request.row.numComputedTokens + request.row.numScheduledTokens
  sampled : request.tokens ≠ []
  inDrafts : request.tokens.length ≤ request.row.numDraftTokens + 1
  valid : ∀ token ∈ request.tokens, isValid vocabSize token = true

end DecodeRequest

theorem nextTokenPadded_verified {runner : Runner} {vocabSize : Int} {request : DecodeRequest}
    (hVerified : request.Verified runner vocabSize) :
    nextTokenPadded vocabSize request.sampledTokenIds false request.backup =
      (request.lastToken, (request.tokens.length : Int)) := by
  have hInvalid : ∀ token ∈ List.replicate request.placeholders (-1 : Int),
      isValid vocabSize token = false := by
    intro token hMem
    rw [List.eq_of_mem_replicate hMem]
    rfl
  have hPos : 0 < request.tokens.length := List.length_pos_iff.2 hVerified.sampled
  have hCount : request.sampledTokenIds.countP (isValid vocabSize) = request.tokens.length := by
    rw [DecodeRequest.sampledTokenIds, List.countP_append,
      List.countP_eq_length.2 hVerified.valid, List.countP_eq_zero.2 (by simpa using hInvalid),
      Nat.add_zero]
  have hLast : (request.sampledTokenIds.zipIdx.map fun (token, offset) =>
      if isValid vocabSize token then (offset : Int) else -1).foldl max (-1) =
      ((0 + (request.tokens.length - 1) : Nat) : Int) := by
    rw [DecodeRequest.sampledTokenIds, List.zipIdx_append, List.map_append, List.foldl_append,
      lastValid_valid hVerified.valid 0 (by omega), if_neg hVerified.sampled,
      lastValid_invalid hInvalid _ (by omega)]
    omega
  have hToken : request.sampledTokenIds.getD (request.tokens.length - 1) 0 =
      request.lastToken := by
    have hBound : request.tokens.length - 1 < request.tokens.length := by omega
    rw [DecodeRequest.sampledTokenIds, List.getD_append _ _ _ _ hBound, DecodeRequest.lastToken,
      List.getLastD_eq_getLast?, List.getLast?_eq_getElem?, List.getD_eq_getElem?_getD]
  have hNonzero : (0 : Int) < (request.tokens.length : Nat) := by omega
  simp only [nextTokenPadded, hCount, hLast, sum_at_offset, hToken, if_pos hNonzero,
    Bool.false_eq_true, if_false]

/-! ### The arrays of the first pass -/

/-- Running totals give their counts back. -/
theorem differences_cumsum (counts : List Nat) :
    differences (cumsum counts) = counts.map Nat.cast := by
  have hFrom : ∀ base, List.zipWith (fun total before : Nat => (total : Int) - before)
      (cumsumFrom base counts) (base :: (cumsumFrom base counts).dropLast) =
      counts.map Nat.cast := by
    induction counts with
    | nil => intro base; rfl
    | cons count counts ih =>
        intro base
        have hCount : ((base + count : Nat) : Int) - base = count := by omega
        cases counts with
        | nil =>
            show [((base + count : Nat) : Int) - base] = [(count : Int)]
            rw [hCount]
        | cons other counts =>
            have hRest := ih (base + count)
            have hSome : cumsumFrom (base + count) (other :: counts) ≠ [] := by
              rw [cumsumFrom]
              exact List.cons_ne_nil _ _
            rw [cumsumFrom, List.dropLast_cons_of_ne_nil hSome, List.zipWith_cons_cons, hCount,
              hRest]
            rfl
  exact hFrom 0

theorem setAt_cast {values : List Int} {slot : Nat} (value : Int) (hSlot : slot < values.length) :
    setAt values slot value = .ok (values.set slot value) := by
  have hPos : ¬ (slot : Int) < 0 := by omega
  have hBound : ¬ ((slot : Int) < 0 ∨ (values.length : Int) ≤ slot) := by omega
  simp only [setAt, if_neg hPos, if_neg hBound, Int.toNat_natCast]

/-- Writing to slots that all exist, none of them twice. -/
theorem scatter_cast {slots : List Nat} (entries : List Int) {values : List Int}
    (hSlots : ∀ slot ∈ slots, slot < values.length) (hNodup : slots.Nodup) :
    ∃ out, scatter values ((slots.map Nat.cast).zip entries) = .ok out ∧
      (∀ slot, slot ∉ slots → out[slot]? = values[slot]?) ∧
      ∀ (k slot : Nat) (entry : Int), slots[k]? = some slot → entries[k]? = some entry →
        out[slot]? = some entry := by
  induction slots generalizing entries values with
  | nil =>
      refine ⟨values, rfl, fun _ _ => rfl, ?_⟩
      intro k slot entry hSlot
      cases hSlot
  | cons first slots ih =>
      cases entries with
      | nil =>
          refine ⟨values, rfl, fun _ _ => rfl, ?_⟩
          intro k slot entry _ hEntry
          cases hEntry
      | cons entry entries =>
          have hFirst := hSlots first List.mem_cons_self
          obtain ⟨hFresh, hRest⟩ := List.nodup_cons.1 hNodup
          have hBounds : ∀ slot ∈ slots, slot < (values.set first entry).length := by
            intro slot hMem
            rw [List.length_set]
            exact hSlots slot (List.mem_cons_of_mem _ hMem)
          obtain ⟨out, hOut, hOther, hWritten⟩ := ih entries hBounds hRest
          refine ⟨out, ?_, ?_, ?_⟩
          · rw [List.map_cons, List.zip_cons_cons, scatter, setAt_cast entry hFirst, ok_bind, hOut]
          · intro slot hMem
            rw [List.mem_cons, not_or] at hMem
            rw [hOther slot hMem.2, List.getElem?_set_ne (Ne.symm hMem.1)]
          · intro k slot value hSlot hEntry
            cases k with
            | zero =>
                cases hSlot
                cases hEntry
                rw [hOther first hFresh, List.getElem?_set_self hFirst]
            | succ k => exact hWritten k slot value hSlot hEntry

section Batch

variable {runner : Runner} {vocabSize : Int} {requests : List DecodeRequest}

/-- The slot of each request's last accepted token. -/
def acceptedSlots (runner : Runner) (requests : List DecodeRequest) : List Nat :=
  slotsFrom (fun _ => runner.numSpecTokens + 1)
    (fun request => request.row.front runner + request.accepted) (fun _ => 1) 0 requests

variable (hVerified : ∀ request ∈ requests, request.Verified runner vocabSize)
include hVerified

theorem fits_rows : ∀ row ∈ requests.map (·.row), row.Fits runner := by
  intro row hMem
  obtain ⟨request, hRequest, rfl⟩ := List.mem_map.1 hMem
  exact (hVerified request hRequest).fits

/-- The last accepted token is one of the scheduled tokens of its window. -/
theorem accepted_inside {request : DecodeRequest} (hMem : request ∈ requests) :
    request.accepted + 1 = request.tokens.length ∧
      request.accepted + 1 ≤ request.row.numScheduledTokens ∧
      request.row.front runner + request.accepted + 1 ≤ runner.numSpecTokens + 1 := by
  have hRequest := hVerified request hMem
  have hParts := hRequest.fits.parts
  have hDrafts := hRequest.fits.drafts_add_one
  have hBound := hRequest.inDrafts
  have hPos : 0 < request.tokens.length := List.length_pos_iff.2 hRequest.sampled
  unfold DecodeRequest.accepted
  omega

theorem next_window :
    List.zipWith (fun (sampled : List Int) (rest : Bool × Int) =>
        nextTokenPadded vocabSize sampled rest.1 rest.2) (requests.map (·.sampledTokenIds))
      ((stagedOf runner (requests.map (·.row))).discardRequestMask.zip (requests.map (·.backup))) =
      requests.map fun request => (request.lastToken, (request.tokens.length : Int)) := by
  have hMask : (stagedOf runner (requests.map (·.row))).discardRequestMask =
      requests.map fun _ => false := by
    show ((requests.map (·.row)).map fun row =>
      decide (row.numComputedTokens + row.numScheduledTokens < row.numTokens)) = _
    rw [List.map_map]
    apply List.map_congr_left
    intro request hMem
    exact decide_eq_false (Nat.not_lt.2 (hVerified request hMem).settled)
  rw [hMask, List.zip, zipWith_map_map, zipWith_map_map]
  apply List.map_congr_left
  intro request hMem
  exact nextTokenPadded_verified (hVerified request hMem)

/-- Without drafts, the one scheduled token is the last one accepted. -/
theorem lastSlots_undrafted (hNone : useSpecDecode (requests.map (·.row)) = false) :
    List.zipWith (· - ·)
        ((cumsum ((requests.map (·.row)).map fun _ => runner.numSpecTokens + 1)).map
          fun loc : Nat => (loc : Int) - 1)
        ((requests.map (·.row)).map fun row => (row.back runner : Int)) =
      (acceptedSlots runner requests).map Nat.cast := by
  rw [List.map_map, List.map_map, List.zipWith_map_left, List.zipWith_map_right, cumsum]
  apply zipWith_cumsumFrom_single _ _ _ _ _ 0
  · intro request _
    rfl
  · intro base request hMem
    have hParts := (hVerified request hMem).fits.parts
    have hOne := scheduled_of_undrafted (fits_rows hVerified) hNone
      (List.mem_map_of_mem (f := (·.row)) hMem)
    obtain ⟨-, hAccepted, -⟩ := accepted_inside hVerified hMem
    show ((base + (runner.numSpecTokens + 1) : Nat) : Int) - 1 - request.row.back runner =
      ((base + (request.row.front runner + request.accepted) : Nat) : Int)
    omega

theorem rejected_window :
    List.zipWith (fun drafts valid : Int => if 0 < drafts then drafts + 1 - valid else 0)
        (differences (cumsum ((requests.map (·.row)).map (·.numDraftTokens))))
        (requests.map fun request => (request.tokens.length : Int)) =
      requests.map fun request => (request.row.numDraftTokens : Int) - request.accepted := by
  rw [differences_cumsum, List.map_map, List.map_map, zipWith_map_map]
  apply List.map_congr_left
  intro request hMem
  obtain ⟨hLength, hAccepted, -⟩ := accepted_inside hVerified hMem
  have hDrafts := (hVerified request hMem).fits.drafts_add_one
  show (if (0 : Int) < (request.row.numDraftTokens : Nat) then
    ((request.row.numDraftTokens : Nat) : Int) + 1 - (request.tokens.length : Nat) else 0) = _
  split
  · omega
  · omega

/-- With drafts, the rejected ones and the padding stand behind it. -/
theorem lastSlots_drafted :
    List.zipWith (· - ·)
        (List.zipWith (· - ·)
          ((cumsum ((requests.map (·.row)).map fun _ => runner.numSpecTokens + 1)).map
            fun loc : Nat => (loc : Int) - 1)
          (requests.map fun request => (request.row.numDraftTokens : Int) - request.accepted))
        ((requests.map (·.row)).map fun row => (row.back runner : Int)) =
      (acceptedSlots runner requests).map Nat.cast := by
  rw [List.map_map, List.map_map, List.zipWith_map_left, List.zipWith_map_right,
    List.zipWith_map_right, zipWith_zipWith_right, cumsum]
  apply zipWith_cumsumFrom_single _ _ _ _ _ 0
  · intro request _
    rfl
  · intro base request hMem
    have hParts := (hVerified request hMem).fits.parts
    have hDrafts := (hVerified request hMem).fits.drafts_add_one
    obtain ⟨-, hAccepted, -⟩ := accepted_inside hVerified hMem
    show ((base + (runner.numSpecTokens + 1) : Nat) : Int) - 1 -
      ((request.row.numDraftTokens : Nat) - (request.accepted : Nat)) - request.row.back runner =
      ((base + (request.row.front runner + request.accepted) : Nat) : Int)
    omega

theorem positions_accepted :
    takeAll (stagedOf runner (requests.map (·.row))).positions
        ((acceptedSlots runner requests).map Nat.cast) =
      .ok (requests.map fun request => (request.position : Int)) := by
  apply takeAll_cast
  have hSlots := slotsFrom_const (fun request : DecodeRequest => request.row.front runner +
    request.accepted) (runner.numSpecTokens + 1) 0 requests
  rw [Nat.zero_mul] at hSlots
  rw [acceptedSlots, hSlots, List.map_map,
    map_eq_zipIdx (fun request => (request.position : Int)) requests, List.map_map]
  apply List.map_congr_left
  rintro ⟨request, req⟩ hMem
  have hRequest : requests[req]? = some request := List.mem_zipIdx_iff_getElem?.1 hMem
  have hRow : (requests.map (·.row))[req]? = some request.row := by
    rw [List.getElem?_map, hRequest, Option.map_some]
  have hIn := List.mem_of_getElem? hRequest
  have hFirst := (hVerified request hIn).fits.first_add_front
  obtain ⟨-, -, hInside⟩ := accepted_inside hVerified hIn
  have hPosition : request.row.first runner + (request.row.front runner + request.accepted) =
      request.position := by
    unfold DecodeRequest.position
    omega
  show (stagedOf runner (requests.map (·.row))).positions[req * (runner.numSpecTokens + 1) +
    (request.row.front runner + request.accepted)]? = some (request.position : Int)
  rw [position_stagedOf hRow (by omega), hPosition]

theorem seqLens_drafted :
    List.zipWith (· - ·)
        ((stagedOf runner (requests.map (·.row))).seqLens.map fun length : Nat => (length : Int))
        (requests.map fun request => (request.row.numDraftTokens : Int) - request.accepted) =
      requests.map fun request => (request.position : Int) + 1 := by
  show List.zipWith _ (((requests.map (·.row)).map fun row =>
    row.numComputedTokens + row.numScheduledTokens).map _) _ = _
  rw [List.map_map, List.map_map, zipWith_map_map]
  apply List.map_congr_left
  intro request hMem
  have hDrafts := (hVerified request hMem).fits.drafts_add_one
  show ((request.row.numComputedTokens + request.row.numScheduledTokens : Nat) : Int) -
    ((request.row.numDraftTokens : Nat) - (request.accepted : Nat)) =
    ((request.row.numComputedTokens + request.accepted : Nat) : Int) + 1
  omega

theorem seqLens_undrafted (hNone : useSpecDecode (requests.map (·.row)) = false) :
    ((stagedOf runner (requests.map (·.row))).seqLens.map fun length : Nat => (length : Int)) =
      requests.map fun request => (request.position : Int) + 1 := by
  show ((requests.map (·.row)).map fun row =>
    row.numComputedTokens + row.numScheduledTokens).map _ = _
  rw [List.map_map, List.map_map]
  apply List.map_congr_left
  intro request hMem
  have hOne := scheduled_of_undrafted (fits_rows hVerified) hNone
    (List.mem_map_of_mem (f := (·.row)) hMem)
  obtain ⟨-, hAccepted, -⟩ := accepted_inside hVerified hMem
  show ((request.row.numComputedTokens + request.row.numScheduledTokens : Nat) : Int) =
    ((request.row.numComputedTokens + request.accepted : Nat) : Int) + 1
  omega

omit hVerified in
theorem numTokens_staged (runner : Runner) (rows : List BatchRow) :
    (stagedOf runner rows).queryStartLoc.getLastD 0 =
      rows.length * (runner.numSpecTokens + 1) := by
  show (0 :: cumsum (rows.map fun _ => runner.numSpecTokens + 1)).getLastD 0 = _
  rw [List.getLastD_cons, cumsum, getLastD_cumsumFrom, Nat.zero_add, List.map_const',
    List.sum_replicate_nat]

omit hVerified in
theorem acceptedSlots_getElem? {req : Nat} {request : DecodeRequest}
    (hRequest : requests[req]? = some request) :
    (acceptedSlots runner requests)[req]? = some (req * (runner.numSpecTokens + 1) +
      (request.row.front runner + request.accepted)) := by
  have hSlots := slotsFrom_const (fun request : DecodeRequest => request.row.front runner +
    request.accepted) (runner.numSpecTokens + 1) 0 requests
  rw [Nat.zero_mul] at hSlots
  rw [acceptedSlots, hSlots, List.getElem?_map, List.getElem?_zipIdx, hRequest]
  simp only [Option.map_some, Nat.zero_add]

theorem acceptedSlots_lt {slot : Nat} (hMem : slot ∈ acceptedSlots runner requests) :
    slot < requests.length * (runner.numSpecTokens + 1) := by
  obtain ⟨req, hSlot⟩ := List.mem_iff_getElem?.1 hMem
  have hBound : req < requests.length := by
    have hLength := (List.getElem?_eq_some_iff.1 hSlot).1
    rwa [acceptedSlots, length_slotsFrom, List.map_const', List.sum_replicate_nat,
      Nat.mul_one] at hLength
  have hRequest := List.getElem?_eq_getElem hBound
  obtain ⟨-, -, hInside⟩ := accepted_inside hVerified (List.getElem_mem hBound)
  rw [acceptedSlots_getElem? hRequest] at hSlot
  cases hSlot
  have hRows : (req + 1) * (runner.numSpecTokens + 1) ≤
      requests.length * (runner.numSpecTokens + 1) := Nat.mul_le_mul_right _ hBound
  rw [Nat.succ_mul] at hRows
  omega

/-- The shifted input: every slot but the accepted ones takes the token of the slot behind it. -/
theorem preprocess_window {buffer : List Int}
    (hBuffer : requests.length * (runner.numSpecTokens + 1) ≤ buffer.length) :
    ∃ inputIds, preprocess buffer
        ((stagedOf runner (requests.map (·.row))).inputIds.take
          (requests.length * (runner.numSpecTokens + 1)))
        (requests.map (·.lastToken)) ((acceptedSlots runner requests).map Nat.cast) =
        .ok inputIds ∧
      (∀ slot, slot ∉ acceptedSlots runner requests →
        slot + 1 < requests.length * (runner.numSpecTokens + 1) →
        inputIds[slot]? = (stagedOf runner (requests.map (·.row))).inputIds[slot + 1]?) ∧
      ∀ req request, requests[req]? = some request →
        inputIds[req * (runner.numSpecTokens + 1) +
          (request.row.front runner + request.accepted)]? = some request.lastToken := by
  have hTarget : ((stagedOf runner (requests.map (·.row))).inputIds.take
      (requests.length * (runner.numSpecTokens + 1))).length =
      requests.length * (runner.numSpecTokens + 1) := by
    have hTokens : ((requests.map (·.row)).flatMap (·.tokens runner)).length =
        requests.length * (runner.numSpecTokens + 1) := by
      rw [length_flatMap_of_count (fun _ => runner.numSpecTokens + 1)
        (fun row _ => row.length_tokens runner), List.map_const', List.sum_replicate_nat,
        List.length_map]
    have hStaged : requests.length * (runner.numSpecTokens + 1) ≤
        (stagedOf runner (requests.map (·.row))).inputIds.length := by
      rw [← hTokens]
      exact (List.prefix_append _ _).length_le
    rw [List.length_take, Nat.min_eq_left hStaged]
  have hShifted : ((((stagedOf runner (requests.map (·.row))).inputIds.take
      (requests.length * (runner.numSpecTokens + 1))).tail ++
      buffer.drop (requests.length * (runner.numSpecTokens + 1) - 1))).length = buffer.length := by
    rw [List.length_append, List.length_tail, hTarget, List.length_drop]
    omega
  have hNodup : (acceptedSlots runner requests).Nodup :=
    nodup_slotsFrom fun request hMem => (accepted_inside hVerified hMem).2.2
  obtain ⟨inputIds, hOk, hOther, hWritten⟩ := scatter_cast (requests.map (·.lastToken))
    (fun slot hMem => by
      rw [hShifted]
      exact Nat.lt_of_lt_of_le (acceptedSlots_lt hVerified hMem) hBuffer) hNodup
  refine ⟨inputIds, ?_, ?_, ?_⟩
  · simp only [preprocess, hTarget]
    exact hOk
  · intro slot hMem hNext
    rw [hOther slot hMem, List.getElem?_append_left (by rw [List.length_tail, hTarget]; omega),
      List.getElem?_tail, List.getElem?_take_of_lt hNext]
  · intro req request hRequest
    apply hWritten req _ _ (acceptedSlots_getElem? hRequest)
    rw [List.getElem?_map, hRequest, Option.map_some]

/-- The proposal of a verified batch. -/
theorem propose_window {proposer : Proposer} (hRunner : proposer.runner = runner)
    (hVocab : proposer.vocabSize = vocabSize)
    (hBuffer : requests.length * (runner.numSpecTokens + 1) ≤ proposer.inputIds.length) :
    ∃ proposal, proposer.proposeDraftTokenIds (stagedOf runner (requests.map (·.row)))
        (requests.map (·.sampledTokenIds)) (requests.map (·.backup)) = .ok proposal ∧
      proposal.nextTokenIds = requests.map (·.lastToken) ∧
      proposal.tokenIndicesToSample = (acceptedSlots runner requests).map Nat.cast ∧
      proposal.passes = laterPasses runner.maxModelLen (runner.numSpecTokens - 1)
        (requests.map fun request => (request.position : Int))
        (requests.map fun request => (request.position : Int) + 1) ∧
      (∀ slot, slot ∉ acceptedSlots runner requests →
        slot + 1 < requests.length * (runner.numSpecTokens + 1) →
        proposal.inputIds[slot]? = (stagedOf runner (requests.map (·.row))).inputIds[slot + 1]?) ∧
      ∀ req request, requests[req]? = some request →
        proposal.inputIds[req * (runner.numSpecTokens + 1) +
          (request.row.front runner + request.accepted)]? = some request.lastToken := by
  subst hRunner hVocab
  obtain ⟨inputIds, hInput, hShift, hLast⟩ := preprocess_window hVerified hBuffer
  have hTokens := numTokens_staged proposer.runner (requests.map (·.row))
  rw [List.length_map] at hTokens
  have hFirst : (requests.map fun request =>
      (request.lastToken, (request.tokens.length : Int))).map Prod.fst =
      requests.map (·.lastToken) := by
    rw [List.map_map]
    rfl
  have hSecond : (requests.map fun request =>
      (request.lastToken, (request.tokens.length : Int))).map Prod.snd =
      requests.map fun request => (request.tokens.length : Int) := by
    rw [List.map_map]
    rfl
  cases hSpec : useSpecDecode (requests.map (·.row)) with
  | false =>
      have hMetadata : (stagedOf proposer.runner (requests.map (·.row))).specDecodeMetadata =
          none := by
        show (if useSpecDecode (requests.map (·.row)) then _ else none) = none
        rw [hSpec]
        rfl
      have hSlots : List.zipWith (· - ·)
          ((stagedOf proposer.runner (requests.map (·.row))).queryStartLoc.tail.map
            fun loc : Nat => (loc : Int) - 1)
          (stagedOf proposer.runner (requests.map (·.row))).backPad =
          (acceptedSlots proposer.runner requests).map Nat.cast :=
        lastSlots_undrafted hVerified hSpec
      refine ⟨⟨_, _, none, inputIds, _⟩, ?_, rfl, rfl, rfl, hShift, hLast⟩
      simp only [Proposer.proposeDraftTokenIds, next_window hVerified, hFirst, hMetadata, hTokens,
        hSlots, hInput, ok_bind, positions_accepted hVerified, seqLens_undrafted hVerified hSpec]
      rfl
  | true =>
      have hMetadata : (stagedOf proposer.runner (requests.map (·.row))).specDecodeMetadata =
          some (metadataOf proposer.runner (requests.map (·.row))) := by
        show (if useSpecDecode (requests.map (·.row)) then _ else none) = _
        rw [hSpec]
        rfl
      have hRejected : List.zipWith
          (fun drafts valid : Int => if 0 < drafts then drafts + 1 - valid else 0)
          (differences (metadataOf proposer.runner (requests.map (·.row))).cuNumDraftTokens)
          (requests.map fun request => (request.tokens.length : Int)) =
          requests.map fun request => (request.row.numDraftTokens : Int) - request.accepted :=
        rejected_window hVerified
      have hSlots : List.zipWith (· - ·)
          (List.zipWith (· - ·)
            ((stagedOf proposer.runner (requests.map (·.row))).queryStartLoc.tail.map
              fun loc : Nat => (loc : Int) - 1)
            (requests.map fun request => (request.row.numDraftTokens : Int) - request.accepted))
          (stagedOf proposer.runner (requests.map (·.row))).backPad =
          (acceptedSlots proposer.runner requests).map Nat.cast :=
        lastSlots_drafted hVerified
      refine ⟨⟨_, _, some (requests.map fun request =>
        (request.row.numDraftTokens : Int) - request.accepted), inputIds, _⟩, ?_, rfl, rfl, rfl,
        hShift, hLast⟩
      simp only [Proposer.proposeDraftTokenIds, next_window hVerified, hFirst, hSecond, hMetadata,
        hTokens, prepareInputsPadded, hRejected, hSlots, hInput, ok_bind,
        positions_accepted hVerified, seqLens_drafted hVerified]
      rfl

end Batch

/-! ### The later passes of a request -/

/-- Each later pass is one position on; its length follows while the position is inside the
limit. -/
theorem laterPasses_getElem? (maxModelLen : Nat) {count : Nat} {positions seqLens : List Int} {req : Nat}
    {position length : Int} (hPosition : positions[req]? = some position)
    (hLength : seqLens[req]? = some length) {pass : Nat} (hPass : pass < count) :
    ∃ fed, (laterPasses maxModelLen count positions seqLens)[pass]? = some fed ∧
      fed.positions[req]? = some (position + (pass + 1 : Nat)) ∧
      (position + (pass + 1 : Nat) < maxModelLen →
        fed.seqLens[req]? = some (length + (pass + 1 : Nat))) := by
  induction count generalizing positions seqLens position length pass with
  | zero => omega
  | succ count ih =>
      have hNextPosition : (positions.map (· + 1))[req]? = some (position + 1) := by
        rw [List.getElem?_map, hPosition, Option.map_some]
      have hNextLength : (List.zipWith
          (fun position length : Int => if (maxModelLen : Int) ≤ position then 1 else length + 1)
          (positions.map (· + 1)) seqLens)[req]? =
          some (if (maxModelLen : Int) ≤ position + 1 then 1 else length + 1) := by
        rw [List.getElem?_zipWith, hNextPosition, hLength]
      cases pass with
      | zero =>
          refine ⟨_, rfl, hNextPosition, ?_⟩
          intro hInside
          have hNot : ¬ (maxModelLen : Int) ≤ position + 1 := by omega
          rw [hNextLength, if_neg hNot]
          rfl
      | succ pass =>
          obtain ⟨fed, hFed, hAt, hLen⟩ := ih hNextPosition hNextLength (Nat.lt_of_succ_lt_succ hPass)
          refine ⟨fed, hFed, ?_, ?_⟩
          · rw [hAt]
            congr 1
            omega
          · intro hInside
            have hNot : ¬ (maxModelLen : Int) ≤ position + 1 := by omega
            rw [hLen (by omega), if_neg hNot]
            congr 1
            omega

/-- What `propose` does for the request `req`, whose last accepted token stands at `position`. -/
structure Proposal.AlignedAt (proposer : Proposer) (staged : Staged) (request : DecodeRequest)
    (req : Nat) (proposal : Proposal) : Prop where
  sampled : ∃ slot, proposal.tokenIndicesToSample[req]? = some slot ∧
    staged.slotAt slot = some ((req : Int), (request.position : Int))
  shifted : ∀ slot position : Nat, staged.slotAt slot = some ((req : Int), (position : Int)) →
    position < request.position →
      position + 1 < request.row.tokenIds.length ∧
        proposal.inputIds[slot]? = request.row.tokenIds[position + 1]?
  last : ∀ slot : Nat, staged.slotAt slot = some ((req : Int), (request.position : Int)) →
    proposal.inputIds[slot]? = some request.lastToken
  nextTokenId : proposal.nextTokenIds[req]? = some request.lastToken
  later : ∀ k, 1 ≤ k → k ≤ proposer.runner.numSpecTokens - 1 →
    ∃ pass, proposal.passes[k - 1]? = some pass ∧
      pass.positions[req]? = some ((request.position + k : Nat) : Int) ∧
      (request.position + k < proposer.runner.maxModelLen →
        pass.seqLens[req]? = some ((request.position + k + 1 : Nat) : Int)) ∧
      (proposer.inputFitsInDrafter staged = true →
        request.position + k < proposer.runner.maxModelLen)

section Batch

variable {runner : Runner} {rows : List BatchRow}

/-- A slot of the batch is a slot of one window. -/
theorem slotAt_stagedOf {slot : Nat} {req position : Int}
    (hSlot : (stagedOf runner rows).slotAt slot = some (req, position)) :
    ∃ owner row j, slot = owner * (runner.numSpecTokens + 1) + j ∧ j < runner.numSpecTokens + 1 ∧
      rows[owner]? = some row ∧ req = (owner : Nat) ∧
      position = ((row.first runner + j : Nat) : Int) := by
  have hWidth : ∀ entry ∈ rows.zipIdx, ((entry.1.positions runner).map fun position : Nat =>
      ((entry.2 : Int), (position : Int))).length = runner.numSpecTokens + 1 := by
    intro entry _
    rw [List.length_map, BatchRow.length_positions]
  rw [slotAt_cast, slots_stagedOf] at hSlot
  have hInside := (List.getElem?_eq_some_iff.1 hSlot).1
  rw [length_flatMap_of_count (fun _ => runner.numSpecTokens + 1) hWidth,
    List.map_const', List.sum_replicate_nat, List.length_zipIdx] at hInside
  have hDiv : slot / (runner.numSpecTokens + 1) < rows.length :=
    Nat.div_lt_of_lt_mul (by rwa [Nat.mul_comm])
  have hMod : slot % (runner.numSpecTokens + 1) < runner.numSpecTokens + 1 :=
    Nat.mod_lt _ (Nat.succ_pos _)
  have hSplit : slot = slot / (runner.numSpecTokens + 1) * (runner.numSpecTokens + 1) +
      slot % (runner.numSpecTokens + 1) := (Nat.div_add_mod' slot _).symm
  have hRow := List.getElem?_eq_getElem hDiv
  refine ⟨_, _, _, hSplit, hMod, hRow, ?_⟩
  rw [hSplit, window_getElem? hWidth hRow hMod, BatchRow.positions, List.getElem?_map,
    List.getElem?_map, List.getElem?_range hMod] at hSlot
  cases hSlot
  exact ⟨rfl, rfl⟩

theorem slotAt_window {owner : Nat} {row : BatchRow} (hRow : rows[owner]? = some row) {j : Nat}
    (hSlot : j < runner.numSpecTokens + 1) :
    (stagedOf runner rows).slotAt ((owner * (runner.numSpecTokens + 1) + j : Nat) : Int) =
      some ((owner : Int), ((row.first runner + j : Nat) : Int)) := by
  have hWidth : ∀ entry ∈ rows.zipIdx, ((entry.1.positions runner).map fun position : Nat =>
      ((entry.2 : Int), (position : Int))).length = runner.numSpecTokens + 1 := by
    intro entry _
    rw [List.length_map, BatchRow.length_positions]
  rw [slotAt_cast, slots_stagedOf, window_getElem? hWidth hRow hSlot, BatchRow.positions,
    List.getElem?_map, List.getElem?_map, List.getElem?_range hSlot]
  rfl

end Batch

theorem position_lt_of_fits {proposer : Proposer} {requests : List DecodeRequest}
    (hVerified : ∀ request ∈ requests, request.Verified proposer.runner proposer.vocabSize)
    (hDraft : ∀ limit, proposer.draftMaxModelLen = some limit →
      limit ≤ proposer.runner.maxModelLen)
    (hInput : proposer.inputFitsInDrafter
      (stagedOf proposer.runner (requests.map (·.row))) = true)
    {request : DecodeRequest} (hMem : request ∈ requests) {k : Nat}
    (hPass : k ≤ proposer.runner.numSpecTokens - 1) (hPos : 1 ≤ k) :
    request.position + k < proposer.runner.maxModelLen := by
  have hLimit : proposer.effectiveDrafterMaxModelLen ≤ proposer.runner.maxModelLen := by
    unfold Proposer.effectiveDrafterMaxModelLen
    cases hSome : proposer.draftMaxModelLen with
    | none => exact Nat.le_refl _
    | some limit => exact hDraft limit hSome
  have hMax := of_decide_eq_true hInput
  have hLength : request.row.numComputedTokens + request.row.numScheduledTokens ∈
      (stagedOf proposer.runner (requests.map (·.row))).seqLens :=
    List.mem_map_of_mem (f := fun row : BatchRow => row.numComputedTokens + row.numScheduledTokens)
      (List.mem_map_of_mem (f := (·.row)) hMem)
  have hLe := (le_foldl_max _ 0).2 _ hLength
  obtain ⟨-, hAccepted, -⟩ := accepted_inside hVerified hMem
  unfold DecodeRequest.position
  omega

theorem alignedAt_window {proposer : Proposer} {requests : List DecodeRequest}
    (hVerified : ∀ request ∈ requests, request.Verified proposer.runner proposer.vocabSize)
    (hDraft : ∀ limit, proposer.draftMaxModelLen = some limit →
      limit ≤ proposer.runner.maxModelLen)
    {proposal : Proposal} (hNext : proposal.nextTokenIds = requests.map (·.lastToken))
    (hIndices : proposal.tokenIndicesToSample =
      (acceptedSlots proposer.runner requests).map Nat.cast)
    (hPasses : proposal.passes = laterPasses proposer.runner.maxModelLen
      (proposer.runner.numSpecTokens - 1)
      (requests.map fun request => (request.position : Int))
      (requests.map fun request => (request.position : Int) + 1))
    (hShift : ∀ slot, slot ∉ acceptedSlots proposer.runner requests →
      slot + 1 < requests.length * (proposer.runner.numSpecTokens + 1) →
      proposal.inputIds[slot]? =
        (stagedOf proposer.runner (requests.map (·.row))).inputIds[slot + 1]?)
    (hLast : ∀ req request, requests[req]? = some request →
      proposal.inputIds[req * (proposer.runner.numSpecTokens + 1) +
        (request.row.front proposer.runner + request.accepted)]? = some request.lastToken)
    {req : Nat} {request : DecodeRequest} (hRequest : requests[req]? = some request) :
    proposal.AlignedAt proposer (stagedOf proposer.runner (requests.map (·.row))) request req := by
  have hMem := List.mem_of_getElem? hRequest
  have hFits := (hVerified request hMem).fits
  have hFirst := hFits.first_add_front
  have hParts := hFits.parts
  obtain ⟨-, hAccepted, hInside⟩ := accepted_inside hVerified hMem
  have hRow : (requests.map (·.row))[req]? = some request.row := by
    rw [List.getElem?_map, hRequest, Option.map_some]
  have hAt : ∀ {other : Nat} {peer : DecodeRequest}, requests[other]? = some peer →
      (stagedOf proposer.runner (requests.map (·.row))).slotAt
        ((other * (proposer.runner.numSpecTokens + 1) +
          (peer.row.front proposer.runner + peer.accepted) : Nat) : Int) =
        some ((other : Int), (peer.position : Int)) := by
    intro other peer hPeer
    have hPeerMem := List.mem_of_getElem? hPeer
    have hPeerRow : (requests.map (·.row))[other]? = some peer.row := by
      rw [List.getElem?_map, hPeer, Option.map_some]
    have hPeerFirst := (hVerified peer hPeerMem).fits.first_add_front
    obtain ⟨-, -, hPeerInside⟩ := accepted_inside hVerified hPeerMem
    have hPosition : peer.row.first proposer.runner +
        (peer.row.front proposer.runner + peer.accepted) = peer.position := by
      unfold DecodeRequest.position
      omega
    rw [slotAt_window hPeerRow (by omega), hPosition]
  refine ⟨?_, ?_, ?_, ?_, ?_⟩
  · refine ⟨_, ?_, hAt hRequest⟩
    rw [hIndices, List.getElem?_map, acceptedSlots_getElem? hRequest, Option.map_some]
  · intro slot position hSlot hBefore
    obtain ⟨owner, row, j, rfl, hJ, hOwner, hReq, hPosition⟩ := slotAt_stagedOf hSlot
    have hOwned : owner = req := by omega
    subst hOwned
    rw [hRow] at hOwner
    cases hOwner
    -- the slot behind it is still inside the request's window
    have hNextJ : j + 1 < proposer.runner.numSpecTokens + 1 := by
      unfold DecodeRequest.position at hBefore
      omega
    have hToken : min (request.row.first proposer.runner + (j + 1))
        (request.row.numComputedTokens + request.row.numScheduledTokens - 1) = position + 1 := by
      unfold DecodeRequest.position at hBefore
      omega
    have hOther : owner * (proposer.runner.numSpecTokens + 1) + j ∉
        acceptedSlots proposer.runner requests := by
      intro hSampled
      obtain ⟨other, hListed⟩ := List.mem_iff_getElem?.1 hSampled
      have hBound : other < requests.length := by
        have hLength := (List.getElem?_eq_some_iff.1 hListed).1
        rwa [acceptedSlots, length_slotsFrom, List.map_const', List.sum_replicate_nat,
          Nat.mul_one] at hLength
      have hPeer := List.getElem?_eq_getElem hBound
      rw [acceptedSlots_getElem? hPeer] at hListed
      have hSame := hAt hPeer
      rw [Option.some.inj hListed, hSlot, Option.some.injEq, Prod.mk.injEq] at hSame
      have hIndex : owner = other := by omega
      subst hIndex
      rw [hRequest] at hPeer
      have hPeerEq := Option.some.inj hPeer
      rw [← hPeerEq] at hSame
      omega
    have hLength : requests.length * (proposer.runner.numSpecTokens + 1) ≥
        (owner + 1) * (proposer.runner.numSpecTokens + 1) :=
      Nat.mul_le_mul_right _ (List.getElem?_eq_some_iff.1 hRequest).1
    rw [Nat.succ_mul] at hLength
    have hWidth := hFits.width
    have hLimit := hFits.inside
    constructor
    · unfold DecodeRequest.position at hBefore
      omega
    · rw [hShift _ hOther (by omega), Nat.add_assoc,
        inputId_stagedOf (fits_rows hVerified) hRow hNextJ, hToken]
  · intro slot hSlot
    obtain ⟨owner, row, j, rfl, hJ, hOwner, hReq, hPosition⟩ := slotAt_stagedOf hSlot
    have hOwned : owner = req := by omega
    subst hOwned
    rw [hRow] at hOwner
    cases hOwner
    have hJAt : j = request.row.front proposer.runner + request.accepted := by
      unfold DecodeRequest.position at hPosition
      omega
    rw [hJAt]
    exact hLast owner request hRequest
  · rw [hNext, List.getElem?_map, hRequest, Option.map_some]
  · intro k hPos hPass
    have hAtPosition : (requests.map fun request => (request.position : Int))[req]? =
        some (request.position : Int) := by
      rw [List.getElem?_map, hRequest, Option.map_some]
    have hAtLength : (requests.map fun request => (request.position : Int) + 1)[req]? =
        some ((request.position : Int) + 1) := by
      rw [List.getElem?_map, hRequest, Option.map_some]
    have hRemain : k - 1 < proposer.runner.numSpecTokens - 1 := by omega
    obtain ⟨pass, hFed, hFedPosition, hFedLength⟩ := laterPasses_getElem?
      proposer.runner.maxModelLen hAtPosition hAtLength hRemain
    have hK : k - 1 + 1 = k := by omega
    rw [hK] at hFedPosition hFedLength
    refine ⟨pass, ?_, ?_, ?_, ?_⟩
    · rw [hPasses, hFed]
    · rw [hFedPosition]
      rfl
    · intro hLt
      rw [hFedLength (by omega)]
      congr 1
      omega
    · intro hInput
      exact position_lt_of_fits hVerified hDraft hInput hMem hPass hPos

/-- The proposer drafts every verified batch of windows in line with its requests. -/
theorem propose_aligned (proposer : Proposer) (requests : List DecodeRequest)
    (hFixed : proposer.runner.windowFixed (requests.map (·.row)) = true) (hSome : requests ≠ [])
    (hVerified : ∀ request ∈ requests, request.Verified proposer.runner proposer.vocabSize)
    (hDraft : ∀ limit, proposer.draftMaxModelLen = some limit →
      limit ≤ proposer.runner.maxModelLen)
    (hBuffer : requests.length * (proposer.runner.numSpecTokens + 1) ≤
      proposer.inputIds.length) :
    ∃ staged proposal, proposer.runner.prepareInputs (requests.map (·.row)) = .ok staged ∧
      proposer.proposeDraftTokenIds staged (requests.map (·.sampledTokenIds))
        (requests.map (·.backup)) = .ok proposal ∧
      ∀ req request, requests[req]? = some request →
        proposal.AlignedAt proposer staged request req := by
  have hStaged := prepareInputs_window hFixed (by simpa using hSome) (fits_rows hVerified)
  obtain ⟨proposal, hProposal, hNext, hIndices, hPasses, hShift, hLast⟩ :=
    propose_window hVerified rfl rfl hBuffer
  refine ⟨_, proposal, hStaged, hProposal, ?_⟩
  intro req request hRequest
  exact alignedAt_window hVerified hDraft hNext hIndices hPasses hShift hLast hRequest

/-- One request that accepted a draft of two, and one that drafted nothing near the limit. -/
def verifiedPair : List DecodeRequest :=
  [⟨⟨2, 3, 3, [0, 1, 2, 13, 14, 5, 6, 7, 8, 9], some [13, 14]⟩, [13, 20], 2, 0⟩,
    ⟨⟨8, 1, 9, [0, 1, 2, 3, 4, 5, 6, 7, 8, 9], none⟩, [21], 3, 0⟩]

def tenProposer : Proposer where
  runner := tenRunner
  draftMaxModelLen := none
  vocabSize := 100
  inputIds := List.replicate 8 0

theorem verifiedPair_verified :
    ∀ request ∈ verifiedPair, request.Verified tenProposer.runner tenProposer.vocabSize := by
  intro request hMem
  simp only [verifiedPair, List.mem_cons, List.not_mem_nil, or_false] at hMem
  rcases hMem with rfl | rfl
  · exact ⟨⟨by decide, by decide, by decide, by decide, rfl, rfl, by decide⟩, by decide,
      by decide, by decide, by decide⟩
  · exact ⟨⟨by decide, by decide, by decide, by decide, rfl, rfl, by decide⟩, by decide,
      by decide, by decide, by decide⟩

theorem propose_aligned_pair :
    ∃ staged proposal, tenProposer.runner.prepareInputs (verifiedPair.map (·.row)) = .ok staged ∧
      tenProposer.proposeDraftTokenIds staged (verifiedPair.map (·.sampledTokenIds))
        (verifiedPair.map (·.backup)) = .ok proposal ∧
      ∀ req request, verifiedPair[req]? = some request →
        proposal.AlignedAt tenProposer staged request req :=
  propose_aligned tenProposer verifiedPair rfl (by decide) verifiedPair_verified
    (fun _ hNone => by cases hNone) (by decide)

end VllmRbln.Eagle
