import VllmRbln.Common.Run
import Mathlib.Data.List.Nodup
import Mathlib.Data.List.Perm.Basic

/-! Sampled tokens under async scheduling (`v1/worker/rbln_model_runner.py`,
`v1/worker/async_output.py`). A step leaves a `-1` placeholder for every token it sampled;
the output thread copies the tokens to the host later and queues a write-back, which the
main thread applies at the top of a step. Until then the next step reads the token off the
previous step's rows. -/
namespace VllmRbln.ModelRunner

set_option linter.unusedSectionVars false

/-- A slot of `token_ids_cpu` or `output_token_ids`; `none` is the `-1` placeholder. -/
abbrev Slot := Option Nat

/-- What the runner keeps of a request. `sampled` records the tokens really sampled. -/
structure CachedRequestState where
  promptTokenIds : List Nat
  outputTokenIds : List Slot
  sampled : List Nat

def CachedRequestState.numTokens (req : CachedRequestState) : Nat :=
  req.promptTokenIds.length + req.outputTokenIds.length

/-- The token a decode of the request has to be fed. -/
def CachedRequestState.lastToken (req : CachedRequestState) : Option Nat :=
  (req.promptTokenIds ++ req.sampled).getLast?

def CachedRequestState.setOutput (req : CachedRequestState) (offset token : Nat) :
    CachedRequestState :=
  { req with outputTokenIds := req.outputTokenIds.set offset (some token) }

/-- A row of the persistent batch. -/
structure Row where
  tokenIds : Nat → Slot
  numTokensNoSpec : Nat

/-- `add_request` builds the row from what is cached of the request. -/
def Row.ofRequest (req : CachedRequestState) : Row where
  tokenIds := fun pos => (req.promptTokenIds.map some ++ req.outputTokenIds).getD pos none
  numTokensNoSpec := req.numTokens

/-- What `get_output` queues: the rows of the step, the token of each row (none where it was
discarded) and where the placeholder of each request landed. -/
structure Writeback where
  reqIds : List Nat
  tokens : List (Option Nat)
  placeholderPos : Nat → Option Nat

/-- The runner. `inFlight` holds the outputs `get_output` has not copied yet, with the number
of their step, and `seen` every request id used so far. -/
structure RunnerState where
  requests : Nat → Option CachedRequestState
  rows : Nat → Option Row
  prevSampledTokenIds : Option (List Nat)
  prevReqIdToIndex : Option (Nat → Option Nat)
  pendingTokenWriteback : List Writeback
  inFlight : List (Nat × Writeback)
  stepCount : Nat
  seen : List Nat

def RunnerState.initial : RunnerState where
  requests := fun _ => none
  rows := fun _ => none
  prevSampledTokenIds := none
  prevReqIdToIndex := none
  pendingTokenWriteback := []
  inFlight := []
  stepCount := 0
  seen := []

/-! ### The write-back -/

/-- Position and token a write-back has for a request. -/
def Writeback.entry (wb : Writeback) (reqId : Nat) : Option (Nat × Nat) := do
  let i ← wb.reqIds.idxOf? reqId
  let token ← wb.tokens.getD i none
  let start ← wb.placeholderPos reqId
  return (start, token)

/-- The entry, unless the request rolled back past this step. -/
def Writeback.target (wb : Writeback) (reqId : Nat) (req : CachedRequestState) :
    Option (Nat × Nat) :=
  (wb.entry reqId).filter fun entry => req.promptTokenIds.length ≤ entry.1 ∧
    entry.1 - req.promptTokenIds.length + 1 ≤ req.outputTokenIds.length

/-- Tokens of one step go where its placeholders are. -/
def RunnerState.applyWriteback (s : RunnerState) (wb : Writeback) : RunnerState :=
  { s with
    requests := fun reqId => (s.requests reqId).map fun req =>
      match wb.target reqId req with
      | none => req
      | some (start, token) => req.setOutput (start - req.promptTokenIds.length) token
    rows := fun reqId => (s.rows reqId).map fun row =>
      match (s.requests reqId).bind (wb.target reqId) with
      | none => row
      | some (start, token) =>
          { row with tokenIds := Function.update row.tokenIds start (some token) } }

/-- `_apply_pending_token_writeback`. -/
def RunnerState.applyPendingTokenWriteback (s : RunnerState) : RunnerState :=
  { s.pendingTokenWriteback.foldl RunnerState.applyWriteback s with pendingTokenWriteback := [] }

/-! ### One step -/

/-- A request of the step, with its `num_computed_tokens`, its scheduled tokens and the
outputs the scheduler counts for it, placeholders included. -/
structure Scheduled where
  reqId : Nat
  numComputedTokens : Nat
  numScheduledTokens : Nat
  numOutputTokens : Nat
  deriving DecidableEq, Repr

/-- What the scheduler and the sampler bring to a step. `order` is the row order the batch
ends up in after removals, additions, condensing and sorting, `sampled` the token of each
row, and `readsOutput` whether the sampler reads `output_token_ids`. -/
structure StepInput where
  finished : List Nat
  newReqs : List (Nat × List Nat)
  resumed : List Nat
  scheduled : List Scheduled
  order : List Nat
  sampled : List Nat
  readsOutput : Bool

def StepInput.reqIds (input : StepInput) : List Nat :=
  input.scheduled.map Scheduled.reqId

/-- `step_is_prefill`. -/
def StepInput.isPrefill (input : StepInput) : Bool :=
  input.scheduled.any fun req => 1 < req.numScheduledTokens

def StepInput.find (input : StepInput) (reqId : Nat) : Option Scheduled :=
  input.scheduled.find? fun req => req.reqId = reqId

/-- The request cut back to the outputs the scheduler still counts, where a failed KV load made
it discard some. -/
def RunnerState.discarded (s : RunnerState) (input : StepInput) (reqId : Nat) :
    Option CachedRequestState := do
  let scheduled ← input.find reqId
  let req ← s.requests reqId
  if scheduled.numOutputTokens < req.outputTokenIds.length then
    some { req with
      outputTokenIds := req.outputTokenIds.take scheduled.numOutputTokens
      sampled := req.sampled.take scheduled.numOutputTokens }
  else none

/-- `_update_states`: finished requests go, new ones are cached, and the batch holds the
scheduled ones. A row stays where the request was in the batch and is not resumed. -/
def RunnerState.updateStates (s : RunnerState) (input : StepInput) : RunnerState :=
  let requests := fun reqId =>
    match input.newReqs.lookup reqId with
    | some prompt => some ⟨prompt, [], []⟩
    | none =>
        if reqId ∈ input.finished then none
        else (s.discarded input reqId).or (s.requests reqId)
  { s with
    requests
    rows := fun reqId =>
      if reqId ∉ input.reqIds then none
      else
        match if reqId ∈ input.finished ∨ reqId ∈ input.resumed then none else s.rows reqId with
        | some row =>
            match s.discarded input reqId with
            | some req => some { row with numTokensNoSpec := req.numTokens }
            | none => some row
        | none => (requests reqId).map Row.ofRequest
    seen := s.seen ++ input.newReqs.map Prod.fst }

/-- The token the previous step sampled for the request, if it was in it. -/
def RunnerState.prevToken (s : RunnerState) (reqId : Nat) : Option Nat := do
  let prevSampled ← s.prevSampledTokenIds
  let prevRows ← s.prevReqIdToIndex
  let row ← prevRows reqId
  prevSampled[row]?

/-- The first input token of a request's row: what `_prepare_inputs` reads, overwritten by
`_repair_staged_input_ids` for the requests of the previous step unless this one prefills. -/
def RunnerState.stagedInputId (s : RunnerState) (input : StepInput) (reqId : Nat) : Slot :=
  let read := (input.find reqId).bind fun req =>
    (s.rows reqId).bind fun row => row.tokenIds req.numComputedTokens
  if input.isPrefill then read else (s.prevToken reqId).or read

/-- `discard_request_mask` is off: the step reaches the end of what is known. -/
def RunnerState.samples (s : RunnerState) (input : StepInput) (reqId : Nat) : Bool :=
  ((input.find reqId).bind fun req => (s.requests reqId).map fun state =>
    decide (state.numTokens ≤ req.numComputedTokens + req.numScheduledTokens)).getD false

/-- `_repair_async_output_token_ids`, which an intermediate chunk skips. -/
def RunnerState.repairOutputTokenIds (s : RunnerState) (input : StepInput) : RunnerState :=
  if input.readsOutput && !(input.isPrefill && !(input.order.head?.any (s.samples input))) then
    { s with requests := fun reqId => (s.requests reqId).map fun req =>
        match s.prevToken reqId, req.outputTokenIds.getLast? with
        | some token, some none =>
            if reqId ∈ input.order then req.setOutput (req.outputTokenIds.length - 1) token else req
        | _, _ => req }
  else s

/-- The write-back of the step just sampled. -/
def RunnerState.writeback (s : RunnerState) (input : StepInput) : Writeback where
  reqIds := input.order
  tokens := List.zipWith (fun reqId token => if s.samples input reqId then some token else none)
    input.order input.sampled
  placeholderPos := fun reqId =>
    if s.samples input reqId then (s.rows reqId).map Row.numTokensNoSpec else none

/-- The async branch of `_bookkeeping_sync`, with the output handed to `get_output`. -/
def RunnerState.bookkeepingSync (s : RunnerState) (input : StepInput) : RunnerState :=
  { s with
    prevSampledTokenIds := some input.sampled
    prevReqIdToIndex := some fun reqId =>
      if s.samples input reqId then input.order.idxOf? reqId else none
    requests := fun reqId => (s.requests reqId).map fun req =>
      match input.order.idxOf? reqId with
      | some i =>
          if s.samples input reqId then { req with
            outputTokenIds := req.outputTokenIds ++ [none]
            sampled := req.sampled ++ [input.sampled.getD i 0] }
          else req
      | none => req
    rows := fun reqId => (s.rows reqId).map fun row =>
      if s.samples input reqId then
        ⟨Function.update row.tokenIds row.numTokensNoSpec none, row.numTokensNoSpec + 1⟩
      else row
    inFlight := s.inFlight ++ [(s.stepCount, s.writeback input)]
    stepCount := s.stepCount + 1 }

/-- `execute_model` up to the staged inputs. -/
def RunnerState.executeModel (s : RunnerState) (input : StepInput) : RunnerState :=
  s.applyPendingTokenWriteback.updateStates input

/-- What the scheduler guarantees of a step: fresh ids for new requests, every placeholder
counted, one phase a step with a prefill alone, no token past the end of what is known, and
the outputs of all but the last step copied. -/
structure RunnerState.Legal (s : RunnerState) (input : StepInput) : Prop where
  fresh : ∀ new ∈ input.newReqs, new.1 ∉ s.seen ∧ new.2 ≠ []
  newNodup : (input.newReqs.map Prod.fst).Nodup
  newScheduled : ∀ new ∈ input.newReqs, new.1 ∈ input.reqIds
  nodup : input.reqIds.Nodup
  counted : ∀ req ∈ input.scheduled, ∀ state, s.requests req.reqId = some state →
    state.outputTokenIds.length ≤ req.numOutputTokens
  known : ∀ req ∈ input.scheduled, ∃ state,
    (s.executeModel input).requests req.reqId = some state ∧ 1 ≤ req.numScheduledTokens ∧
      req.numComputedTokens + req.numScheduledTokens ≤ state.numTokens
  alone : input.isPrefill = true → input.scheduled.length = 1
  order : input.order.Perm input.reqIds
  sampled : input.sampled.length = input.order.length
  copied : input.scheduled ≠ [] → ∀ output ∈ s.inFlight, s.stepCount ≤ output.1 + 1

/-- One whole step: a step with nothing scheduled returns before it samples. -/
def RunnerState.step (s : RunnerState) (input : StepInput) : RunnerState :=
  if input.scheduled = [] then s.executeModel input
  else ((s.executeModel input).repairOutputTokenIds input).bookkeepingSync input

/-- The states of a run: steps of the main thread, and outputs copied in any order. -/
inductive Reaches : RunnerState → Prop
  | initial : Reaches RunnerState.initial
  | step {s : RunnerState} {input : StepInput} :
      Reaches s → s.Legal input → Reaches (s.step input)
  | getOutput {s : RunnerState} {before after : List (Nat × Writeback)} {output : Nat × Writeback} :
      Reaches s → s.inFlight = before ++ output :: after →
        Reaches { s with
          inFlight := before ++ after
          pendingTokenWriteback := s.pendingTokenWriteback ++ [output.2] }

/-! ### Placeholders and their write-backs -/

/-- The write-backs that are not applied yet. -/
def RunnerState.outstanding (s : RunnerState) : List Writeback :=
  s.pendingTokenWriteback ++ s.inFlight.map Prod.snd

/-- The slot holds its token, or a placeholder with a write-back on its way. -/
def Holds (wbs : List Writeback) (reqId pos : Nat) (slot : Slot) (token : Nat) : Prop :=
  slot = some token ∨ (slot = none ∧ ∃ wb ∈ wbs, wb.entry reqId = some (pos, token))

/-- Cached output, rows and outstanding write-backs all tell the tokens really sampled. -/
structure RunnerState.Tells (s : RunnerState) (wbs : List Writeback) : Prop where
  length : ∀ reqId req, s.requests reqId = some req →
    req.outputTokenIds.length = req.sampled.length
  output : ∀ reqId req i token, s.requests reqId = some req → req.sampled[i]? = some token →
    Holds wbs reqId (req.promptTokenIds.length + i) (req.outputTokenIds.getD i none) token
  row : ∀ reqId row, s.rows reqId = some row → ∃ req, s.requests reqId = some req ∧
    row.numTokensNoSpec = req.numTokens ∧
    (∀ i token, req.promptTokenIds[i]? = some token → row.tokenIds i = some token) ∧
    ∀ i token, req.sampled[i]? = some token →
      Holds wbs reqId (req.promptTokenIds.length + i)
        (row.tokenIds (req.promptTokenIds.length + i)) token
  entry : ∀ wb ∈ wbs, ∀ reqId req pos token, s.requests reqId = some req →
    wb.entry reqId = some (pos, token) → req.promptTokenIds.length ≤ pos ∧
      req.sampled[pos - req.promptTokenIds.length]? = some token

theorem Holds.mono {wbs more : List Writeback} {reqId pos token : Nat} {slot : Slot}
    (hHolds : Holds wbs reqId pos slot token) (hMore : ∀ wb ∈ wbs, wb ∈ more) :
    Holds more reqId pos slot token := by
  rcases hHolds with hSlot | ⟨hSlot, wb, hMem, hEntry⟩
  · exact .inl hSlot
  · exact .inr ⟨hSlot, wb, hMore wb hMem, hEntry⟩

/-- A placeholder at another place keeps its write-back when one is applied. -/
theorem Holds.other {wb : Writeback} {wbs : List Writeback} {reqId pos token : Nat} {slot : Slot}
    (hHolds : Holds (wb :: wbs) reqId pos slot token)
    (hOther : ∀ token, wb.entry reqId ≠ some (pos, token)) : Holds wbs reqId pos slot token := by
  rcases hHolds with hSlot | ⟨hSlot, other, hMem, hEntry⟩
  · exact .inl hSlot
  · rcases List.mem_cons.1 hMem with rfl | hMem
    · exact absurd hEntry (hOther token)
    · exact .inr ⟨hSlot, other, hMem, hEntry⟩

section Apply

variable {s : RunnerState} {wb : Writeback} {wbs : List Writeback}

/-- The roll-back check of an outstanding write-back passes. -/
theorem RunnerState.Tells.target (hTells : s.Tells wbs) (hMem : wb ∈ wbs) {reqId : Nat}
    {req : CachedRequestState} (hReq : s.requests reqId = some req) :
    wb.target reqId req = wb.entry reqId := by
  unfold Writeback.target
  cases hEntry : wb.entry reqId with
  | none => rfl
  | some entry =>
      obtain ⟨pos, token⟩ := entry
      obtain ⟨hPos, hToken⟩ := hTells.entry wb hMem reqId req pos token hReq hEntry
      have hLt := (List.getElem?_eq_some_iff.1 hToken).1
      rw [← hTells.length reqId req hReq] at hLt
      have hFits : pos - req.promptTokenIds.length + 1 ≤ req.outputTokenIds.length := hLt
      simp [Option.filter, hPos, hFits]

/-- What applying a write-back makes of a cached request. -/
theorem RunnerState.Tells.apply_requests (hTells : s.Tells wbs) (hMem : wb ∈ wbs) {reqId : Nat}
    {after : CachedRequestState} (hAfter : (s.applyWriteback wb).requests reqId = some after) :
    ∃ req, s.requests reqId = some req ∧ after.promptTokenIds = req.promptTokenIds ∧
      after.sampled = req.sampled ∧
      ((wb.entry reqId = none ∧ after.outputTokenIds = req.outputTokenIds) ∨
        ∃ pos token, wb.entry reqId = some (pos, token) ∧ after.outputTokenIds =
          req.outputTokenIds.set (pos - req.promptTokenIds.length) (some token)) := by
  simp only [RunnerState.applyWriteback, Option.map_eq_some_iff] at hAfter
  obtain ⟨req, hReq, rfl⟩ := hAfter
  refine ⟨req, hReq, ?_⟩
  rw [hTells.target hMem hReq]
  cases hEntry : wb.entry reqId with
  | none => exact ⟨rfl, rfl, .inl ⟨rfl, rfl⟩⟩
  | some entry => exact ⟨rfl, rfl, .inr ⟨entry.1, entry.2, rfl, rfl⟩⟩

theorem RunnerState.Tells.apply_rows (hTells : s.Tells wbs) (hMem : wb ∈ wbs) {reqId : Nat}
    {after : Row} (hAfter : (s.applyWriteback wb).rows reqId = some after) :
    ∃ row, s.rows reqId = some row ∧ after.numTokensNoSpec = row.numTokensNoSpec ∧
      ((wb.entry reqId = none ∧ after.tokenIds = row.tokenIds) ∨
        ∃ pos token, wb.entry reqId = some (pos, token) ∧
          after.tokenIds = Function.update row.tokenIds pos (some token)) := by
  simp only [RunnerState.applyWriteback, Option.map_eq_some_iff] at hAfter
  obtain ⟨row, hRow, rfl⟩ := hAfter
  refine ⟨row, hRow, ?_⟩
  obtain ⟨req, hReq, -⟩ := hTells.row reqId row hRow
  simp only [hReq, Option.bind_some, hTells.target hMem hReq]
  cases hEntry : wb.entry reqId with
  | none => exact ⟨rfl, .inl ⟨rfl, rfl⟩⟩
  | some entry => exact ⟨rfl, .inr ⟨entry.1, entry.2, rfl, rfl⟩⟩

/-- Applying a write-back fills the placeholders it is for. -/
theorem RunnerState.Tells.apply (hTells : s.Tells (wb :: wbs)) :
    (s.applyWriteback wb).Tells wbs := by
  have hMem : wb ∈ wb :: wbs := List.mem_cons_self
  refine ⟨fun reqId after hAfter => ?_, fun reqId after i token hAfter hToken => ?_,
    fun reqId after hAfter => ?_, fun other hOther reqId after pos token hAfter hEntry => ?_⟩
  · obtain ⟨req, hReq, -, hSampled, hOutput⟩ := hTells.apply_requests hMem hAfter
    have hLength := hTells.length reqId req hReq
    rcases hOutput with ⟨-, hOutput⟩ | ⟨pos, token, -, hOutput⟩
    · rw [hOutput, hSampled, hLength]
    · rw [hOutput, hSampled, List.length_set, hLength]
  · obtain ⟨req, hReq, hPrompt, hSampled, hOutput⟩ := hTells.apply_requests hMem hAfter
    rw [hSampled] at hToken
    rw [hPrompt]
    have hOld := hTells.output reqId req i token hReq hToken
    rcases hOutput with ⟨hNone, hOutput⟩ | ⟨pos, written, hEntry, hOutput⟩
    · rw [hOutput]
      exact hOld.other fun token => by simp [hNone]
    · obtain ⟨hPos, hWritten⟩ := hTells.entry wb hMem reqId req pos written hReq hEntry
      rw [hOutput]
      by_cases hHere : i = pos - req.promptTokenIds.length
      · subst hHere
        rw [hWritten] at hToken
        cases hToken
        have hLt := (List.getElem?_eq_some_iff.1 hWritten).1
        rw [← hTells.length reqId req hReq] at hLt
        exact .inl (by simp [List.getD_eq_getElem?_getD, hLt])
      · have hElse : (req.outputTokenIds.set (pos - req.promptTokenIds.length)
            (some written)).getD i none = req.outputTokenIds.getD i none := by
          simp [List.getD_eq_getElem?_getD, List.getElem?_set_ne (Ne.symm hHere)]
        rw [hElse]
        refine hOld.other fun token hSame => hHere ?_
        rw [hEntry, Option.some.injEq, Prod.mk.injEq] at hSame
        omega
  · obtain ⟨row, hRow, hCursor, hIds⟩ := hTells.apply_rows hMem hAfter
    obtain ⟨req, hReq, hEnd, hPromptRow, hSampledRow⟩ := hTells.row reqId row hRow
    obtain ⟨req', hReq'⟩ : ∃ req', (s.applyWriteback wb).requests reqId = some req' := by
      simp [RunnerState.applyWriteback, hReq]
    obtain ⟨same, hSame, hPrompt, hSampled, hOutput⟩ := hTells.apply_requests hMem hReq'
    rw [hReq] at hSame
    cases hSame
    have hTokens : req'.numTokens = req.numTokens := by
      unfold CachedRequestState.numTokens
      rcases hOutput with ⟨-, hOutput⟩ | ⟨pos, token, -, hOutput⟩ <;> rw [hOutput, hPrompt]
      rw [List.length_set]
    refine ⟨req', hReq', by rw [hCursor, hEnd, hTokens], ?_, ?_⟩
    · intro i token hToken
      rw [hPrompt] at hToken
      rcases hIds with ⟨-, hIds⟩ | ⟨pos, written, hEntry, hIds⟩
      · rw [hIds]
        exact hPromptRow i token hToken
      · have hLt := (List.getElem?_eq_some_iff.1 hToken).1
        have hPos := (hTells.entry wb hMem reqId req pos written hReq hEntry).1
        rw [hIds, Function.update_of_ne (by omega)]
        exact hPromptRow i token hToken
    · intro i token hToken
      rw [hSampled] at hToken
      rw [hPrompt]
      have hOld := hSampledRow i token hToken
      rcases hIds with ⟨hNone, hIds⟩ | ⟨pos, written, hEntry, hIds⟩
      · rw [hIds]
        exact hOld.other fun token => by simp [hNone]
      · obtain ⟨hPos, hWritten⟩ := hTells.entry wb hMem reqId req pos written hReq hEntry
        rw [hIds]
        by_cases hHere : req.promptTokenIds.length + i = pos
        · subst hHere
          rw [Nat.add_sub_cancel_left, hToken, Option.some.injEq] at hWritten
          exact .inl (by rw [Function.update_self, hWritten])
        · rw [Function.update_of_ne hHere]
          refine hOld.other fun token hSame => hHere ?_
          rw [hEntry, Option.some.injEq, Prod.mk.injEq] at hSame
          exact hSame.1.symm
  · obtain ⟨req, hReq, hPrompt, hSampled, -⟩ := hTells.apply_requests hMem hAfter
    rw [hPrompt, hSampled]
    exact hTells.entry other (List.mem_cons_of_mem _ hOther) reqId req pos token hReq hEntry

theorem RunnerState.Tells.applyAll {pending : List Writeback} (hTells : s.Tells (pending ++ wbs)) :
    (pending.foldl RunnerState.applyWriteback s).Tells wbs := by
  induction pending generalizing s with
  | nil => exact hTells
  | cons wb pending ih => exact ih hTells.apply

/-- The token sits at its output offset and at its position of the row. -/
def RunnerState.Placed (s : RunnerState) (reqId pos token : Nat) : Prop :=
  ∃ req, s.requests reqId = some req ∧ req.promptTokenIds.length ≤ pos ∧
    req.sampled[pos - req.promptTokenIds.length]? = some token ∧
    req.outputTokenIds[pos - req.promptTokenIds.length]? = some (some token) ∧
    ∀ row, s.rows reqId = some row → row.tokenIds pos = some token

/-- A write-back puts its tokens in place, or leaves in place what is there. -/
theorem RunnerState.Tells.placed (hTells : s.Tells wbs) (hMem : wb ∈ wbs) {reqId pos token : Nat}
    (hPlaced : s.Placed reqId pos token ∨
      (wb.entry reqId = some (pos, token) ∧ ∃ req, s.requests reqId = some req)) :
    (s.applyWriteback wb).Placed reqId pos token := by
  obtain ⟨req, hReq, hPos, hSampled⟩ : ∃ req, s.requests reqId = some req ∧
      req.promptTokenIds.length ≤ pos ∧
      req.sampled[pos - req.promptTokenIds.length]? = some token := by
    rcases hPlaced with ⟨req, hReq, hPos, hSampled, -⟩ | ⟨hEntry, req, hReq⟩
    · exact ⟨req, hReq, hPos, hSampled⟩
    · obtain ⟨hPos, hSampled⟩ := hTells.entry wb hMem reqId req pos token hReq hEntry
      exact ⟨req, hReq, hPos, hSampled⟩
  obtain ⟨after, hAfter⟩ : ∃ after, (s.applyWriteback wb).requests reqId = some after := by
    simp [RunnerState.applyWriteback, hReq]
  obtain ⟨same, hSame, hPrompt, hSampledEq, hOutput⟩ := hTells.apply_requests hMem hAfter
  rw [hReq] at hSame
  cases hSame
  have hLt := (List.getElem?_eq_some_iff.1 hSampled).1
  rw [← hTells.length reqId req hReq] at hLt
  -- Whatever is written to this place is the token sampled for it.
  have hWrites : ∀ other, wb.entry reqId = some (pos, other) → other = token := by
    intro other hEntry
    have hOther := (hTells.entry wb hMem reqId req pos other hReq hEntry).2
    rw [hSampled, Option.some.injEq] at hOther
    exact hOther.symm
  refine ⟨after, hAfter, hPrompt ▸ hPos, by rw [hSampledEq, hPrompt, hSampled], ?_, ?_⟩
  · rw [hPrompt]
    rcases hOutput with ⟨hNone, hOutput⟩ | ⟨there, written, hEntry, hOutput⟩
    · rcases hPlaced with ⟨own, hOwn, -, -, hHere, -⟩ | ⟨hEntry, -⟩
      · rw [hReq] at hOwn
        cases hOwn
        rw [hOutput, hHere]
      · rw [hNone] at hEntry
        cases hEntry
    · have hThere := (hTells.entry wb hMem reqId req there written hReq hEntry).1
      rw [hOutput]
      by_cases hHere : there = pos
      · subst hHere
        rw [List.getElem?_set_self hLt, hWrites written hEntry]
      · rw [List.getElem?_set_ne (by omega)]
        rcases hPlaced with ⟨own, hOwn, -, -, hOld, -⟩ | ⟨hOwn, -⟩
        · rw [hReq] at hOwn
          cases hOwn
          exact hOld
        · rw [hEntry, Option.some.injEq, Prod.mk.injEq] at hOwn
          exact absurd hOwn.1 hHere
  · intro placed hRow
    obtain ⟨row, hOld, -, hIds⟩ := hTells.apply_rows hMem hRow
    rcases hIds with ⟨hNone, hIds⟩ | ⟨there, written, hEntry, hIds⟩
    · rcases hPlaced with ⟨-, -, -, -, -, hHere⟩ | ⟨hEntry, -⟩
      · rw [hIds, hHere row hOld]
      · rw [hNone] at hEntry
        cases hEntry
    · rw [hIds]
      by_cases hHere : pos = there
      · subst hHere
        rw [Function.update_self, hWrites written hEntry]
      · rw [Function.update_of_ne hHere]
        rcases hPlaced with ⟨-, -, -, -, -, hOldRow⟩ | ⟨hOwn, -⟩
        · exact hOldRow row hOld
        · rw [hEntry, Option.some.injEq, Prod.mk.injEq] at hOwn
          exact absurd hOwn.1.symm hHere

theorem RunnerState.Tells.placedAll {pending : List Writeback}
    (hTells : s.Tells (pending ++ wbs)) {reqId pos token : Nat}
    (hPlaced : s.Placed reqId pos token ∨ ∃ wb ∈ pending,
      wb.entry reqId = some (pos, token) ∧ ∃ req, s.requests reqId = some req) :
    (pending.foldl RunnerState.applyWriteback s).Placed reqId pos token := by
  induction pending generalizing s with
  | nil =>
      rcases hPlaced with hPlaced | ⟨wb, hMem, -⟩
      · exact hPlaced
      · cases hMem
  | cons wb pending ih =>
      refine ih hTells.apply ?_
      rcases hPlaced with hPlaced | ⟨other, hMem, hEntry, req, hReq⟩
      · exact .inl (hTells.placed List.mem_cons_self (.inl hPlaced))
      · rcases List.mem_cons.1 hMem with rfl | hMem
        · exact .inl (hTells.placed List.mem_cons_self (.inr ⟨hEntry, req, hReq⟩))
        · refine .inr ⟨other, hMem, hEntry, ?_⟩
          simp [RunnerState.applyWriteback, hReq]

end Apply

/-! ### Runs -/

/-- The state between two steps. -/
structure RunnerState.Consistent (s : RunnerState) : Prop where
  tells : s.Tells s.outstanding
  prev : ∀ reqId req token, s.requests reqId = some req → s.prevToken reqId = some token →
    req.sampled.getLast? = some token
  last : ∀ output ∈ s.inFlight, output.1 + 1 = s.stepCount → ∀ reqId entry,
    output.2.entry reqId = some entry → ∃ token, s.prevToken reqId = some token
  steps : ∀ output ∈ s.inFlight, output.1 < s.stepCount
  seenRequests : ∀ reqId req, s.requests reqId = some req → reqId ∈ s.seen
  seenEntries : ∀ wb ∈ s.outstanding, ∀ reqId entry, wb.entry reqId = some entry →
    reqId ∈ s.seen
  seenPrev : ∀ reqId token, s.prevToken reqId = some token → reqId ∈ s.seen

theorem RunnerState.initial_consistent : RunnerState.initial.Consistent := by
  refine ⟨⟨?_, ?_, ?_, ?_⟩, ?_, ?_, ?_, ?_, ?_, ?_⟩ <;>
    simp [RunnerState.initial, RunnerState.outstanding, RunnerState.prevToken]

section Steps

variable {s : RunnerState} {input : StepInput}

/-- Applying the queue touches neither the previous step's record nor the counters. -/
theorem applyAll_rest (pending : List Writeback) (s : RunnerState) :
    (pending.foldl RunnerState.applyWriteback s).prevToken = s.prevToken ∧
      (pending.foldl RunnerState.applyWriteback s).inFlight = s.inFlight ∧
      (pending.foldl RunnerState.applyWriteback s).stepCount = s.stepCount ∧
      (pending.foldl RunnerState.applyWriteback s).seen = s.seen := by
  refine ⟨Run.foldl_keeps RunnerState.prevToken (fun _ _ => ?_) pending s,
    Run.foldl_keeps RunnerState.inFlight (fun _ _ => ?_) pending s,
    Run.foldl_keeps RunnerState.stepCount (fun _ _ => ?_) pending s,
    Run.foldl_keeps RunnerState.seen (fun _ _ => ?_) pending s⟩ <;> rfl

/-- Every request an applied queue leaves was there before, with the same tokens sampled. -/
theorem applyAll_requests {pending wbs : List Writeback} (hTells : s.Tells (pending ++ wbs))
    {reqId : Nat} {after : CachedRequestState}
    (hAfter : (pending.foldl RunnerState.applyWriteback s).requests reqId = some after) :
    ∃ req, s.requests reqId = some req ∧ after.sampled = req.sampled := by
  induction pending generalizing s with
  | nil => exact ⟨after, hAfter, rfl⟩
  | cons wb pending ih =>
      obtain ⟨middle, hMiddle, hSampled⟩ := ih hTells.apply hAfter
      obtain ⟨req, hReq, -, hSame, -⟩ := hTells.apply_requests List.mem_cons_self hMiddle
      exact ⟨req, hReq, hSampled.trans hSame⟩

theorem RunnerState.Consistent.applied (hOk : s.Consistent) :
    s.applyPendingTokenWriteback.Consistent := by
  obtain ⟨hPrev, hFlight, hCount, hSeen⟩ := applyAll_rest s.pendingTokenWriteback s
  have hTells := hOk.tells.applyAll
  have hPrevAt : ∀ reqId, s.applyPendingTokenWriteback.prevToken reqId = s.prevToken reqId :=
    fun reqId => congrFun hPrev reqId
  have hFlightAt : s.applyPendingTokenWriteback.inFlight = s.inFlight := hFlight
  have hCountAt : s.applyPendingTokenWriteback.stepCount = s.stepCount := hCount
  have hSeenAt : s.applyPendingTokenWriteback.seen = s.seen := hSeen
  have hOut : s.applyPendingTokenWriteback.outstanding = s.inFlight.map Prod.snd := by
    unfold RunnerState.outstanding
    rw [hFlightAt]
    rfl
  refine ⟨?_, fun reqId after token hAfter hToken => ?_, ?_, ?_, fun reqId after hAfter => ?_, ?_, ?_⟩
  · rw [hOut]
    exact ⟨hTells.length, hTells.output, hTells.row, hTells.entry⟩
  · obtain ⟨req, hReq, hSampled⟩ := applyAll_requests hOk.tells hAfter
    rw [hSampled]
    exact hOk.prev reqId req token hReq (hPrevAt reqId ▸ hToken)
  · rw [hFlightAt, hCountAt]
    intro output hOutput hLast reqId entry hEntry
    obtain ⟨token, hToken⟩ := hOk.last output hOutput hLast reqId entry hEntry
    exact ⟨token, (hPrevAt reqId).trans hToken⟩
  · rw [hFlightAt, hCountAt]
    exact hOk.steps
  · obtain ⟨req, hReq, -⟩ := applyAll_requests hOk.tells hAfter
    rw [hSeenAt]
    exact hOk.seenRequests reqId req hReq
  · rw [hOut, hSeenAt]
    exact fun wb hMem => hOk.seenEntries wb (List.mem_append_right _ hMem)
  · rw [hSeenAt]
    exact fun reqId token hToken => hOk.seenPrev reqId token (hPrevAt reqId ▸ hToken)

/-- A request after `_update_states`: a new one, with an id no one used, or one from before. -/
theorem updateStates_requests (hKept : ∀ reqId, s.discarded input reqId = none) {reqId : Nat}
    {req : CachedRequestState} (hReq : (s.updateStates input).requests reqId = some req) :
    (∃ prompt, (reqId, prompt) ∈ input.newReqs ∧ req = ⟨prompt, [], []⟩) ∨
      (input.newReqs.lookup reqId = none ∧ reqId ∉ input.finished ∧ s.requests reqId = some req) := by
  cases hNew : input.newReqs.lookup reqId with
  | some prompt =>
      simp only [RunnerState.updateStates, hNew, Option.some.injEq] at hReq
      refine .inl ⟨prompt, ?_, hReq.symm⟩
      obtain ⟨before, after, hSplit, -⟩ := List.lookup_eq_some_iff.1 hNew
      rw [hSplit]
      simp
  | none =>
      simp only [RunnerState.updateStates, hNew, hKept, Option.none_or,
        Option.ite_none_left_eq_some] at hReq
      exact .inr ⟨rfl, hReq.1, hReq.2⟩

theorem updateStates_rows (hKept : ∀ reqId, s.discarded input reqId = none) {reqId : Nat}
    {row : Row} (hRow : (s.updateStates input).rows reqId = some row) :
    (reqId ∉ input.finished ∧ s.rows reqId = some row) ∨
      ∃ req, (s.updateStates input).requests reqId = some req ∧ row = Row.ofRequest req := by
  simp only [RunnerState.updateStates, hKept, Option.ite_none_left_eq_some] at hRow
  obtain ⟨-, hRow⟩ := hRow
  split at hRow
  · rename_i kept hKept
    cases hRow
    rw [Option.ite_none_left_eq_some] at hKept
    exact .inl ⟨fun hDone => hKept.1 (.inl hDone), hKept.2⟩
  · rw [Option.map_eq_some_iff] at hRow
    obtain ⟨req, hReq, hRow⟩ := hRow
    refine .inr ⟨req, ?_, hRow.symm⟩
    rw [← hReq]
    simp [RunnerState.updateStates, hKept]

/-- A row built from what is cached tells what the cache tells. -/
theorem Row.ofRequest_tells {wbs : List Writeback} {reqId : Nat} {req : CachedRequestState}
    (hOutput : ∀ i token, req.sampled[i]? = some token →
      Holds wbs reqId (req.promptTokenIds.length + i) (req.outputTokenIds.getD i none) token) :
    (∀ i token, req.promptTokenIds[i]? = some token →
      (Row.ofRequest req).tokenIds i = some token) ∧
    ∀ i token, req.sampled[i]? = some token →
      Holds wbs reqId (req.promptTokenIds.length + i)
        ((Row.ofRequest req).tokenIds (req.promptTokenIds.length + i)) token := by
  refine ⟨fun i token hToken => ?_, fun i token hToken => ?_⟩
  · have hLt := (List.getElem?_eq_some_iff.1 hToken).1
    have hLeft : (req.promptTokenIds.map some ++ req.outputTokenIds)[i]? =
        (req.promptTokenIds.map some)[i]? := List.getElem?_append_left (by simpa using hLt)
    simp only [Row.ofRequest, List.getD_eq_getElem?_getD]
    rw [hLeft, List.getElem?_map, hToken]
    rfl
  · have hRight : (Row.ofRequest req).tokenIds (req.promptTokenIds.length + i) =
        req.outputTokenIds.getD i none := by
      simp only [Row.ofRequest, List.getD_eq_getElem?_getD]
      rw [List.getElem?_append_right (by simp)]
      simp
    rw [hRight]
    exact hOutput i token hToken

theorem RunnerState.Consistent.updated (hOk : s.Consistent)
    (hKept : ∀ reqId, s.discarded input reqId = none)
    (hFresh : ∀ new ∈ input.newReqs, new.1 ∉ s.seen) : (s.updateStates input).Consistent := by
  have hOld : ∀ reqId ∈ s.seen, input.newReqs.lookup reqId = none := by
    intro reqId hSeen
    cases hNew : input.newReqs.lookup reqId with
    | none => rfl
    | some prompt =>
        obtain ⟨before, after, hSplit, -⟩ := List.lookup_eq_some_iff.1 hNew
        exact absurd hSeen (hFresh (reqId, prompt) (by rw [hSplit]; simp))
  have hOut : (s.updateStates input).outstanding = s.outstanding := rfl
  have hPrevAt : ∀ reqId, (s.updateStates input).prevToken reqId = s.prevToken reqId := fun _ => rfl
  have hLength : ∀ reqId req, (s.updateStates input).requests reqId = some req →
      req.outputTokenIds.length = req.sampled.length := by
    intro reqId req hReq
    rcases updateStates_requests hKept hReq with ⟨prompt, -, rfl⟩ | ⟨-, -, hReq⟩
    · rfl
    · exact hOk.tells.length reqId req hReq
  have hOutput : ∀ reqId req i token, (s.updateStates input).requests reqId = some req →
      req.sampled[i]? = some token → Holds s.outstanding reqId (req.promptTokenIds.length + i)
        (req.outputTokenIds.getD i none) token := by
    intro reqId req i token hReq hToken
    rcases updateStates_requests hKept hReq with ⟨prompt, -, rfl⟩ | ⟨-, -, hReq⟩
    · simp at hToken
    · exact hOk.tells.output reqId req i token hReq hToken
  refine ⟨⟨hLength, hOutput, fun reqId row hRow => ?_, ?_⟩, ?_, hOk.last, hOk.steps, ?_, ?_, ?_⟩
  · rcases updateStates_rows hKept hRow with ⟨hAlive, hRow⟩ | ⟨req, hReq, rfl⟩
    · obtain ⟨req, hReq, hCursor, hPrompt, hSampled⟩ := hOk.tells.row reqId row hRow
      refine ⟨req, ?_, hCursor, hPrompt, hSampled⟩
      simp [RunnerState.updateStates, hOld reqId (hOk.seenRequests reqId req hReq), hAlive, hKept, hReq]
    · obtain ⟨hPrompt, hSampled⟩ := Row.ofRequest_tells
        fun i token hToken => hOutput reqId req i token hReq hToken
      exact ⟨req, hReq, rfl, hPrompt, hSampled⟩
  · intro wb hMem reqId req pos token hReq hEntry
    rcases updateStates_requests hKept hReq with ⟨prompt, hNew, rfl⟩ | ⟨-, -, hReq⟩
    · exact absurd (hOk.seenEntries wb hMem reqId _ hEntry) (hFresh _ hNew)
    · exact hOk.tells.entry wb hMem reqId req pos token hReq hEntry
  · intro reqId req token hReq hToken
    rcases updateStates_requests hKept hReq with ⟨prompt, hNew, rfl⟩ | ⟨-, -, hReq⟩
    · exact absurd (hOk.seenPrev reqId token hToken) (hFresh _ hNew)
    · exact hOk.prev reqId req token hReq hToken
  · intro reqId req hReq
    rcases updateStates_requests hKept hReq with ⟨prompt, hNew, rfl⟩ | ⟨-, -, hReq⟩
    · exact List.mem_append_right _ (List.mem_map.2 ⟨_, hNew, rfl⟩)
    · exact List.mem_append_left _ (hOk.seenRequests reqId req hReq)
  · exact fun wb hMem reqId entry hEntry =>
      List.mem_append_left _ (hOk.seenEntries wb hMem reqId entry hEntry)
  · exact fun reqId token hToken => List.mem_append_left _ (hOk.seenPrev reqId token hToken)

/-- The repair for the logits processors fills in the token sampled last. -/
theorem repairOutputTokenIds_requests {reqId : Nat} {after : CachedRequestState}
    (hAfter : (s.repairOutputTokenIds input).requests reqId = some after) :
    ∃ req, s.requests reqId = some req ∧ after.promptTokenIds = req.promptTokenIds ∧
      after.sampled = req.sampled ∧ (after.outputTokenIds = req.outputTokenIds ∨
        ∃ token, s.prevToken reqId = some token ∧ after.outputTokenIds =
          req.outputTokenIds.set (req.outputTokenIds.length - 1) (some token)) := by
  unfold RunnerState.repairOutputTokenIds at hAfter
  split at hAfter
  · simp only [Option.map_eq_some_iff] at hAfter
    obtain ⟨req, hReq, rfl⟩ := hAfter
    refine ⟨req, hReq, ?_⟩
    split
    · rename_i token hPrev _
      split
      · exact ⟨rfl, rfl, .inr ⟨token, hPrev, rfl⟩⟩
      · exact ⟨rfl, rfl, .inl rfl⟩
    · exact ⟨rfl, rfl, .inl rfl⟩
  · exact ⟨after, hAfter, rfl, rfl, .inl rfl⟩

theorem repairOutputTokenIds_rest :
    (s.repairOutputTokenIds input).rows = s.rows ∧
      (s.repairOutputTokenIds input).outstanding = s.outstanding ∧
      (s.repairOutputTokenIds input).prevToken = s.prevToken ∧
      (s.repairOutputTokenIds input).inFlight = s.inFlight ∧
      (s.repairOutputTokenIds input).stepCount = s.stepCount ∧
      (s.repairOutputTokenIds input).seen = s.seen := by
  unfold RunnerState.repairOutputTokenIds
  split <;> exact ⟨rfl, rfl, rfl, rfl, rfl, rfl⟩

variable (input) in
theorem repairOutputTokenIds_some {reqId : Nat} {req : CachedRequestState}
    (hReq : s.requests reqId = some req) :
    ∃ after, (s.repairOutputTokenIds input).requests reqId = some after := by
  unfold RunnerState.repairOutputTokenIds
  split
  · simp [hReq]
  · exact ⟨req, hReq⟩

theorem RunnerState.Consistent.repaired (hOk : s.Consistent) :
    (s.repairOutputTokenIds input).Consistent := by
  obtain ⟨hRows, hOut, hPrev, hFlight, hCount, hSeen⟩ := @repairOutputTokenIds_rest s input
  refine ⟨⟨fun reqId after hAfter => ?_, fun reqId after i token hAfter hToken => ?_,
    fun reqId row hRow => ?_, fun wb hMem reqId after pos token hAfter hEntry => ?_⟩,
    fun reqId after token hAfter hToken => ?_, ?_, ?_, fun reqId after hAfter => ?_, ?_, ?_⟩
  · obtain ⟨req, hReq, -, hSampled, hOutput⟩ := repairOutputTokenIds_requests hAfter
    rcases hOutput with hOutput | ⟨token, -, hOutput⟩ <;>
      simp [hOutput, hSampled, hOk.tells.length reqId req hReq]
  · obtain ⟨req, hReq, hPrompt, hSampled, hOutput⟩ := repairOutputTokenIds_requests hAfter
    have hLength := hOk.tells.length reqId req hReq
    rw [hSampled] at hToken
    rw [hPrompt, hOut]
    have hOld := hOk.tells.output reqId req i token hReq hToken
    rcases hOutput with hOutput | ⟨last, hLast, hOutput⟩
    · rw [hOutput]
      exact hOld
    · have hLt := (List.getElem?_eq_some_iff.1 hToken).1
      rw [hOutput]
      by_cases hHere : i = req.outputTokenIds.length - 1
      · have hReal := hOk.prev reqId req last hReq hLast
        rw [List.getLast?_eq_getElem?, ← hLength, ← hHere, hToken, Option.some.injEq] at hReal
        rw [hReal, ← hHere]
        exact .inl (by simp [List.getD_eq_getElem?_getD, hLength, hLt])
      · have hElse : (req.outputTokenIds.set (req.outputTokenIds.length - 1)
            (some last)).getD i none = req.outputTokenIds.getD i none := by
          simp [List.getD_eq_getElem?_getD, List.getElem?_set_ne (Ne.symm hHere)]
        rw [hElse]
        exact hOld
  · rw [hRows] at hRow
    obtain ⟨req, hReq, hCursor, hPromptRow, hSampledRow⟩ := hOk.tells.row reqId row hRow
    obtain ⟨after, hAfter⟩ := repairOutputTokenIds_some input hReq
    obtain ⟨same, hSame, hPrompt, hSampled, hOutput⟩ := repairOutputTokenIds_requests hAfter
    rw [hReq] at hSame
    cases hSame
    refine ⟨after, hAfter, ?_, by rw [hPrompt]; exact hPromptRow, ?_⟩
    · rw [hCursor]
      unfold CachedRequestState.numTokens
      rcases hOutput with hOutput | ⟨token, -, hOutput⟩ <;> simp [hOutput, hPrompt]
    · rw [hPrompt, hSampled, hOut]
      exact hSampledRow
  · obtain ⟨req, hReq, hPrompt, hSampled, -⟩ := repairOutputTokenIds_requests hAfter
    rw [hPrompt, hSampled]
    exact hOk.tells.entry wb (hOut ▸ hMem) reqId req pos token hReq hEntry
  · obtain ⟨req, hReq, -, hSampled, -⟩ := repairOutputTokenIds_requests hAfter
    rw [hSampled]
    exact hOk.prev reqId req token hReq (hPrev ▸ hToken)
  · rw [hFlight, hCount, hPrev]
    exact hOk.last
  · rw [hFlight, hCount]
    exact hOk.steps
  · obtain ⟨req, hReq, -⟩ := repairOutputTokenIds_requests hAfter
    rw [hSeen]
    exact hOk.seenRequests reqId req hReq
  · rw [hOut, hSeen]
    exact hOk.seenEntries
  · rw [hPrev, hSeen]
    exact hOk.seenPrev

/-- The entry of the step's own write-back: the cursor of the row and the token sampled. -/
theorem writeback_entry {reqId : Nat} {entry : Nat × Nat}
    (hEntry : (s.writeback input).entry reqId = some entry) :
    ∃ i row, input.order.idxOf? reqId = some i ∧ s.samples input reqId = true ∧
      s.rows reqId = some row ∧ input.sampled[i]? = some entry.2 ∧
      entry.1 = row.numTokensNoSpec := by
  simp only [Writeback.entry, RunnerState.writeback, bind, Option.bind_eq_some_iff, pure,
    Option.some.injEq, Option.ite_none_right_eq_some, Option.map_eq_some_iff] at hEntry
  obtain ⟨i, hIndex, token, hToken, start, ⟨hSamples, row, hRow, rfl⟩, rfl⟩ := hEntry
  refine ⟨i, row, hIndex, hSamples, hRow, ?_, rfl⟩
  have hAt : input.order[i]? = some reqId := by
    obtain ⟨hLt, hEq⟩ := List.idxOf?_eq_some_iff.1 hIndex
    exact List.getElem?_eq_some_iff.2 ⟨hLt, by simpa using hEq.1⟩
  cases hSampled : input.sampled[i]? with
  | none => simp [List.getD_eq_getElem?_getD, List.getElem?_zipWith, hAt, hSampled] at hToken
  | some value =>
      simp [List.getD_eq_getElem?_getD, List.getElem?_zipWith, hAt, hSampled, hSamples] at hToken
      rw [hToken]

theorem writeback_entry_of_samples {reqId i token : Nat} {row : Row}
    (hIndex : input.order.idxOf? reqId = some i) (hSamples : s.samples input reqId = true)
    (hRow : s.rows reqId = some row) (hToken : input.sampled[i]? = some token) :
    (s.writeback input).entry reqId = some (row.numTokensNoSpec, token) := by
  have hAt : input.order[i]? = some reqId := by
    obtain ⟨hLt, hEq⟩ := List.idxOf?_eq_some_iff.1 hIndex
    exact List.getElem?_eq_some_iff.2 ⟨hLt, by simpa using hEq.1⟩
  simp [Writeback.entry, RunnerState.writeback, hIndex, List.getD_eq_getElem?_getD,
    List.getElem?_zipWith, hAt, hToken, hSamples, hRow]

theorem samples_known {reqId : Nat} (hSamples : s.samples input reqId = true) :
    reqId ∈ input.reqIds ∧ ∃ req, s.requests reqId = some req := by
  unfold RunnerState.samples at hSamples
  cases hFind : input.find reqId with
  | none => simp [hFind] at hSamples
  | some scheduled =>
      refine ⟨?_, ?_⟩
      · have hId := List.find?_some hFind
        exact List.mem_map.2 ⟨scheduled, List.mem_of_find?_eq_some hFind, by simpa using hId⟩
      · cases hReq : s.requests reqId with
        | none => simp [hFind, hReq] at hSamples
        | some req => exact ⟨req, rfl⟩

/-- The row order and the sampled tokens of a step fit its requests. -/
structure StepInput.Rows (input : StepInput) : Prop where
  order : input.order.Perm input.reqIds
  sampled : input.sampled.length = input.order.length

theorem StepInput.Rows.token (hRows : input.Rows) {reqId : Nat} (hMem : reqId ∈ input.reqIds) :
    ∃ i token, input.order.idxOf? reqId = some i ∧ input.sampled[i]? = some token := by
  cases hIndex : input.order.idxOf? reqId with
  | none => exact absurd (hRows.order.mem_iff.2 hMem) (List.idxOf?_eq_none_iff.1 hIndex)
  | some i =>
      obtain ⟨hLt, -⟩ := List.idxOf?_eq_some_iff.1 hIndex
      rw [← hRows.sampled] at hLt
      exact ⟨i, input.sampled[i], rfl, List.getElem?_eq_getElem hLt⟩

/-- What the bookkeeping makes of a request: one that samples gets a placeholder. -/
theorem bookkeepingSync_requests (hRows : input.Rows) {reqId : Nat} {after : CachedRequestState}
    (hAfter : (s.bookkeepingSync input).requests reqId = some after) :
    ∃ req, s.requests reqId = some req ∧
      ((s.samples input reqId = false ∧ after = req) ∨
        ∃ i token, s.samples input reqId = true ∧ input.order.idxOf? reqId = some i ∧
          input.sampled[i]? = some token ∧ after = { req with
            outputTokenIds := req.outputTokenIds ++ [none], sampled := req.sampled ++ [token] }) := by
  simp only [RunnerState.bookkeepingSync, Option.map_eq_some_iff] at hAfter
  obtain ⟨req, hReq, hAfter⟩ := hAfter
  refine ⟨req, hReq, ?_⟩
  cases hSamples : s.samples input reqId with
  | false =>
      refine .inl ⟨rfl, ?_⟩
      rw [← hAfter]
      split <;> simp [hSamples]
  | true =>
      obtain ⟨i, token, hIndex, hToken⟩ := hRows.token (samples_known hSamples).1
      refine .inr ⟨i, token, rfl, hIndex, hToken, ?_⟩
      rw [← hAfter]
      simp [hIndex, hSamples, List.getD_eq_getElem?_getD, hToken]

theorem bookkeepingSync_prevToken {reqId token : Nat}
    (hToken : (s.bookkeepingSync input).prevToken reqId = some token) :
    ∃ i, s.samples input reqId = true ∧ input.order.idxOf? reqId = some i ∧
      input.sampled[i]? = some token := by
  simp only [RunnerState.prevToken, RunnerState.bookkeepingSync, bind, Option.bind_some,
    Option.bind_eq_some_iff, Option.ite_none_right_eq_some] at hToken
  obtain ⟨i, ⟨hSamples, hIndex⟩, hToken⟩ := hToken
  exact ⟨i, hSamples, hIndex, hToken⟩

theorem bookkeepingSync_outstanding :
    (s.bookkeepingSync input).outstanding = s.outstanding ++ [s.writeback input] := by
  simp [RunnerState.outstanding, RunnerState.bookkeepingSync]

theorem RunnerState.Tells.bookkept (hTells : s.Tells s.outstanding) (hRows : input.Rows)
    (hSeated : ∀ reqId, s.samples input reqId = true → ∃ row, s.rows reqId = some row) :
    (s.bookkeepingSync input).Tells (s.bookkeepingSync input).outstanding := by
  rw [bookkeepingSync_outstanding]
  have hMore : ∀ wb ∈ s.outstanding, wb ∈ s.outstanding ++ [s.writeback input] :=
    fun wb hMem => List.mem_append_left _ hMem
  -- The new placeholder of a request that samples has the step's own write-back.
  have hNew : ∀ {reqId i token : Nat} {req : CachedRequestState}, s.requests reqId = some req →
      s.samples input reqId = true → input.order.idxOf? reqId = some i →
      input.sampled[i]? = some token → ∃ wb ∈ s.outstanding ++ [s.writeback input],
        wb.entry reqId = some (req.promptTokenIds.length + req.sampled.length, token) := by
    intro reqId i token req hReq hSamples hIndex hToken
    obtain ⟨row, hRow⟩ := hSeated reqId hSamples
    obtain ⟨same, hSame, hCursor, -⟩ := hTells.row reqId row hRow
    rw [hReq] at hSame
    cases hSame
    refine ⟨_, List.mem_append_right _ (List.mem_singleton.2 rfl), ?_⟩
    rw [writeback_entry_of_samples hIndex hSamples hRow hToken, hCursor,
      CachedRequestState.numTokens, hTells.length reqId req hReq]
  refine ⟨fun reqId after hAfter => ?_, fun reqId after i token hAfter hToken => ?_,
    fun reqId after hAfter => ?_, fun wb hMem reqId after pos token hAfter hEntry => ?_⟩
  · obtain ⟨req, hReq, ⟨-, rfl⟩ | ⟨j, last, -, -, -, rfl⟩⟩ := bookkeepingSync_requests hRows hAfter
    · exact hTells.length reqId after hReq
    · simp [hTells.length reqId req hReq]
  · obtain ⟨req, hReq, ⟨-, rfl⟩ | ⟨j, last, hSamples, hIndex, hLast, rfl⟩⟩ :=
      bookkeepingSync_requests hRows hAfter
    · exact (hTells.output reqId after i token hReq hToken).mono hMore
    · have hLength := hTells.length reqId req hReq
      rcases Nat.lt_trichotomy i req.sampled.length with hLt | rfl | hGt
      · rw [List.getElem?_append_left hLt] at hToken
        have hOld : (req.outputTokenIds ++ [none]).getD i none = req.outputTokenIds.getD i none := by
          simp [List.getD_eq_getElem?_getD, List.getElem?_append_left (hLength ▸ hLt)]
        rw [hOld]
        exact (hTells.output reqId req i token hReq hToken).mono hMore
      · rw [List.getElem?_concat_length, Option.some.injEq] at hToken
        subst hToken
        refine .inr ⟨?_, hNew hReq hSamples hIndex hLast⟩
        simp [List.getD_eq_getElem?_getD, ← hLength]
      · rw [List.getElem?_eq_none (by simp; omega)] at hToken
        cases hToken
  · simp only [RunnerState.bookkeepingSync, Option.map_eq_some_iff] at hAfter
    obtain ⟨row, hRow, hAfter⟩ := hAfter
    obtain ⟨req, hReq, hCursor, hPromptRow, hSampledRow⟩ := hTells.row reqId row hRow
    obtain ⟨req', hReq'⟩ : ∃ req', (s.bookkeepingSync input).requests reqId = some req' := by
      simp [RunnerState.bookkeepingSync, hReq]
    obtain ⟨same, hSame, hCases⟩ := bookkeepingSync_requests hRows hReq'
    rw [hReq] at hSame
    cases hSame
    rcases hCases with ⟨hSamples, rfl⟩ | ⟨j, last, hSamples, hIndex, hLast, rfl⟩
    · simp only [hSamples, Bool.false_eq_true, if_false] at hAfter
      subst hAfter
      exact ⟨_, hReq', hCursor, hPromptRow,
        fun i token hToken => (hSampledRow i token hToken).mono hMore⟩
    · simp only [hSamples, if_true] at hAfter
      subst hAfter
      have hLength := hTells.length reqId req hReq
      have hEnd : row.numTokensNoSpec = req.promptTokenIds.length + req.sampled.length := by
        rw [hCursor, CachedRequestState.numTokens, hLength]
      refine ⟨_, hReq', ?_, fun i token hToken => ?_, fun i token hToken => ?_⟩
      · simp [CachedRequestState.numTokens, hEnd, hLength, Nat.add_assoc]
      · have hLt : i < req.promptTokenIds.length := (List.getElem?_eq_some_iff.1 hToken).1
        show Function.update row.tokenIds row.numTokensNoSpec none i = some token
        rw [Function.update_of_ne (by omega)]
        exact hPromptRow i token hToken
      · show Holds _ reqId (req.promptTokenIds.length + i)
          (Function.update row.tokenIds row.numTokensNoSpec none
            (req.promptTokenIds.length + i)) token
        rcases Nat.lt_trichotomy i req.sampled.length with hLt | rfl | hGt
        · rw [List.getElem?_append_left hLt] at hToken
          rw [Function.update_of_ne (by omega)]
          exact (hSampledRow i token hToken).mono hMore
        · rw [List.getElem?_concat_length, Option.some.injEq] at hToken
          subst hToken
          refine .inr ⟨?_, hNew hReq hSamples hIndex hLast⟩
          rw [hEnd, Function.update_self]
        · rw [List.getElem?_eq_none (by simp; omega)] at hToken
          cases hToken
  · obtain ⟨req, hReq, hCases⟩ := bookkeepingSync_requests hRows hAfter
    have hOldEntry : wb ∈ s.outstanding → after.promptTokenIds.length ≤ pos ∧
        after.sampled[pos - after.promptTokenIds.length]? = some token := by
      intro hOld
      obtain ⟨hPos, hToken⟩ := hTells.entry wb hOld reqId req pos token hReq hEntry
      rcases hCases with ⟨-, rfl⟩ | ⟨j, last, -, -, -, rfl⟩
      · exact ⟨hPos, hToken⟩
      · have hLt := (List.getElem?_eq_some_iff.1 hToken).1
        exact ⟨hPos, by rw [List.getElem?_append_left hLt, hToken]⟩
    rcases List.mem_append.1 hMem with hOld | hOwn
    · exact hOldEntry hOld
    · rw [List.mem_singleton.1 hOwn] at hEntry
      obtain ⟨i, row, hIndex, hSamples, hRow, hToken, hPos⟩ := writeback_entry hEntry
      rcases hCases with ⟨hNot, -⟩ | ⟨j, last, -, hJ, hLast, rfl⟩
      · rw [hSamples] at hNot
        cases hNot
      · obtain ⟨same, hSame, hCursor, -⟩ := hTells.row reqId row hRow
        rw [hReq] at hSame
        cases hSame
        have hEnd : pos = req.promptTokenIds.length + req.sampled.length := by
          rw [← hTells.length reqId req hReq]
          exact hPos.trans hCursor
        rw [hIndex, Option.some.injEq] at hJ
        subst hJ
        rw [hToken, Option.some.injEq] at hLast
        subst hEnd hLast
        exact ⟨Nat.le_add_right _ _, by simp⟩

theorem RunnerState.Consistent.bookkept (hOk : s.Consistent) (hRows : input.Rows)
    (hSeated : ∀ reqId, s.samples input reqId = true → ∃ row, s.rows reqId = some row) :
    (s.bookkeepingSync input).Consistent := by
  refine ⟨hOk.tells.bookkept hRows hSeated, fun reqId after token hAfter hToken => ?_,
    fun output hOutput hLast reqId entry hEntry => ?_, fun output hOutput => ?_,
    fun reqId after hAfter => ?_, fun wb hMem reqId entry hEntry => ?_,
    fun reqId token hToken => ?_⟩
  · obtain ⟨i, hSamples, hIndex, hToken⟩ := bookkeepingSync_prevToken hToken
    obtain ⟨req, -, ⟨hNot, -⟩ | ⟨j, last, -, hJ, hLast, rfl⟩⟩ := bookkeepingSync_requests hRows hAfter
    · rw [hSamples] at hNot
      cases hNot
    · rw [hIndex, Option.some.injEq] at hJ
      subst hJ
      rw [← hToken, hLast]
      simp
  · rcases List.mem_append.1 hOutput with hOld | hOwn
    · have hBefore := hOk.steps output hOld
      have hCount : output.1 + 1 = s.stepCount + 1 := hLast
      omega
    · rw [List.mem_singleton.1 hOwn] at hEntry
      obtain ⟨i, row, hIndex, hSamples, hRow, hToken, hPos⟩ := writeback_entry hEntry
      refine ⟨entry.2, ?_⟩
      simp [RunnerState.prevToken, RunnerState.bookkeepingSync, hSamples, hIndex, hToken]
  · rcases List.mem_append.1 hOutput with hOld | hOwn
    · exact Nat.lt_succ_of_lt (hOk.steps output hOld)
    · rw [List.mem_singleton.1 hOwn]
      exact Nat.lt_succ_self _
  · obtain ⟨req, hReq, -⟩ := bookkeepingSync_requests hRows hAfter
    exact hOk.seenRequests reqId req hReq
  · rw [bookkeepingSync_outstanding] at hMem
    rcases List.mem_append.1 hMem with hOld | hOwn
    · exact hOk.seenEntries wb hOld reqId entry hEntry
    · rw [List.mem_singleton.1 hOwn] at hEntry
      obtain ⟨i, row, -, hSamples, -⟩ := writeback_entry hEntry
      obtain ⟨-, req, hReq⟩ := samples_known hSamples
      exact hOk.seenRequests reqId req hReq
  · obtain ⟨i, hSamples, -⟩ := bookkeepingSync_prevToken hToken
    obtain ⟨-, req, hReq⟩ := samples_known hSamples
    exact hOk.seenRequests reqId req hReq

theorem discarded_eq_none (hCounted : ∀ req ∈ input.scheduled, ∀ state,
      s.requests req.reqId = some state → state.outputTokenIds.length ≤ req.numOutputTokens)
    (reqId : Nat) : s.discarded input reqId = none := by
  unfold RunnerState.discarded
  cases hFind : input.find reqId with
  | none => rfl
  | some scheduled =>
      cases hReq : s.requests reqId with
      | none => rfl
      | some req =>
          have hId : scheduled.reqId = reqId := by simpa using List.find?_some hFind
          have hAll := hCounted scheduled (List.mem_of_find?_eq_some hFind) req (hId ▸ hReq)
          simp [Nat.not_lt.2 hAll]

theorem RunnerState.Legal.kept (hLegal : s.Legal input) (hOk : s.Consistent) (reqId : Nat) :
    s.applyPendingTokenWriteback.discarded input reqId = none := by
  refine discarded_eq_none (fun req hMem after hAfter => ?_) reqId
  obtain ⟨state, hState, hSampled⟩ := applyAll_requests hOk.tells hAfter
  have hBefore := hOk.tells.length req.reqId state hState
  have hLength := hOk.tells.applyAll.length req.reqId after hAfter
  rw [hLength, hSampled, ← hBefore]
  exact hLegal.counted req hMem state hState

theorem RunnerState.Consistent.executed (hOk : s.Consistent) (hLegal : s.Legal input) :
    (s.executeModel input).Consistent := by
  refine hOk.applied.updated (hLegal.kept hOk) fun new hNew => ?_
  have hSeen : s.applyPendingTokenWriteback.seen = s.seen := (applyAll_rest _ s).2.2.2
  rw [hSeen]
  exact (hLegal.fresh new hNew).1

/-- A scheduled request has a row once the batch is updated. -/
theorem RunnerState.Legal.row (hLegal : s.Legal input) (hOk : s.Consistent) {reqId : Nat}
    {req : CachedRequestState} (hMem : reqId ∈ input.reqIds)
    (hReq : (s.executeModel input).requests reqId = some req) :
    ∃ row, (s.executeModel input).rows reqId = some row := by
  have hKept := hLegal.kept hOk reqId
  unfold RunnerState.executeModel RunnerState.updateStates at hReq ⊢
  simp only [hKept, hMem, not_true, if_false] at hReq ⊢
  split
  · exact ⟨_, rfl⟩
  · rw [hReq]
    exact ⟨_, rfl⟩

theorem RunnerState.Consistent.step (hOk : s.Consistent) (hLegal : s.Legal input) :
    (s.step input).Consistent := by
  have hExecuted := hOk.executed hLegal
  unfold RunnerState.step
  split
  · exact hExecuted
  · refine hExecuted.repaired.bookkept ⟨hLegal.order, hLegal.sampled⟩ fun reqId hSamples => ?_
    obtain ⟨hMem, after, hAfter⟩ := samples_known hSamples
    obtain ⟨req, hReq, -⟩ := repairOutputTokenIds_requests hAfter
    rw [repairOutputTokenIds_rest.1]
    exact hLegal.row hOk hMem hReq

/-- A copied output moves from one queue to the other. -/
theorem RunnerState.Consistent.copied (hOk : s.Consistent) {before after : List (Nat × Writeback)}
    {output : Nat × Writeback} (hFlight : s.inFlight = before ++ output :: after) :
    RunnerState.Consistent { s with
      inFlight := before ++ after
      pendingTokenWriteback := s.pendingTokenWriteback ++ [output.2] } := by
  have hPart : ∀ other ∈ before ++ after, other ∈ s.inFlight := by
    intro other hMem
    rw [hFlight]
    rcases List.mem_append.1 hMem with hMem | hMem
    · exact List.mem_append_left _ hMem
    · exact List.mem_append_right _ (List.mem_cons_of_mem _ hMem)
  have hSame : ∀ wb, wb ∈ s.outstanding ↔
      wb ∈ s.pendingTokenWriteback ++ [output.2] ++ (before ++ after).map Prod.snd := by
    intro wb
    unfold RunnerState.outstanding
    rw [hFlight]
    simp only [List.map_append, List.map_cons, List.mem_append, List.mem_cons,
      List.not_mem_nil, or_false]
    tauto
  have hTo := fun wb hMem => (hSame wb).1 hMem
  refine ⟨⟨hOk.tells.length, fun reqId req i token hReq hToken => ?_, fun reqId row hRow => ?_,
    fun wb hMem => hOk.tells.entry wb ((hSame wb).2 hMem)⟩, hOk.prev,
    fun other hMem => hOk.last other (hPart other hMem),
    fun other hMem => hOk.steps other (hPart other hMem), hOk.seenRequests,
    fun wb hMem => hOk.seenEntries wb ((hSame wb).2 hMem), hOk.seenPrev⟩
  · exact (hOk.tells.output reqId req i token hReq hToken).mono hTo
  · obtain ⟨req, hReq, hCursor, hPrompt, hSampled⟩ := hOk.tells.row reqId row hRow
    exact ⟨req, hReq, hCursor, hPrompt, fun i token hToken => (hSampled i token hToken).mono hTo⟩

theorem Reaches.consistent (hReaches : Reaches s) : s.Consistent := by
  induction hReaches with
  | initial => exact RunnerState.initial_consistent
  | step _ hLegal ih => exact ih.step hLegal
  | getOutput _ hFlight ih => exact ih.copied hFlight

/-! ### The staged input -/

theorem StepInput.find_of_mem (hNodup : input.reqIds.Nodup) {req : Scheduled}
    (hMem : req ∈ input.scheduled) : input.find req.reqId = some req := by
  unfold StepInput.find
  cases hFind : input.scheduled.find? fun other => other.reqId = req.reqId with
  | none => simpa using List.find?_eq_none.1 hFind req hMem
  | some other =>
      have hId : other.reqId = req.reqId := by simpa using List.find?_some hFind
      rw [List.inj_on_of_nodup_map hNodup (List.mem_of_find?_eq_some hFind) hMem hId]

/-- At a step that decodes, an outstanding write-back is the previous step's. -/
theorem RunnerState.Legal.prevToken (hLegal : s.Legal input) (hOk : s.Consistent)
    (hSome : input.scheduled ≠ []) {wb : Writeback} {reqId : Nat} {entry : Nat × Nat}
    (hMem : wb ∈ (s.executeModel input).outstanding) (hEntry : wb.entry reqId = some entry) :
    ∃ token, (s.executeModel input).prevToken reqId = some token := by
  have hFlight : (s.executeModel input).inFlight = s.inFlight := (applyAll_rest _ s).2.1
  have hCount : (s.executeModel input).stepCount = s.stepCount := (applyAll_rest _ s).2.2.1
  have hOut : (s.executeModel input).outstanding = s.inFlight.map Prod.snd := by
    unfold RunnerState.outstanding
    rw [hFlight]
    rfl
  rw [hOut] at hMem
  obtain ⟨output, hOutput, rfl⟩ := List.mem_map.1 hMem
  have hRecent := hLegal.copied hSome output hOutput
  have hBefore := hOk.steps output hOutput
  refine (hOk.executed hLegal).last output (hFlight ▸ hOutput) ?_ reqId entry hEntry
  rw [hCount]
  omega

/-- The staged token of a decode is the last one sampled, or the end of its prompt. -/
theorem stagedInputId_eq_lastToken (hOk : s.Consistent) (hLegal : s.Legal input)
    {req : Scheduled} (hMem : req ∈ input.scheduled) {state : CachedRequestState}
    (hState : (s.executeModel input).requests req.reqId = some state)
    (hOne : req.numScheduledTokens = 1) (hTip : req.numComputedTokens + 1 = state.numTokens) :
    ∃ token, state.lastToken = some token ∧
      (s.executeModel input).stagedInputId input req.reqId = some token := by
  have hExecuted := hOk.executed hLegal
  have hDecode : input.isPrefill = false := by
    rw [Bool.eq_false_iff]
    intro hPrefill
    obtain ⟨only, hOnly⟩ := List.length_eq_one_iff.1 (hLegal.alone hPrefill)
    rw [hOnly, List.mem_singleton] at hMem
    subst hMem
    simp [StepInput.isPrefill, hOnly, hOne] at hPrefill
  cases hPrev : (s.executeModel input).prevToken req.reqId with
  | some token =>
      have hLast := hExecuted.prev req.reqId state token hState hPrev
      refine ⟨token, ?_, ?_⟩
      · simp [CachedRequestState.lastToken, List.getLast?_append, hLast]
      · simp [RunnerState.stagedInputId, hDecode, hPrev]
  | none =>
      obtain ⟨row, hRow⟩ := hLegal.row hOk (List.mem_map.2 ⟨req, hMem, rfl⟩) hState
      obtain ⟨same, hSame, hCursor, hPromptRow, hSampledRow⟩ :=
        hExecuted.tells.row req.reqId row hRow
      rw [hState] at hSame
      cases hSame
      have hRead : (s.executeModel input).stagedInputId input req.reqId =
          row.tokenIds req.numComputedTokens := by
        simp [RunnerState.stagedInputId, hDecode, hPrev, StepInput.find_of_mem hLegal.nodup hMem, hRow]
      rw [CachedRequestState.numTokens, hExecuted.tells.length _ _ hState] at hTip
      rw [hRead]
      cases hToken : state.sampled.getLast? with
      | none =>
          rw [List.getLast?_eq_none_iff] at hToken
          rw [hToken, List.length_nil] at hTip
          have hPrompt : state.promptTokenIds[req.numComputedTokens]? =
              some state.promptTokenIds[req.numComputedTokens] := List.getElem?_eq_getElem _
          refine ⟨_, ?_, hPromptRow _ _ hPrompt⟩
          rw [CachedRequestState.lastToken, hToken, List.append_nil, List.getLast?_eq_getElem?,
            ← hPrompt]
          congr 1
          omega
      | some token =>
          refine ⟨token, by simp [CachedRequestState.lastToken, List.getLast?_append, hToken], ?_⟩
          rw [List.getLast?_eq_getElem?] at hToken
          have hPos : req.numComputedTokens =
              state.promptTokenIds.length + (state.sampled.length - 1) := by
            have hLt := (List.getElem?_eq_some_iff.1 hToken).1
            omega
          rcases hSampledRow _ token hToken with hSlot | ⟨-, wb, hWb, hEntry⟩
          · rw [hPos]
            exact hSlot
          · -- A placeholder would be the previous step's, which has the request's token.
            obtain ⟨other, hOther⟩ :=
              hLegal.prevToken hOk (List.ne_nil_of_mem hMem) hWb hEntry
            rw [hPrev] at hOther
            cases hOther

end Steps

/-- No decode is ever fed a placeholder: in every state a run reaches, the token staged for a
request that decodes is the one sampled for it last (the end of its prompt before any is), and
every queued write-back puts its tokens where the placeholders of its step are. -/
theorem async_tokens_exact {s : RunnerState} (hReaches : Reaches s) :
    (∀ input, s.Legal input → ∀ req ∈ input.scheduled, ∀ state,
      (s.executeModel input).requests req.reqId = some state → req.numScheduledTokens = 1 →
      req.numComputedTokens + 1 = state.numTokens → ∃ token, state.lastToken = some token ∧
        (s.executeModel input).stagedInputId input req.reqId = some token) ∧
    ∀ wb ∈ s.pendingTokenWriteback, ∀ reqId req pos token, s.requests reqId = some req →
      wb.entry reqId = some (pos, token) →
        s.applyPendingTokenWriteback.Placed reqId pos token := by
  have hOk := hReaches.consistent
  refine ⟨fun input hLegal req hMem state hState hOne hTip =>
    stagedInputId_eq_lastToken hOk hLegal hMem hState hOne hTip,
    fun wb hMem reqId req pos token hReq hEntry => ?_⟩
  obtain ⟨after, hAfter, hPlaced⟩ :=
    hOk.tells.placedAll (.inr ⟨wb, hMem, hEntry, req, hReq⟩)
  exact ⟨after, hAfter, hPlaced⟩

/-- A prompt of two tokens in one step, which samples `9`. -/
def promptStep : StepInput where
  finished := []
  newReqs := [(0, [5, 6])]
  resumed := []
  scheduled := [⟨0, 0, 2, 0⟩]
  order := [0]
  sampled := [9]
  readsOutput := false

/-- The decode of the next step. -/
def decodeStep : StepInput where
  finished := []
  newReqs := []
  resumed := []
  scheduled := [⟨0, 2, 1, 1⟩]
  order := [0]
  sampled := [11]
  readsOutput := true

theorem promptStep_legal : RunnerState.initial.Legal promptStep := by
  refine ⟨?_, by decide, by decide, by decide, ?_, ?_, by decide, by decide, by decide, ?_⟩
  · simp [promptStep, RunnerState.initial]
  · simp [RunnerState.initial]
  · intro req hMem
    rw [List.mem_singleton.1 hMem]
    exact ⟨⟨[5, 6], [], []⟩, rfl, by decide, by decide⟩
  · simp [RunnerState.initial]

theorem decodeStep_legal : (RunnerState.initial.step promptStep).Legal decodeStep := by
  refine ⟨?_, by decide, by decide, by decide, ?_, ?_, by decide, by decide, by decide, ?_⟩
  · simp [decodeStep]
  · intro req hMem state hState
    rw [List.mem_singleton.1 hMem] at hState ⊢
    cases hState
    decide
  · intro req hMem
    rw [List.mem_singleton.1 hMem]
    exact ⟨⟨[5, 6], [none], [9]⟩, rfl, by decide, by decide⟩
  · intro _ output hMem
    rw [List.mem_singleton.1 hMem]
    decide

/-- The decode is staged while its token is still a placeholder. -/
theorem async_tokens_exact_decode :
    ∃ token, CachedRequestState.lastToken ⟨[5, 6], [none], [9]⟩ = some token ∧
      ((RunnerState.initial.step promptStep).executeModel decodeStep).stagedInputId decodeStep 0 =
        some token :=
  (async_tokens_exact (.step .initial promptStep_legal)).1 decodeStep decodeStep_legal
    ⟨0, 2, 1, 1⟩ (List.mem_singleton.2 rfl) ⟨[5, 6], [none], [9]⟩ rfl rfl rfl

end VllmRbln.ModelRunner
