import Mathlib.Data.List.Basic
import Mathlib.Data.List.Sort
import Mathlib.Data.Nat.Bitwise
import Mathlib.Tactic.Linarith
import VllmRbln.Common.Checked
import VllmRbln.Common.Extremes

/-! The padded batch of one step, agreed across the data-parallel ranks
(`v1/worker/dp_utils.py`). Every rank packs its counts and flags in one int32,
one all-reduce turns the packed values into a gather, and each rank decides
its own batch from the status it unpacked. -/
namespace VllmRbln.DataParallel

open Checked Extremes

/-- Which rule decided the step's shape. -/
inductive BatchRoute
  | pinned | local | unspecialized | anyPrefill | allIdle | qlenAsym | agreed
  deriving DecidableEq, Repr

/-- The assertions and exceptions of this path, with the data they print. -/
inductive BatchError
  | numReqsBelowOne (numReqs : Nat)
  | notAMultiple (numTokens numReqs : Nat)
  | busyRankNotUniform
  | noBatchBucket (batchSize : Nat)
  | emptyBuckets
  | tokensExceedPackedLimit (numTokens : Nat)
  | reqsExceedPackedLimit (numReqs : Nat)
  | doesNotFit (numReqsPadded queryLen numTokensPadded : Nat)
  deriving DecidableEq, Repr

/-- Per-rank counts and flags from one all-reduce, aligned by rank. -/
structure DPStatus where
  numTokens : List Nat
  numReqs : List Nat
  isPrefill : List Bool
  isIdle : List Bool
  numTokensAcrossDp : List (BitVec 32)
  deriving DecidableEq, Repr

/-- The compiled-shape snapshot of a worker. `findBucket` is the injected
`find_decode_batch_bucket` of the bucketing manager, over the same buckets. -/
structure ShapeConfig where
  decodeBatchBuckets : List Nat
  maxNumTokens : Nat
  specializedMoeDecode : Bool

/-- The smallest decode bucket that holds the batch: the buckets ascend, so
it is the first one large enough. -/
def ShapeConfig.findBucket (cfg : ShapeConfig) (batchSize : Nat) : Except BatchError Nat :=
  match cfg.decodeBatchBuckets.find? (fun bucket => batchSize ≤ bucket) with
  | some bucket => .ok bucket
  | none => .error (.noBatchBucket batchSize)

/-- `decode_batch_buckets[-1]`. -/
def ShapeConfig.topBucket (cfg : ShapeConfig) : Except BatchError Nat :=
  match cfg.decodeBatchBuckets.getLast? with
  | some bucket => .ok bucket
  | none => .error .emptyBuckets

structure BatchDescriptor where
  numReqsPadded : Nat
  queryLen : Nat
  numTokensPadded : Option Nat
  deriving DecidableEq, Repr

/-- The constructor with its `__post_init__` assertion. -/
def BatchDescriptor.create (numReqsPadded queryLen : Nat) (numTokensPadded : Option Nat) :
    Except BatchError BatchDescriptor :=
  match numTokensPadded with
  | none => .ok ⟨numReqsPadded, queryLen, none⟩
  | some n =>
      if numReqsPadded * queryLen ≤ n then .ok ⟨numReqsPadded, queryLen, some n⟩
      else .error (.doesNotFit numReqsPadded queryLen n)

/-- The ranks that are not on a DP-idle dummy step. -/
def DPStatus.busy (status : DPStatus) : List Nat :=
  (List.range status.isIdle.length).filter (fun i => !status.isIdle.getD i false)

/-- Query length the busy rank `i` reported. -/
def DPStatus.queryLen (status : DPStatus) (i : Nat) : Nat :=
  status.numTokens.getD i 0 / status.numReqs.getD i 0

/-- The routes of a step that joined the collective, from the status every rank
reads and this rank's own counts. -/
def determineAcrossDp (cfg : ShapeConfig) (numReqs queryLen localNumReqsPadded : Nat)
    (isPrefill : Bool) (status : DPStatus) :
    Except BatchError (Option BatchDescriptor × BatchRoute) := do
  if status.busy = [] then return (none, .allIdle)
  if !cfg.specializedMoeDecode then
    let desc ← BatchDescriptor.create localNumReqsPadded queryLen (some cfg.maxNumTokens)
    return (some desc, .unspecialized)
  if status.isPrefill.any id then
    let numReqsPadded ← if isPrefill then .ok numReqs else cfg.topBucket
    let desc ← BatchDescriptor.create numReqsPadded queryLen (some cfg.maxNumTokens)
    return (some desc, .anyPrefill)
  if status.busy.any (fun i => status.numTokens.getD i 0 % status.numReqs.getD i 0 ≠ 0) then
    throw .busyRankNotUniform
  let queryLens := status.busy.map status.queryLen
  let maxQueryLen := queryLens.foldl max 0
  if queryLens.foldl min maxQueryLen ≠ maxQueryLen then
    let top ← cfg.topBucket
    let desc ← BatchDescriptor.create top queryLen (some (top * maxQueryLen))
    return (some desc, .qlenAsym)
  let numReqsPadded ← cfg.findBucket ((status.busy.map (status.numReqs.getD · 0)).foldl max 0)
  let desc ← BatchDescriptor.create numReqsPadded maxQueryLen (some (numReqsPadded * maxQueryLen))
  return (some desc, .agreed)

/-- Decide one rank's padded batch, or that there is none to run. -/
def determineBatchExecutionAndPadding (cfg : ShapeConfig) (numReqs numTokens : Nat)
    (isPrefill : Bool) (status : Option DPStatus) (pinned : Option Nat) :
    Except BatchError (Option BatchDescriptor × BatchRoute) := do
  if numReqs < 1 then throw (.numReqsBelowOne numReqs)
  if numTokens % numReqs ≠ 0 then throw (.notAMultiple numTokens numReqs)
  let queryLen := numTokens / numReqs
  let localNumReqsPadded ← if isPrefill then .ok numReqs else cfg.findBucket numReqs
  match pinned, status with
  | some n, _ =>
      let desc ← BatchDescriptor.create localNumReqsPadded queryLen (some n)
      return (some desc, .pinned)
  | none, none =>
      let desc ← BatchDescriptor.create localNumReqsPadded queryLen none
      return (some desc, .local)
  | none, some status =>
      determineAcrossDp cfg numReqs queryLen localNumReqsPadded isPrefill status

/-! ### Transport -/

def tokenBits : Nat := 16
def reqBits : Nat := 13
def tokenMask : Nat := (1 <<< tokenBits) - 1
def reqMaskRaw : Nat := (1 <<< reqBits) - 1
def reqMaskShifted : Nat := reqMaskRaw <<< tokenBits
def prefillFlag : Nat := 1 <<< (tokenBits + reqBits)
def idleFlag : Nat := 1 <<< (tokenBits + reqBits + 1)

/-- What one rank brings to the step. -/
structure RankInput where
  numReqs : Nat
  numTokens : Nat
  isPrefill : Bool
  isIdle : Bool
  deriving DecidableEq, Repr

/-- The packed int32 of one rank. -/
def RankInput.encode (input : RankInput) : Except BatchError Nat := do
  if ¬ input.numTokens ≤ tokenMask then throw (.tokensExceedPackedLimit input.numTokens)
  if ¬ input.numReqs ≤ reqMaskRaw then throw (.reqsExceedPackedLimit input.numReqs)
  let encoded := input.numTokens ||| (input.numReqs <<< tokenBits)
  let encoded := if input.isPrefill then encoded ||| prefillFlag else encoded
  return if input.isIdle then encoded ||| idleFlag else encoded

/-- The slots one rank contributes: its value in its own slot, zero elsewhere. -/
def slots (value dpSize dpRank : Nat) : List (BitVec 32) :=
  (List.replicate dpSize 0#32).set dpRank (BitVec.ofNat 32 value)

/-- `_run_ar` on all ranks at once: the sum of every rank's int32 slots. -/
def runAr (values : List Nat) : List (BitVec 32) :=
  (values.zipIdx.map (fun value => slots value.1 values.length value.2)).foldl
    (List.zipWith (· + ·)) (List.replicate values.length 0#32)

/-- Split the reduced tensor back out. Bit 31 is never set, so the signed
and the unsigned reading of an entry agree. -/
def decode (packed : List (BitVec 32)) : DPStatus where
  numTokens := packed.map (fun value => value.toNat &&& tokenMask)
  numReqs := packed.map (fun value => (value.toNat &&& reqMaskShifted) >>> tokenBits)
  isPrefill := packed.map (fun value => value.toNat &&& prefillFlag != 0)
  isIdle := packed.map (fun value => value.toNat &&& idleFlag != 0)
  numTokensAcrossDp := packed.map (fun value => value &&& BitVec.ofNat 32 tokenMask)

/-- What one rank does with the status it read. -/
def RankInput.settle (cfg : ShapeConfig) (status : DPStatus) (input : RankInput) :
    Except BatchError (Option BatchDescriptor × BatchRoute × DPStatus) := do
  let (desc, route) ← determineBatchExecutionAndPadding cfg input.numReqs input.numTokens
    input.isPrefill (some status) none
  return (desc, route, status)

/-- All ranks run `coordinate_batch_across_dp` on one step. A rank that
raises before the collective leaves the group without a result. -/
def coordinateBatchAcrossDp (cfg : ShapeConfig) (inputs : List RankInput) :
    Except BatchError (List (Option BatchDescriptor × BatchRoute × DPStatus)) := do
  let encoded ← inputs.mapM RankInput.encode
  inputs.mapM (RankInput.settle cfg (decode (runAr encoded)))

/-! ### The all-reduce is a gather -/

theorem slots_split (value before after : Nat) :
    slots value (before + (after + 1)) before =
      List.replicate before 0#32 ++ BitVec.ofNat 32 value :: List.replicate after 0#32 := by
  rw [slots, List.replicate_add, List.set_append_right _ _ (by simp)]
  simp [List.replicate_succ]

private theorem foldl_slots (gathered rest : List Nat) :
    ((rest.zipIdx gathered.length).map
        (fun value => slots value.1 (gathered.length + rest.length) value.2)).foldl
      (List.zipWith (· + ·))
      (gathered.map (BitVec.ofNat 32) ++ List.replicate rest.length 0#32) =
    (gathered ++ rest).map (BitVec.ofNat 32) := by
  induction rest generalizing gathered with
  | nil => simp
  | cons value rest ih =>
      have hNext := ih (gathered ++ [value])
      simp only [List.length_append, List.length_cons, List.length_nil, Nat.zero_add,
        List.append_assoc, List.cons_append, List.nil_append, List.map_append,
        List.map_cons, List.map_nil] at hNext
      simp only [List.zipIdx_cons, List.map_cons, List.foldl_cons, List.length_cons]
      rw [slots_split, List.replicate_succ, List.zipWith_append (by simp)]
      simp only [List.zipWith_cons_cons, BitVec.zero_add]
      rw [show gathered.length + (rest.length + 1) = gathered.length + 1 + rest.length by omega]
      convert hNext using 2
      · congr 1
        · apply List.ext_getElem <;> simp
        · simp
      · simp

/-- Every rank reads back exactly what each rank contributed, in rank order. -/
theorem runAr_eq_map (values : List Nat) : runAr values = values.map (BitVec.ofNat 32) := by
  simpa [runAr] using foldl_slots [] values

/-! ### The packed status -/

/-- The fields of one rank, at the positions `encode` packs them. -/
def RankInput.packed (input : RankInput) : Nat :=
  input.numTokens + input.numReqs * 2 ^ 16 +
    input.isPrefill.toNat * 2 ^ 29 + input.isIdle.toNat * 2 ^ 30

/-- The bounds the two assertions of `_synchronize_dp_ranks` state. -/
def RankInput.FitsPacked (input : RankInput) : Prop :=
  input.numTokens ≤ 65535 ∧ input.numReqs ≤ 8191

private theorem or_two_pow {base width : Nat} (hBase : base < 2 ^ width) :
    base ||| 2 ^ width = base + 2 ^ width := by
  rw [Nat.or_comm, Nat.add_comm]
  simpa [Nat.shiftLeft_eq] using (Nat.shiftLeft_add_eq_or_of_lt hBase 1).symm

theorem RankInput.encode_eq_packed {input : RankInput} (hFits : input.FitsPacked) :
    input.encode = .ok input.packed := by
  obtain ⟨numReqs, numTokens, isPrefill, isIdle⟩ := input
  obtain ⟨hTokens, hReqs⟩ := hFits
  simp only at hTokens hReqs
  have hBase : numTokens ||| numReqs <<< tokenBits = numTokens + numReqs * 2 ^ 16 := by
    rw [Nat.or_comm, ← Nat.shiftLeft_add_eq_or_of_lt (by simp only [tokenBits]; omega),
      Nat.shiftLeft_eq, tokenBits, Nat.add_comm]
  have hBound : numTokens + numReqs * 2 ^ 16 < 2 ^ 29 := by omega
  have hTokenMask : numTokens ≤ tokenMask := by simpa [tokenMask, tokenBits] using hTokens
  have hReqMask : numReqs ≤ reqMaskRaw := by simpa [reqMaskRaw, reqBits] using hReqs
  have hPrefillFlag : prefillFlag = 2 ^ 29 := by simp [prefillFlag, tokenBits, reqBits]
  have hIdleFlag : idleFlag = 2 ^ 30 := by simp [idleFlag, tokenBits, reqBits]
  simp only [RankInput.encode, hTokenMask, hReqMask, not_true, if_false, hBase, hPrefillFlag,
    hIdleFlag, RankInput.packed]
  have hPrefill := or_two_pow hBound
  have hIdle := or_two_pow (lt_trans hBound (by norm_num : 2 ^ 29 < 2 ^ 30))
  have hBoth : numTokens + numReqs * 2 ^ 16 + 2 ^ 29 ||| 2 ^ 30 = _ :=
    or_two_pow (by omega)
  norm_num only at hPrefill hIdle hBoth
  cases isPrefill <;> cases isIdle <;> simp [hPrefill, hIdle, hBoth, pure, Except.pure]

/-- The status every rank should read: what the ranks brought, in rank order. -/
def reportedStatus (inputs : List RankInput) : DPStatus where
  numTokens := inputs.map (·.numTokens)
  numReqs := inputs.map (·.numReqs)
  isPrefill := inputs.map (·.isPrefill)
  isIdle := inputs.map (·.isIdle)
  numTokensAcrossDp := inputs.map (fun input => BitVec.ofNat 32 input.numTokens)

private theorem packed_lt {input : RankInput} (hFits : input.FitsPacked) :
    input.packed < 2 ^ 31 := by
  obtain ⟨hTokens, hReqs⟩ := hFits
  have hPrefill := input.isPrefill.toNat_le
  have hIdle := input.isIdle.toNat_le
  simp only [RankInput.packed]
  omega

private theorem packed_and_tokenMask {input : RankInput} (hFits : input.FitsPacked) :
    input.packed &&& tokenMask = input.numTokens := by
  obtain ⟨hTokens, hReqs⟩ := hFits
  have hMask : tokenMask = 2 ^ 16 - 1 := by simp [tokenMask, tokenBits]
  rw [hMask, Nat.and_two_pow_sub_one_eq_mod, RankInput.packed]
  omega

private theorem packed_and_reqMaskShifted {input : RankInput} (hFits : input.FitsPacked) :
    (input.packed &&& reqMaskShifted) >>> tokenBits = input.numReqs := by
  obtain ⟨hTokens, hReqs⟩ := hFits
  have hMask : reqMaskShifted >>> tokenBits = 2 ^ 13 - 1 := by
    simp [reqMaskShifted, reqMaskRaw, tokenBits, reqBits]
  rw [Nat.shiftRight_and_distrib, hMask, Nat.and_two_pow_sub_one_eq_mod, tokenBits,
    Nat.shiftRight_eq_div_pow, RankInput.packed]
  omega

private theorem and_two_pow_bne_zero (value bit : Nat) :
    (value &&& 2 ^ bit != 0) = value.testBit bit := by
  rw [Nat.and_two_pow]
  cases value.testBit bit <;> simp

private theorem packed_and_prefillFlag {input : RankInput} (hFits : input.FitsPacked) :
    (input.packed &&& prefillFlag != 0) = input.isPrefill := by
  obtain ⟨hTokens, hReqs⟩ := hFits
  have hFlag : prefillFlag = 2 ^ 29 := by simp [prefillFlag, tokenBits, reqBits]
  rw [hFlag, and_two_pow_bne_zero, Nat.testBit_eq_decide_div_mod_eq, RankInput.packed]
  cases input.isPrefill <;> cases input.isIdle <;> simp <;> omega

private theorem packed_and_idleFlag {input : RankInput} (hFits : input.FitsPacked) :
    (input.packed &&& idleFlag != 0) = input.isIdle := by
  obtain ⟨hTokens, hReqs⟩ := hFits
  have hFlag : idleFlag = 2 ^ 30 := by simp [idleFlag, tokenBits, reqBits]
  rw [hFlag, and_two_pow_bne_zero, Nat.testBit_eq_decide_div_mod_eq, RankInput.packed]
  cases input.isPrefill <;> cases input.isIdle <;> simp <;> omega

private theorem packed_toNat {input : RankInput} (hFits : input.FitsPacked) :
    (BitVec.ofNat 32 input.packed).toNat = input.packed := by
  rw [BitVec.toNat_ofNat]
  exact Nat.mod_eq_of_lt (by have := packed_lt hFits; omega)

private theorem map_ofNat_packed {γ : Type} {inputs : List RankInput}
    (hFits : ∀ input ∈ inputs, input.FitsPacked) (read : BitVec 32 → γ) (field : RankInput → γ)
    (hRead : ∀ input : RankInput, input.FitsPacked →
      read (BitVec.ofNat 32 input.packed) = field input) :
    ((inputs.map RankInput.packed).map (BitVec.ofNat 32)).map read = inputs.map field := by
  rw [List.map_map, List.map_map]
  exact List.map_congr_left fun input hMem => hRead input (hFits input hMem)

/-- Packing, the all-reduce and unpacking lose nothing. -/
theorem decode_runAr {inputs : List RankInput} (hFits : ∀ input ∈ inputs, input.FitsPacked) :
    decode (runAr (inputs.map RankInput.packed)) = reportedStatus inputs := by
  rw [runAr_eq_map, decode, reportedStatus]
  congr 1
  · refine map_ofNat_packed hFits _ _ fun input hInput => ?_
    rw [packed_toNat hInput, packed_and_tokenMask hInput]
  · refine map_ofNat_packed hFits _ _ fun input hInput => ?_
    rw [packed_toNat hInput, packed_and_reqMaskShifted hInput]
  · refine map_ofNat_packed hFits _ _ fun input hInput => ?_
    rw [packed_toNat hInput, packed_and_prefillFlag hInput]
  · refine map_ofNat_packed hFits _ _ fun input hInput => ?_
    rw [packed_toNat hInput, packed_and_idleFlag hInput]
  · refine map_ofNat_packed hFits _ _ fun input hInput => ?_
    rw [← BitVec.ofNat_and, packed_and_tokenMask hInput]

/-! ### One decision on every rank -/

/-- The compiled decode batch sizes ascend to `top`. -/
structure ShapeConfig.HasTop (cfg : ShapeConfig) (top : Nat) : Prop where
  last : cfg.decodeBatchBuckets.getLast? = some top
  le : ∀ bucket ∈ cfg.decodeBatchBuckets, bucket ≤ top

theorem ShapeConfig.HasTop.topBucket_eq {cfg : ShapeConfig} {top : Nat} (hTop : cfg.HasTop top) :
    cfg.topBucket = .ok top := by
  simp [ShapeConfig.topBucket, hTop.last]

theorem ShapeConfig.HasTop.findBucket_ok {cfg : ShapeConfig} {top : Nat} (hTop : cfg.HasTop top)
    {batchSize : Nat} (hBatch : batchSize ≤ top) :
    ∃ bucket, cfg.findBucket batchSize = .ok bucket ∧ batchSize ≤ bucket ∧ bucket ≤ top := by
  have hMem : top ∈ cfg.decodeBatchBuckets := List.mem_of_getLast? hTop.last
  cases hFind : cfg.decodeBatchBuckets.find? (fun bucket => batchSize ≤ bucket) with
  | none =>
      have hNone := List.find?_eq_none.mp hFind top hMem
      simp [hBatch] at hNone
  | some bucket =>
      refine ⟨bucket, by simp [ShapeConfig.findBucket, hFind], ?_, ?_⟩
      · simpa using List.find?_some hFind
      · exact hTop.le bucket (List.mem_of_find?_eq_some hFind)

/-- What a rank may bring to a step whose largest decode batch is `top`: a
uniform batch of at most `top` requests whose padded rows fit the compiled token
dimension, and the minimal entry from a rank on an idle dummy step. -/
structure RankInput.Admissible (cfg : ShapeConfig) (top : Nat) (input : RankInput) : Prop where
  reqs_pos : 1 ≤ input.numReqs
  reqs_le : input.numReqs ≤ top
  uniform : input.numTokens % input.numReqs = 0
  tokens_le : input.numTokens ≤ 65535
  idle_minimal : input.isIdle = true → input.numReqs = 1 ∧ input.numTokens = 1
  prefill_fits : input.isPrefill = true → input.numTokens ≤ cfg.maxNumTokens
  decode_fits : input.isPrefill = false →
    top * (input.numTokens / input.numReqs) ≤ cfg.maxNumTokens

/-- The batch a rank runs holds its requests, at its own query length when it
has one, in the `numTokensPadded` rows all ranks share. -/
structure BatchDescriptor.Serves (desc : BatchDescriptor) (numTokensPadded : Nat)
    (input : RankInput) : Prop where
  tokens_eq : desc.numTokensPadded = some numTokensPadded
  reqs_le : input.numReqs ≤ desc.numReqsPadded
  fits : desc.numReqsPadded * desc.queryLen ≤ numTokensPadded
  queryLen_eq : input.isIdle = false → desc.queryLen = input.numTokens / input.numReqs

theorem BatchDescriptor.create_serves {input : RankInput} {numReqsPadded queryLen n : Nat}
    (hReqs : input.numReqs ≤ numReqsPadded) (hFits : numReqsPadded * queryLen ≤ n)
    (hQuery : input.isIdle = false → queryLen = input.numTokens / input.numReqs) :
    ∃ desc, BatchDescriptor.create numReqsPadded queryLen (some n) = .ok desc ∧
      desc.Serves n input :=
  ⟨⟨numReqsPadded, queryLen, some n⟩, by simp [BatchDescriptor.create, hFits],
    ⟨rfl, hReqs, hFits, hQuery⟩⟩

section Decision

variable {cfg : ShapeConfig} {top : Nat} {inputs : List RankInput}

theorem busy_eq_nil_iff : (reportedStatus inputs).busy = [] ↔
    ∀ input ∈ inputs, input.isIdle = true := by
  simp only [DPStatus.busy, reportedStatus, List.filter_eq_nil_iff, List.mem_range,
    List.length_map]
  constructor
  · intro hBusy input hMem
    obtain ⟨i, hLt, rfl⟩ := List.getElem_of_mem hMem
    simpa [List.getD, hLt] using hBusy i hLt
  · intro hIdle i hLt
    simpa [List.getD, hLt] using hIdle _ (List.getElem_mem hLt)

theorem mem_busy {i : Nat} : i ∈ (reportedStatus inputs).busy ↔
    ∃ hLt : i < inputs.length, inputs[i].isIdle = false := by
  simp only [DPStatus.busy, reportedStatus, List.mem_filter, List.mem_range, List.length_map]
  constructor
  · rintro ⟨hLt, hBusy⟩
    exact ⟨hLt, by simpa [List.getD, hLt] using hBusy⟩
  · rintro ⟨hLt, hBusy⟩
    exact ⟨hLt, by simp [List.getD, hLt, hBusy]⟩

theorem queryLen_reportedStatus {i : Nat} (hLt : i < inputs.length) :
    (reportedStatus inputs).queryLen i = inputs[i].numTokens / inputs[i].numReqs := by
  simp [DPStatus.queryLen, reportedStatus, List.getD, hLt]

theorem numReqs_reportedStatus {i : Nat} (hLt : i < inputs.length) :
    (reportedStatus inputs).numReqs.getD i 0 = inputs[i].numReqs := by
  simp [reportedStatus, List.getD, hLt]

/-- Past the assertions on the rank's own counts, only the routes remain. -/
private theorem determine_eq (hTop : cfg.HasTop top) {input : RankInput}
    (hInput : input.Admissible cfg top) (status : DPStatus) :
    ∃ padded, input.numReqs ≤ padded ∧
      padded * (input.numTokens / input.numReqs) ≤ cfg.maxNumTokens ∧
      determineBatchExecutionAndPadding cfg input.numReqs input.numTokens input.isPrefill
        (some status) none =
      determineAcrossDp cfg input.numReqs (input.numTokens / input.numReqs) padded
        input.isPrefill status := by
  obtain ⟨bucket, hBucket, hLe, hBucketLe⟩ := hTop.findBucket_ok hInput.reqs_le
  have hPos : ¬ input.numReqs < 1 := by have := hInput.reqs_pos; omega
  have hMul : input.numReqs * (input.numTokens / input.numReqs) = input.numTokens :=
    Nat.mul_div_cancel' (Nat.dvd_of_mod_eq_zero hInput.uniform)
  cases hPrefill : input.isPrefill with
  | false =>
      refine ⟨bucket, hLe, ?_, ?_⟩
      · exact le_trans (Nat.mul_le_mul_right _ hBucketLe) (hInput.decode_fits hPrefill)
      · simp [determineBatchExecutionAndPadding, hPos, hInput.uniform, hBucket, bind,
          Except.bind]
  | true =>
      refine ⟨input.numReqs, le_rfl, ?_, ?_⟩
      · rw [hMul]
        exact hInput.prefill_fits hPrefill
      · simp [determineBatchExecutionAndPadding, hPos, hInput.uniform, bind, Except.bind]

/-- `determineAcrossDp` answers with `route` and no batch, or with `route` and a
batch in the shared token dimension that serves the rank. -/
def Settles (cfg : ShapeConfig) (status : DPStatus) (route : BatchRoute) (n : Nat)
    (input : RankInput) : Prop :=
  ∃ desc, determineBatchExecutionAndPadding cfg input.numReqs input.numTokens input.isPrefill
    (some status) none = .ok (some desc, route) ∧ desc.Serves n input

private theorem settles_unspecialized {status : DPStatus} (hTop : cfg.HasTop top)
    (hBusy : status.busy ≠ []) (hSpecialized : cfg.specializedMoeDecode = false)
    {input : RankInput} (hInput : input.Admissible cfg top) :
    Settles cfg status .unspecialized cfg.maxNumTokens input := by
  obtain ⟨padded, hLe, hFits, hEq⟩ := determine_eq hTop hInput status
  obtain ⟨desc, hDesc, hServes⟩ := BatchDescriptor.create_serves hLe hFits (fun _ => rfl)
  refine ⟨desc, ?_, hServes⟩
  simp [hEq, determineAcrossDp, hBusy, hSpecialized, hDesc, bind, Except.bind, pure, Except.pure]

private theorem settles_anyPrefill {status : DPStatus} (hTop : cfg.HasTop top)
    (hBusy : status.busy ≠ []) (hSpecialized : cfg.specializedMoeDecode = true)
    (hAny : true ∈ status.isPrefill) {input : RankInput} (hInput : input.Admissible cfg top) :
    Settles cfg status .anyPrefill cfg.maxNumTokens input := by
  obtain ⟨padded, -, -, hEq⟩ := determine_eq hTop hInput status
  have hMul : input.numReqs * (input.numTokens / input.numReqs) = input.numTokens :=
    Nat.mul_div_cancel' (Nat.dvd_of_mod_eq_zero hInput.uniform)
  unfold Settles
  rw [hEq]
  cases hOwn : input.isPrefill with
  | false =>
      obtain ⟨desc, hDesc, hServes⟩ := BatchDescriptor.create_serves hInput.reqs_le
        (hInput.decode_fits hOwn) (fun _ => rfl)
      refine ⟨desc, ?_, hServes⟩
      simp [determineAcrossDp, hBusy, hSpecialized, hAny, hTop.topBucket_eq, hDesc, bind,
        Except.bind, pure, Except.pure]
  | true =>
      obtain ⟨desc, hDesc, hServes⟩ := BatchDescriptor.create_serves (le_refl input.numReqs)
        (le_of_eq_of_le hMul (hInput.prefill_fits hOwn)) (fun _ => rfl)
      refine ⟨desc, ?_, hServes⟩
      simp [determineAcrossDp, hBusy, hSpecialized, hAny, hDesc, bind, Except.bind, pure,
        Except.pure]

/-- The query lengths of the busy ranks, in rank order. -/
def busyQueryLens (inputs : List RankInput) : List Nat :=
  (reportedStatus inputs).busy.map (reportedStatus inputs).queryLen

theorem mem_busyQueryLens {input : RankInput} (hMem : input ∈ inputs)
    (hIdle : input.isIdle = false) : input.numTokens / input.numReqs ∈ busyQueryLens inputs := by
  obtain ⟨i, hLt, rfl⟩ := List.getElem_of_mem hMem
  exact List.mem_map.mpr ⟨i, mem_busy.mpr ⟨hLt, hIdle⟩, queryLen_reportedStatus hLt⟩

private theorem busy_uniform (hInputs : ∀ input ∈ inputs, input.Admissible cfg top) :
    (reportedStatus inputs).busy.any (fun i =>
      (reportedStatus inputs).numTokens.getD i 0 % (reportedStatus inputs).numReqs.getD i 0 ≠ 0) =
        false := by
  simp only [List.any_eq_false, decide_eq_true_eq, ne_eq, not_not]
  intro i hBusy
  obtain ⟨hLt, -⟩ := mem_busy.mp hBusy
  simpa [reportedStatus, List.getD, hLt] using (hInputs _ (List.getElem_mem hLt)).uniform

private theorem settles_qlenAsym (hTop : cfg.HasTop top)
    (hInputs : ∀ input ∈ inputs, input.Admissible cfg top)
    (hBusy : (reportedStatus inputs).busy ≠ []) (hSpecialized : cfg.specializedMoeDecode = true)
    (hAny : true ∉ (reportedStatus inputs).isPrefill)
    (hAsym : (busyQueryLens inputs).foldl min ((busyQueryLens inputs).foldl max 0) ≠
      (busyQueryLens inputs).foldl max 0) {input : RankInput} (hMem : input ∈ inputs) :
    Settles cfg (reportedStatus inputs) .qlenAsym
      (top * (busyQueryLens inputs).foldl max 0) input := by
  have hInput := hInputs input hMem
  obtain ⟨padded, -, -, hEq⟩ := determine_eq hTop hInput (reportedStatus inputs)
  -- An idle rank stages one token a row, and some busy rank stages more than none.
  have hQuery : input.numTokens / input.numReqs ≤ (busyQueryLens inputs).foldl max 0 := by
    cases hIdle : input.isIdle with
    | false => exact (le_foldl_max _ 0).2 _ (mem_busyQueryLens hMem hIdle)
    | true =>
        obtain ⟨hReqs, hTokens⟩ := hInput.idle_minimal hIdle
        have hLe := (foldl_min_le (busyQueryLens inputs) ((busyQueryLens inputs).foldl max 0)).1
        rw [hReqs, hTokens]
        omega
  obtain ⟨desc, hDesc, hServes⟩ := BatchDescriptor.create_serves hInput.reqs_le
    (Nat.mul_le_mul_left top hQuery) (fun _ => rfl)
  refine ⟨desc, ?_, hServes⟩
  rw [hEq]
  simp only [determineAcrossDp, hBusy, hSpecialized, busy_uniform hInputs]
  simp only [busyQueryLens] at hAsym hDesc
  simp [hAny, hAsym, hTop.topBucket_eq, hDesc, bind, Except.bind, pure, Except.pure]

private theorem settles_agreed (hTop : cfg.HasTop top)
    (hInputs : ∀ input ∈ inputs, input.Admissible cfg top)
    (hBusy : (reportedStatus inputs).busy ≠ []) (hSpecialized : cfg.specializedMoeDecode = true)
    (hAny : true ∉ (reportedStatus inputs).isPrefill)
    (hAgree : (busyQueryLens inputs).foldl min ((busyQueryLens inputs).foldl max 0) =
      (busyQueryLens inputs).foldl max 0) :
    ∃ n, ∀ input ∈ inputs, Settles cfg (reportedStatus inputs) .agreed n input := by
  set reqs := (reportedStatus inputs).busy.map ((reportedStatus inputs).numReqs.getD · 0)
    with hReqsDef
  have hReqs : ∀ input ∈ inputs, input.isIdle = false → input.numReqs ≤ reqs.foldl max 0 := by
    intro input hMem hIdle
    obtain ⟨i, hLt, rfl⟩ := List.getElem_of_mem hMem
    exact (le_foldl_max _ 0).2 _
      (List.mem_map.mpr ⟨i, mem_busy.mpr ⟨hLt, hIdle⟩, numReqs_reportedStatus hLt⟩)
  have hMax : reqs.foldl max 0 ≤ top := by
    refine foldl_max_le (Nat.zero_le _) ?_
    intro value hMem
    obtain ⟨i, hBusyMem, rfl⟩ := List.mem_map.mp hMem
    obtain ⟨hLt, -⟩ := mem_busy.mp hBusyMem
    rw [numReqs_reportedStatus hLt]
    exact (hInputs _ (List.getElem_mem hLt)).reqs_le
  have hOne : 1 ≤ reqs.foldl max 0 := by
    obtain ⟨i, hBusyMem⟩ := List.exists_mem_of_ne_nil _ hBusy
    obtain ⟨hLt, hIdle⟩ := mem_busy.mp hBusyMem
    exact le_trans (hInputs _ (List.getElem_mem hLt)).reqs_pos
      (hReqs _ (List.getElem_mem hLt) hIdle)
  obtain ⟨bucket, hBucket, hLe, -⟩ := hTop.findBucket_ok hMax
  refine ⟨bucket * (busyQueryLens inputs).foldl max 0, fun input hMem => ?_⟩
  have hInput := hInputs input hMem
  obtain ⟨padded, -, -, hEq⟩ := determine_eq hTop hInput (reportedStatus inputs)
  have hOwn : input.numReqs ≤ bucket := by
    cases hIdle : input.isIdle with
    | false => exact le_trans (hReqs input hMem hIdle) hLe
    | true => rw [(hInput.idle_minimal hIdle).1]; omega
  have hQuery : input.isIdle = false →
      (busyQueryLens inputs).foldl max 0 = input.numTokens / input.numReqs := by
    intro hIdle
    have hListed := mem_busyQueryLens hMem hIdle
    refine le_antisymm ?_ ((le_foldl_max _ 0).2 _ hListed)
    rw [← hAgree]
    exact (foldl_min_le _ _).2 _ hListed
  obtain ⟨desc, hDesc, hServes⟩ := BatchDescriptor.create_serves hOwn le_rfl hQuery
  refine ⟨desc, ?_, hServes⟩
  rw [hEq]
  simp only [determineAcrossDp, hBusy, hSpecialized, busy_uniform hInputs, ← hReqsDef]
  simp only [busyQueryLens] at hAgree hDesc
  simp [hAny, hAgree, hBucket, hDesc, bind, Except.bind, pure, Except.pure]

/-- The decision on one step, whatever the rank: one route, and either no batch
at all or one token dimension that serves every rank. -/
theorem determine_agrees (hTop : cfg.HasTop top)
    (hInputs : ∀ input ∈ inputs, input.Admissible cfg top) :
    ∃ route, (∀ input ∈ inputs, determineBatchExecutionAndPadding cfg input.numReqs
        input.numTokens input.isPrefill (some (reportedStatus inputs)) none = .ok (none, route)) ∨
      ∃ n, ∀ input ∈ inputs, Settles cfg (reportedStatus inputs) route n input := by
  by_cases hBusy : (reportedStatus inputs).busy = []
  · refine ⟨.allIdle, .inl fun input hMem => ?_⟩
    obtain ⟨padded, -, -, hEq⟩ := determine_eq hTop (hInputs input hMem) (reportedStatus inputs)
    simp [hEq, determineAcrossDp, hBusy, pure, Except.pure]
  cases hSpecialized : cfg.specializedMoeDecode with
  | false =>
      exact ⟨.unspecialized, .inr ⟨_, fun input hMem =>
        settles_unspecialized hTop hBusy hSpecialized (hInputs input hMem)⟩⟩
  | true =>
      by_cases hAny : true ∈ (reportedStatus inputs).isPrefill
      · exact ⟨.anyPrefill, .inr ⟨_, fun input hMem =>
          settles_anyPrefill hTop hBusy hSpecialized hAny (hInputs input hMem)⟩⟩
      by_cases hAgree : (busyQueryLens inputs).foldl min ((busyQueryLens inputs).foldl max 0) =
          (busyQueryLens inputs).foldl max 0
      · exact ⟨.agreed, .inr (settles_agreed hTop hInputs hBusy hSpecialized hAny hAgree)⟩
      · exact ⟨.qlenAsym, .inr ⟨_, fun input hMem =>
          settles_qlenAsym hTop hInputs hBusy hSpecialized hAny hAgree hMem⟩⟩

end Decision

/-! ### Agreement of the group -/

theorem mapM_encode {inputs : List RankInput}
    (hFits : ∀ input ∈ inputs, input.FitsPacked) :
    inputs.mapM RankInput.encode = .ok (inputs.map RankInput.packed) := by
  induction inputs with
  | nil => rfl
  | cons input inputs ih =>
      simp only [List.mem_cons, forall_eq_or_imp] at hFits
      simp [List.mapM_cons, RankInput.encode_eq_packed hFits.1, ih hFits.2, bind, Except.bind,
        pure, Except.pure]

private theorem forall_of_forall₂ {α β : Type} {Post : β → Prop} {items : List α}
    {results : List β} (hPost : List.Forall₂ (fun _ result => Post result) items results) :
    ∀ result ∈ results, Post result := by
  induction hPost with
  | nil => simp
  | cons hHead _ ih => simpa using ⟨hHead, ih⟩

/-- The ranks of a step agree: each reads back what every rank reported, all take
one route, and either none of them has a batch or each runs one that holds its
requests in the token dimension they share. -/
theorem coordinateBatchAcrossDp_agrees {cfg : ShapeConfig} {top : Nat} {inputs : List RankInput}
    (hTop : cfg.HasTop top) (hInputs : ∀ input ∈ inputs, input.Admissible cfg top)
    (hReqs : ∀ input ∈ inputs, input.numReqs ≤ reqMaskRaw) :
    ∃ results route, coordinateBatchAcrossDp cfg inputs = .ok results ∧
      results.length = inputs.length ∧
      (∀ result ∈ results, result.2 = (route, reportedStatus inputs)) ∧
      ((∀ result ∈ results, result.1 = none) ∨
        ∃ n, List.Forall₂ (fun input result => ∃ desc : BatchDescriptor,
          result.1 = some desc ∧ desc.Serves n input) inputs results) := by
  have hFits : ∀ input ∈ inputs, input.FitsPacked := fun input hMem =>
    ⟨(hInputs input hMem).tokens_le, hReqs input hMem⟩
  have hCoordinate : coordinateBatchAcrossDp cfg inputs =
      inputs.mapM (RankInput.settle cfg (reportedStatus inputs)) := by
    simp only [coordinateBatchAcrossDp, mapM_encode hFits, bind, Except.bind, decode_runAr hFits]
  rw [hCoordinate]
  obtain ⟨route, hNone | ⟨n, hSome⟩⟩ := determine_agrees hTop hInputs
  · obtain ⟨results, hEq, hPost⟩ := mapM_ok (RankInput.settle cfg (reportedStatus inputs))
      (fun _ result => result = (none, route, reportedStatus inputs)) inputs
      (fun input hMem => ⟨_, by rw [RankInput.settle, hNone input hMem]; rfl, rfl⟩)
    have hResults := forall_of_forall₂ hPost
    refine ⟨results, route, hEq, hPost.length_eq.symm, ?_, .inl ?_⟩ <;> intro result hMem <;>
      rw [hResults result hMem]
  · obtain ⟨results, hEq, hPost⟩ := mapM_ok (RankInput.settle cfg (reportedStatus inputs))
      (fun input result => result.2 = (route, reportedStatus inputs) ∧
        ∃ desc : BatchDescriptor, result.1 = some desc ∧ desc.Serves n input) inputs
      (fun input hMem => by
        obtain ⟨desc, hDesc, hServes⟩ := hSome input hMem
        exact ⟨_, by rw [RankInput.settle, hDesc]; rfl, rfl, desc, rfl, hServes⟩)
    exact ⟨results, route, hEq, hPost.length_eq.symm,
      forall_of_forall₂ (hPost.imp fun _ _ hBoth => hBoth.1),
      .inr ⟨n, hPost.imp fun _ _ hBoth => hBoth.2⟩⟩

/-- A decoding rank, a prefilling rank and an idle one on one step. -/
theorem coordinateBatchAcrossDp_agrees_mixed :
    ∃ results route, coordinateBatchAcrossDp ⟨[1, 4], 256, true⟩
        [⟨3, 6, false, false⟩, ⟨1, 200, true, false⟩, ⟨1, 1, false, true⟩] = .ok results ∧
      results.length = 3 ∧ (∀ result ∈ results, result.2 = (route, reportedStatus
        [⟨3, 6, false, false⟩, ⟨1, 200, true, false⟩, ⟨1, 1, false, true⟩])) ∧
      ((∀ result ∈ results, result.1 = none) ∨
        ∃ n, List.Forall₂ (fun input result => ∃ desc : BatchDescriptor,
          result.1 = some desc ∧ desc.Serves n input)
          [⟨3, 6, false, false⟩, ⟨1, 200, true, false⟩, ⟨1, 1, false, true⟩] results) := by
  have hTop : ShapeConfig.HasTop ⟨[1, 4], 256, true⟩ 4 := ⟨rfl, by decide⟩
  refine coordinateBatchAcrossDp_agrees hTop ?_ (by decide)
  simp only [List.mem_cons, List.not_mem_nil, or_false, forall_eq_or_imp, forall_eq]
  refine ⟨?_, ?_, ?_⟩ <;> constructor <;> decide

/-- Two ranks with a batch of 8192 satisfy every bound but the packed one. -/
theorem coordinateBatchAcrossDp_reqs_limit :
    ShapeConfig.HasTop ⟨[8192], 8192, true⟩ 8192 ∧
      (∀ input ∈ List.replicate 2 (⟨8192, 8192, false, false⟩ : RankInput),
        input.Admissible ⟨[8192], 8192, true⟩ 8192) ∧
      coordinateBatchAcrossDp ⟨[8192], 8192, true⟩
        (List.replicate 2 ⟨8192, 8192, false, false⟩) = .error (.reqsExceedPackedLimit 8192) := by
  refine ⟨⟨rfl, by decide⟩, ?_, rfl⟩
  intro input hMem
  rw [List.eq_of_mem_replicate hMem]
  constructor <;> decide

end VllmRbln.DataParallel
