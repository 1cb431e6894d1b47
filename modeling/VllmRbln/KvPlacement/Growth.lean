import VllmRbln.Common.Checked
import VllmRbln.Common.Dict
import VllmRbln.Common.NatPolynomial
import Mathlib.Algebra.Polynomial.Eval.Defs
import Mathlib.Algebra.BigOperators.Group.List.Lemmas

/-! Bytes of the KV inputs on each chiplet (`v1/worker/kv_placement.py`): placement
dimensions, what they cost at a block count, and the growth per block read off them. -/
namespace VllmRbln.KvPlacement

open Checked Polynomial

/-- `(node_id, chiplet_id)`. -/
abbrev ChipUnit := Nat × Nat

/-- What a `PlacementDim` can hold. `unrecognised` is any other Python value. -/
inductive PlacementDim
  | bool (value : Bool)
  | int (value : Int)
  | symbol
  | prod (operands : List PlacementDim)
  | sum (operands : List PlacementDim)
  | unrecognised

structure Shard where
  nodeId : Nat
  chipletId : Nat
  sliceShape : List PlacementDim

def Shard.unit (shard : Shard) : ChipUnit := (shard.nodeId, shard.chipletId)

structure PhysicalPlacement where
  shape : List PlacementDim
  dtype : List Char
  shards : List Shard

structure InputSpec where
  name : List Char
  shape : List Int
  physicalPlacement : PhysicalPlacement

/-- The errors the module raises, with what their messages report. -/
inductive Refusal
  | boolDim (value : Bool)
  | unrecognisedDim
  | itemSize (dtype : List Char)
  | noDynamicDim (name : List Char)
  | shapeIndex (index : Nat)
  | hintBlocks (hintBlocks : Int)
  | extent (name : List Char) (extent hintBlocks : Int)
  | noGrowth
  | notLinear (offsets atHint expected : List (ChipUnit × Int))
  | gpuMemoryUtilization
  | missingUnits (missing : List ChipUnit)
  | unitKey (unit : ChipUnit)
  deriving DecidableEq

mutual

/-- `eval_placement_dim`: every symbol is bound to `numBlocks`. -/
def evalPlacementDim (numBlocks : Int) : PlacementDim → Except Refusal Int
  | .bool value => .error (.boolDim value)
  | .int value => .ok value
  | .symbol => .ok numBlocks
  | .prod operands => (evalPlacementDims numBlocks operands).map List.prod
  | .sum operands => (evalPlacementDims numBlocks operands).map List.sum
  | .unrecognised => .error .unrecognisedDim

def evalPlacementDims (numBlocks : Int) : List PlacementDim → Except Refusal (List Int)
  | [] => .ok []
  | dim :: dims =>
      match evalPlacementDim numBlocks dim with
      | .error refusal => .error refusal
      | .ok value => (evalPlacementDims numBlocks dims).map (value :: ·)

end

/-- The digits that end a name (`_TRAILING_BITS_RE`). -/
def trailingBits (name : List Char) : List Char :=
  (name.reverse.takeWhile Char.isDigit).reverse

/-- `str.strip().lower()`. -/
def normalized (dtype : List Char) : List Char :=
  ((dtype.dropWhile Char.isWhitespace).reverse.dropWhile Char.isWhitespace).reverse.map Char.toLower

/-- `int` of a string of digits. -/
def digitsValue (digits : List Char) : Nat :=
  digits.foldl (fun value digit => 10 * value + (digit.toNat - '0'.toNat)) 0

def placementItemsize (dtype : List Char) : Except Refusal Nat :=
  let name := normalized dtype
  if name = ['b', 'o', 'o', 'l'] then .ok 1
  else if trailingBits name = [] then .error (.itemSize dtype)
  else
    let bits := digitsValue (trailingBits name)
    if bits = 0 then .error (.itemSize dtype) else .ok ((bits + 7) / 8)

/-- `isinstance(dim, int)`, which a `bool` is too. -/
def PlacementDim.isInt : PlacementDim → Bool
  | .bool _ | .int _ => true
  | .symbol | .prod _ | .sum _ | .unrecognised => false

/-- The compiled extent of the first dynamic dim. -/
def dynamicExtent (spec : InputSpec) : Except Refusal Int :=
  match spec.physicalPlacement.shape.findIdx? fun dim => !dim.isInt with
  | none => .error (.noDynamicDim spec.name)
  | some index =>
      match spec.shape[index]? with
      | none => .error (.shapeIndex index)
      | some extent => .ok extent

/-- The bytes of one shard. -/
def shardBytes (symbol : Int) (itemsize : Nat) (shard : Shard) : Except Refusal (ChipUnit × Int) :=
  (evalPlacementDims symbol shard.sliceShape).map fun dims =>
    (shard.unit, dims.prod * itemsize)

/-- What one input asks for, in allocation order. -/
def specRequests (numBlocks hintBlocks : Int) (spec : InputSpec) :
    Except Refusal (List (ChipUnit × Int)) := do
  let extent ← dynamicExtent spec
  if extent % hintBlocks ≠ 0 then .error (.extent spec.name extent hintBlocks)
  else
    let itemsize ← placementItemsize spec.physicalPlacement.dtype
    spec.physicalPlacement.shards.mapM (shardBytes (extent / hintBlocks * numBlocks) itemsize)

/-- `kv_requests_per_unit`: the requests of each unit, in allocation order. -/
def kvRequestsPerUnit (specs : List InputSpec) (numBlocks hintBlocks : Int) :
    Except Refusal (List (ChipUnit × List Int)) :=
  if hintBlocks ≤ 0 then .error (.hintBlocks hintBlocks)
  else (specs.mapM (specRequests numBlocks hintBlocks)).map fun rows => Dict.group rows.flatten

/-- `kv_bytes_per_unit`. -/
def kvBytesPerUnit (specs : List InputSpec) (numBlocks hintBlocks : Int) :
    Except Refusal (List (ChipUnit × Int)) :=
  (kvRequestsPerUnit specs numBlocks hintBlocks).map (Dict.mapValues fun _ shards => shards.sum)

/-- Per-unit cost of the KV cache. -/
structure KvGrowth where
  perBlock : List (ChipUnit × Int)
  hintBlocks : Int
  numInputs : Nat
  specs : List InputSpec

/-- `kv_growth`: the growth per block, checked at the hint to be linear through the origin. -/
def kvGrowth (specs : List InputSpec) (hintBlocks : Int) : Except Refusal KvGrowth := do
  let atZero ← kvBytesPerUnit specs 0 hintBlocks
  let atOne ← kvBytesPerUnit specs 1 hintBlocks
  let perBlock := Dict.filterMapValues (fun unit total =>
    let slope := total - (atZero.lookup unit).getD 0
    if 0 < slope then some slope else none) atOne
  if perBlock = [] then .error .noGrowth
  else
    let offsets := Dict.filterMapValues (fun _ bytes => if bytes ≠ 0 then some bytes else none) atZero
    let hinted ← kvBytesPerUnit specs hintBlocks hintBlocks
    let atHint := Dict.filterMapValues (fun _ bytes => if bytes ≠ 0 then some bytes else none) hinted
    let expected := Dict.mapValues (fun _ slope => hintBlocks * slope) perBlock
    if offsets ≠ [] ∨ ¬ Dict.Same atHint expected then .error (.notLinear offsets atHint expected)
    else .ok ⟨perBlock, hintBlocks, specs.length, specs⟩

/-! ### Non-negative placements are polynomials in the block count -/

mutual

def PlacementDim.nonNeg : PlacementDim → Bool
  | .int value => 0 ≤ value
  | .prod operands | .sum operands => allNonNeg operands
  | .bool _ | .symbol | .unrecognised => true

def allNonNeg : List PlacementDim → Bool
  | [] => true
  | dim :: dims => dim.nonNeg && allNonNeg dims

end

mutual

noncomputable def PlacementDim.poly : PlacementDim → ℕ[X]
  | .int value => C value.toNat
  | .symbol => X
  | .prod operands => (polys operands).prod
  | .sum operands => (polys operands).sum
  | .bool _ | .unrecognised => 0

noncomputable def polys : List PlacementDim → List ℕ[X]
  | [] => []
  | dim :: dims => dim.poly :: polys dims

end

theorem eval_list_sum (terms : List ℕ[X]) (n : ℕ) :
    terms.sum.eval n = (terms.map (eval n)).sum := by
  induction terms with
  | nil => exact eval_zero
  | cons term terms ih => rw [List.sum_cons, eval_add, ih, List.map_cons, List.sum_cons]

theorem eval_list_prod_cast (terms : List ℕ[X]) (n : ℕ) :
    (terms.map fun p => ((p.eval n : ℕ) : ℤ)).prod = ((terms.prod.eval n : ℕ) : ℤ) := by
  induction terms with
  | nil => simp
  | cons term terms ih =>
      rw [List.map_cons, List.prod_cons, List.prod_cons, eval_mul, Nat.cast_mul, ih]

theorem eval_list_sum_cast (terms : List ℕ[X]) (n : ℕ) :
    (terms.map fun p => ((p.eval n : ℕ) : ℤ)).sum = ((terms.sum.eval n : ℕ) : ℤ) := by
  induction terms with
  | nil => simp
  | cons term terms ih =>
      rw [List.map_cons, List.sum_cons, List.sum_cons, eval_add, Nat.cast_add, ih]

mutual

/-- A dim that evaluates somewhere evaluates to its polynomial everywhere. -/
theorem evalPlacementDim_eq {a : ℤ} (n : ℕ) : ∀ {dim : PlacementDim} {value : ℤ},
    dim.nonNeg = true → evalPlacementDim a dim = .ok value →
      evalPlacementDim n dim = .ok ((dim.poly.eval n : ℕ) : ℤ)
  | .bool _, _, _, hOk => by cases hOk
  | .int value, _, hNonNeg, _ => by
      have hValue : 0 ≤ value := by simpa [PlacementDim.nonNeg] using hNonNeg
      simp only [evalPlacementDim, PlacementDim.poly, eval_C, Int.toNat_of_nonneg hValue]
  | .symbol, _, _, _ => by simp only [evalPlacementDim, PlacementDim.poly, eval_X]
  | .prod operands, _, hNonNeg, hOk => by
      simp only [PlacementDim.nonNeg] at hNonNeg
      simp only [evalPlacementDim] at hOk ⊢
      cases hOperands : evalPlacementDims a operands with
      | error refusal => simp [hOperands, Except.map] at hOk
      | ok values =>
          rw [evalPlacementDims_eq n hNonNeg hOperands, PlacementDim.poly, ← eval_list_prod_cast]
          rfl
  | .sum operands, _, hNonNeg, hOk => by
      simp only [PlacementDim.nonNeg] at hNonNeg
      simp only [evalPlacementDim] at hOk ⊢
      cases hOperands : evalPlacementDims a operands with
      | error refusal => simp [hOperands, Except.map] at hOk
      | ok values =>
          rw [evalPlacementDims_eq n hNonNeg hOperands, PlacementDim.poly, ← eval_list_sum_cast]
          rfl
  | .unrecognised, _, _, hOk => by cases hOk

theorem evalPlacementDims_eq {a : ℤ} (n : ℕ) : ∀ {dims : List PlacementDim} {values : List ℤ},
    allNonNeg dims = true → evalPlacementDims a dims = .ok values →
      evalPlacementDims n dims = .ok ((polys dims).map fun p => ((p.eval n : ℕ) : ℤ))
  | [], _, _, _ => rfl
  | dim :: dims, _, hNonNeg, hOk => by
      simp only [allNonNeg, Bool.and_eq_true] at hNonNeg
      simp only [evalPlacementDims] at hOk
      cases hDim : evalPlacementDim a dim with
      | error refusal => simp [hDim] at hOk
      | ok value =>
          cases hDims : evalPlacementDims a dims with
          | error refusal => simp [hDim, hDims, Except.map] at hOk
          | ok rest =>
              simp only [evalPlacementDims, evalPlacementDim_eq n hNonNeg.1 hDim,
                evalPlacementDims_eq n hNonNeg.2 hDims, polys, List.map_cons]
              rfl

end

def InputSpec.nonNeg (spec : InputSpec) : Bool :=
  (spec.shape.all fun extent => 0 ≤ extent) && allNonNeg spec.physicalPlacement.shape &&
    spec.physicalPlacement.shards.all fun shard => allNonNeg shard.sliceShape

/-- The bytes of a shard when each block of the cache has `scale` kernel blocks. -/
noncomputable def Shard.poly (scale itemsize : ℕ) (shard : Shard) : ℕ[X] :=
  (polys shard.sliceShape).prod.comp (C scale * X) * C itemsize

theorem shardBytes_eq {scale itemsize : ℕ} {a : ℤ} {shard : Shard} {row : ChipUnit × ℤ}
    (hNonNeg : allNonNeg shard.sliceShape = true) (hOk : shardBytes a itemsize shard = .ok row)
    (n : ℕ) : shardBytes (scale * n) itemsize shard =
      .ok (shard.unit, (((shard.poly scale itemsize).eval n : ℕ) : ℤ)) := by
  have hSymbol : ((scale : ℤ) * n) = ((scale * n : ℕ) : ℤ) := (Nat.cast_mul scale n).symm
  simp only [shardBytes] at hOk
  cases hDims : evalPlacementDims a shard.sliceShape with
  | error refusal => simp [hDims, Except.map] at hOk
  | ok values =>
      rw [shardBytes, hSymbol, evalPlacementDims_eq (scale * n) hNonNeg hDims]
      simp only [Except.map, Shard.poly, eval_mul, eval_comp, eval_C, eval_X, Nat.cast_mul,
        ← eval_list_prod_cast]

/-- The rows one input adds, as polynomials. -/
noncomputable def InputSpec.polys (hintBlocks : ℤ) (spec : InputSpec) : List (ChipUnit × ℕ[X]) :=
  match dynamicExtent spec, placementItemsize spec.physicalPlacement.dtype with
  | .ok extent, .ok itemsize => spec.physicalPlacement.shards.map fun shard =>
      (shard.unit, shard.poly (extent / hintBlocks).toNat itemsize)
  | _, _ => []

theorem dynamicExtent_nonneg {spec : InputSpec} {extent : ℤ} (hNonNeg : spec.nonNeg = true)
    (hExtent : dynamicExtent spec = .ok extent) : 0 ≤ extent := by
  simp only [InputSpec.nonNeg, Bool.and_eq_true, List.all_eq_true, decide_eq_true_eq] at hNonNeg
  unfold dynamicExtent at hExtent
  split at hExtent
  · cases hExtent
  · split at hExtent
    · cases hExtent
    · rename_i hGet
      injection hExtent with hSame
      exact hSame ▸ hNonNeg.1.1 _ (List.mem_of_getElem? hGet)

theorem specRequests_eq {hintBlocks a : ℤ} {spec : InputSpec} {rows : List (ChipUnit × ℤ)}
    (hNonNeg : spec.nonNeg = true) (hHint : 0 < hintBlocks)
    (hOk : specRequests a hintBlocks spec = .ok rows) (n : ℕ) :
    specRequests n hintBlocks spec =
      .ok ((spec.polys hintBlocks).map fun row => (row.1, ((row.2.eval n : ℕ) : ℤ))) := by
  unfold specRequests at hOk ⊢
  cases hExtent : dynamicExtent spec with
  | error refusal => simp [hExtent, bind, Except.bind] at hOk
  | ok extent =>
      simp only [hExtent, bind, Except.bind] at hOk ⊢
      split at hOk
      · cases hOk
      · rename_i hDivides
        cases hItemsize : placementItemsize spec.physicalPlacement.dtype with
        | error refusal => simp [hItemsize] at hOk
        | ok itemsize =>
            simp only [hItemsize] at hOk ⊢
            have hScale : extent / hintBlocks = ((extent / hintBlocks).toNat : ℤ) :=
              (Int.toNat_of_nonneg
                (Int.ediv_nonneg (dynamicExtent_nonneg hNonNeg hExtent) hHint.le)).symm
            simp only [InputSpec.nonNeg, Bool.and_eq_true, List.all_eq_true] at hNonNeg
            rw [if_neg hDivides, InputSpec.polys, hExtent, hItemsize, List.map_map]
            apply mapM_eq_map
            intro shard hShard
            obtain ⟨row, -, hRow⟩ := mem_of_mapM hOk hShard
            rw [hScale]
            exact shardBytes_eq (hNonNeg.2 shard hShard) hRow n

/-! ### Bytes of a unit -/

/-- The shards of a unit, in allocation order. -/
noncomputable def unitPolys (specs : List InputSpec) (hintBlocks : ℤ) (unit : ChipUnit) :
    List ℕ[X] :=
  Dict.valuesOf (specs.map (InputSpec.polys hintBlocks)).flatten unit

noncomputable def unitPoly (specs : List InputSpec) (hintBlocks : ℤ) (unit : ChipUnit) : ℕ[X] :=
  (unitPolys specs hintBlocks unit).sum

section Units

variable {specs : List InputSpec} {hintBlocks a : ℤ}

theorem kvRequestsPerUnit_hint {requests : List (ChipUnit × List ℤ)}
    (hOk : kvRequestsPerUnit specs a hintBlocks = .ok requests) : 0 < hintBlocks := by
  unfold kvRequestsPerUnit at hOk
  split at hOk
  · cases hOk
  · omega

theorem kvRequestsPerUnit_nodup {requests : List (ChipUnit × List ℤ)}
    (hOk : kvRequestsPerUnit specs a hintBlocks = .ok requests) :
    (Dict.keys requests).Nodup := by
  unfold kvRequestsPerUnit at hOk
  split at hOk
  · cases hOk
  · cases hRows : specs.mapM (specRequests a hintBlocks) with
    | error refusal => simp [hRows, Except.map] at hOk
    | ok rows =>
        simp only [hRows, Except.map, Except.ok.injEq] at hOk
        rw [← hOk]
        exact Dict.keys_group_nodup _

/-- Placements that evaluate at one count evaluate at every count, each unit to the
requests its polynomials give. -/
theorem kvRequestsPerUnit_eq (hNonNeg : ∀ spec ∈ specs, spec.nonNeg = true)
    {requests : List (ChipUnit × List ℤ)}
    (hOk : kvRequestsPerUnit specs a hintBlocks = .ok requests) (n : ℕ) :
    ∃ later, kvRequestsPerUnit specs n hintBlocks = .ok later ∧
      ∀ unit, later.lookup unit =
        if unitPolys specs hintBlocks unit = [] then none
        else some ((unitPolys specs hintBlocks unit).map fun p => ((p.eval n : ℕ) : ℤ)) := by
  have hHint := kvRequestsPerUnit_hint hOk
  unfold kvRequestsPerUnit at hOk ⊢
  rw [if_neg (by omega)] at hOk ⊢
  cases hRows : specs.mapM (specRequests a hintBlocks) with
  | error refusal => simp [hRows, Except.map] at hOk
  | ok rows =>
      have hLater : specs.mapM (specRequests n hintBlocks) = .ok (specs.map fun spec =>
          (spec.polys hintBlocks).map fun row => (row.1, ((row.2.eval n : ℕ) : ℤ))) := by
        apply mapM_eq_map
        intro spec hMem
        obtain ⟨own, -, hOwn⟩ := mem_of_mapM hRows hMem
        exact specRequests_eq (hNonNeg spec hMem) hHint hOwn n
      refine ⟨_, by rw [hLater]; rfl, fun unit => ?_⟩
      have hFlat : (specs.map fun spec => (spec.polys hintBlocks).map fun row =>
          (row.1, ((row.2.eval n : ℕ) : ℤ))).flatten =
          (specs.map (InputSpec.polys hintBlocks)).flatten.map fun row =>
            (row.1, ((row.2.eval n : ℕ) : ℤ)) := by
        rw [List.map_flatten, List.map_map]
        rfl
      show (Dict.group (List.flatten _)).lookup unit = _
      rw [hFlat, Dict.lookup_group, Dict.valuesOf_map fun p : ℕ[X] => ((p.eval n : ℕ) : ℤ)]
      have hUnit : Dict.valuesOf (specs.map (InputSpec.polys hintBlocks)).flatten unit =
          unitPolys specs hintBlocks unit := rfl
      rw [hUnit]
      by_cases hEmpty : unitPolys specs hintBlocks unit = []
      · rw [if_pos hEmpty, if_pos (List.map_eq_nil_iff.2 hEmpty)]
      · rw [if_neg hEmpty, if_neg (mt List.map_eq_nil_iff.1 hEmpty)]

theorem kvBytesPerUnit_nodup {bytes : List (ChipUnit × ℤ)}
    (hOk : kvBytesPerUnit specs a hintBlocks = .ok bytes) : (Dict.keys bytes).Nodup := by
  unfold kvBytesPerUnit at hOk
  cases hRequests : kvRequestsPerUnit specs a hintBlocks with
  | error refusal => simp [hRequests, Except.map] at hOk
  | ok requests =>
      simp only [hRequests, Except.map, Except.ok.injEq] at hOk
      rw [← hOk, Dict.keys_mapValues]
      exact kvRequestsPerUnit_nodup hRequests

theorem kvBytesPerUnit_eq (hNonNeg : ∀ spec ∈ specs, spec.nonNeg = true)
    {bytes : List (ChipUnit × ℤ)} (hOk : kvBytesPerUnit specs a hintBlocks = .ok bytes) (n : ℕ) :
    ∃ later, kvBytesPerUnit specs n hintBlocks = .ok later ∧
      ∀ unit, later.lookup unit =
        if unitPolys specs hintBlocks unit = [] then none
        else some (((unitPoly specs hintBlocks unit).eval n : ℕ) : ℤ) := by
  unfold kvBytesPerUnit at hOk ⊢
  cases hRequests : kvRequestsPerUnit specs a hintBlocks with
  | error refusal => simp [hRequests, Except.map] at hOk
  | ok requests =>
      obtain ⟨later, hLater, hLookup⟩ := kvRequestsPerUnit_eq hNonNeg hRequests n
      refine ⟨_, by rw [hLater]; rfl, fun unit => ?_⟩
      rw [Dict.lookup_mapValues, hLookup]
      split
      · rfl
      · rw [Option.map_some, eval_list_sum_cast, unitPoly]

/-- The bytes of a unit at a count that evaluates. -/
theorem kvBytesPerUnit_lookup (hNonNeg : ∀ spec ∈ specs, spec.nonNeg = true) {n : ℕ}
    {bytes : List (ChipUnit × ℤ)} (hOk : kvBytesPerUnit specs n hintBlocks = .ok bytes)
    (unit : ChipUnit) : bytes.lookup unit =
      if unitPolys specs hintBlocks unit = [] then none
      else some (((unitPoly specs hintBlocks unit).eval n : ℕ) : ℤ) := by
  obtain ⟨same, hSame, hLookup⟩ := kvBytesPerUnit_eq hNonNeg hOk n
  rw [hOk, Except.ok.injEq] at hSame
  rw [hSame]
  exact hLookup unit

/-- What `kv_growth` checks before it reports a growth. -/
theorem kvGrowth_cases {growth : KvGrowth} (hOk : kvGrowth specs hintBlocks = .ok growth) :
    ∃ atZero atOne hinted, kvBytesPerUnit specs 0 hintBlocks = .ok atZero ∧
      kvBytesPerUnit specs 1 hintBlocks = .ok atOne ∧
      kvBytesPerUnit specs hintBlocks hintBlocks = .ok hinted ∧
      growth.specs = specs ∧ growth.hintBlocks = hintBlocks ∧ growth.perBlock ≠ [] ∧
      (Dict.keys growth.perBlock).Nodup ∧
      (∀ unit, growth.perBlock.lookup unit = (atOne.lookup unit).bind fun total =>
        if 0 < total - (atZero.lookup unit).getD 0 then
          some (total - (atZero.lookup unit).getD 0) else none) ∧
      (∀ unit, (atZero.lookup unit).getD 0 = 0) ∧
      ∀ unit, ((hinted.lookup unit).bind fun bytes => if bytes ≠ 0 then some bytes else none) =
        (growth.perBlock.lookup unit).map fun slope => hintBlocks * slope := by
  unfold kvGrowth at hOk
  cases hZero : kvBytesPerUnit specs 0 hintBlocks with
  | error refusal => simp [hZero, bind, Except.bind] at hOk
  | ok atZero =>
      cases hOne : kvBytesPerUnit specs 1 hintBlocks with
      | error refusal => simp [hZero, hOne, bind, Except.bind] at hOk
      | ok atOne =>
          simp only [hZero, hOne, bind, Except.bind] at hOk
          split at hOk
          · cases hOk
          · rename_i hGrows
            cases hHinted : kvBytesPerUnit specs hintBlocks hintBlocks with
            | error refusal => simp [hHinted] at hOk
            | ok hinted =>
                simp only [hHinted] at hOk
                split at hOk
                · cases hOk
                · rename_i hLinear
                  rw [not_or, not_not, not_not] at hLinear
                  obtain ⟨hOffsets, hSame⟩ := hLinear
                  injection hOk with hGrowth
                  subst hGrowth
                  have hOneNodup := kvBytesPerUnit_nodup hOne
                  refine ⟨atZero, atOne, hinted, rfl, rfl, rfl, rfl, rfl, hGrows, ?_,
                    fun unit => ?_, fun unit => ?_, fun unit => ?_⟩
                  · dsimp only
                    exact (Dict.keys_filterMapValues _ atOne).nodup hOneNodup
                  · dsimp only
                    rw [Dict.lookup_filterMapValues _ hOneNodup]
                  · have hNone := Dict.eq_nil_iff.1 hOffsets unit
                    rw [Dict.lookup_filterMapValues _ (kvBytesPerUnit_nodup hZero)] at hNone
                    cases hBytes : atZero.lookup unit with
                    | none => rfl
                    | some bytes => simpa [hBytes] using hNone
                  · have hUnit := Dict.same_iff.1 hSame unit
                    rw [Dict.lookup_filterMapValues _ (kvBytesPerUnit_nodup hHinted),
                      Dict.lookup_mapValues] at hUnit
                    exact hUnit

/-- A unit's bytes lie on the line through the origin with the reported slope. -/
theorem unitPoly_eval_of_growth (hNonNeg : ∀ spec ∈ specs, spec.nonNeg = true) {h : ℕ}
    (hTwo : 2 ≤ h) {growth : KvGrowth} (hOk : kvGrowth specs h = .ok growth) (unit : ChipUnit)
    (n : ℕ) : (((unitPoly specs h unit).eval n : ℕ) : ℤ) = n * (growth.perBlock.lookup unit).getD 0 ∧
      ((growth.perBlock.lookup unit).isSome = true → unitPolys specs h unit ≠ []) := by
  obtain ⟨atZero, atOne, hinted, hZero, hOne, hHinted, -, -, -, -, hPerBlock, hOrigin, hChord⟩ :=
    kvGrowth_cases hOk
  have hZeroUnit := kvBytesPerUnit_lookup (n := 0) hNonNeg hZero unit
  have hOneUnit := kvBytesPerUnit_lookup (n := 1) hNonNeg hOne unit
  have hHintedUnit := kvBytesPerUnit_lookup hNonNeg hHinted unit
  have hOriginUnit := hOrigin unit
  have hChordUnit := hChord unit
  rw [hPerBlock unit] at hChordUnit ⊢
  rw [hOriginUnit, hOneUnit] at hChordUnit ⊢
  rw [hHintedUnit] at hChordUnit
  by_cases hEmpty : unitPolys specs h unit = []
  · have hPoly : unitPoly specs h unit = 0 := by rw [unitPoly, hEmpty, List.sum_nil]
    simp [hEmpty, hPoly]
  · rw [hZeroUnit, if_neg hEmpty, Option.getD_some, Nat.cast_eq_zero] at hOriginUnit
    simp only [hEmpty, if_false, Option.bind_some, sub_zero] at hChordUnit ⊢
    refine ⟨?_, fun _ => hEmpty⟩
    by_cases hSlope : (unitPoly specs h unit).eval 1 = 0
    · have hFlat := NatPolynomial.eval_eq_zero_of_eval_one hSlope n
      simp [hSlope, hFlat]
    · have hPos : (0 : ℤ) < ((unitPoly specs h unit).eval 1 : ℕ) := by omega
      rw [if_pos hPos, Option.map_some] at hChordUnit
      rw [if_pos hPos, Option.getD_some]
      split at hChordUnit
      · have hMeets : (unitPoly specs h unit).eval h = h * (unitPoly specs h unit).eval 1 := by
          rw [Option.some.injEq] at hChordUnit
          exact_mod_cast hChordUnit
        exact_mod_cast NatPolynomial.eval_eq_mul_of_chord hOriginUnit hTwo hMeets n
      · cases hChordUnit

theorem perBlock_pos {growth : KvGrowth} (hOk : kvGrowth specs hintBlocks = .ok growth)
    {unit : ChipUnit} {perBlock : ℤ} (hUnit : growth.perBlock.lookup unit = some perBlock) :
    0 < perBlock := by
  obtain ⟨atZero, atOne, -, -, -, -, -, -, -, -, hPerBlock, -⟩ := kvGrowth_cases hOk
  rw [hPerBlock] at hUnit
  obtain ⟨total, -, hTotal⟩ := Option.bind_eq_some_iff.1 hUnit
  split at hTotal
  · rename_i hPos
    rw [← Option.some.inj hTotal]
    exact hPos
  · cases hTotal

/-- Bytes on a line through the origin that rises somewhere pass the check. -/
theorem kvGrowth_of_linear (hNonNeg : ∀ spec ∈ specs, spec.nonNeg = true) {h : ℕ}
    (hTwo : 2 ≤ h) {slope : ChipUnit → ℤ} (hGrows : ∃ unit, 0 < slope unit)
    (hLinear : ∀ n : ℕ, ∃ bytes, kvBytesPerUnit specs n h = .ok bytes ∧
      ∀ unit, (bytes.lookup unit).getD 0 = n * slope unit) :
    ∃ growth, kvGrowth specs h = .ok growth ∧
      ∀ unit, (growth.perBlock.lookup unit).getD 0 = slope unit := by
  obtain ⟨atZero, hZero, hZeroUnit⟩ := hLinear 0
  obtain ⟨atOne, hOne, hOneUnit⟩ := hLinear 1
  obtain ⟨hinted, hHinted, hHintedUnit⟩ := hLinear h
  rw [Nat.cast_zero] at hZero
  rw [Nat.cast_one] at hOne
  simp only [Nat.cast_zero, zero_mul] at hZeroUnit
  simp only [Nat.cast_one, one_mul] at hOneUnit
  have hSlope : ∀ unit, 0 ≤ slope unit := by
    intro unit
    rw [← hOneUnit, kvBytesPerUnit_lookup (n := 1) hNonNeg hOne]
    split
    · exact le_rfl
    · exact Int.natCast_nonneg _
  let perBlock := Dict.filterMapValues (fun unit total =>
    if 0 < total - (atZero.lookup unit).getD 0 then
      some (total - (atZero.lookup unit).getD 0) else none) atOne
  have hPerBlock : ∀ unit, perBlock.lookup unit =
      if 0 < slope unit then some (slope unit) else none := by
    intro unit
    rw [Dict.lookup_filterMapValues _ (kvBytesPerUnit_nodup hOne)]
    have hUnit := hOneUnit unit
    cases hTotal : atOne.lookup unit with
    | none =>
        rw [hTotal, Option.getD_none] at hUnit
        rw [← hUnit, if_neg (lt_irrefl 0)]
        rfl
    | some total =>
        rw [hTotal, Option.getD_some] at hUnit
        rw [Option.bind_some, hZeroUnit, sub_zero, hUnit]
  have hRises : perBlock ≠ [] := by
    obtain ⟨unit, hPos⟩ := hGrows
    intro hNil
    have hNone := Dict.eq_nil_iff.1 hNil unit
    rw [hPerBlock, if_pos hPos] at hNone
    cases hNone
  have hOffsets : Dict.filterMapValues
      (fun _ bytes => if bytes ≠ 0 then some bytes else none) atZero = [] := by
    apply Dict.eq_nil_iff.2
    intro unit
    rw [Dict.lookup_filterMapValues _ (kvBytesPerUnit_nodup hZero)]
    have hUnit := hZeroUnit unit
    cases hBytes : atZero.lookup unit with
    | none => rfl
    | some bytes => simpa [hBytes] using hUnit
  have hSame : Dict.Same
      (Dict.filterMapValues (fun _ bytes => if bytes ≠ 0 then some bytes else none) hinted)
      (Dict.mapValues (fun _ slope => (h : ℤ) * slope) perBlock) := by
    apply Dict.same_iff.2
    intro unit
    rw [Dict.lookup_filterMapValues _ (kvBytesPerUnit_nodup hHinted), Dict.lookup_mapValues,
      hPerBlock]
    have hUnit := hHintedUnit unit
    by_cases hPos : 0 < slope unit
    · have hBytesPos : (0 : ℤ) < h * slope unit := mul_pos (by omega) hPos
      rw [if_pos hPos, Option.map_some]
      cases hBytes : hinted.lookup unit with
      | none =>
          rw [hBytes, Option.getD_none] at hUnit
          omega
      | some bytes =>
          rw [hBytes, Option.getD_some] at hUnit
          rw [Option.bind_some, hUnit, if_pos hBytesPos.ne']
    · have hFlat : slope unit = 0 := le_antisymm (not_lt.1 hPos) (hSlope unit)
      rw [if_neg hPos, Option.map_none]
      cases hBytes : hinted.lookup unit with
      | none => rfl
      | some bytes =>
          rw [hBytes, Option.getD_some, hFlat, mul_zero] at hUnit
          rw [Option.bind_some, hUnit, if_neg (not_not.2 rfl)]
  refine ⟨⟨perBlock, h, specs.length, specs⟩, ?_, fun unit => ?_⟩
  · simp only [kvGrowth, hZero, hOne, hHinted, bind, Except.bind]
    rw [if_neg hRises, if_neg (by rw [not_or, not_not, not_not]; exact ⟨hOffsets, hSame⟩)]
  · rw [hPerBlock]
    split
    · rfl
    · rename_i hNot
      exact le_antisymm (hSlope unit) (not_lt.1 hNot)

/-- The bytes at any count, under an accepted growth. -/
theorem kvBytesPerUnit_of_growth (hNonNeg : ∀ spec ∈ specs, spec.nonNeg = true) {h : ℕ}
    (hTwo : 2 ≤ h) {growth : KvGrowth} (hOk : kvGrowth specs h = .ok growth) (n : ℕ) :
    ∃ bytes, kvBytesPerUnit specs n h = .ok bytes ∧
      (∀ unit perBlock, growth.perBlock.lookup unit = some perBlock →
        0 < perBlock ∧ bytes.lookup unit = some (n * perBlock)) ∧
      ∀ unit total, growth.perBlock.lookup unit = none → bytes.lookup unit = some total →
        total = 0 := by
  obtain ⟨atZero, -, -, hZero, -⟩ := kvGrowth_cases hOk
  obtain ⟨bytes, hBytes, hLookup⟩ := kvBytesPerUnit_eq hNonNeg hZero n
  refine ⟨bytes, hBytes, fun unit perBlock hUnit => ?_, fun unit total hNone hTotal => ?_⟩
  · obtain ⟨hEval, hSome⟩ := unitPoly_eval_of_growth hNonNeg hTwo hOk unit n
    rw [hUnit, Option.getD_some] at hEval
    rw [hLookup, if_neg (hSome (by rw [hUnit]; rfl)), hEval]
    exact ⟨perBlock_pos hOk hUnit, rfl⟩
  · obtain ⟨hEval, -⟩ := unitPoly_eval_of_growth hNonNeg hTwo hOk unit n
    rw [hNone, Option.getD_none, mul_zero] at hEval
    rw [hLookup] at hTotal
    split at hTotal
    · cases hTotal
    · rw [← Option.some.inj hTotal, hEval]

/-- An accepted growth is linear at every block count, not only at those that were evaluated,
and bytes that are linear with some positive slope are accepted. -/
theorem kvGrowth_linear (hNonNeg : ∀ spec ∈ specs, spec.nonNeg = true) {h : ℕ} (hTwo : 2 ≤ h) :
    (∀ growth, kvGrowth specs h = .ok growth → ∀ n : ℕ, ∃ bytes,
      kvBytesPerUnit specs n h = .ok bytes ∧
      (∀ unit perBlock, growth.perBlock.lookup unit = some perBlock →
        0 < perBlock ∧ bytes.lookup unit = some (n * perBlock)) ∧
      ∀ unit total, growth.perBlock.lookup unit = none → bytes.lookup unit = some total →
        total = 0) ∧
    ∀ slope : ChipUnit → ℤ, (∃ unit, 0 < slope unit) →
      (∀ n : ℕ, ∃ bytes, kvBytesPerUnit specs n h = .ok bytes ∧
        ∀ unit, (bytes.lookup unit).getD 0 = n * slope unit) →
      ∃ growth, kvGrowth specs h = .ok growth ∧
        ∀ unit, (growth.perBlock.lookup unit).getD 0 = slope unit := by
  constructor
  · intro growth hOk n
    exact kvBytesPerUnit_of_growth hNonNeg hTwo hOk n
  · intro slope hGrows hLinear
    exact kvGrowth_of_linear hNonNeg hTwo hGrows hLinear

end Units

/-- One input of four kernel blocks, compiled for two blocks, on two chiplets. -/
def InputSpec.small : InputSpec where
  name := ['k', 'v']
  shape := [4, 3]
  physicalPlacement := ⟨[.symbol, .int 3], ['i', 'n', 't', '8'],
    [⟨0, 0, [.symbol, .int 2]⟩, ⟨0, 1, [.symbol, .int 1]⟩]⟩

theorem InputSpec.small_growth : kvGrowth [InputSpec.small] 2 =
    .ok ⟨[((0, 0), 4), ((0, 1), 2)], 2, 1, [InputSpec.small]⟩ := rfl

theorem kvGrowth_linear_small : ∃ bytes, kvBytesPerUnit [InputSpec.small] 7 2 = .ok bytes ∧
    bytes.lookup (0, 1) = some 14 := by
  have hNonNeg : ∀ spec ∈ [InputSpec.small], spec.nonNeg = true := by
    simp
    decide
  obtain ⟨bytes, hBytes, hLinear, -⟩ :=
    (kvGrowth_linear hNonNeg (h := 2) le_rfl).1 _ InputSpec.small_growth 7
  exact ⟨bytes, hBytes, (hLinear (0, 1) 2 rfl).2⟩

end VllmRbln.KvPlacement
