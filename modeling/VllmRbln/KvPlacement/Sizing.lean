import VllmRbln.KvPlacement.Growth
import VllmRbln.Common.Bisect
import VllmRbln.Common.Extremes

/-! The bytes the caching allocator reserves for a list of requests, and the largest block
count that fits (`v1/worker/kv_placement.py`). -/
namespace VllmRbln.KvPlacement

open Bisect Extremes

def allocMinBlock : Int := 4096
def allocSmallMax : Int := 1 <<< 20
def allocSmallBlock : Int := 2 <<< 20
def allocMediumMax : Int := 10 <<< 20
def allocMediumBlock : Int := 20 <<< 20
def allocLargeRound : Int := 2 <<< 20

/-- `-(-nbytes // unit) * unit`. -/
def roundUp (nbytes unit : Int) : Int := -(-nbytes / unit) * unit

/-- The segment mapped for a request that no free block serves. -/
def allocationSize (nbytes : Int) : Int :=
  if nbytes ≤ 0 then 0
  else if nbytes ≤ allocSmallMax then allocSmallBlock
  else if nbytes ≤ allocMediumMax then allocMediumBlock
  else roundUp nbytes allocLargeRound

/-- The local variables of `allocator_reserved`; `free true` is the pool of small blocks. -/
structure Allocator where
  free : Bool → List Int
  reserved : Int

def Allocator.empty : Allocator := ⟨fun _ => [], 0⟩

/-- Where a split leaves a remainder in the pool. -/
def splits (small : Bool) (remainder : Int) : Bool :=
  if small then allocMinBlock ≤ remainder else allocSmallMax < remainder

/-- Give out a block; what is split off goes back to its pool. -/
def Allocator.give (allocator : Allocator) (small : Bool) (pool : List Int) (block size reserved : Int) :
    Allocator where
  free := Function.update allocator.free small
    (if splits small (block - size) then insort pool (block - size) else pool)
  reserved := reserved

/-- One request: the best-fitting free block, or a new segment. -/
def Allocator.serve (allocator : Allocator) (nbytes : Int) : Allocator :=
  if nbytes ≤ 0 then allocator
  else
    let size := roundUp nbytes allocMinBlock
    let small := decide (size ≤ allocSmallMax)
    let pool := allocator.free small
    match pool[bisectLeft pool size]? with
    | some block =>
        allocator.give small (pool.eraseIdx (bisectLeft pool size)) block size allocator.reserved
    | none =>
        allocator.give small pool (allocationSize size) size
          (allocator.reserved + allocationSize size)

def allocatorReserved (requests : List Int) : Int := (requests.foldl Allocator.serve .empty).reserved

/-! ### No byte is handed out twice -/

theorem le_roundUp {nbytes unit : Int} (hUnit : 0 < unit) : nbytes ≤ roundUp nbytes unit := by
  have hFloor := Int.ediv_mul_le (-nbytes) hUnit.ne'
  rw [roundUp, Int.neg_mul]
  omega

theorem le_allocationSize (nbytes : Int) : nbytes ≤ allocationSize nbytes := by
  unfold allocationSize
  split
  · assumption
  · split
    · rename_i hSmall
      exact hSmall.trans (by decide)
    · split
      · rename_i hMedium
        exact hMedium.trans (by decide)
      · exact le_roundUp (by decide)

/-- The pools are sorted lists of non-negative blocks, and with the bytes already served they
fit in what is reserved. -/
structure Allocator.Sound (allocator : Allocator) (served : Int) : Prop where
  sorted : ∀ small, (allocator.free small).Pairwise (· ≤ ·)
  nonneg : ∀ small, ∀ block ∈ allocator.free small, 0 ≤ block
  covered : served + (allocator.free true).sum + (allocator.free false).sum ≤ allocator.reserved

theorem Allocator.empty_sound : Allocator.empty.Sound 0 where
  sorted _ := List.Pairwise.nil
  nonneg _ _ hMem := absurd hMem List.not_mem_nil
  covered := le_rfl

/-- Giving out a block keeps the pools in order when the pools, the block and the bytes served
before fit in what is reserved now. -/
theorem Allocator.Sound.give {allocator : Allocator} {served : Int} (hSound : allocator.Sound served)
    {small : Bool} {pool : List Int} {block size reserved nbytes : Int}
    (hPool : pool.Sublist (allocator.free small)) (hSize : nbytes ≤ size) (hBlock : size ≤ block)
    (hReserved : served + block + pool.sum + (allocator.free !small).sum ≤ reserved) :
    (allocator.give small pool block size reserved).Sound (served + nbytes) := by
  have hSorted : pool.Pairwise (· ≤ ·) := (hSound.sorted small).sublist hPool
  have hNonneg : ∀ block ∈ pool, 0 ≤ block := fun block hMem =>
    hSound.nonneg small block (hPool.subset hMem)
  have hSum : (if splits small (block - size) then insort pool (block - size) else pool).sum ≤
      (block - size) + pool.sum := by
    split
    · rw [(insort_perm pool (block - size)).sum_eq, List.sum_cons]
    · omega
  refine ⟨fun other => ?_, fun other b hMem => ?_, ?_⟩
  · simp only [Allocator.give, Function.update_apply]
    split
    · split
      · exact insort_sorted hSorted _
      · exact hSorted
    · exact hSound.sorted other
  · simp only [Allocator.give, Function.update_apply] at hMem
    split at hMem
    · split at hMem
      · rcases List.mem_cons.1 ((insort_perm _ _).mem_iff.1 hMem) with rfl | hMem
        · omega
        · exact hNonneg b hMem
      · exact hNonneg b hMem
    · exact hSound.nonneg other b hMem
  · cases small with
    | true =>
        simp only [Allocator.give, Function.update_self, Bool.not_true] at hReserved ⊢
        rw [Function.update_of_ne (by decide)]
        omega
    | false =>
        simp only [Allocator.give, Function.update_self, Bool.not_false] at hReserved ⊢
        rw [Function.update_of_ne (by decide)]
        omega

theorem Allocator.Sound.covered_split {allocator : Allocator} {served : Int}
    (hSound : allocator.Sound served) (small : Bool) :
    served + (allocator.free small).sum + (allocator.free !small).sum ≤ allocator.reserved := by
  have hCovered := hSound.covered
  cases small with
  | true => exact hCovered
  | false =>
      rw [Bool.not_false]
      omega

/-- One request keeps the pools in order. -/
theorem Allocator.Sound.serve {allocator : Allocator} {served : Int}
    (hSound : allocator.Sound served) (nbytes : Int) :
    (allocator.serve nbytes).Sound (served + max 0 nbytes) := by
  unfold Allocator.serve
  split
  · rename_i hNone
    rw [max_eq_left hNone, add_zero]
    exact hSound
  · rename_i hPos
    rw [max_eq_right (not_le.1 hPos).le]
    have hSize : nbytes ≤ roundUp nbytes allocMinBlock := le_roundUp (by decide)
    generalize roundUp nbytes allocMinBlock = size at hSize
    dsimp only
    generalize decide (size ≤ allocSmallMax) = small
    have hCovered := hSound.covered_split small
    split
    · rename_i block hBlock
      obtain ⟨hIndex, hGet⟩ := List.getElem?_eq_some_iff.1 hBlock
      have hSum := (List.getElem_cons_eraseIdx_perm hIndex).sum_eq
      rw [List.sum_cons, hGet] at hSum
      apply hSound.give (List.eraseIdx_sublist _ _) hSize
      · exact le_of_bisectLeft (hSound.sorted small) hBlock
      · omega
    · apply hSound.give (List.Sublist.refl _) hSize (le_allocationSize size)
      omega

/-- The reserved bytes cover the requests. -/
theorem sum_le_allocatorReserved (requests : List Int) :
    requests.sum ≤ allocatorReserved requests := by
  have hRun : ∀ (allocator : Allocator) (served : Int), allocator.Sound served →
      ∃ later, (requests.foldl Allocator.serve allocator).Sound later ∧
        served + requests.sum ≤ later := by
    induction requests with
    | nil => exact fun _ served hSound => ⟨served, hSound, by simp⟩
    | cons nbytes requests ih =>
        intro allocator served hSound
        obtain ⟨later, hLater, hSum⟩ := ih _ _ (hSound.serve nbytes)
        refine ⟨later, hLater, ?_⟩
        rw [List.sum_cons]
        omega
  obtain ⟨later, hLater, hSum⟩ := hRun _ _ Allocator.empty_sound
  have hTrue := List.sum_nonneg (hLater.nonneg true)
  have hFalse := List.sum_nonneg (hLater.nonneg false)
  have hCovered := hLater.covered
  rw [allocatorReserved]
  omega

/-! ### The largest block count -/

/-- `gpu_memory_utilization`: whether it lies in (0, 1], and `int(total * utilization)`, which
is a floating-point product. -/
structure Utilization where
  inRange : Bool
  budget : Int → Int

structure ChipletMemory where
  total : Int
  used : Int

/-- How one unit's budget was spent. -/
structure UnitFit where
  total : Int
  budget : Int
  used : Int
  kvResident : Int
  reserve : Int
  base : Int
  perBlock : Int
  numBlocks : Nat

/-- `allocated_at`. -/
def KvGrowth.allocatedAt (growth : KvGrowth) (numBlocks : Int) :
    Except Refusal (List (ChipUnit × Int)) :=
  (kvRequestsPerUnit growth.specs numBlocks growth.hintBlocks).map
    (Dict.mapValues fun _ shards => allocatorReserved shards)

/-- What `max_num_blocks` is given besides the growth. -/
structure SizingInput where
  snapshot : List (ChipUnit × ChipletMemory)
  gpuMemoryUtilization : Utilization
  kvResident : List (ChipUnit × Int)
  reserveBytes : Int

namespace SizingInput

variable (input : SizingInput)

/-- The snapshot's entry; a unit without one is refused before this is read. -/
def memory (unit : ChipUnit) : ChipletMemory := (input.snapshot.lookup unit).getD ⟨0, 0⟩

def budget (unit : ChipUnit) : Int :=
  input.gpuMemoryUtilization.budget (input.memory unit).total

def base (unit : ChipUnit) : Int :=
  (input.memory unit).used - (input.kvResident.lookup unit).getD 0 + input.reserveBytes

def room (unit : ChipUnit) : Int := input.budget unit - input.base unit

/-- `max(0, room // per_block)`. -/
def linear (unit : ChipUnit) (perBlock : Int) : Nat := (input.room unit / perBlock).toNat

def fit (unit : ChipUnit) (perBlock : Int) : UnitFit where
  total := (input.memory unit).total
  budget := input.budget unit
  used := (input.memory unit).used
  kvResident := (input.kvResident.lookup unit).getD 0
  reserve := input.reserveBytes
  base := input.base unit
  perBlock := perBlock
  numBlocks := input.linear unit perBlock

end SizingInput

/-- The order of `sorted` on units. -/
def ChipUnit.le (a b : ChipUnit) : Bool := a.1 < b.1 ∨ a.1 = b.1 ∧ a.2 ≤ b.2

/-- The second result: a row for each grown unit, in unit order. -/
def SizingInput.fits (input : SizingInput) (growth : KvGrowth) : List (ChipUnit × UnitFit) :=
  (Dict.mapValues input.fit growth.perBlock).mergeSort fun a b => ChipUnit.le a.1 b.1

/-- `all(allocated[unit] <= room[unit] for unit in room)`. -/
def allFit (room : ChipUnit → Int) (allocated : List (ChipUnit × Int)) :
    List ChipUnit → Except Refusal Bool
  | [] => .ok true
  | unit :: units =>
      match allocated.lookup unit with
      | none => .error (.unitKey unit)
      | some bytes => if bytes ≤ room unit then allFit room allocated units else .ok false

/-- `fits_all`. -/
def fitsAll (input : SizingInput) (growth : KvGrowth) (numBlocks : Nat) : Except Refusal Bool := do
  let allocated ← growth.allocatedAt numBlocks
  allFit input.room allocated (Dict.keys growth.perBlock)

/-- The scan down from a count to the first that fits. -/
def scanDown (fits : Nat → Except Refusal Bool) : Nat → Except Refusal Nat
  | 0 => .ok 0
  | n + 1 => do if ← fits (n + 1) then .ok (n + 1) else scanDown fits n

/-- `max_num_blocks`. -/
def maxNumBlocks (input : SizingInput) (growth : KvGrowth) :
    Except Refusal (Nat × List (ChipUnit × UnitFit)) := do
  if ¬ input.gpuMemoryUtilization.inRange then throw .gpuMemoryUtilization
  let missing := (Dict.keys growth.perBlock).filter fun unit => unit ∉ Dict.keys input.snapshot
  if missing ≠ [] then throw (.missingUnits (missing.mergeSort ChipUnit.le))
  match growth.perBlock.map fun row => input.linear row.1 row.2 with
  | [] => throw .noGrowth
  | first :: rest =>
      let numBlocks ← scanDown (fitsAll input growth) (rest.foldl min first)
      return (numBlocks, input.fits growth)

/-- What the allocator reserves on each grown unit fits in the unit's room. -/
def FitsAt (input : SizingInput) (growth : KvGrowth) (n : ℕ) : Prop :=
  ∃ requests, kvRequestsPerUnit growth.specs n growth.hintBlocks = .ok requests ∧
    ∀ unit ∈ Dict.keys growth.perBlock, ∃ shards, requests.lookup unit = some shards ∧
      allocatorReserved shards ≤ input.room unit

theorem scanDown_spec {fits : Nat → Except Refusal Bool} {Fits : Nat → Prop}
    (hFits : ∀ n, ∃ fit, fits n = .ok fit ∧ (fit = true ↔ Fits n)) (start : Nat) :
    ∃ n, scanDown fits start = .ok n ∧ n ≤ start ∧ (0 < n → Fits n) ∧
      ∀ m, n < m → m ≤ start → ¬ Fits m := by
  induction start with
  | zero => exact ⟨0, rfl, le_rfl, by simp, fun m hLess hLe => by omega⟩
  | succ start ih =>
      obtain ⟨fit, hFit, hIff⟩ := hFits (start + 1)
      simp only [scanDown, hFit, bind, Except.bind]
      by_cases hTrue : fit = true
      · rw [if_pos hTrue]
        exact ⟨start + 1, rfl, le_rfl, fun _ => hIff.1 hTrue, fun m hLess hLe => by omega⟩
      · rw [if_neg hTrue]
        obtain ⟨n, hScan, hLe, hHolds, hAbove⟩ := ih
        refine ⟨n, hScan, by omega, hHolds, fun m hLess hUp => ?_⟩
        rcases Nat.lt_or_ge start m with hTop | hBelow
        · have hEq : m = start + 1 := by omega
          exact hEq ▸ mt hIff.2 hTrue
        · exact hAbove m hLess hBelow

theorem allFit_eq (room : ChipUnit → Int) (allocated : List (ChipUnit × Int))
    {units : List ChipUnit}
    (hUnits : ∀ unit ∈ units, ∃ bytes, allocated.lookup unit = some bytes) :
    ∃ fit, allFit room allocated units = .ok fit ∧
      (fit = true ↔ ∀ unit ∈ units, ∀ bytes, allocated.lookup unit = some bytes →
        bytes ≤ room unit) := by
  induction units with
  | nil => exact ⟨true, rfl, by simp⟩
  | cons unit units ih =>
      obtain ⟨bytes, hBytes⟩ := hUnits unit List.mem_cons_self
      obtain ⟨fit, hFit, hIff⟩ := ih fun other hMem => hUnits other (List.mem_cons_of_mem _ hMem)
      simp only [allFit, hBytes]
      by_cases hLe : bytes ≤ room unit
      · rw [if_pos hLe]
        refine ⟨fit, hFit, hIff.trans ?_⟩
        simp [hBytes, hLe]
      · rw [if_neg hLe]
        refine ⟨false, rfl, ?_⟩
        simp [hBytes, hLe]

section Maximal

variable {specs : List InputSpec} {growth : KvGrowth} {h : ℕ}

/-- At any count the requests of a grown unit add up to the count times its cost. -/
theorem requests_of_growth (hNonNeg : ∀ spec ∈ specs, spec.nonNeg = true) (hTwo : 2 ≤ h)
    (hOk : kvGrowth specs h = .ok growth) (n : ℕ) :
    ∃ requests, kvRequestsPerUnit growth.specs n growth.hintBlocks = .ok requests ∧
      ∀ unit perBlock, growth.perBlock.lookup unit = some perBlock → 0 < perBlock ∧
        ∃ shards, requests.lookup unit = some shards ∧ shards.sum = n * perBlock := by
  obtain ⟨-, -, -, -, -, -, hSpecs, hHint, -⟩ := kvGrowth_cases hOk
  obtain ⟨bytes, hBytes, hLinear, -⟩ := kvBytesPerUnit_of_growth hNonNeg hTwo hOk n
  rw [hSpecs, hHint]
  unfold kvBytesPerUnit at hBytes
  cases hRequests : kvRequestsPerUnit specs n h with
  | error refusal => simp [hRequests, Except.map] at hBytes
  | ok requests =>
      simp only [hRequests, Except.map, Except.ok.injEq] at hBytes
      refine ⟨requests, rfl, fun unit perBlock hUnit => ?_⟩
      obtain ⟨hPos, hTotal⟩ := hLinear unit perBlock hUnit
      rw [← hBytes, Dict.lookup_mapValues, Option.map_eq_some_iff] at hTotal
      exact ⟨hPos, hTotal⟩

/-- The scan's test says whether a count fits. -/
theorem fitsAll_iff (input : SizingInput) (hNonNeg : ∀ spec ∈ specs, spec.nonNeg = true)
    (hTwo : 2 ≤ h) (hOk : kvGrowth specs h = .ok growth) (n : ℕ) :
    ∃ fit, fitsAll input growth n = .ok fit ∧ (fit = true ↔ FitsAt input growth n) := by
  obtain ⟨requests, hRequests, hShards⟩ := requests_of_growth hNonNeg hTwo hOk n
  have hUnits : ∀ unit ∈ Dict.keys growth.perBlock,
      ∃ shards, requests.lookup unit = some shards := by
    intro unit hMem
    obtain ⟨perBlock, hPerBlock⟩ := Option.isSome_iff_exists.1 (Dict.lookup_isSome.2 hMem)
    obtain ⟨-, shards, hLookup, -⟩ := hShards unit perBlock hPerBlock
    exact ⟨shards, hLookup⟩
  have hReserved : ∀ unit ∈ Dict.keys growth.perBlock, ∃ bytes,
      (Dict.mapValues (fun _ shards => allocatorReserved shards) requests).lookup unit =
        some bytes := by
    intro unit hMem
    obtain ⟨shards, hLookup⟩ := hUnits unit hMem
    refine ⟨allocatorReserved shards, ?_⟩
    rw [Dict.lookup_mapValues, hLookup]
    rfl
  obtain ⟨fit, hFit, hIff⟩ := allFit_eq input.room
    (Dict.mapValues (fun _ shards => allocatorReserved shards) requests) hReserved
  refine ⟨fit, ?_, hIff.trans ?_⟩
  · simp only [fitsAll, KvGrowth.allocatedAt, hRequests, Except.map, bind, Except.bind]
    exact hFit
  · constructor
    · intro hAll
      refine ⟨requests, hRequests, fun unit hMem => ?_⟩
      obtain ⟨shards, hLookup⟩ := hUnits unit hMem
      refine ⟨shards, hLookup, hAll unit hMem _ ?_⟩
      rw [Dict.lookup_mapValues, hLookup, Option.map_some]
    · rintro ⟨same, hSame, hRoom⟩ unit hMem bytes hBytes
      rw [hRequests, Except.ok.injEq] at hSame
      subst hSame
      obtain ⟨shards, hLookup, hLe⟩ := hRoom unit hMem
      rw [Dict.lookup_mapValues, hLookup, Option.map_some, Option.some.injEq] at hBytes
      exact hBytes ▸ hLe

/-- No count past a unit's linear bound fits. -/
theorem le_linear_of_fitsAt {input : SizingInput}
    (hNonNeg : ∀ spec ∈ specs, spec.nonNeg = true) (hTwo : 2 ≤ h)
    (hOk : kvGrowth specs h = .ok growth) {n : ℕ} (hFits : FitsAt input growth n)
    {unit : ChipUnit} {perBlock : Int} (hUnit : growth.perBlock.lookup unit = some perBlock) :
    n ≤ input.linear unit perBlock := by
  obtain ⟨requests, hRequests, hShards⟩ := requests_of_growth hNonNeg hTwo hOk n
  obtain ⟨same, hSame, hRoom⟩ := hFits
  rw [hRequests, Except.ok.injEq] at hSame
  subst hSame
  obtain ⟨hPos, shards, hLookup, hSum⟩ := hShards unit perBlock hUnit
  obtain ⟨fitting, hFitting, hLe⟩ := hRoom unit (Dict.lookup_isSome.1 (by rw [hUnit]; rfl))
  rw [hLookup, Option.some.injEq] at hFitting
  subst hFitting
  have hReserved := sum_le_allocatorReserved shards
  have hBound : (n : ℤ) ≤ input.room unit / perBlock :=
    (Int.le_ediv_iff_mul_le hPos).2 (by omega)
  rw [SizingInput.linear]
  omega

/-- `max_num_blocks` returns the largest count that fits on all grown units at once, and `0`
when no positive count does; the reserved bytes of any requests cover the requests. -/
theorem maxNumBlocks_maximal (input : SizingInput)
    (hNonNeg : ∀ spec ∈ specs, spec.nonNeg = true) (hTwo : 2 ≤ h)
    (hOk : kvGrowth specs h = .ok growth)
    (hRange : input.gpuMemoryUtilization.inRange = true)
    (hCovered : ∀ unit ∈ Dict.keys growth.perBlock, unit ∈ Dict.keys input.snapshot) :
    (∃ n, maxNumBlocks input growth = .ok (n, input.fits growth) ∧
      (0 < n → FitsAt input growth n) ∧ (∀ m, n < m → ¬ FitsAt input growth m) ∧
      (n = 0 ↔ ∀ m, 0 < m → ¬ FitsAt input growth m)) ∧
    ∀ requests : List Int, requests.sum ≤ allocatorReserved requests := by
  refine ⟨?_, sum_le_allocatorReserved⟩
  obtain ⟨-, -, -, -, -, -, -, -, hGrows, hNodup, -⟩ := kvGrowth_cases hOk
  have hMissing : ((Dict.keys growth.perBlock).filter
      fun unit => unit ∉ Dict.keys input.snapshot) = [] := by
    apply List.filter_eq_nil_iff.2
    intro unit hMem
    simpa using hCovered unit hMem
  cases hLinear : growth.perBlock.map fun row => input.linear row.1 row.2 with
  | nil => exact absurd (List.map_eq_nil_iff.1 hLinear) hGrows
  | cons first rest =>
      obtain ⟨n, hScan, -, hHolds, hAbove⟩ :=
        scanDown_spec (fitsAll_iff input hNonNeg hTwo hOk) (rest.foldl min first)
      have hMaximal : ∀ m, n < m → ¬ FitsAt input growth m := by
        intro m hLess hFits
        have hBound : ∀ bound ∈ first :: rest, m ≤ bound := by
          intro bound hMem
          rw [← hLinear] at hMem
          obtain ⟨row, hRow, rfl⟩ := List.mem_map.1 hMem
          exact le_linear_of_fitsAt hNonNeg hTwo hOk hFits (Dict.lookup_of_mem hNodup hRow)
        refine hAbove m hLess (le_foldl_min (hBound first List.mem_cons_self) ?_) hFits
        exact fun x hMem => hBound x (List.mem_cons_of_mem _ hMem)
      refine ⟨n, ?_, hHolds, hMaximal, fun hZero m hPos => hMaximal m (by omega), ?_⟩
      · simp only [maxNumBlocks, hRange, hMissing, hLinear, hScan, bind, Except.bind]
        rfl
      · intro hNone
        by_contra hPos
        exact hNone n (by omega) (hHolds (by omega))

end Maximal

/-- Two chiplets of 64 MiB, with 30 MiB and 34 MiB in use, at full utilization. -/
def SizingInput.small : SizingInput where
  snapshot := [((0, 0), ⟨64 <<< 20, 30 <<< 20⟩), ((0, 1), ⟨64 <<< 20, 34 <<< 20⟩)]
  gpuMemoryUtilization := ⟨true, id⟩
  kvResident := []
  reserveBytes := 0

/-- A block of 6 MiB on one chiplet and of 3 MiB on the other. -/
def InputSpec.large : InputSpec :=
  { InputSpec.small with physicalPlacement :=
      { InputSpec.small.physicalPlacement with
        shards := [⟨0, 0, [.symbol, .int (3 <<< 20)]⟩, ⟨0, 1, [.symbol, .int (3 <<< 19)]⟩] } }

theorem maxNumBlocks_maximal_small : ∃ growth fits,
    kvGrowth [InputSpec.large] 2 = .ok growth ∧
      maxNumBlocks SizingInput.small growth = .ok (5, fits) ∧
      ∀ m, 5 < m → ¬ FitsAt SizingInput.small growth m := by
  have hOk : kvGrowth [InputSpec.large] (2 : ℕ) =
      .ok ⟨[((0, 0), 6 <<< 20), ((0, 1), 3 <<< 20)], 2, 1, [InputSpec.large]⟩ := rfl
  have hNonNeg : ∀ spec ∈ [InputSpec.large], spec.nonNeg = true := by
    simp
    decide
  obtain ⟨⟨n, hMax, -, hAbove, -⟩, -⟩ := maxNumBlocks_maximal SizingInput.small hNonNeg
    (h := 2) le_rfl hOk rfl (by decide)
  have hFive : maxNumBlocks SizingInput.small
      ⟨[((0, 0), 6 <<< 20), ((0, 1), 3 <<< 20)], 2, 1, [InputSpec.large]⟩ =
        .ok (5, SizingInput.small.fits _) := rfl
  rw [hFive, Except.ok.injEq, Prod.mk.injEq] at hMax
  rw [← hMax.1] at hAbove
  exact ⟨_, _, hOk, hFive, hAbove⟩

end VllmRbln.KvPlacement
