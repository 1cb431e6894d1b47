import VllmRbln.Common.Packing
import VllmRbln.Common.Checked
import VllmRbln.Optimum.Allocation
import Mathlib.Data.List.Sort

/-! The slots of a chunked prefill (`v1/core/optimum_kv_cache_manager.py`). A chunk is written at
its full compiled extent and starts a new block where it would straddle a boundary, so a prefill
takes more slots than it has tokens; `allocate_slots` reserves them by a padding that it computes
from the prompt. -/
namespace VllmRbln.Optimum.ChunkedPrefill

open Checked Packing

/-- What the manager is built with, for a model that needs the padding. No image bucket at all is
the same as `None`. -/
structure Config where
  blockSize : Nat
  attnBlockSize : Option Nat
  prefillChunkSize : Nat
  imagePrefillChunkSize : List Nat
  maxModelLen : Nat
  attn_eq : ∀ size ∈ attnBlockSize, size = blockSize
  chunk_pos : 0 < prefillChunkSize
  chunk_fits : prefillChunkSize ≤ blockSize
  buckets_pos : ∀ bucket ∈ imagePrefillChunkSize, 0 < bucket
  buckets_fit : ∀ bucket ∈ imagePrefillChunkSize, bucket ≤ blockSize

/-- `mm_position`. -/
structure PlaceholderRange where
  offset : Nat
  isEmbed : Option (List Bool)

inductive PadError
  | isEmbedMissing
  | runTooLong (runLen largest : Nat)
  | outOfFuel
  deriving DecidableEq, Repr

/-- Runs of set flags, as positions from `i` on; `start` is where the run at hand began. -/
def embedRuns : Nat → Option Nat → List Bool → List (Nat × Nat)
  | _, none, [] => []
  | i, some start, [] => [(start, i)]
  | i, none, true :: mask => embedRuns (i + 1) (some i) mask
  | i, some start, true :: mask => embedRuns (i + 1) (some start) mask
  | i, none, false :: mask => embedRuns (i + 1) none mask
  | i, some start, false :: mask => (start, i) :: embedRuns (i + 1) none mask

/-- The runs of one placeholder, cut off at the end of the query. -/
def PlaceholderRange.segments (pos : PlaceholderRange) (queryLen : Nat) :
    Except PadError (List (Nat × Nat)) :=
  match pos.isEmbed with
  | none => .error .isEmbedMissing
  | some mask => .ok <| ((embedRuns pos.offset none mask).filter fun run => run.1 < queryLen).map
      fun run => (run.1, min run.2 queryLen)

/-- The order of the sort: by start, then by end. -/
def SegmentLe (a b : Nat × Nat) : Prop := a.1 < b.1 ∨ a.1 = b.1 ∧ a.2 ≤ b.2

instance : DecidableRel SegmentLe := fun _ _ => inferInstanceAs (Decidable (_ ∨ _))

/-- `_image_embed_segments`. -/
def imageEmbedSegments (mmFeatures : List PlaceholderRange) (queryLen : Nat) :
    Except PadError (List (Nat × Nat)) := do
  let segments ← mmFeatures.mapM (·.segments queryLen)
  return segments.flatten.insertionSort SegmentLe

namespace Config

/-- `_image_chunk_size`: the smallest bucket that takes the run. -/
def imageChunkSize (cfg : Config) (runLen : Nat) : Except PadError Nat :=
  match cfg.imagePrefillChunkSize with
  | [] => .ok cfg.prefillChunkSize
  | largest :: buckets =>
      match (largest :: buckets).reverse.find? fun bucket => runLen ≤ bucket with
      | some bucket => .ok bucket
      | none => .error (.runTooLong runLen largest)

/-- The block size that the padding goes by. -/
def padBlockSize (cfg : Config) : Nat := cfg.attnBlockSize.getD cfg.blockSize

/-- Tokens of the chunk at `step`, and its compiled size. -/
def nextRun (cfg : Config) (segments : List (Nat × Nat)) (queryLen step : Nat) :
    Except PadError (Nat × Nat) :=
  match segments.find? fun segment => segment.1 ≤ step ∧ step < segment.2 with
  | some segment => do
      let chunkSize ← cfg.imageChunkSize (segment.2 - step)
      return (segment.2 - step, chunkSize)
  | none =>
      let runEnd := (((segments.filter fun segment => step < segment.1).map Prod.fst).min?).getD queryLen
      .ok (min (runEnd - step) cfg.prefillChunkSize, cfg.prefillChunkSize)

end Config

/-- A chunk in the cache: its first slot and its full extent. -/
structure Chunk where
  slot : Nat
  size : Nat
  deriving DecidableEq, Repr

/-- The loop of `_chunked_prefill_pad`: the chunks it lays out and the padding it ends with. -/
def layChunks (cfg : Config) (segments : List (Nat × Nat)) (queryLen : Nat) :
    Nat → Nat → Nat → Except PadError (List Chunk × Nat)
  | 0, step, alignPad => if step < queryLen then .error .outOfFuel else .ok ([], alignPad)
  | fuel + 1, step, alignPad =>
      if step < queryLen then do
        let (runLen, chunkSize) ← cfg.nextRun segments queryLen step
        let offsetInBlock := (step + alignPad) % cfg.padBlockSize
        let alignPad :=
          if cfg.padBlockSize < offsetInBlock + chunkSize then
            alignPad + (cfg.padBlockSize - offsetInBlock)
          else alignPad
        let (chunks, total) ← layChunks cfg segments queryLen fuel (step + runLen) alignPad
        return (⟨step + alignPad, chunkSize⟩ :: chunks, total)
      else .ok ([], alignPad)

/-- The layout of a prefill over `queryLen` tokens. A token a round is enough fuel. -/
def layout (cfg : Config) (mmFeatures : List PlaceholderRange) (queryLen : Nat) :
    Except PadError (List Chunk × Nat) := do
  let segments ← imageEmbedSegments mmFeatures queryLen
  layChunks cfg segments queryLen queryLen 0 0

/-- `_chunked_prefill_pad`. -/
def chunkedPrefillPad (cfg : Config) (mmFeatures : List PlaceholderRange) (queryLen : Nat) :
    Except PadError Nat :=
  (layout cfg mmFeatures queryLen).map Prod.snd

/-! ### Image runs -/

/-- Image runs that a bucket takes. -/
def Config.Takes (cfg : Config) (run : Nat × Nat) : Prop :=
  cfg.imagePrefillChunkSize = [] ∨ ∃ bucket ∈ cfg.imagePrefillChunkSize, run.2 - run.1 ≤ bucket

/-- What the padding reads of a request. Placeholders carry a mask and lie in the prompt, and
each of their runs fits a bucket. -/
structure Request (cfg : Config) where
  mmFeatures : List PlaceholderRange
  numPromptTokens : Nat
  masked : ∀ pos ∈ mmFeatures, ∃ mask, pos.isEmbed = some mask ∧
    pos.offset + mask.length ≤ numPromptTokens ∧ ∀ run ∈ embedRuns pos.offset none mask, cfg.Takes run

/-- The image runs of the prompt, in order. -/
def Request.imageRuns {cfg : Config} (request : Request cfg) : List (Nat × Nat) :=
  (request.mmFeatures.map fun pos =>
    embedRuns pos.offset none (pos.isEmbed.getD [])).flatten.insertionSort SegmentLe

theorem embedRuns_bounds {mask : List Bool} {i : Nat} {start : Option Nat}
    (hStart : ∀ j ∈ start, j < i) {run : Nat × Nat} (hMem : run ∈ embedRuns i start mask) :
    run.1 < run.2 ∧ run.2 ≤ i + mask.length := by
  induction mask generalizing i start with
  | nil =>
      cases start with
      | none => cases hMem
      | some j =>
          rw [embedRuns, List.mem_singleton] at hMem
          subst hMem
          exact ⟨hStart j rfl, Nat.le_refl _⟩
  | cons flag mask ih =>
      have later {next : Option Nat} (hNext : ∀ j ∈ next, j < i + 1)
          (hIn : run ∈ embedRuns (i + 1) next mask) :
          run.1 < run.2 ∧ run.2 ≤ i + (flag :: mask).length := by
        obtain ⟨hLt, hLe⟩ := ih hNext hIn
        rw [List.length_cons]
        exact ⟨hLt, by omega⟩
      cases start with
      | none =>
          cases flag with
          | true => exact later (by simp) hMem
          | false => exact later (by simp) hMem
      | some j =>
          have hBefore := hStart j rfl
          cases flag with
          | true => exact later (by simpa using Nat.lt_succ_of_lt hBefore) hMem
          | false =>
              rw [embedRuns] at hMem
              rcases List.mem_cons.1 hMem with rfl | hMem
              · exact ⟨hBefore, Nat.le_add_right _ _⟩
              · exact later (by simp) hMem

instance : IsTrans (Nat × Nat) SegmentLe where
  trans a b c hab hbc := by
    unfold SegmentLe at *
    omega

instance : Std.Total SegmentLe where
  total a b := by
    unfold SegmentLe
    omega

namespace Request

variable {cfg : Config}

/-- Once the query covers the prompt, the segments are its image runs. -/
theorem imageEmbedSegments_eq (request : Request cfg) {queryLen : Nat}
    (hCovers : request.numPromptTokens ≤ queryLen) :
    imageEmbedSegments request.mmFeatures queryLen = .ok request.imageRuns := by
  have hEach : ∀ pos ∈ request.mmFeatures, pos.segments queryLen =
      .ok (embedRuns pos.offset none (pos.isEmbed.getD [])) := by
    intro pos hMem
    obtain ⟨mask, hMask, hIn, -⟩ := request.masked pos hMem
    have hBounds : ∀ run ∈ embedRuns pos.offset none mask, run.1 < queryLen ∧ run.2 ≤ queryLen := by
      intro run hRun
      obtain ⟨hLt, hLe⟩ := embedRuns_bounds (by simp) hRun
      omega
    have hAll : (embedRuns pos.offset none mask).filter (fun run => run.1 < queryLen) =
        embedRuns pos.offset none mask := by
      apply List.filter_eq_self.2
      intro run hRun
      simpa using (hBounds run hRun).1
    rw [PlaceholderRange.segments, hMask]
    simp only [Option.getD_some]
    rw [hAll]
    congr 1
    conv_rhs => rw [← List.map_id (embedRuns pos.offset none mask)]
    apply List.map_congr_left
    intro run hRun
    rw [Nat.min_eq_left (hBounds run hRun).2]
    rfl
  rw [imageEmbedSegments, mapM_eq_map hEach]
  rfl

theorem imageRuns_sorted (request : Request cfg) :
    request.imageRuns.Pairwise fun a b => a.1 ≤ b.1 := by
  have hSorted := List.pairwise_insertionSort SegmentLe
    (request.mmFeatures.map fun pos => embedRuns pos.offset none (pos.isEmbed.getD [])).flatten
  apply hSorted.imp
  intro a b hLe
  unfold SegmentLe at hLe
  omega

/-- Image runs are not empty, lie in the prompt and fit a bucket. -/
theorem imageRuns_ok (request : Request cfg) {run : Nat × Nat} (hMem : run ∈ request.imageRuns) :
    run.1 < run.2 ∧ run.2 ≤ request.numPromptTokens ∧ cfg.Takes run := by
  rw [imageRuns, List.mem_insertionSort, List.mem_flatten] at hMem
  obtain ⟨runs, hRuns, hMem⟩ := hMem
  obtain ⟨pos, hPos, rfl⟩ := List.mem_map.1 hRuns
  obtain ⟨mask, hMask, hIn, hTakes⟩ := request.masked pos hPos
  rw [hMask, Option.getD_some] at hMem
  obtain ⟨hLt, hLe⟩ := embedRuns_bounds (by simp) hMem
  exact ⟨hLt, by omega, hTakes run hMem⟩

end Request

/-! ### The layout -/

namespace Config

variable (cfg : Config)

theorem padBlockSize_eq : cfg.padBlockSize = cfg.blockSize := by
  unfold padBlockSize
  cases hAttn : cfg.attnBlockSize with
  | none => rfl
  | some size => exact cfg.attn_eq size hAttn

/-- The compiled size of an image run. -/
def bucket (runLen : Nat) : Nat :=
  match cfg.imageChunkSize runLen with
  | .ok size => size
  | .error _ => cfg.prefillChunkSize

/-- A run that fits a bucket has a compiled size, and a part of the run too. -/
theorem imageChunkSize_eq {run : Nat × Nat} (hTakes : cfg.Takes run) {runLen : Nat}
    (hLe : runLen ≤ run.2 - run.1) : cfg.imageChunkSize runLen = .ok (cfg.bucket runLen) ∧
      0 < cfg.bucket runLen ∧ cfg.bucket runLen ≤ cfg.blockSize := by
  unfold bucket imageChunkSize
  cases hBuckets : cfg.imagePrefillChunkSize with
  | nil => exact ⟨rfl, cfg.chunk_pos, cfg.chunk_fits⟩
  | cons largest buckets =>
      dsimp only
      cases hFind : (largest :: buckets).reverse.find? fun bucket => runLen ≤ bucket with
      | some bucket =>
          have hMem : bucket ∈ cfg.imagePrefillChunkSize := by
            rw [hBuckets]
            exact List.mem_reverse.1 (List.mem_of_find?_eq_some hFind)
          exact ⟨rfl, cfg.buckets_pos bucket hMem, cfg.buckets_fit bucket hMem⟩
      | none =>
          obtain hNone | ⟨bucket, hMem, hFits⟩ := hTakes
          · rw [hBuckets] at hNone
            cases hNone
          · rw [hBuckets] at hMem
            have hNot := List.find?_eq_none.1 hFind bucket (List.mem_reverse.2 hMem)
            rw [decide_eq_true_eq] at hNot
            omega

/-- Where the layout stands behind the image runs: the next token and its slot. The text before
a run leaves over what its chunks leave over. -/
def imagesEnd : List (Nat × Nat) → Nat → Nat → Nat × Nat
  | [], step, slot => (step, slot)
  | run :: runs, step, slot =>
      if run.2 ≤ step then imagesEnd runs step slot
      else
        let imageSlot := runEnd cfg.blockSize cfg.prefillChunkSize slot (run.1 - step)
        let numTokens := run.2 - max step run.1
        imagesEnd runs run.2 (place cfg.blockSize (cfg.bucket numTokens) imageSlot + numTokens)

/-- The runs that are behind do not matter; what is left starts with one that is not. -/
theorem settle (runs : List (Nat × Nat)) (step : Nat) : ∃ behind ahead, runs = behind ++ ahead ∧
    (∀ run ∈ behind, run.2 ≤ step) ∧ (∀ run ∈ ahead.head?, step < run.2) ∧
    ∀ slot, cfg.imagesEnd runs step slot = cfg.imagesEnd ahead step slot := by
  induction runs with
  | nil => exact ⟨[], [], rfl, by simp, by simp, fun _ => rfl⟩
  | cons run runs ih =>
      by_cases hBehind : run.2 ≤ step
      · obtain ⟨behind, ahead, hEq, hOver, hHead, hSame⟩ := ih
        refine ⟨run :: behind, ahead, by rw [hEq, List.cons_append], ?_, hHead, fun slot => ?_⟩
        · intro other hMem
          rcases List.mem_cons.1 hMem with rfl | hMem
          · exact hBehind
          · exact hOver other hMem
        · rw [imagesEnd, if_pos hBehind]
          exact hSame slot
      · refine ⟨[], run :: runs, rfl, by simp, ?_, fun _ => rfl⟩
        intro other hHead
        cases hHead
        omega

section

variable {cfg : Config} {behind ahead : List (Nat × Nat)} {queryLen step : Nat}

theorem find?_behind (hBehind : ∀ run ∈ behind, run.2 ≤ step) :
    (behind.find? fun run => run.1 ≤ step ∧ step < run.2) = none := by
  rw [List.find?_eq_none]
  intro run hMem
  have hLe := hBehind run hMem
  simp only [decide_eq_true_eq]
  omega

theorem filter_behind (hBehind : ∀ run ∈ behind, run.1 < run.2 ∧ run.2 ≤ step) :
    (behind.filter fun run => step < run.1) = [] := by
  rw [List.filter_eq_nil_iff]
  intro run hMem
  have hLe := hBehind run hMem
  simp only [decide_eq_true_eq]
  omega

/-- Behind the last image run there is text up to the end. -/
theorem nextRun_text (hBehind : ∀ run ∈ behind, run.1 < run.2 ∧ run.2 ≤ step) :
    cfg.nextRun behind queryLen step =
      .ok (min (queryLen - step) cfg.prefillChunkSize, cfg.prefillChunkSize) := by
  have hFind := find?_behind fun run hMem => (hBehind run hMem).2
  unfold nextRun
  rw [hFind, filter_behind hBehind]
  rfl

/-- Before an image run there is text up to its start. -/
theorem nextRun_before {run : Nat × Nat} {runs : List (Nat × Nat)}
    (hBehind : ∀ run ∈ behind, run.1 < run.2 ∧ run.2 ≤ step)
    (hSorted : (run :: runs).Pairwise fun a b => a.1 ≤ b.1) (hBefore : step < run.1) :
    cfg.nextRun (behind ++ run :: runs) queryLen step =
      .ok (min (run.1 - step) cfg.prefillChunkSize, cfg.prefillChunkSize) := by
  have hAfter : ∀ other ∈ run :: runs, step < other.1 ∧ run.1 ≤ other.1 := by
    intro other hMem
    rcases List.mem_cons.1 hMem with rfl | hMem
    · exact ⟨hBefore, Nat.le_refl _⟩
    · have hLe := List.rel_of_pairwise_cons hSorted hMem
      exact ⟨by omega, hLe⟩
  have hFind : ((behind ++ run :: runs).find? fun run => run.1 ≤ step ∧ step < run.2) = none := by
    rw [List.find?_append, find?_behind fun run hMem => (hBehind run hMem).2, Option.none_or,
      List.find?_eq_none]
    intro other hMem
    have hLt := (hAfter other hMem).1
    simp only [decide_eq_true_eq]
    omega
  have hFilter : ((behind ++ run :: runs).filter fun run => step < run.1) = run :: runs := by
    rw [List.filter_append, filter_behind hBehind, List.nil_append, List.filter_eq_self]
    intro other hMem
    simpa using (hAfter other hMem).1
  have hMin : ((run :: runs).map Prod.fst).min? = some run.1 := by
    rw [List.min?_eq_some_iff]
    constructor
    · exact List.mem_cons_self
    · intro start hMem
      obtain ⟨other, hOther, rfl⟩ := List.mem_map.1 hMem
      exact (hAfter other hOther).2
  unfold nextRun
  rw [hFind, hFilter, hMin]
  rfl

/-- Within an image run the chunk covers the rest of it. -/
theorem nextRun_image {run : Nat × Nat} {runs : List (Nat × Nat)}
    (hBehind : ∀ run ∈ behind, run.2 ≤ step) (hTakes : cfg.Takes run) (hStart : run.1 ≤ step)
    (hEnd : step < run.2) : cfg.nextRun (behind ++ run :: runs) queryLen step =
      .ok (run.2 - step, cfg.bucket (run.2 - step)) := by
  have hFind : ((behind ++ run :: runs).find? fun run => run.1 ≤ step ∧ step < run.2) = some run := by
    rw [List.find?_append, find?_behind hBehind, Option.none_or, List.find?_cons_of_pos]
    simp only [decide_eq_true_eq]
    exact ⟨hStart, hEnd⟩
  have hSize := (cfg.imageChunkSize_eq hTakes (Nat.sub_le_sub_left hStart run.2)).1
  unfold nextRun
  rw [hFind]
  show (do let chunkSize ← cfg.imageChunkSize (run.2 - step); pure (run.2 - step, chunkSize)) = _
  rw [hSize]
  rfl

end

end Config

/-- The chunk keeps to its block. -/
def Chunk.InBlock (blockSize : Nat) (chunk : Chunk) : Prop :=
  chunk.slot % blockSize + chunk.size ≤ blockSize

/-- The slot behind the last of `queryLen` tokens, `runs` of which are images, once the layout
stands at `step` and `slot`. -/
def Config.queryEnd (cfg : Config) (runs : List (Nat × Nat)) (queryLen step slot : Nat) : Nat :=
  runEnd cfg.blockSize cfg.prefillChunkSize (cfg.imagesEnd runs step slot).2
    (queryLen - (cfg.imagesEnd runs step slot).1)

/-- What the loop lays out from `step` on. -/
structure Laid (cfg : Config) (runs : List (Nat × Nat)) (queryLen step alignPad : Nat)
    (chunks : List Chunk) (total : Nat) : Prop where
  end_eq : queryLen + total = cfg.queryEnd runs queryLen step (step + alignPad)
  pad_le : alignPad ≤ total
  inBlock : ∀ chunk ∈ chunks, chunk.InBlock cfg.blockSize ∧ chunk.slot < queryLen + total
  last : (cfg.imagesEnd runs step (step + alignPad)).1 < queryLen →
    ∃ chunk ∈ chunks, queryLen + total ≤ chunk.slot + chunk.size

/-- One round: the chunk is placed, and the rest is laid out behind its tokens. -/
theorem layChunks_round (cfg : Config) {segments : List (Nat × Nat)} {queryLen : Nat} (fuel : Nat)
    {step : Nat} (alignPad : Nat) {runLen chunkSize : Nat} (hStep : step < queryLen)
    (hNext : cfg.nextRun segments queryLen step = .ok (runLen, chunkSize)) :
    ∃ padded, step + padded = place cfg.blockSize chunkSize (step + alignPad) ∧
      layChunks cfg segments queryLen (fuel + 1) step alignPad =
        (layChunks cfg segments queryLen fuel (step + runLen) padded).map
          fun laid => (⟨step + padded, chunkSize⟩ :: laid.1, laid.2) := by
  use if cfg.blockSize < (step + alignPad) % cfg.blockSize + chunkSize then
    alignPad + (cfg.blockSize - (step + alignPad) % cfg.blockSize) else alignPad
  constructor
  · unfold place
    split
    · rw [Nat.add_assoc]
    · rfl
  · rw [layChunks, if_pos hStep, hNext, cfg.padBlockSize_eq]
    simp only [ok_bind]
    split <;> cases layChunks cfg segments queryLen fuel _ _ <;> rfl

/-- A chunk before what is laid out behind it. -/
theorem Laid.cons {cfg : Config} {runs rest : List (Nat × Nat)}
    {queryLen step next alignPad padded total chunkSize : Nat} {chunks : List Chunk}
    (hPos : 0 < chunkSize) (hFits : chunkSize ≤ cfg.blockSize) (hStep : step < queryLen)
    (hPlaced : step + padded = place cfg.blockSize chunkSize (step + alignPad))
    (hLaid : Laid cfg rest queryLen next padded chunks total)
    (hEnd : cfg.queryEnd runs queryLen step (step + alignPad) =
      cfg.queryEnd rest queryLen next (next + padded))
    (hLast : (cfg.imagesEnd runs step (step + alignPad)).1 < queryLen →
      (cfg.imagesEnd rest next (next + padded)).1 < queryLen ∨
        queryLen + total ≤ step + padded + chunkSize) :
    Laid cfg runs queryLen step alignPad (⟨step + padded, chunkSize⟩ :: chunks) total where
  end_eq := hLaid.end_eq.trans hEnd.symm
  pad_le := by
    have hLe := le_place cfg.blockSize chunkSize (step + alignPad)
    have hTotal := hLaid.pad_le
    omega
  inBlock chunk hMem := by
    rcases List.mem_cons.1 hMem with rfl | hMem
    · constructor
      · show (step + padded) % cfg.blockSize + chunkSize ≤ cfg.blockSize
        rw [hPlaced]
        exact place_fits _ hPos hFits
      · have hTotal := hLaid.pad_le
        show step + padded < queryLen + total
        omega
    · exact hLaid.inBlock chunk hMem
  last hText := by
    obtain hLater | hHere := hLast hText
    · obtain ⟨chunk, hMem, hReaches⟩ := hLaid.last hLater
      exact ⟨chunk, List.mem_cons_of_mem _ hMem, hReaches⟩
    · exact ⟨_, List.mem_cons_self, hHere⟩

theorem Laid.congr {cfg : Config} {runs rest : List (Nat × Nat)} {queryLen step alignPad total : Nat}
    {chunks : List Chunk}
    (hSame : cfg.imagesEnd runs step (step + alignPad) = cfg.imagesEnd rest step (step + alignPad))
    (hLaid : Laid cfg rest queryLen step alignPad chunks total) :
    Laid cfg runs queryLen step alignPad chunks total where
  end_eq := by
    unfold Config.queryEnd
    rw [hSame]
    exact hLaid.end_eq
  pad_le := hLaid.pad_le
  inBlock := hLaid.inBlock
  last := hSame ▸ hLaid.last

/-- At the end of the query nothing is left to lay out. -/
theorem Laid.nil {cfg : Config} {runs : List (Nat × Nat)} {queryLen alignPad : Nat}
    (hRuns : ∀ run ∈ runs, run.2 ≤ queryLen) : Laid cfg runs queryLen queryLen alignPad [] alignPad := by
  have hDone (slot : Nat) : cfg.imagesEnd runs queryLen slot = (queryLen, slot) := by
    obtain ⟨behind, ahead, rfl, -, hHead, hSame⟩ := cfg.settle runs queryLen
    rw [hSame]
    cases ahead with
    | nil => rfl
    | cons run ahead =>
        have hIn := hRuns run (List.mem_append_right _ List.mem_cons_self)
        have hOut := hHead run rfl
        omega
  constructor
  · rw [Config.queryEnd, hDone, Nat.sub_self, runEnd_zero _ cfg.chunk_pos]
  · exact Nat.le_refl _
  · simp
  · rw [hDone]
    exact fun hLt => absurd hLt (Nat.lt_irrefl _)

section

variable {cfg : Config} {queryLen step alignPad padded : Nat}

/-- The text up to the next image, or to the end, is the same before and behind one chunk of
it. -/
theorem runEnd_chunk {n : Nat} (hSome : 0 < n)
    (hPlaced : step + padded = place cfg.blockSize cfg.prefillChunkSize (step + alignPad)) :
    runEnd cfg.blockSize cfg.prefillChunkSize (step + alignPad) n =
      runEnd cfg.blockSize cfg.prefillChunkSize (step + min n cfg.prefillChunkSize + padded)
        (n - min n cfg.prefillChunkSize) := by
  have hStep := runEnd_step (step + alignPad) cfg.chunk_pos cfg.chunk_fits hSome
  rw [← hStep, ← hPlaced]
  congr 1
  omega

theorem imagesEnd_text {run : Nat × Nat} (runs : List (Nat × Nat)) (hBefore : step < run.1)
    (hRun : run.1 < run.2)
    (hPlaced : step + padded = place cfg.blockSize cfg.prefillChunkSize (step + alignPad)) :
    cfg.imagesEnd (run :: runs) step (step + alignPad) =
      cfg.imagesEnd (run :: runs) (step + min (run.1 - step) cfg.prefillChunkSize)
        (step + min (run.1 - step) cfg.prefillChunkSize + padded) := by
  have hRest : run.1 - (step + min (run.1 - step) cfg.prefillChunkSize) =
      run.1 - step - min (run.1 - step) cfg.prefillChunkSize := by omega
  have hMax : max step run.1 = run.1 := Nat.max_eq_right (by omega)
  have hMax' : max (step + min (run.1 - step) cfg.prefillChunkSize) run.1 = run.1 :=
    Nat.max_eq_right (by omega)
  rw [Config.imagesEnd, Config.imagesEnd, if_neg (by omega), if_neg (by omega), hMax, hMax', hRest,
    runEnd_chunk (by omega) hPlaced]

theorem imagesEnd_image {run : Nat × Nat} (runs : List (Nat × Nat)) (hStart : run.1 ≤ step)
    (hEnd : step < run.2)
    (hPlaced : step + padded = place cfg.blockSize (cfg.bucket (run.2 - step)) (step + alignPad)) :
    cfg.imagesEnd (run :: runs) step (step + alignPad) =
      cfg.imagesEnd runs run.2 (run.2 + padded) := by
  have hNone : run.1 - step = 0 := Nat.sub_eq_zero_of_le hStart
  have hMax : max step run.1 = step := Nat.max_eq_left hStart
  have hBehind : step + padded + (run.2 - step) = run.2 + padded := by omega
  rw [Config.imagesEnd, if_neg (by omega), hNone, runEnd_zero _ cfg.chunk_pos, hMax]
  dsimp only
  rw [← hPlaced, hBehind]

end

/-- The loop ends, and lays out the chunks as described. -/
def Lays (cfg : Config) (queryLen fuel : Nat) (behind ahead : List (Nat × Nat))
    (step alignPad : Nat) : Prop :=
  ∃ chunks total, layChunks cfg (behind ++ ahead) queryLen fuel step alignPad = .ok (chunks, total) ∧
    Laid cfg ahead queryLen step alignPad chunks total

section

variable {cfg : Config} {queryLen fuel step alignPad : Nat} {behind : List (Nat × Nat)}

theorem Lays.done {ahead : List (Nat × Nat)} (hRuns : ∀ run ∈ ahead, run.2 ≤ queryLen) :
    Lays cfg queryLen fuel behind ahead queryLen alignPad := by
  refine ⟨[], alignPad, ?_, .nil hRuns⟩
  cases fuel with
  | zero => rw [layChunks, if_neg (Nat.lt_irrefl _)]
  | succ fuel => rw [layChunks, if_neg (Nat.lt_irrefl _)]

/-- The text behind the last image, chunk by chunk. -/
theorem Lays.text (hBehind : ∀ run ∈ behind, run.1 < run.2 ∧ run.2 ≤ step) (hMore : step < queryLen)
    (hRest : ∀ padded, Lays cfg queryLen fuel behind []
      (step + min (queryLen - step) cfg.prefillChunkSize) padded) :
    Lays cfg queryLen (fuel + 1) behind [] step alignPad := by
  have hSome : 0 < queryLen - step := by omega
  rw [Lays, List.append_nil]
  obtain ⟨padded, hPlaced, hRound⟩ :=
    layChunks_round cfg fuel alignPad hMore (Config.nextRun_text hBehind)
  obtain ⟨chunks, total, hLayout, hLaid⟩ := hRest padded
  rw [List.append_nil] at hLayout
  refine ⟨_, total, by rw [hRound, hLayout]; rfl, ?_⟩
  have hEnd : cfg.queryEnd [] queryLen step (step + alignPad) = cfg.queryEnd [] queryLen
      (step + min (queryLen - step) cfg.prefillChunkSize)
      (step + min (queryLen - step) cfg.prefillChunkSize + padded) := by
    show runEnd cfg.blockSize cfg.prefillChunkSize (step + alignPad) (queryLen - step) = _
    rw [runEnd_chunk hSome hPlaced, Nat.sub_sub]
    rfl
  apply Laid.cons cfg.chunk_pos cfg.chunk_fits hMore hPlaced hLaid hEnd
  intro _
  by_cases hLast : step + min (queryLen - step) cfg.prefillChunkSize < queryLen
  · exact .inl hLast
  · have hAll : step + min (queryLen - step) cfg.prefillChunkSize = queryLen := by omega
    have hTotal := hLaid.end_eq
    rw [hAll] at hTotal
    have hBehindAll : cfg.queryEnd [] queryLen queryLen (queryLen + padded) = queryLen + padded := by
      show runEnd cfg.blockSize cfg.prefillChunkSize (queryLen + padded) (queryLen - queryLen) = _
      rw [Nat.sub_self, runEnd_zero _ cfg.chunk_pos]
    omega

/-- The text before an image. -/
theorem Lays.before {run : Nat × Nat} {runs : List (Nat × Nat)}
    (hBehind : ∀ run ∈ behind, run.1 < run.2 ∧ run.2 ≤ step)
    (hSorted : (run :: runs).Pairwise fun a b => a.1 ≤ b.1) (hBefore : step < run.1)
    (hRun : run.1 < run.2) (hIn : run.2 ≤ queryLen)
    (hRest : ∀ padded, Lays cfg queryLen fuel behind (run :: runs)
      (step + min (run.1 - step) cfg.prefillChunkSize) padded) :
    Lays cfg queryLen (fuel + 1) behind (run :: runs) step alignPad := by
  have hMore : step < queryLen := by omega
  obtain ⟨padded, hPlaced, hRound⟩ :=
    layChunks_round cfg fuel alignPad hMore (Config.nextRun_before hBehind hSorted hBefore)
  obtain ⟨chunks, total, hLayout, hLaid⟩ := hRest padded
  have hImages := imagesEnd_text runs hBefore hRun hPlaced
  refine ⟨_, total, by rw [hRound, hLayout]; rfl, ?_⟩
  apply Laid.cons cfg.chunk_pos cfg.chunk_fits hMore hPlaced hLaid
  · unfold Config.queryEnd
    rw [hImages]
  · rw [hImages]
    exact .inl

/-- An image, or what an overlapping one has left of it. -/
theorem Lays.image {run : Nat × Nat} {runs : List (Nat × Nat)}
    (hBehind : ∀ run ∈ behind, run.2 ≤ step) (hTakes : cfg.Takes run) (hStart : run.1 ≤ step)
    (hEnd : step < run.2) (hIn : run.2 ≤ queryLen)
    (hRest : ∀ padded, Lays cfg queryLen fuel (behind ++ [run]) runs run.2 padded) :
    Lays cfg queryLen (fuel + 1) behind (run :: runs) step alignPad := by
  have hMore : step < queryLen := by omega
  obtain ⟨-, hPos, hFits⟩ := cfg.imageChunkSize_eq hTakes (Nat.sub_le_sub_left hStart run.2)
  obtain ⟨padded, hPlaced, hRound⟩ :=
    layChunks_round cfg fuel alignPad hMore (Config.nextRun_image hBehind hTakes hStart hEnd)
  obtain ⟨chunks, total, hLayout, hLaid⟩ := hRest padded
  rw [List.append_assoc, List.singleton_append] at hLayout
  have hNext : step + (run.2 - step) = run.2 := by omega
  have hImages := imagesEnd_image runs hStart hEnd hPlaced
  refine ⟨_, total, by rw [hRound, hNext, hLayout]; rfl, ?_⟩
  apply Laid.cons hPos hFits hMore hPlaced hLaid
  · unfold Config.queryEnd
    rw [hImages]
  · rw [hImages]
    exact .inl

end

/-- The loop ends for any runs, overlapping ones too: each round takes a token. -/
theorem layChunks_laid (cfg : Config) {queryLen fuel step alignPad : Nat}
    {behind ahead : List (Nat × Nat)}
    (hRuns : ∀ run ∈ behind ++ ahead, run.1 < run.2 ∧ run.2 ≤ queryLen ∧ cfg.Takes run)
    (hSorted : ahead.Pairwise fun a b => a.1 ≤ b.1) (hBehind : ∀ run ∈ behind, run.2 ≤ step)
    (hStep : step ≤ queryLen) (hFuel : queryLen ≤ step + fuel) :
    Lays cfg queryLen fuel behind ahead step alignPad := by
  induction fuel generalizing behind ahead step alignPad with
  | zero =>
      obtain rfl : step = queryLen := by omega
      exact .done fun run hMem => (hRuns run (List.mem_append_right _ hMem)).2.1
  | succ fuel ih =>
      by_cases hMore : step < queryLen
      swap
      · obtain rfl : step = queryLen := by omega
        exact .done fun run hMem => (hRuns run (List.mem_append_right _ hMem)).2.1
      obtain ⟨passed, rest, rfl, hOver, hHead, hSame⟩ := cfg.settle ahead step
      rw [← List.append_assoc] at hRuns
      have hBehind : ∀ run ∈ behind ++ passed, run.2 ≤ step := by
        intro run hMem
        rcases List.mem_append.1 hMem with hMem | hMem
        · exact hBehind run hMem
        · exact hOver run hMem
      have hBounds : ∀ run ∈ behind ++ passed, run.1 < run.2 ∧ run.2 ≤ step := fun run hMem =>
        ⟨(hRuns run (List.mem_append_left _ hMem)).1, hBehind run hMem⟩
      have hLater {next : Nat} (hNext : step ≤ next) : ∀ run ∈ behind ++ passed, run.2 ≤ next :=
        fun run hMem => Nat.le_trans (hBehind run hMem) hNext
      replace hSorted := (List.pairwise_append.1 hSorted).2.1
      have hTextPos := cfg.chunk_pos
      suffices hLays : Lays cfg queryLen (fuel + 1) (behind ++ passed) rest step alignPad by
        obtain ⟨chunks, total, hLayout, hLaid⟩ := hLays
        rw [List.append_assoc] at hLayout
        exact ⟨chunks, total, hLayout, hLaid.congr (hSame _)⟩
      cases rest with
      | nil =>
          apply Lays.text hBounds hMore
          intro padded
          exact ih hRuns .nil (hLater (Nat.le_add_right _ _)) (by omega) (by omega)
      | cons run rest =>
          obtain ⟨hRun, hIn, hTakes⟩ :=
            hRuns run (List.mem_append_right _ List.mem_cons_self)
          have hEnd := hHead run rfl
          by_cases hStart : run.1 ≤ step
          · apply Lays.image hBehind hTakes hStart hEnd hIn
            intro padded
            apply ih _ hSorted.of_cons _ hIn (by omega)
            · rw [List.append_assoc (behind ++ passed)]
              exact hRuns
            · intro other hMem
              rcases List.mem_append.1 hMem with hMem | hMem
              · exact hLater (Nat.le_of_lt hEnd) other hMem
              · rw [List.mem_singleton.1 hMem]
          · apply Lays.before hBounds hSorted (by omega) hRun hIn
            intro padded
            exact ih hRuns hSorted (hLater (Nat.le_add_right _ _)) (by omega) (by omega)

namespace Request

variable {cfg : Config} (request : Request cfg)

/-- Every prefill that covers the prompt is laid out. -/
theorem layout_laid {queryLen : Nat} (hCovers : request.numPromptTokens ≤ queryLen) :
    ∃ chunks total, layout cfg request.mmFeatures queryLen = .ok (chunks, total) ∧
      Laid cfg request.imageRuns queryLen 0 0 chunks total := by
  have hLays : Lays cfg queryLen queryLen [] request.imageRuns 0 0 := by
    apply layChunks_laid cfg _ request.imageRuns_sorted (by simp) (Nat.zero_le _) (by omega)
    intro run hMem
    obtain ⟨hLt, hIn, hTakes⟩ := request.imageRuns_ok hMem
    exact ⟨hLt, Nat.le_trans hIn hCovers, hTakes⟩
  obtain ⟨chunks, total, hLayout, hLaid⟩ := hLays
  refine ⟨chunks, total, ?_, hLaid⟩
  rw [layout, request.imageEmbedSegments_eq hCovers]
  exact hLayout

end Request

/-! ### The reserved slots -/

/-- Paddings of the requests that have slots. -/
abbrev PadCache := Nat → Option Nat

/-- `num_tokens_need_slot` in `allocate_slots`. -/
def numTokensNeedSlot (cfg : Config) (padCache : PadCache) (requestId : Nat)
    (request : Request cfg) (numTokens : Nat) : Except PadError (PadCache × Nat) :=
  match padCache requestId with
  | some pad => .ok (padCache, min numTokens cfg.maxModelLen + pad)
  | none => do
      let pad ← chunkedPrefillPad cfg request.mmFeatures
        (min request.numPromptTokens cfg.maxModelLen)
      return (Function.update padCache requestId (some pad), min numTokens cfg.maxModelLen + pad)

/-- The paddings after some calls of `allocate_slots` and `free`. -/
inductive PadCached (cfg : Config) (requests : Nat → Request cfg) : PadCache → Prop
  | initial : PadCached cfg requests fun _ => none
  | allocate {padCache padCache' : PadCache} {requestId numTokens need : Nat}
      (prior : PadCached cfg requests padCache)
      (hAllocate : numTokensNeedSlot cfg padCache requestId (requests requestId) numTokens =
        .ok (padCache', need)) : PadCached cfg requests padCache'
  | free {padCache : PadCache} (prior : PadCached cfg requests padCache) (requestId : Nat) :
      PadCached cfg requests (Function.update padCache requestId none)

/-- A padding that is kept is the one of the prompt. -/
theorem PadCached.pad_eq {cfg : Config} {requests : Nat → Request cfg} {padCache : PadCache}
    (reached : PadCached cfg requests padCache) {requestId pad : Nat}
    (hPad : padCache requestId = some pad) :
    chunkedPrefillPad cfg (requests requestId).mmFeatures
      (min (requests requestId).numPromptTokens cfg.maxModelLen) = .ok pad := by
  induction reached with
  | initial => cases hPad
  | @allocate padCache padCache' other numTokens need prior hAllocate ih =>
      unfold numTokensNeedSlot at hAllocate
      split at hAllocate
      · cases hAllocate
        exact ih hPad
      · cases hNew : chunkedPrefillPad cfg (requests other).mmFeatures
            (min (requests other).numPromptTokens cfg.maxModelLen) with
        | error error =>
            rw [hNew] at hAllocate
            cases hAllocate
        | ok new =>
            rw [hNew] at hAllocate
            cases hAllocate
            by_cases hEq : requestId = other
            · subst hEq
              rw [Function.update_self] at hPad
              cases hPad
              exact hNew
            · rw [Function.update_of_ne hEq] at hPad
              exact ih hPad
  | free prior other ih =>
      by_cases hEq : requestId = other
      · subst hEq
        rw [Function.update_self] at hPad
        cases hPad
      · rw [Function.update_of_ne hEq] at hPad
        exact ih hPad

/-- Whatever came before, the slots are those of the tokens and of the prompt's padding. -/
theorem PadCached.need {cfg : Config} {requests : Nat → Request cfg} {padCache : PadCache}
    (reached : PadCached cfg requests padCache) {requestId pad : Nat} (numTokens : Nat)
    (hPad : chunkedPrefillPad cfg (requests requestId).mmFeatures
      (min (requests requestId).numPromptTokens cfg.maxModelLen) = .ok pad) :
    ∃ padCache', numTokensNeedSlot cfg padCache requestId (requests requestId) numTokens =
      .ok (padCache', min numTokens cfg.maxModelLen + pad) := by
  unfold numTokensNeedSlot
  cases hOld : padCache requestId with
  | some old =>
      have hSame := reached.pad_eq hOld
      rw [hPad] at hSame
      cases hSame
      exact ⟨padCache, rfl⟩
  | none =>
      rw [hPad]
      exact ⟨_, rfl⟩

namespace Request

variable {cfg : Config} (request : Request cfg)

/-- Where the text behind the last image starts: its first token and that token's slot. -/
def tail : Nat × Nat := cfg.imagesEnd request.imageRuns 0 0

/-- Slots that this text leaves over at block ends, in a prefill over `numTokens` tokens. -/
def skipped (numTokens : Nat) : Nat :=
  skippedSlots cfg.blockSize cfg.prefillChunkSize request.tail.2 (numTokens - request.tail.1)

/-- The slot of the last of `numTokens` tokens. -/
def lastSlot (numTokens : Nat) : Nat :=
  request.tail.2 + (numTokens - request.tail.1) + request.skipped numTokens - 1

/-- The generated tokens leave over no more slots than the last block has before the last
token. -/
def Roomy (numTokens : Nat) : Prop :=
  request.skipped numTokens - request.skipped request.numPromptTokens ≤
    request.lastSlot numTokens % cfg.blockSize

instance (numTokens : Nat) : Decidable (request.Roomy numTokens) :=
  inferInstanceAs (Decidable (_ ≤ _))

/-- The first prefill always has the room. -/
theorem roomy_first : request.Roomy request.numPromptTokens := by
  rw [Roomy, Nat.sub_self]
  exact Nat.zero_le _

/-- A request without images has it in any prefill, if blocks are a multiple of chunks. -/
theorem roomy_of_text (hText : request.mmFeatures = []) (hDvd : cfg.blockSize % cfg.prefillChunkSize = 0)
    (numTokens : Nat) : request.Roomy numTokens := by
  have hTail : request.tail = (0, 0) := by
    rw [tail, imageRuns, hText]
    rfl
  have hRoom : room cfg.blockSize 0 = cfg.blockSize := by
    rw [room, Nat.zero_mod, Nat.sub_zero]
  rw [Roomy, skipped, hTail, skippedSlots, hRoom, leftOver_fresh cfg.chunk_pos cfg.chunk_fits, hDvd,
    Nat.mul_zero, Nat.zero_sub]
  exact Nat.zero_le _

theorem imagesEnd_le {runs : List (Nat × Nat)} {bound step : Nat} (slot : Nat)
    (hRuns : ∀ run ∈ runs, run.2 ≤ bound) (hStep : step ≤ bound) :
    (cfg.imagesEnd runs step slot).1 ≤ bound := by
  induction runs generalizing step slot with
  | nil => exact hStep
  | cons run runs ih =>
      have hRest : ∀ other ∈ runs, other.2 ≤ bound := fun other hMem =>
        hRuns other (List.mem_cons_of_mem _ hMem)
      rw [Config.imagesEnd]
      split
      · exact ih slot hRest hStep
      · exact ih _ hRest (hRuns run List.mem_cons_self)

theorem tail_le : request.tail.1 ≤ request.numPromptTokens :=
  imagesEnd_le 0 (fun _ hMem => (request.imageRuns_ok hMem).2.1) (Nat.zero_le _)

/-- The padding of a layout, in closed form behind the images. -/
theorem pad_add {queryLen total : Nat} {chunks : List Chunk}
    (hLaid : Laid cfg request.imageRuns queryLen 0 0 chunks total) :
    queryLen + total = request.tail.2 + (queryLen - request.tail.1) + request.skipped queryLen :=
  hLaid.end_eq

end Request

/-- Where the slot lies in its block. -/
theorem block_start (blockSize slot : Nat) :
    slot / blockSize * blockSize = slot - slot % blockSize := by
  have hSplit := Nat.div_add_mod' slot blockSize
  omega

/-- A chunk that keeps to its block is in the block of its first slot. -/
theorem Chunk.InBlock.div_eq {blockSize : Nat} {chunk : Chunk} (hIn : chunk.InBlock blockSize)
    {slot : Nat} (hFrom : chunk.slot ≤ slot) (hTo : slot < chunk.slot + chunk.size) :
    slot / blockSize = chunk.slot / blockSize := by
  have hSplit := Nat.div_add_mod' chunk.slot blockSize
  unfold Chunk.InBlock at hIn
  rw [Nat.div_eq_iff (by omega)]
  omega

/-- Every slot of every chunk lies in the first `numBlocks` blocks. -/
def InBlocks (cfg : Config) (chunks : List Chunk) (numBlocks : Nat) : Prop :=
  ∀ chunk ∈ chunks, ∀ slot, chunk.slot ≤ slot → slot < chunk.slot + chunk.size →
    slot / cfg.blockSize < numBlocks

/-- The chunks are in the reserved blocks if and only if the slots that the prompt's padding does
not know of leave the last block to the last token. -/
theorem Laid.inBlocks_iff {cfg : Config} {request : Request cfg} {numTokens total pad : Nat}
    {chunks prompt : List Chunk} (hPrompt : request.numPromptTokens ≤ numTokens)
    (hLaid : Laid cfg request.imageRuns numTokens 0 0 chunks total)
    (hPad : Laid cfg request.imageRuns request.numPromptTokens 0 0 prompt pad) :
    InBlocks cfg chunks (ceilDiv (numTokens + pad) cfg.blockSize) ↔ request.Roomy numTokens := by
  have hBlock : 0 < cfg.blockSize := Nat.lt_of_lt_of_le cfg.chunk_pos cfg.chunk_fits
  have hTail := request.tail_le
  have hTotal := request.pad_add hLaid
  have hReserved := request.pad_add hPad
  have hOffset := Nat.mod_lt (request.lastSlot numTokens) hBlock
  unfold Request.Roomy
  constructor
  · intro hIn
    by_contra hNot
    have hText : request.tail.1 < numTokens := by
      by_contra hNone
      have hZero : request.skipped numTokens = 0 := by
        rw [Request.skipped, Nat.sub_eq_zero_of_le (by omega), skippedSlots_zero _ cfg.chunk_pos]
      omega
    obtain ⟨chunk, hMem, hReaches⟩ := hLaid.last hText
    have hFrom := (hLaid.inBlock chunk hMem).2
    have hLast : request.lastSlot numTokens = numTokens + total - 1 := by
      rw [hTotal]
      rfl
    have hSlot := hIn chunk hMem (request.lastSlot numTokens) (by omega) (by omega)
    rw [lt_ceilDiv hBlock, block_start] at hSlot
    omega
  · intro hRoomy chunk hMem slot hSlotFrom hSlotTo
    obtain ⟨hIn, hFrom⟩ := hLaid.inBlock chunk hMem
    have hLast : request.lastSlot numTokens = numTokens + total - 1 := by
      rw [hTotal]
      rfl
    have hSame := hIn.div_eq hSlotFrom hSlotTo
    have hLe : chunk.slot / cfg.blockSize ≤ request.lastSlot numTokens / cfg.blockSize :=
      Nat.div_le_div_right (by omega)
    have hStart := Nat.mul_le_mul_right cfg.blockSize hLe
    have hMod := Nat.mod_le (request.lastSlot numTokens) cfg.blockSize
    rw [lt_ceilDiv hBlock, hSame]
    rw [block_start _ (request.lastSlot numTokens)] at hStart
    omega

/-- For any prompt and any number of generated tokens the layout of a prefill ends and no chunk
straddles a boundary; it is in the reserved blocks if and only if the generated tokens leave over
few enough slots. -/
theorem prefill_fits_iff (cfg : Config) {requests : Nat → Request cfg} {padCache : PadCache}
    (reached : PadCached cfg requests padCache) (requestId : Nat) {numTokens : Nat}
    (hPrompt : (requests requestId).numPromptTokens ≤ numTokens)
    (hLen : numTokens ≤ cfg.maxModelLen) :
    ∃ chunks total padCache' need,
      layout cfg (requests requestId).mmFeatures numTokens = .ok (chunks, total) ∧
      numTokensNeedSlot cfg padCache requestId (requests requestId) numTokens =
        .ok (padCache', need) ∧
      (∀ chunk ∈ chunks, chunk.InBlock cfg.blockSize) ∧
      (InBlocks cfg chunks (ceilDiv need cfg.blockSize) ↔ (requests requestId).Roomy numTokens) := by
  obtain ⟨prompt, pad, hLayoutPrompt, hPad⟩ := (requests requestId).layout_laid (Nat.le_refl _)
  obtain ⟨chunks, total, hLayout, hLaid⟩ := (requests requestId).layout_laid hPrompt
  have hCompute : chunkedPrefillPad cfg (requests requestId).mmFeatures
      (min (requests requestId).numPromptTokens cfg.maxModelLen) = .ok pad := by
    rw [Nat.min_eq_left (Nat.le_trans hPrompt hLen), chunkedPrefillPad, hLayoutPrompt]
    rfl
  obtain ⟨padCache', hNeed⟩ := reached.need numTokens hCompute
  rw [Nat.min_eq_left hLen] at hNeed
  exact ⟨chunks, total, padCache', numTokens + pad, hLayout, hNeed,
    fun chunk hMem => (hLaid.inBlock chunk hMem).1, hLaid.inBlocks_iff hPrompt hPad⟩

/-- Blocks of ten slots, and text in chunks of four. -/
def Config.tens : Config where
  blockSize := 10
  attnBlockSize := none
  prefillChunkSize := 4
  imagePrefillChunkSize := []
  maxModelLen := 100
  attn_eq := by simp
  chunk_pos := by decide
  chunk_fits := by decide
  buckets_pos := by simp
  buckets_fit := by simp

/-- A prompt of twenty tokens without images. -/
def Request.twenty : Request Config.tens where
  mmFeatures := []
  numPromptTokens := 20
  masked := by simp

example : chunkedPrefillPad Config.tens [] 20 = .ok 4 := by decide

/-- With seven generated tokens the prefill has the room that it needs. -/
theorem prefill_fits_iff_twenty : Request.twenty.Roomy 27 ∧ ∃ chunks total padCache' need,
    layout Config.tens Request.twenty.mmFeatures 27 = .ok (chunks, total) ∧
    numTokensNeedSlot Config.tens (fun _ => none) 0 Request.twenty 27 = .ok (padCache', need) ∧
    (∀ chunk ∈ chunks, chunk.InBlock 10) ∧
    (InBlocks Config.tens chunks (ceilDiv need 10) ↔ Request.twenty.Roomy 27) :=
  ⟨by decide, @prefill_fits_iff Config.tens (fun _ => Request.twenty) _ .initial 0 27 (by decide)
    (by decide)⟩

/-- With five of them its last chunk starts behind the three blocks that are reserved. -/
theorem prefill_overruns : ∃ chunks total padCache' need,
    layout Config.tens Request.twenty.mmFeatures 25 = .ok (chunks, total) ∧
    numTokensNeedSlot Config.tens (fun _ => none) 0 Request.twenty 25 = .ok (padCache', need) ∧
    ceilDiv need 10 = 3 ∧ ⟨30, 4⟩ ∈ chunks ∧ ¬ InBlocks Config.tens chunks (ceilDiv need 10) := by
  have hLayout : layout Config.tens Request.twenty.mmFeatures 25 =
      .ok ([⟨0, 4⟩, ⟨4, 4⟩, ⟨10, 4⟩, ⟨14, 4⟩, ⟨20, 4⟩, ⟨24, 4⟩, ⟨30, 4⟩], 6) := by decide
  obtain ⟨padCache', hNeed⟩ :=
    @PadCached.need Config.tens (fun _ => Request.twenty) _ .initial 0 4 25 (by decide)
  refine ⟨_, _, padCache', _, hLayout, hNeed, rfl, by decide, ?_⟩
  intro hIn
  exact absurd (hIn ⟨30, 4⟩ (by decide) 30 (by decide) (by decide)) (by decide)

end VllmRbln.Optimum.ChunkedPrefill
