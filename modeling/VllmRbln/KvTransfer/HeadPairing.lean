import VllmRbln.Common.Grid
import VllmRbln.KvTransfer.HeadBands

/-! What a handshake with a peer of another tensor-parallel size registers. Once the checks pass, the
two descriptor lists are one grid over the same bands, blocks and slots, and so are the descriptors
that a request picks from them. -/
namespace VllmRbln.KvTransfer.HeadBands

open Checked Grid Handshake

/-! ### The checks -/

theorem getAt_ok {α : Type} {xs : List α} {i : Nat} {x : α} :
    getAt xs i = .ok x ↔ xs[i]? = some x := by
  unfold getAt
  cases xs[i]? with
  | none =>
      constructor
      · intro hOk
        cases hOk
      · intro hSome
        cases hSome
  | some found =>
      constructor
      · intro hOk
        cases hOk
        rfl
      · intro hSome
        cases hSome
        rfl

theorem require_ok {holds : Prop} [Decidable holds] {error : HeadBandError} {done : Unit} :
    require holds error = .ok done ↔ holds := by
  unfold require
  by_cases hHolds : holds
  · rw [if_pos hHolds]
    exact ⟨fun _ => hHolds, fun _ => rfl⟩
  · rw [if_neg hHolds]
    constructor
    · intro hOk
      cases hOk
    · intro hHeld
      exact absurd hHeld hHolds

theorem mapError_ok {ε ε' α : Type} {f : ε → ε'} {run : Except ε α} {value : α} :
    run.mapError f = .ok value ↔ run = .ok value := by
  cases run with
  | error error =>
      constructor
      · intro hOk
        cases hOk
      · intro hOk
        cases hOk
  | ok found =>
      constructor
      · intro hOk
        cases hOk
        rfl
      · intro hOk
        cases hOk
        rfl

/-- The heads of a layer are cut evenly, over the ranks and then over a rank's slices. -/
theorem sliceHeadBounds_ok {tpRank tpSize totalKvHeads areas slices : Nat} {side : Side}
    {bounds : Nat × Nat}
    (hOk : sliceHeadBounds tpRank tpSize totalKvHeads areas slices side = .ok bounds) :
    totalKvHeads = tpSize * (totalKvHeads / tpSize) ∧
      totalKvHeads / tpSize = slices * (totalKvHeads / tpSize / slices) ∧
      0 < slices ∧ areas = slices * (areas / slices) ∧
      bounds = (tpRank * (totalKvHeads / tpSize), totalKvHeads / tpSize / slices) := by
  simp only [sliceHeadBounds, bind_eq_ok, require_ok, pure, Except.pure,
    Except.ok.injEq] at hOk
  obtain ⟨_, hRanks, _, ⟨hSome, hSlices⟩, _, hAreas, rfl⟩ := hOk
  exact ⟨(Nat.mul_div_cancel' (Nat.dvd_of_mod_eq_zero hRanks)).symm,
    (Nat.mul_div_cancel' (Nat.dvd_of_mod_eq_zero hSlices)).symm, hSome,
    (Nat.mul_div_cancel' (Nat.dvd_of_mod_eq_zero hAreas)).symm, rfl⟩

theorem width_pos {total tpSize slices : Nat} (hPos : 0 < total)
    (hRanks : total = tpSize * (total / tpSize))
    (hSlices : total / tpSize = slices * (total / tpSize / slices)) :
    0 < total / tpSize / slices := by
  apply Nat.pos_of_ne_zero
  intro hZero
  rw [hZero, Nat.mul_zero] at hSlices
  rw [hSlices, Nat.mul_zero] at hRanks
  omega

theorem headSplit_ok {cutsL cutsR split : Nat} (hOk : headSplit cutsL cutsR = .ok split) :
    split = (if cutsR ≤ cutsL then 1 else cutsR / cutsL) ∧
      (cutsL < cutsR → cutsR = cutsL * split) := by
  unfold headSplit at hOk
  by_cases hCoarse : cutsR ≤ cutsL
  · simp only [if_pos hCoarse, pure, Except.pure, Except.ok.injEq] at hOk ⊢
    exact ⟨hOk.symm, fun hFine => absurd hFine (Nat.not_lt.2 hCoarse)⟩
  · simp only [if_neg hCoarse, bind_eq_ok, require_ok, pure, Except.pure, Except.ok.injEq] at hOk ⊢
    obtain ⟨_, hDivides, rfl⟩ := hOk
    exact ⟨rfl, fun _ => (Nat.mul_div_cancel' (Nat.dvd_of_mod_eq_zero hDivides)).symm⟩

/-! ### The pairing in closed form -/

/-- A worker, and the rank of a peer engine that it pairs with. -/
structure Pairing (Name : Type) where
  worker : BandWorker Name
  peer : BandMetadata Name
  remoteTpRank : Nat
  remoteTpSize : Nat

/-- One of our areas of a logical region, with the region's place in the peer's list. -/
structure Band where
  logicalL : Nat
  logicalR : Nat
  areaL : Nat

/-- A piece of a band, one of the peer's copies of it, and one of its ranges in a block. -/
structure Slot where
  piece : Nat
  copy : Nat
  half : Nat

namespace Pairing

variable {Name : Type} (pairing : Pairing Name)

def cutsL : Nat := pairing.worker.tpSize * pairing.worker.kvSlices

def cutsR : Nat := pairing.remoteTpSize * pairing.peer.kvSlices

def split : Nat := if pairing.cutsR ≤ pairing.cutsL then 1 else pairing.cutsR / pairing.cutsL

def runs : Nat := kvRuns pairing.worker.kvPerBlock pairing.cutsL pairing.cutsR

def replicasL : Nat := pairing.worker.kvAreas / pairing.worker.kvSlices

def replicasR : Nat := pairing.peer.kvAreas / pairing.peer.kvSlices

def fanout : Nat := pairing.worker.fanout pairing.replicasR

def heads (logical : Nat) : Nat := (pairing.worker.logicalRegionKvHeads.getD logical none).getD 0

def widthL (logical : Nat) : Nat :=
  pairing.heads logical / pairing.worker.tpSize / pairing.worker.kvSlices

def widthR (logical : Nat) : Nat :=
  pairing.heads logical / pairing.remoteTpSize / pairing.peer.kvSlices

/-- The first head of one of our areas. -/
def firstL (logical areaL : Nat) : Nat :=
  pairing.worker.tpRank * (pairing.heads logical / pairing.worker.tpSize) +
    areaL / pairing.replicasL * pairing.widthL logical

/-- The first head of the peer. -/
def baseR (logical : Nat) : Nat :=
  pairing.remoteTpRank * (pairing.heads logical / pairing.remoteTpSize)

def perPiece (logical : Nat) : Nat := pairing.widthL logical / pairing.split

/-- The first head of a piece, counted from the peer's first. -/
def pieceHead (band : Band) (piece : Nat) : Nat :=
  pairing.firstL band.logicalL band.areaL + piece * pairing.perPiece band.logicalL -
    pairing.baseR band.logicalL

def sliceR (band : Band) (piece : Nat) : Nat :=
  pairing.pieceHead band piece / pairing.widthR band.logicalL

def headWithin (band : Band) (piece : Nat) : Nat :=
  pairing.pieceHead band piece % pairing.widthR band.logicalL

def regionL (band : Band) : Nat := band.logicalL * pairing.worker.kvAreas + band.areaL

def regionR (band : Band) (piece copy : Nat) : Nat :=
  band.logicalR * pairing.peer.kvAreas + pairing.sliceR band piece * pairing.replicasR + copy

def pageL (band : Band) : Nat := pairing.worker.blockLenPerLayer.getD (pairing.regionL band) 0

def pageR (band : Band) (piece copy : Nat) : Nat :=
  pairing.peer.blockLens.getD (pairing.regionR band piece copy) 0

def subLen (band : Band) : Nat := pairing.pageL band / pairing.runs / pairing.split

def ownDesc (band : Band) (block : Nat) (slot : Slot) : Desc where
  addr := pairing.worker.kvCachesBaseAddr.getD (pairing.regionL band) 0 +
    block * pairing.pageL band + slot.half * (pairing.pageL band / pairing.runs) +
    slot.piece * pairing.subLen band
  len := pairing.subLen band
  deviceId := pairing.worker.deviceId

def headOffset (band : Band) (slot : Slot) : Nat :=
  pairing.headWithin band slot.piece *
    (pairing.pageR band slot.piece slot.copy / pairing.runs / pairing.widthR band.logicalL)

def peerDesc (band : Band) (block : Nat) (slot : Slot) : Desc where
  addr := pairing.peer.kvCachesBaseAddr.getD (pairing.regionR band slot.piece slot.copy) 0 +
    pairing.headOffset band slot + block * pairing.pageR band slot.piece slot.copy +
    slot.half * (pairing.pageR band slot.piece slot.copy / pairing.runs)
  len := pairing.subLen band
  deviceId := pairing.peer.deviceId

def slots : List Slot :=
  (List.range pairing.split).flatMap fun piece => (List.range pairing.fanout).flatMap fun copy =>
    (List.range pairing.runs).map fun half => ⟨piece, copy, half⟩

theorem mem_slots {slot : Slot} :
    slot ∈ pairing.slots ↔
      slot.piece < pairing.split ∧ slot.copy < pairing.fanout ∧ slot.half < pairing.runs := by
  simp only [slots, List.mem_flatMap, List.mem_range, List.mem_map]
  constructor
  · rintro ⟨piece, hPiece, copy, hCopy, half, hHalf, rfl⟩
    exact ⟨hPiece, hCopy, hHalf⟩
  · rintro ⟨hPiece, hCopy, hHalf⟩
    exact ⟨slot.piece, hPiece, slot.copy, hCopy, slot.half, hHalf, rfl⟩

theorem length_slots :
    pairing.slots.length = pairing.split * pairing.fanout * pairing.runs := by
  have hLength := chosen_length (List.range pairing.split) (List.range pairing.fanout)
    (List.range pairing.runs) fun piece copy half => (⟨piece, copy, half⟩ : Slot)
  rw [List.length_range, List.length_range, List.length_range, ← Nat.mul_assoc] at hLength
  exact hLength

def perLayer : Nat :=
  pairing.worker.numRegions / pairing.worker.localSeenLayerNames.length / pairing.worker.kvAreas

/-- Whether the peer holds one of our areas, from the model's count of heads. -/
def Holds (areaL : Nat) : Prop :=
  pairing.worker.tpSize < pairing.remoteTpSize →
    (pairing.worker.tpRank * (pairing.worker.totalNumKvHeads / pairing.worker.tpSize) +
      areaL / pairing.replicasL *
        (pairing.worker.totalNumKvHeads / pairing.worker.tpSize / pairing.worker.kvSlices)) /
      (pairing.worker.totalNumKvHeads / pairing.remoteTpSize) = pairing.remoteTpRank

instance (areaL : Nat) : Decidable (pairing.Holds areaL) :=
  inferInstanceAs (Decidable (_ → _))

def areas : List Nat := (List.range pairing.worker.kvAreas).filter pairing.Holds

variable [DecidableEq Name]

def logicalPairs : List (Nat × Nat) :=
  (pairing.worker.layerOverlap pairing.peer.registeredLayerNames).flatMap fun overlap =>
    (List.range pairing.perLayer).map fun c =>
      (overlap.2 * pairing.perLayer + c, overlap.1 * pairing.perLayer + c)

def bands : List Band :=
  pairing.logicalPairs.flatMap fun logical =>
    pairing.areas.map fun areaL => ⟨logical.1, logical.2, areaL⟩

omit [DecidableEq Name] in
theorem mem_areas {areaL : Nat} :
    areaL ∈ pairing.areas ↔ areaL < pairing.worker.kvAreas ∧ pairing.Holds areaL := by
  rw [areas, List.mem_filter, List.mem_range, decide_eq_true_eq]

theorem mem_bands {band : Band} :
    band ∈ pairing.bands ↔
      (band.logicalL, band.logicalR) ∈ pairing.logicalPairs ∧ band.areaL ∈ pairing.areas := by
  simp only [bands, List.mem_flatMap, List.mem_map]
  constructor
  · rintro ⟨logical, hLogical, areaL, hArea, rfl⟩
    exact ⟨hLogical, hArea⟩
  · rintro ⟨hLogical, hArea⟩
    exact ⟨_, hLogical, band.areaL, hArea, rfl⟩

end Pairing

/-! ### What a success says -/

theorem headSlice_ok {head baseR perSliceR slicesR perPiece j : Nat} {slice : Nat × Nat}
    (hWidth : 0 < perSliceR)
    (hOk : BandWorker.headSlice head baseR perSliceR slicesR perPiece j = .ok slice) :
    baseR ≤ head + j * perPiece ∧ (head + j * perPiece - baseR) / perSliceR < slicesR ∧
      slice = ((head + j * perPiece - baseR) / perSliceR,
        (head + j * perPiece - baseR) % perSliceR) := by
  simp only [BandWorker.headSlice, bind_eq_ok, require_ok, pure, Except.pure, Except.ok.injEq] at hOk
  obtain ⟨_, ⟨hFrom, hTo⟩, rfl⟩ := hOk
  have hStart : baseR ≤ head + j * perPiece := by
    by_contra hBefore
    have hNeg : ((head + j * perPiece : Nat) - (baseR : Int)) / perSliceR < 0 :=
      Int.ediv_neg_of_neg_of_pos (by omega) (by omega)
    omega
  have hOffset : ((head + j * perPiece : Nat) - (baseR : Int)) =
      ((head + j * perPiece - baseR : Nat) : Int) := by omega
  rw [hOffset] at hTo ⊢
  refine ⟨hStart, ?_, ?_⟩
  · exact_mod_cast hTo
  · rw [← Int.natCast_ediv, ← Int.natCast_emod, Int.toNat_natCast, Int.toNat_natCast]

namespace Pairing

variable {Name : Type} (pairing : Pairing Name)

/-- One copy of a piece lies inside a half of a block of the peer's region. -/
structure Fits (band : Band) (piece copy : Nat) : Prop where
  from_base : pairing.baseR band.logicalL ≤
    pairing.firstL band.logicalL band.areaL + piece * pairing.perPiece band.logicalL
  slice : pairing.sliceR band piece < pairing.peer.kvSlices
  base : ∃ base, pairing.peer.kvCachesBaseAddr[pairing.regionR band piece copy]? = some base
  page : pairing.peer.blockLens[pairing.regionR band piece copy]? =
    some (pairing.pageR band piece copy)
  halves : pairing.pageR band piece copy % pairing.runs = 0
  heads : pairing.pageR band piece copy / pairing.runs % pairing.widthR band.logicalL = 0
  inside : pairing.subLen band + pairing.headOffset band ⟨piece, copy, 0⟩ ≤
    pairing.pageR band piece copy / pairing.runs

/-- What the checks establish for one band. -/
structure Accepts (band : Band) : Prop where
  heads : pairing.worker.logicalRegionKvHeads[band.logicalL]? =
    some (some (pairing.heads band.logicalL))
  ranksL : pairing.heads band.logicalL =
    pairing.worker.tpSize * (pairing.heads band.logicalL / pairing.worker.tpSize)
  ranksR : pairing.heads band.logicalL =
    pairing.remoteTpSize * (pairing.heads band.logicalL / pairing.remoteTpSize)
  slicesL : pairing.heads band.logicalL / pairing.worker.tpSize =
    pairing.worker.kvSlices * pairing.widthL band.logicalL
  slicesR : pairing.heads band.logicalL / pairing.remoteTpSize =
    pairing.peer.kvSlices * pairing.widthR band.logicalL
  areasL : pairing.worker.kvAreas = pairing.worker.kvSlices * pairing.replicasL
  areasR : pairing.peer.kvAreas = pairing.peer.kvSlices * pairing.replicasR
  pageL : pairing.worker.blockLenPerLayer[pairing.regionL band]? = some (pairing.pageL band)
  fits : ∀ piece < pairing.split, ∀ copy < pairing.fanout, pairing.Fits band piece copy

variable {pairing} {band : Band}

theorem headCopy_ok {piece copy : Nat} {found : Nat × Nat}
    (hOk : BandWorker.headCopy pairing.peer.kvCachesBaseAddr pairing.peer.blockLens
      (pairing.regionL band) (pairing.regionR band piece copy) (pairing.widthR band.logicalL)
      (pairing.headWithin band piece) (pairing.subLen band) pairing.runs piece = .ok found)
    (hFrom : pairing.baseR band.logicalL ≤
      pairing.firstL band.logicalL band.areaL + piece * pairing.perPiece band.logicalL)
    (hSlice : pairing.sliceR band piece < pairing.peer.kvSlices) :
    pairing.Fits band piece copy ∧
      found = (pairing.peer.kvCachesBaseAddr.getD (pairing.regionR band piece copy) 0 +
        pairing.headOffset band ⟨piece, copy, 0⟩, pairing.pageR band piece copy) := by
  simp only [BandWorker.headCopy, bind_eq_ok, require_ok, getAt_ok, pure, Except.pure,
    Except.ok.injEq] at hOk
  obtain ⟨page, hPage, _, hHalves, _, hHeads, _, hInside, base, hBase, rfl⟩ := hOk
  have hPageR : pairing.pageR band piece copy = page := by
    rw [pageR, List.getD_eq_getElem?_getD, hPage]
    rfl
  rw [← hPageR] at hPage hHalves hHeads hInside ⊢
  refine ⟨⟨hFrom, hSlice, ⟨base, hBase⟩, hPage, hHalves, hHeads, hInside⟩, ?_⟩
  rw [List.getD_eq_getElem?_getD, hBase]
  rfl

/-- Where the peer keeps one copy of a piece, and the length of a block there. -/
def pieceCopy (pairing : Pairing Name) (band : Band) (piece copy : Nat) : Nat × Nat :=
  (pairing.peer.kvCachesBaseAddr.getD (pairing.regionR band piece copy) 0 +
    pairing.headOffset band ⟨piece, copy, 0⟩, pairing.pageR band piece copy)

theorem pieceCopies_ok {piece : Nat} {copies : List (Nat × Nat)}
    (hWidth : 0 < pairing.widthR band.logicalL)
    (hOk : (do
      let slice ← BandWorker.headSlice (pairing.firstL band.logicalL band.areaL)
        (pairing.baseR band.logicalL) (pairing.widthR band.logicalL) pairing.peer.kvSlices
        (pairing.perPiece band.logicalL) piece
      (List.range pairing.fanout).mapM fun copy =>
        BandWorker.headCopy pairing.peer.kvCachesBaseAddr pairing.peer.blockLens
          (pairing.regionL band)
          (band.logicalR * pairing.peer.kvAreas + slice.1 * pairing.replicasR + copy)
          (pairing.widthR band.logicalL) slice.2 (pairing.subLen band) pairing.runs piece) =
        .ok copies) :
    (∀ copy < pairing.fanout, pairing.Fits band piece copy) ∧
      copies = (List.range pairing.fanout).map (pairing.pieceCopy band piece) := by
  obtain ⟨slice, hSlice, hCopies⟩ := bind_eq_ok.1 hOk
  obtain ⟨hFrom, hInside, rfl⟩ := headSlice_ok hWidth hSlice
  constructor
  · intro copy hCopy
    obtain ⟨found, -, hFound⟩ := mem_of_mapM hCopies (List.mem_range.2 hCopy)
    exact (headCopy_ok hFound hFrom hInside).1
  · apply eq_map_of_mapM hCopies
    intro copy _ found hFound
    exact (headCopy_ok hFound hFrom hInside).2

theorem headMatchedDesc_ok {descs : List Desc} (hWidth : 0 < pairing.widthR band.logicalL)
    (hOk : pairing.worker.headMatchedDesc pairing.peer (pairing.regionL band) band.logicalR
      band.areaL
      (pairing.worker.tpRank * (pairing.heads band.logicalL / pairing.worker.tpSize),
        pairing.widthL band.logicalL)
      (pairing.baseR band.logicalL, pairing.widthR band.logicalL) pairing.split pairing.runs =
        .ok descs) :
    pairing.worker.blockLenPerLayer[pairing.regionL band]? = some (pairing.pageL band) ∧
      (∀ piece < pairing.split, ∀ copy < pairing.fanout, pairing.Fits band piece copy) ∧
      descs = (List.range pairing.peer.numBlocks).flatMap fun block =>
        pairing.slots.map (pairing.peerDesc band block) := by
  simp only [BandWorker.headMatchedDesc, bind_eq_ok, getAt_ok, pure, Except.pure,
    Except.ok.injEq] at hOk
  obtain ⟨page, hPage, pieces, hPieces, rfl⟩ := hOk
  have hPageL : pairing.pageL band = page := by
    rw [pageL, List.getD_eq_getElem?_getD, hPage]
    rfl
  rw [← hPageL] at hPage hPieces ⊢
  have hAll : pieces = (List.range pairing.split).map fun piece =>
      (List.range pairing.fanout).map (pairing.pieceCopy band piece) := by
    apply eq_map_of_mapM hPieces
    intro piece _ copies hCopies
    exact (pieceCopies_ok hWidth hCopies).2
  refine ⟨hPage, ?_, ?_⟩
  · intro piece hPiece
    obtain ⟨copies, -, hCopies⟩ := mem_of_mapM hPieces (List.mem_range.2 hPiece)
    exact (pieceCopies_ok hWidth hCopies).1
  · apply List.flatMap_congr
    intro block _
    rw [hAll, ← List.flatMap_def, List.flatMap_assoc, slots, List.map_flatMap]
    apply List.flatMap_congr
    intro piece _
    rw [List.flatMap_map, List.map_flatMap]
    apply List.flatMap_congr
    intro copy _
    rw [List.map_map]
    rfl

theorem regionKvHeads_ok {logical heads : Nat}
    (hOk : pairing.worker.regionKvHeads logical = .ok heads) :
    pairing.worker.logicalRegionKvHeads[logical]? = some (some (pairing.heads logical)) ∧
      heads = pairing.heads logical := by
  simp only [BandWorker.regionKvHeads, bind_eq_ok, getAt_ok] at hOk
  obtain ⟨found, hFound, hValue⟩ := hOk
  cases found with
  | none => cases hValue
  | some found =>
      cases hValue
      have hHeads : pairing.heads logical = heads := by
        rw [Pairing.heads, List.getD_eq_getElem?_getD, hFound]
        rfl
      rw [hHeads]
      exact ⟨hFound, rfl⟩

variable (pairing) in
/-- Every layer that has a head band has a head. -/
def HasHeads : Prop := ∀ heads, some heads ∈ pairing.worker.logicalRegionKvHeads → 0 < heads

theorem Accepts.heads_pos (hAccepts : pairing.Accepts band) (hHeads : pairing.HasHeads) :
    0 < pairing.heads band.logicalL :=
  hHeads _ (List.mem_of_getElem? hAccepts.heads)

theorem Accepts.widthL_pos (hAccepts : pairing.Accepts band) (hHeads : pairing.HasHeads) :
    0 < pairing.widthL band.logicalL :=
  width_pos (hAccepts.heads_pos hHeads) hAccepts.ranksL hAccepts.slicesL

theorem Accepts.widthR_pos (hAccepts : pairing.Accepts band) (hHeads : pairing.HasHeads) :
    0 < pairing.widthR band.logicalL :=
  width_pos (hAccepts.heads_pos hHeads) hAccepts.ranksR hAccepts.slicesR

/-- The descriptors of one logical region. -/
theorem logicalDescs_ok {logical : Nat × Nat} {peerAreas : List Nat} {descs : List (List Desc)}
    (hHeads : pairing.HasHeads)
    (hOk : (do
      let totalHeads ← pairing.worker.regionKvHeads logical.1
      let geom ← sliceHeadBounds pairing.worker.tpRank pairing.worker.tpSize totalHeads
        pairing.worker.kvAreas pairing.worker.kvSlices .own
      let bounds ← sliceHeadBounds pairing.remoteTpRank pairing.remoteTpSize totalHeads
        pairing.peer.kvAreas pairing.peer.kvSlices .peer
      peerAreas.mapM fun areaL =>
        pairing.worker.headMatchedDesc pairing.peer (logical.1 * pairing.worker.kvAreas + areaL)
          logical.2 areaL geom bounds pairing.split pairing.runs) = .ok descs) :
    (∀ areaL ∈ peerAreas, pairing.Accepts ⟨logical.1, logical.2, areaL⟩) ∧
      descs = peerAreas.map fun areaL => (List.range pairing.peer.numBlocks).flatMap fun block =>
        pairing.slots.map (pairing.peerDesc ⟨logical.1, logical.2, areaL⟩ block) := by
  obtain ⟨heads, hCount, hOk⟩ := bind_eq_ok.1 hOk
  obtain ⟨hRegion, rfl⟩ := regionKvHeads_ok hCount
  obtain ⟨geom, hGeom, hOk⟩ := bind_eq_ok.1 hOk
  obtain ⟨hRanksL, hSlicesL, -, hAreasL, rfl⟩ := sliceHeadBounds_ok hGeom
  obtain ⟨bounds, hBounds, hOk⟩ := bind_eq_ok.1 hOk
  obtain ⟨hRanksR, hSlicesR, -, hAreasR, rfl⟩ := sliceHeadBounds_ok hBounds
  have hWidth : 0 < pairing.widthR logical.1 :=
    width_pos (hHeads _ (List.mem_of_getElem? hRegion)) hRanksR hSlicesR
  constructor
  · intro areaL hArea
    obtain ⟨found, -, hFound⟩ := mem_of_mapM hOk hArea
    obtain ⟨hPage, hFits, -⟩ :=
      @headMatchedDesc_ok _ pairing ⟨logical.1, logical.2, areaL⟩ _ hWidth hFound
    exact ⟨hRegion, hRanksL, hRanksR, hSlicesL, hSlicesR, hAreasL, hAreasR, hPage, hFits⟩
  · apply eq_map_of_mapM hOk
    intro areaL _ found hFound
    obtain ⟨-, -, hDescs⟩ :=
      @headMatchedDesc_ok _ pairing ⟨logical.1, logical.2, areaL⟩ _ hWidth hFound
    exact hDescs

/-! ### The peer's list -/

theorem headSplit_eq {split : Nat} (hOk : headSplit pairing.cutsL pairing.cutsR = .ok split) :
    split = pairing.split ∧
      (pairing.cutsL < pairing.cutsR → pairing.cutsR = pairing.cutsL * pairing.split) := by
  obtain ⟨hSplit, hCuts⟩ := headSplit_ok hOk
  have hEq : split = pairing.split := hSplit
  exact ⟨hEq, hEq ▸ hCuts⟩

theorem fanInPeerAreas_ok {peerAreas : Option (List Nat)}
    (hOk : pairing.worker.fanInPeerAreas pairing.remoteTpRank pairing.remoteTpSize =
      .ok peerAreas) :
    peerAreas.getD (List.range pairing.worker.kvAreas) = pairing.areas := by
  unfold BandWorker.fanInPeerAreas at hOk
  by_cases hCoarse : pairing.remoteTpSize ≤ pairing.worker.tpSize
  · simp only [if_pos hCoarse, pure, Except.pure, Except.ok.injEq] at hOk
    subst hOk
    symm
    apply List.filter_eq_self.2
    intro areaL _
    apply decide_eq_true
    intro hFiner
    omega
  · simp only [if_neg hCoarse, bind_eq_ok, require_ok, pure, Except.pure, Except.ok.injEq] at hOk
    obtain ⟨bounds, hBounds, _, -, rfl⟩ := hOk
    obtain ⟨-, -, -, -, rfl⟩ := sliceHeadBounds_ok hBounds
    apply List.filter_congr
    intro areaL _
    apply decide_eq_decide.2
    constructor
    · intro hHeld _
      exact hHeld
    · intro hHolds
      exact hHolds (by omega)

variable [DecidableEq Name]

omit [DecidableEq Name] in
theorem regionsPerLayer_ok {rpl : Nat} (hOk : pairing.worker.regionsPerLayer = .ok rpl) :
    rpl = pairing.worker.numRegions / pairing.worker.localSeenLayerNames.length ∧
      pairing.worker.numRegions = pairing.worker.localSeenLayerNames.length * rpl := by
  unfold Worker.regionsPerLayer at hOk
  dsimp only at hOk
  split at hOk
  · rename_i hDivides
    cases hOk
    exact ⟨rfl, (Nat.mul_div_cancel' (Nat.dvd_of_mod_eq_zero hDivides.2)).symm⟩
  · cases hOk

theorem logicalRegionPairs_ok {pairs : List (Nat × Nat)}
    (hOk : pairing.worker.logicalRegionPairs pairing.peer.registeredLayerNames = .ok pairs) :
    pairs = pairing.logicalPairs := by
  simp only [BandWorker.logicalRegionPairs, bind_eq_ok, mapError_ok, pure, Except.pure,
    Except.ok.injEq] at hOk
  obtain ⟨rpl, hRegions, rfl⟩ := hOk
  obtain ⟨rfl, -⟩ := regionsPerLayer_ok hRegions
  rfl

theorem buildHeadMatchedRemote_ok {peerAreas : Option (List Nat)} {descs : List Desc}
    (hHeads : pairing.HasHeads)
    (hAreas : peerAreas.getD (List.range pairing.worker.kvAreas) = pairing.areas)
    (hOk : pairing.worker.buildHeadMatchedRemote pairing.peer pairing.remoteTpRank
      pairing.remoteTpSize peerAreas = .ok descs) :
    (∀ band ∈ pairing.bands, pairing.Accepts band) ∧
      descs = grid pairing.bands pairing.peer.numBlocks pairing.slots pairing.peerDesc := by
  simp only [BandWorker.buildHeadMatchedRemote, bind_eq_ok, pure, Except.pure,
    Except.ok.injEq] at hOk
  obtain ⟨split, hSplit, pairs, hPairs, out, hOut, _, -, rfl⟩ := hOk
  obtain ⟨rfl, -⟩ := headSplit_eq hSplit
  obtain rfl := logicalRegionPairs_ok hPairs
  rw [hAreas] at hOut
  constructor
  · intro band hBand
    obtain ⟨hLogical, hArea⟩ := pairing.mem_bands.1 hBand
    obtain ⟨found, -, hFound⟩ := mem_of_mapM hOut hLogical
    exact (logicalDescs_ok hHeads hFound).1 band.areaL hArea
  · have hRows := eq_map_of_mapM hOut fun logical _ found hFound =>
      (logicalDescs_ok hHeads hFound).2
    rw [hRows, List.flatten_flatten, List.map_map, ← List.flatMap_def, grid, bands,
      List.flatMap_assoc]
    apply List.flatMap_congr
    intro logical _
    rw [Function.comp_apply, List.flatMap_map, ← List.flatMap_def]

/-! ### Our list -/

omit [DecidableEq Name] in
theorem ownRegionDescs_ok {copies : Nat} {region : Nat} {descs : List Desc}
    (hRegion : region = pairing.regionL band) (hCopies : copies = pairing.fanout)
    (hOk : pairing.worker.ownRegionDescs pairing.split copies pairing.runs region = .ok descs) :
    (∃ base, pairing.worker.kvCachesBaseAddr[pairing.regionL band]? = some base) ∧
      descs = (List.range pairing.worker.numBlocks).flatMap fun block =>
        pairing.slots.map (pairing.ownDesc band block) := by
  subst hRegion hCopies
  simp only [BandWorker.ownRegionDescs, bind_eq_ok, getAt_ok, pure, Except.pure,
    Except.ok.injEq] at hOk
  obtain ⟨base, hBase, page, hPage, rfl⟩ := hOk
  have hPageL : pairing.pageL band = page := by
    rw [pageL, List.getD_eq_getElem?_getD, hPage]
    rfl
  have hAddr : pairing.worker.kvCachesBaseAddr.getD (pairing.regionL band) 0 = base := by
    rw [List.getD_eq_getElem?_getD, hBase]
    rfl
  refine ⟨⟨base, hBase⟩, ?_⟩
  apply List.flatMap_congr
  intro block _
  rw [slots, List.map_flatMap]
  apply List.flatMap_congr
  intro piece _
  rw [List.map_flatMap]
  apply List.flatMap_congr
  intro copy _
  rw [List.map_map]
  apply List.map_congr_left
  intro half _
  rw [Function.comp_apply, ownDesc, hAddr, subLen, hPageL]

variable (pairing) in
/-- A layer's regions are whole rows of areas. -/
def WholeRows : Prop :=
  pairing.worker.numRegions / pairing.worker.localSeenLayerNames.length =
    pairing.perLayer * pairing.worker.kvAreas

omit [DecidableEq Name] in
/-- The regions of a layer in the areas that a transfer keeps. -/
theorem kept_eq :
    ((List.range (pairing.perLayer * pairing.worker.kvAreas)).filter fun k =>
        pairing.areas.contains (k % pairing.worker.kvAreas)) =
      (List.range pairing.perLayer).flatMap fun c =>
        pairing.areas.map (c * pairing.worker.kvAreas + ·) := by
  rw [← Bands.flatMap_tiles, List.filter_flatMap]
  apply List.flatMap_congr
  intro c _
  rw [List.filter_map]
  congr 1
  conv_rhs => rw [areas]
  apply List.filter_congr
  intro areaL hRange
  have hBound := List.mem_range.1 hRange
  have hPlace : (c * pairing.worker.kvAreas + areaL) % pairing.worker.kvAreas = areaL := by
    rw [Nat.mul_add_mod_self_right]
    exact Nat.mod_eq_of_lt hBound
  rw [Function.comp_apply, hPlace, Bool.eq_iff_iff, List.contains_iff_mem, decide_eq_true_eq]
  exact pairing.mem_areas.trans (and_iff_right hBound)

theorem shardLocalRegionIds_ok {peerAreas : Option (List Nat)} {regionIds : List Nat}
    (hAreas : peerAreas.getD (List.range pairing.worker.kvAreas) = pairing.areas)
    (hRows : pairing.WholeRows)
    (hOk : pairing.worker.shardLocalRegionIds pairing.peer.registeredLayerNames peerAreas =
      .ok regionIds) :
    regionIds = pairing.bands.map pairing.regionL := by
  simp only [Worker.shardLocalRegionIds, bind_eq_ok, pure, Except.pure, Except.ok.injEq] at hOk
  obtain ⟨rpl, hRegions, hOk⟩ := hOk
  obtain ⟨rfl, -⟩ := regionsPerLayer_ok hRegions
  rw [hRows] at hOk
  have hKept : ∃ keep, keep = (List.range pairing.perLayer).flatMap (fun c =>
        pairing.areas.map (c * pairing.worker.kvAreas + ·)) ∧
      regionIds = ((pairing.worker.layerOverlap pairing.peer.registeredLayerNames).map
        Prod.snd).flatMap fun layerIdx =>
          keep.map (layerIdx * (pairing.perLayer * pairing.worker.kvAreas) + ·) := by
    cases peerAreas with
    | none =>
        refine ⟨_, ?_, hOk.symm⟩
        rw [← hAreas]
        exact (Bands.flatMap_tiles _ _).symm
    | some wanted =>
        have hWanted : wanted = pairing.areas := hAreas
        subst hWanted
        exact ⟨_, kept_eq, hOk.symm⟩
  obtain ⟨keep, rfl, rfl⟩ := hKept
  rw [bands, logicalPairs, List.flatMap_map, List.flatMap_assoc, List.map_flatMap]
  apply List.flatMap_congr
  intro overlap _
  rw [List.map_flatMap, List.flatMap_map, List.map_flatMap]
  apply List.flatMap_congr
  intro c _
  rw [List.map_map, List.map_map]
  apply List.map_congr_left
  intro areaL _
  rw [Function.comp_apply, Function.comp_apply, regionL, Nat.add_mul, Nat.mul_assoc, Nat.add_assoc]

omit [DecidableEq Name] in
theorem ownDescs_ok {bands : List Band} {regionIds : List Nat} {copies : Nat}
    {descs : List (List Desc)} (hRegions : regionIds = bands.map pairing.regionL)
    (hCopies : copies = pairing.fanout)
    (hOk : regionIds.mapM (pairing.worker.ownRegionDescs pairing.split copies pairing.runs) =
      .ok descs) :
    (∀ band ∈ bands, ∃ base,
      pairing.worker.kvCachesBaseAddr[pairing.regionL band]? = some base) ∧
      descs.flatten = grid bands pairing.worker.numBlocks pairing.slots pairing.ownDesc := by
  rw [hRegions, List.mapM_map] at hOk
  constructor
  · intro band hBand
    obtain ⟨found, -, hFound⟩ := mem_of_mapM hOk hBand
    exact (ownRegionDescs_ok rfl hCopies hFound).1
  · rw [grid, List.flatMap_def]
    congr 1
    apply eq_map_of_mapM hOk
    intro band _ found hFound
    exact (ownRegionDescs_ok rfl hCopies hFound).2

/-! ### The handshake -/

variable (pairing) in
/-- Whether the peer is narrower than a whole-engine handle. -/
def Narrowed (ppSize : Nat) : Prop :=
  1 < ppSize ∨
    (pairing.worker.layerOverlap pairing.peer.registeredLayerNames).length <
      pairing.peer.registeredLayerNames.length ∨
    pairing.worker.tpSize < pairing.remoteTpSize ∨ 1 < pairing.split ∨ 1 < pairing.runs

variable (pairing) in
/-- Upstream's whole-engine handle names every region once, in our order. -/
def Whole : Prop :=
  pairing.fanout = 1 ∧ pairing.bands.map pairing.regionL = List.range pairing.worker.numRegions

/-- What a handshake leaves for transfers with the peer. -/
structure Registered (pairing : Pairing Name) (xfer : BandWorker.ShardXfer) : Prop where
  cuts : pairing.cutsL < pairing.cutsR → pairing.cutsR = pairing.cutsL * pairing.split
  accepts : ∀ band ∈ pairing.bands, pairing.Accepts band
  kvPerBlock : pairing.peer.kvPerBlock = pairing.worker.kvPerBlock
  headBytes : ∀ logical ∈ pairing.logicalPairs, ∃ localLen remoteLen,
    pairing.worker.blockLenPerLayer[logical.1 * pairing.worker.kvAreas]? = some localLen ∧
      pairing.peer.blockLens[logical.2 * pairing.peer.kvAreas]? = some remoteLen ∧
      localLen * pairing.widthR logical.1 = remoteLen * pairing.widthL logical.1
  bases : ∀ band ∈ pairing.bands, ∃ base,
    pairing.worker.kvCachesBaseAddr[pairing.regionL band]? = some base
  ownDescs : xfer.ownDescs =
    grid pairing.bands pairing.worker.numBlocks pairing.slots pairing.ownDesc
  peerDescs : xfer.peerDescs =
    grid pairing.bands pairing.peer.numBlocks pairing.slots pairing.peerDesc
  regions : xfer.shard.regionGroupIds = List.replicate pairing.bands.length 0
  perBlock : xfer.shard.descsPerBlock = pairing.slots.length

omit [DecidableEq Name] in
theorem checkD2dRegionPairing_ok {done : Unit}
    (hOk : pairing.worker.checkD2dRegionPairing pairing.peer = .ok done) :
    pairing.peer.kvPerBlock = pairing.worker.kvPerBlock := by
  simp only [BandWorker.checkD2dRegionPairing, bind_eq_ok, require_ok] at hOk
  obtain ⟨_, hSame, -⟩ := hOk
  exact hSame

theorem validateHeadMatchedHandshake_ok {done : Unit}
    (hOk : pairing.worker.validateHeadMatchedHandshake pairing.peer pairing.remoteTpSize =
      .ok done) :
    ∀ logical ∈ pairing.logicalPairs, ∃ localLen remoteLen,
      pairing.worker.blockLenPerLayer[logical.1 * pairing.worker.kvAreas]? = some localLen ∧
        pairing.peer.blockLens[logical.2 * pairing.peer.kvAreas]? = some remoteLen ∧
        localLen * pairing.widthR logical.1 = remoteLen * pairing.widthL logical.1 := by
  simp only [BandWorker.validateHeadMatchedHandshake, bind_eq_ok, require_ok] at hOk
  obtain ⟨_, -, _, -, pairs, hPairs, _, hChecks, -⟩ := hOk
  obtain rfl := logicalRegionPairs_ok hPairs
  intro logical hLogical
  obtain ⟨_, -, hCheck⟩ := mem_of_mapM hChecks hLogical
  simp only [bind_eq_ok, require_ok, getAt_ok] at hCheck
  obtain ⟨heads, hRegion, geom, hGeom, bounds, hBounds, localLen, hLocal, remoteLen, hRemote,
    hBytes⟩ := hCheck
  obtain ⟨-, rfl⟩ := regionKvHeads_ok hRegion
  obtain ⟨-, -, -, -, rfl⟩ := sliceHeadBounds_ok hGeom
  obtain ⟨-, -, -, -, rfl⟩ := sliceHeadBounds_ok hBounds
  exact ⟨localLen, remoteLen, hLocal, hRemote, hBytes⟩

/-- What holds of the two engines before they meet: a layer with a head band has heads, its regions
are whole rows of areas, and a block holds something. -/
structure Regular (pairing : Pairing Name) : Prop where
  heads : pairing.HasHeads
  rows : pairing.WholeRows
  copies : 0 < pairing.replicasR
  halves : 0 < pairing.worker.kvPerBlock

omit [DecidableEq Name] in
theorem Regular.runs_pos (hRegular : pairing.Regular) : 0 < pairing.runs := by
  unfold runs kvRuns
  split
  · exact hRegular.halves
  · exact Nat.one_pos

omit [DecidableEq Name] in
theorem split_pos (hCuts : pairing.cutsL < pairing.cutsR →
    pairing.cutsR = pairing.cutsL * pairing.split) : 0 < pairing.split := by
  by_cases hCoarse : pairing.cutsR ≤ pairing.cutsL
  · unfold split
    rw [if_pos hCoarse]
    exact Nat.one_pos
  · have hProduct := hCuts (by omega)
    apply Nat.pos_of_ne_zero
    intro hZero
    rw [hZero, Nat.mul_zero] at hProduct
    omega

omit [DecidableEq Name] in
theorem Regular.replicaFanout_eq (hRegular : pairing.Regular) :
    (if pairing.worker.writesIntoPeer then max 1 pairing.replicasR else 1) = pairing.fanout := by
  have hCopies := hRegular.copies
  unfold fanout BandWorker.fanout
  split
  · omega
  · rfl

theorem handshakeShard_registers {ppSize ppRank : Nat} {xfer : BandWorker.ShardXfer}
    (hRegular : pairing.Regular) (hWhole : ¬ pairing.Narrowed ppSize → pairing.Whole)
    (hOk : pairing.worker.handshakeShard ppSize pairing.peer ppRank pairing.remoteTpRank
      pairing.remoteTpSize = .ok (some xfer)) :
    pairing.Registered xfer := by
  unfold BandWorker.handshakeShard at hOk
  dsimp only at hOk
  split at hOk
  · cases hOk
  simp only [bind_eq_ok, BandWorker.addRemoteAgentHeadMatched] at hOk
  obtain ⟨split, hSplit, peerDescs, ⟨_, -, _, hPerBlock, _, hBytes, peerAreas, hPeerAreas, hBuild⟩,
    hOk⟩ := hOk
  obtain ⟨rfl, hCuts⟩ := headSplit_eq hSplit
  obtain ⟨hAccepts, rfl⟩ :=
    buildHeadMatchedRemote_ok hRegular.heads (fanInPeerAreas_ok hPeerAreas) hBuild
  have hRegister : ∀ descs shard,
      (∀ band ∈ pairing.bands, ∃ base,
        pairing.worker.kvCachesBaseAddr[pairing.regionL band]? = some base) →
      descs = grid pairing.bands pairing.worker.numBlocks pairing.slots pairing.ownDesc →
      shard.regionGroupIds = List.replicate pairing.bands.length 0 →
      shard.descsPerBlock = pairing.slots.length →
      pairing.Registered ⟨descs,
        grid pairing.bands pairing.peer.numBlocks pairing.slots pairing.peerDesc, shard⟩ :=
    fun descs shard hBases hDescs hGroups hCount =>
      ⟨hCuts, hAccepts, checkD2dRegionPairing_ok hPerBlock, validateHeadMatchedHandshake_ok hBytes, hBases,
        hDescs, rfl, hGroups, hCount⟩
  split at hOk
  · simp only [bind_eq_ok, BandWorker.registerShardXferState, mapError_ok, pure, Except.pure,
      Except.ok.injEq, Option.some.injEq] at hOk
    obtain ⟨_, hAgain, _, ⟨regionIds, hIds, descs, hDescs, rfl⟩, rfl⟩ := hOk
    have hRegions := shardLocalRegionIds_ok (fanInPeerAreas_ok hAgain) hRegular.rows hIds
    obtain ⟨hBases, hOwn⟩ := ownDescs_ok hRegions hRegular.replicaFanout_eq hDescs
    apply hRegister _ _ hBases hOwn
    · rw [hRegions, List.length_map]
    · rw [length_slots, ← hRegular.replicaFanout_eq]
      rfl
  · rename_i hWide
    simp only [bind_eq_ok, pure, Except.pure, Except.ok.injEq, Option.some.injEq] at hOk
    obtain ⟨descs, hDescs, rfl⟩ := hOk
    have hNarrow : ¬ pairing.Narrowed ppSize := hWide
    obtain ⟨hOne, hAll⟩ := hWhole hNarrow
    have hSplitOne : pairing.split = 1 := by
      have hPos := split_pos hCuts
      have hSmall : ¬ 1 < pairing.split := fun hMore => hNarrow (by simp [Narrowed, hMore])
      omega
    have hRunsOne : pairing.runs = 1 := by
      have hPos := hRegular.runs_pos
      have hSmall : ¬ 1 < pairing.runs := fun hMore => hNarrow (by simp [Narrowed, hMore])
      omega
    have hLength := congrArg List.length hAll
    rw [List.length_map, List.length_range] at hLength
    have hList : (List.range pairing.worker.numRegions).mapM
        (pairing.worker.ownRegionDescs pairing.split 1 pairing.runs) = .ok descs := by
      rw [hSplitOne, hRunsOne]
      exact hDescs
    obtain ⟨hBases, hOwn⟩ := ownDescs_ok hAll.symm hOne.symm hList
    apply hRegister _ _ hBases hOwn
    · rw [hLength]
    · rw [length_slots, hSplitOne, hOne, hRunsOne]

/-! ### The descriptors of a request -/

theorem blockDescs_eq (shard : ShardPeer) (numBlocks region block : Nat) :
    blockDescs shard numBlocks region block =
      (List.range shard.descsPerBlock).map
        ((region * numBlocks + block) * shard.descsPerBlock + ·) := by
  unfold blockDescs
  dsimp only
  split
  · rename_i hOne
    rw [hOne, List.range_one, List.map_singleton, Nat.mul_one, Nat.add_zero]
  · rfl

theorem zipIdx_replicate (n : Nat) (group : Nat) :
    (List.replicate n group).zipIdx = (List.range n).map fun i => (group, i) := by
  apply List.ext_getElem
  · simp
  · intro i _ _
    simp

/-- With one group of blocks the ids are places in the grid. -/
theorem blockDescsIdsForShard_places {shard : ShardPeer} {n : Nat}
    (hRegions : shard.regionGroupIds = List.replicate n 0) (numBlocks : Nat) (blocks : List Nat) :
    blockDescsIdsForShard shard numBlocks [blocks] =
      .ok (places n numBlocks shard.descsPerBlock blocks) := by
  rw [blockDescsIdsForShard_ok, hRegions, zipIdx_replicate, places, List.flatMap_map]
  · congr 1
    apply List.flatMap_congr
    intro i _
    apply List.flatMap_congr
    intro block _
    exact blockDescs_eq shard numBlocks i block
  · intro group hGroup
    rw [hRegions] at hGroup
    rw [List.eq_of_mem_replicate hGroup, List.length_singleton]
    exact Nat.one_pos

theorem Registered.mem_descPairs {xfer : BandWorker.ShardXfer} (hRegistered : pairing.Registered xfer)
    {ownBlocks peerBlocks : List Nat} (hLength : ownBlocks.length = peerBlocks.length)
    (hOwn : ∀ block ∈ ownBlocks, block < pairing.worker.numBlocks)
    (hPeer : ∀ block ∈ peerBlocks, block < pairing.peer.numBlocks) :
    ∃ pairs, descPairs xfer pairing.worker.numBlocks pairing.peer.numBlocks ownBlocks peerBlocks =
        some pairs ∧
      ∀ own peer, (own, peer) ∈ pairs ↔
        ∃ band ∈ pairing.bands, ∃ blocks ∈ ownBlocks.zip peerBlocks, ∃ slot ∈ pairing.slots,
          own = pairing.ownDesc band blocks.1 slot ∧
            peer = pairing.peerDesc band blocks.2 slot := by
  have hOwnDescs : (places pairing.bands.length pairing.worker.numBlocks pairing.slots.length
      ownBlocks).mapM (xfer.ownDescs[·]?) =
        some (chosen pairing.bands ownBlocks pairing.slots pairing.ownDesc) := by
    rw [hRegistered.ownDescs]
    exact mapM_places hOwn
  have hPeerDescs : (places pairing.bands.length pairing.peer.numBlocks pairing.slots.length
      peerBlocks).mapM (xfer.peerDescs[·]?) =
        some (chosen pairing.bands peerBlocks pairing.slots pairing.peerDesc) := by
    rw [hRegistered.peerDescs]
    exact mapM_places hPeer
  refine ⟨_, ?_, fun own peer => mem_zip_chosen hLength⟩
  rw [descPairs, blockDescsIdsForShard_places hRegistered.regions,
    blockDescsIdsForShard_places hRegistered.regions, hRegistered.perBlock]
  show (do
    let own ← (places pairing.bands.length pairing.worker.numBlocks pairing.slots.length
      ownBlocks).mapM (xfer.ownDescs[·]?)
    let peer ← (places pairing.bands.length pairing.peer.numBlocks pairing.slots.length
      peerBlocks).mapM (xfer.peerDescs[·]?)
    return own.zip peer) = _
  rw [hOwnDescs, hPeerDescs]
  rfl

end Pairing

end VllmRbln.KvTransfer.HeadBands
