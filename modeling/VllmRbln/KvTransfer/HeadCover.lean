import Mathlib.Tactic.Ring
import VllmRbln.Common.Copies
import VllmRbln.KvTransfer.HeadPairing

/-! Where the bytes of a transfer between tensor-parallel sizes go. Each pair of descriptors names the
same heads, in K and in V, and over the ranks of the other side the pairs cover every area. -/
namespace VllmRbln.KvTransfer.HeadBands

open Checked Copies Grid Handshake

/-! ### The layers of both sides -/

section Overlap

variable {Name : Type} [DecidableEq Name] {worker : Worker Name} {names : List Name}

theorem mem_layerOverlap {place layer : Nat} (hMem : (place, layer) ∈ worker.layerOverlap names) :
    ∃ name, names[place]? = some name ∧
      (Dict.valuesOf worker.localSeenLayerNames.zipIdx name)[(names.take place).count name]? =
        some layer := by
  unfold Worker.layerOverlap at hMem
  obtain ⟨⟨name, found⟩, hAt, hFound⟩ := List.mem_filterMap.1 hMem
  obtain ⟨index, hIndex, hSame⟩ := Option.map_eq_some_iff.1 hFound
  cases hSame
  have hGroup : ((Dict.group worker.localSeenLayerNames.zipIdx).lookup name).getD [] =
      Dict.valuesOf worker.localSeenLayerNames.zipIdx name := by
    rw [Dict.lookup_group]
    split
    · rename_i hNone
      rw [hNone]
      rfl
    · rfl
  rw [hGroup] at hIndex
  exact ⟨name, List.mem_zipIdx_iff_getElem?.1 hAt, hIndex⟩

theorem mem_valuesOf_zipIdx {own : List Name} {name : Name} {layer : Nat}
    (hMem : layer ∈ Dict.valuesOf own.zipIdx name) : own[layer]? = some name := by
  obtain ⟨⟨other, place⟩, hFiltered, rfl⟩ := List.mem_map.1 hMem
  obtain ⟨hAt, hName⟩ := List.mem_filter.1 hFiltered
  obtain rfl := of_decide_eq_true hName
  exact List.mem_zipIdx_iff_getElem?.1 hAt

theorem valuesOf_zipIdx_nodup (own : List Name) (name : Name) :
    (Dict.valuesOf own.zipIdx name).Nodup := by
  have hSub : (Dict.valuesOf own.zipIdx name).Sublist (own.zipIdx.map Prod.snd) :=
    List.Sublist.map _ List.filter_sublist
  apply hSub.nodup
  rw [List.zipIdx_map_snd]
  exact List.nodup_range'

/-- An occurrence of a name further on has more before it. -/
theorem count_take_lt {name : Name} {place later : Nat} (hAt : names[place]? = some name)
    (hLt : place < later) : (names.take place).count name < (names.take later).count name := by
  have hBound := (List.getElem?_eq_some_iff.1 hAt).1
  have hNext : names.take (place + 1) = names.take place ++ [name] := by
    rw [List.take_add_one, hAt]
    rfl
  have hPrefix : (names.take (place + 1)).Sublist (names.take later) :=
    (List.take_prefix_take_left hLt).sublist
  have hCount := hPrefix.count_le name
  rw [hNext, List.count_append, List.count_singleton_self] at hCount
  omega

/-- A layer of ours has one place in the peer's list, and the place one layer. -/
theorem layerOverlap_unique {place layer place' layer' : Nat}
    (hMem : (place, layer) ∈ worker.layerOverlap names)
    (hMem' : (place', layer') ∈ worker.layerOverlap names) : place = place' ↔ layer = layer' := by
  obtain ⟨name, hAt, hFound⟩ := mem_layerOverlap hMem
  obtain ⟨name', hAt', hFound'⟩ := mem_layerOverlap hMem'
  constructor
  · rintro rfl
    rw [hAt] at hAt'
    cases hAt'
    rw [hFound] at hFound'
    exact Option.some.inj hFound'
  · rintro rfl
    have hName := mem_valuesOf_zipIdx (List.mem_of_getElem? hFound)
    have hName' := mem_valuesOf_zipIdx (List.mem_of_getElem? hFound')
    rw [hName] at hName'
    cases hName'
    have hCount := (List.getElem?_inj (List.getElem?_eq_some_iff.1 hFound).1
      (valuesOf_zipIdx_nodup _ _)).1 (hFound.trans hFound'.symm)
    rcases Nat.lt_trichotomy place place' with hLt | hEq | hGt
    · have hMore := count_take_lt hAt hLt
      omega
    · exact hEq
    · have hMore := count_take_lt hAt' hGt
      omega

end Overlap

namespace Pairing

variable {Name : Type} {pairing : Pairing Name} {band : Band}

theorem logicalPairs_unique [DecidableEq Name] {logical logical' : Nat × Nat}
    (hMem : logical ∈ pairing.logicalPairs) (hMem' : logical' ∈ pairing.logicalPairs) :
    logical.1 = logical'.1 ↔ logical.2 = logical'.2 := by
  simp only [logicalPairs, List.mem_flatMap, List.mem_map, List.mem_range] at hMem hMem'
  obtain ⟨overlap, hOverlap, c, hC, rfl⟩ := hMem
  obtain ⟨overlap', hOverlap', c', hC', rfl⟩ := hMem'
  have hUnique := layerOverlap_unique hOverlap hOverlap'
  constructor
  · intro hSame
    obtain ⟨hLayer, rfl⟩ := rowMajor_inj hC hC' hSame
    rw [hUnique.2 hLayer]
  · intro hSame
    obtain ⟨hPlace, rfl⟩ := rowMajor_inj hC hC' hSame
    rw [hUnique.1 hPlace]

/-! ### One band -/

theorem Accepts.cutsL_mul (hAccepts : pairing.Accepts band) :
    pairing.heads band.logicalL = pairing.cutsL * pairing.widthL band.logicalL := by
  rw [cutsL, Nat.mul_assoc, ← hAccepts.slicesL]
  exact hAccepts.ranksL

theorem Accepts.cutsR_mul (hAccepts : pairing.Accepts band) :
    pairing.heads band.logicalL = pairing.cutsR * pairing.widthR band.logicalL := by
  rw [cutsR, Nat.mul_assoc, ← hAccepts.slicesR]
  exact hAccepts.ranksR

/-- The pieces of a band are its heads. -/
theorem Accepts.perPiece_mul (hAccepts : pairing.Accepts band) (hHeads : pairing.HasHeads)
    (hCuts : pairing.cutsL < pairing.cutsR → pairing.cutsR = pairing.cutsL * pairing.split) :
    pairing.perPiece band.logicalL * pairing.split = pairing.widthL band.logicalL := by
  by_cases hCoarse : pairing.cutsR ≤ pairing.cutsL
  · have hOne : pairing.split = 1 := if_pos hCoarse
    rw [perPiece, hOne, Nat.div_one, Nat.mul_one]
  · have hFiner := hCuts (by omega)
    have hTotal := hAccepts.cutsR_mul
    rw [hFiner, Nat.mul_assoc, hAccepts.cutsL_mul] at hTotal
    have hPos := hAccepts.heads_pos hHeads
    rw [hAccepts.cutsL_mul] at hPos
    have hWidth := Nat.eq_of_mul_eq_mul_left (Nat.pos_of_mul_pos_right hPos) hTotal
    exact Nat.div_mul_cancel ⟨_, hWidth⟩

/-- A block breaks into its halves, or both sides name it whole. -/
theorem Accepts.runs_cases (hAccepts : pairing.Accepts band) (hHeads : pairing.HasHeads) :
    pairing.runs = pairing.worker.kvPerBlock ∨
      pairing.runs = 1 ∧ pairing.split = 1 ∧
        pairing.widthL band.logicalL = pairing.widthR band.logicalL := by
  by_cases hSame : pairing.cutsL = pairing.cutsR
  · right
    have hTotal := hAccepts.cutsR_mul
    rw [← hSame, hAccepts.cutsL_mul] at hTotal
    have hPos := hAccepts.heads_pos hHeads
    rw [hAccepts.cutsL_mul] at hPos
    exact ⟨if_neg (not_not.2 hSame), if_pos hSame.ge,
      Nat.eq_of_mul_eq_mul_left (Nat.pos_of_mul_pos_right hPos) hTotal⟩
  · left
    exact if_pos hSame

/-- Blocks of both sides hold `bytes` of a head in each half. -/
structure Paged (pairing : Pairing Name) (band : Band) (bytes : Nat) : Prop where
  own : pairing.pageL band = pairing.worker.kvPerBlock * (pairing.widthL band.logicalL * bytes)
  peer : ∀ piece < pairing.split, ∀ copy < pairing.fanout, pairing.pageR band piece copy =
    pairing.worker.kvPerBlock * (pairing.widthR band.logicalL * bytes)

variable (pairing) in
/-- Where the bytes of a slot start in a block of ours, and of the peer's. -/
def startL (band : Band) (slot : Slot) : Nat :=
  slot.half * (pairing.pageL band / pairing.runs) + slot.piece * pairing.subLen band

variable (pairing) in
def startR (band : Band) (slot : Slot) : Nat :=
  pairing.headOffset band slot +
    slot.half * (pairing.pageR band slot.piece slot.copy / pairing.runs)

theorem ownDesc_addr (block t : Nat) (slot : Slot) :
    (pairing.ownDesc band block slot).addr + t =
      pairing.worker.kvCachesBaseAddr.getD (pairing.regionL band) 0 +
        (block * pairing.pageL band + (pairing.startL band slot + t)) := by
  rw [ownDesc, startL]
  dsimp only
  omega

theorem peerDesc_addr (block t : Nat) (slot : Slot) :
    (pairing.peerDesc band block slot).addr + t =
      pairing.peer.kvCachesBaseAddr.getD (pairing.regionR band slot.piece slot.copy) 0 +
        (block * pairing.pageR band slot.piece slot.copy + (pairing.startR band slot + t)) := by
  rw [peerDesc, startR]
  dsimp only
  omega

/-- What a byte of a slot is on either side: of one half, of one head and of one place in it. -/
structure SameByte (pairing : Pairing Name) (band : Band) (bytes : Nat) (slot : Slot)
    (t half headL headR byte : Nat) : Prop where
  half_lt : half < pairing.worker.kvPerBlock
  headL_lt : headL < pairing.widthL band.logicalL
  headR_lt : headR < pairing.widthR band.logicalL
  byte_lt : byte < bytes
  own : pairing.startL band slot + t =
    offset (pairing.widthL band.logicalL) bytes half headL byte
  peer : pairing.startR band slot + t =
    offset (pairing.widthR band.logicalL) bytes half headR byte
  head : pairing.firstL band.logicalL band.areaL + headL =
    pairing.baseR band.logicalL + (pairing.sliceR band slot.piece *
      pairing.widthR band.logicalL + headR)

/-- The head that a piece starts at, in the peer's slices. -/
theorem Fits.head_eq {piece copy : Nat} (hFits : pairing.Fits band piece copy) :
    pairing.firstL band.logicalL band.areaL + piece * pairing.perPiece band.logicalL =
      pairing.baseR band.logicalL + (pairing.sliceR band piece *
        pairing.widthR band.logicalL + pairing.headWithin band piece) := by
  have hFrom := hFits.from_base
  have hPlace : pairing.sliceR band piece * pairing.widthR band.logicalL +
      pairing.headWithin band piece = pairing.pieceHead band piece :=
    Nat.div_add_mod' _ _
  rw [hPlace, pieceHead]
  omega

theorem Paged.subLen_eq {bytes : Nat} (hPaged : pairing.Paged band bytes)
    (hHalves : 0 < pairing.worker.kvPerBlock) (hSplit : 0 < pairing.split)
    (hPieces : pairing.perPiece band.logicalL * pairing.split = pairing.widthL band.logicalL)
    (hRuns : pairing.runs = pairing.worker.kvPerBlock) :
    pairing.pageL band / pairing.runs = pairing.widthL band.logicalL * bytes ∧
      pairing.subLen band = pairing.perPiece band.logicalL * bytes := by
  have hHalf : pairing.pageL band / pairing.runs = pairing.widthL band.logicalL * bytes := by
    rw [hPaged.own, hRuns, Nat.mul_div_cancel_left _ hHalves]
  refine ⟨hHalf, ?_⟩
  rw [subLen, hHalf, ← hPieces, Nat.mul_right_comm, Nat.mul_div_cancel _ hSplit]

/-- Where a block breaks into halves, a piece is a stretch of heads in one of them. -/
theorem Accepts.sameByte_of_halves {bytes : Nat} {slot : Slot} (hAccepts : pairing.Accepts band)
    (hHeads : pairing.HasHeads) (hHalves : 0 < pairing.worker.kvPerBlock)
    (hPieces : pairing.perPiece band.logicalL * pairing.split = pairing.widthL band.logicalL)
    (hRuns : pairing.runs = pairing.worker.kvPerBlock) (hPaged : pairing.Paged band bytes)
    (hSlot : slot ∈ pairing.slots) {head byte : Nat} (hHead : head < pairing.perPiece band.logicalL)
    (hByte : byte < bytes) :
    pairing.SameByte band bytes slot (head * bytes + byte) slot.half
      (slot.piece * pairing.perPiece band.logicalL + head)
      (pairing.headWithin band slot.piece + head) byte := by
  obtain ⟨hPiece, hCopy, hHalf⟩ := pairing.mem_slots.1 hSlot
  have hFits := hAccepts.fits slot.piece hPiece slot.copy hCopy
  obtain ⟨hStride, hSub⟩ := hPaged.subLen_eq hHalves (by omega) hPieces hRuns
  have hPage : pairing.pageR band slot.piece slot.copy / pairing.runs =
      pairing.widthR band.logicalL * bytes := by
    rw [hPaged.peer _ hPiece _ hCopy, hRuns, Nat.mul_div_cancel_left _ hHalves]
  have hOffset : ∀ half, pairing.headOffset band ⟨slot.piece, slot.copy, half⟩ =
      pairing.headWithin band slot.piece * bytes := by
    intro half
    rw [headOffset, hPage, Nat.mul_div_cancel_left _ (hAccepts.widthR_pos hHeads)]
  have hInside : pairing.perPiece band.logicalL + pairing.headWithin band slot.piece ≤
      pairing.widthR band.logicalL := by
    have hBytes := hFits.inside
    rw [hSub, hOffset, hPage, ← Nat.add_mul] at hBytes
    exact Nat.le_of_mul_le_mul_right hBytes (by omega)
  have hOwnHead : slot.piece * pairing.perPiece band.logicalL + head <
      pairing.widthL band.logicalL := by
    rw [← hPieces, Nat.mul_comm _ pairing.split]
    exact rowMajor_lt hPiece hHead
  have hPieceHead := hFits.head_eq
  constructor
  · exact hRuns ▸ hHalf
  · exact hOwnHead
  · omega
  · exact hByte
  · rw [startL, hStride, hSub, offset]
    ring
  · rw [startR, hOffset slot.half, hPage, offset]
    ring
  · omega

/-- Where both sides name a block whole, so do the descriptors. -/
theorem Accepts.sameByte_of_whole {bytes : Nat} {slot : Slot} (hAccepts : pairing.Accepts band)
    (hHeads : pairing.HasHeads) (hHalves : 0 < pairing.worker.kvPerBlock)
    (hRuns : pairing.runs = 1) (hSplit : pairing.split = 1)
    (hWidths : pairing.widthL band.logicalL = pairing.widthR band.logicalL)
    (hPaged : pairing.Paged band bytes) (hSlot : slot ∈ pairing.slots) {half head byte : Nat}
    (hHalf : half < pairing.worker.kvPerBlock) (hHead : head < pairing.widthL band.logicalL)
    (hByte : byte < bytes) :
    pairing.SameByte band bytes slot (offset (pairing.widthL band.logicalL) bytes half head byte)
      half head head byte := by
  obtain ⟨hPiece, hCopy, hRun⟩ := pairing.mem_slots.1 hSlot
  have hFits := hAccepts.fits slot.piece hPiece slot.copy hCopy
  have hFirst : slot.piece = 0 := by omega
  have hOnly : slot.half = 0 := by omega
  have hPage := hPaged.peer _ hPiece _ hCopy
  have hWithin : pairing.headWithin band slot.piece = 0 := by
    have hOffset : pairing.headOffset band ⟨slot.piece, slot.copy, 0⟩ =
        pairing.headWithin band slot.piece * (pairing.worker.kvPerBlock * bytes) := by
      rw [headOffset, hPage, hRuns, Nat.div_one, Nat.mul_left_comm pairing.worker.kvPerBlock,
        Nat.mul_div_cancel_left _ (hAccepts.widthR_pos hHeads)]
    have hBytes := hFits.inside
    rw [hOffset, subLen, hRuns, hSplit, Nat.div_one, Nat.div_one, hPaged.own, hWidths, hPage,
      Nat.div_one] at hBytes
    have hZero : pairing.headWithin band slot.piece * (pairing.worker.kvPerBlock * bytes) = 0 := by
      omega
    rcases Nat.mul_eq_zero.1 hZero with hDone | hNone
    · exact hDone
    · rcases Nat.mul_eq_zero.1 hNone with hNo | hNo
      · omega
      · omega
  have hPieceHead := hFits.head_eq
  rw [hFirst, Nat.zero_mul] at hPieceHead
  constructor
  · exact hHalf
  · exact hHead
  · exact hWidths ▸ hHead
  · exact hByte
  · rw [startL, hOnly, hFirst, Nat.zero_mul, Nat.zero_mul, Nat.zero_add]
  · rw [startR, headOffset, hWithin, hOnly, Nat.zero_mul, Nat.zero_mul, Nat.zero_add, hWidths]
  · rw [hFirst] at hWithin ⊢
    omega

/-- Every byte of a slot is the same byte on both sides. -/
theorem Registered.slot_same [DecidableEq Name] {xfer : BandWorker.ShardXfer} {bytes t : Nat}
    {slot : Slot} (hRegistered : pairing.Registered xfer) (hRegular : pairing.Regular)
    (hBand : band ∈ pairing.bands) (hPaged : pairing.Paged band bytes)
    (hSlot : slot ∈ pairing.slots) (hByte : t < pairing.subLen band) :
    ∃ half headL headR byte, pairing.SameByte band bytes slot t half headL headR byte := by
  have hAccepts := hRegistered.accepts band hBand
  have hPieces := hAccepts.perPiece_mul hRegular.heads hRegistered.cuts
  rcases hAccepts.runs_cases hRegular.heads with hRuns | ⟨hRuns, hSplit, hWidths⟩
  · obtain ⟨-, hSub⟩ := hPaged.subLen_eq hRegular.halves (split_pos hRegistered.cuts) hPieces hRuns
    obtain ⟨head, hHead, byte, hInner, rfl⟩ := exists_rowMajor (hSub ▸ hByte)
    exact ⟨_, _, _, _, hAccepts.sameByte_of_halves hRegular.heads hRegular.halves hPieces hRuns hPaged
      hSlot hHead hInner⟩
  · rw [subLen, hRuns, hSplit, Nat.div_one, Nat.div_one, hPaged.own] at hByte
    obtain ⟨half, hHalf, head, hHead, byte, hInner, rfl⟩ := exists_offset hByte
    exact ⟨_, _, _, _, hAccepts.sameByte_of_whole hRegular.heads hRegular.halves hRuns hSplit hWidths
      hPaged hSlot hHalf hHead hInner⟩

/-- Every byte of an area of ours is in a slot, once for each copy. -/
theorem Registered.slot_covers [DecidableEq Name] {xfer : BandWorker.ShardXfer}
    {bytes half head byte copy : Nat}
    (hRegistered : pairing.Registered xfer) (hRegular : pairing.Regular)
    (hBand : band ∈ pairing.bands) (hPaged : pairing.Paged band bytes)
    (hHalf : half < pairing.worker.kvPerBlock) (hHead : head < pairing.widthL band.logicalL)
    (hByte : byte < bytes) (hCopy : copy < pairing.fanout) :
    ∃ slot ∈ pairing.slots, slot.copy = copy ∧ ∃ t < pairing.subLen band, ∃ headR,
      pairing.SameByte band bytes slot t half head headR byte := by
  have hAccepts := hRegistered.accepts band hBand
  have hPieces := hAccepts.perPiece_mul hRegular.heads hRegistered.cuts
  have hSplitPos := split_pos hRegistered.cuts
  rcases hAccepts.runs_cases hRegular.heads with hRuns | ⟨hRuns, hSplit, hWidths⟩
  · obtain ⟨-, hSub⟩ := hPaged.subLen_eq hRegular.halves hSplitPos hPieces hRuns
    rw [← hPieces, Nat.mul_comm] at hHead
    obtain ⟨piece, hPiece, rest, hRest, rfl⟩ := exists_rowMajor hHead
    have hSlot : (⟨piece, copy, half⟩ : Slot) ∈ pairing.slots :=
      pairing.mem_slots.2 ⟨hPiece, hCopy, hRuns ▸ hHalf⟩
    refine ⟨_, hSlot, rfl, rest * bytes + byte, ?_, _, hAccepts.sameByte_of_halves hRegular.heads
      hRegular.halves hPieces hRuns hPaged hSlot hRest hByte⟩
    rw [hSub]
    exact rowMajor_lt hRest hByte
  · have hSlot : (⟨0, copy, 0⟩ : Slot) ∈ pairing.slots :=
      pairing.mem_slots.2 ⟨hSplitPos, hCopy, hRegular.runs_pos⟩
    refine ⟨_, hSlot, rfl, _, ?_, _, hAccepts.sameByte_of_whole hRegular.heads hRegular.halves hRuns
      hSplit hWidths hPaged hSlot hHalf hHead hByte⟩
    rw [subLen, hRuns, hSplit, Nat.div_one, Nat.div_one, hPaged.own]
    exact offset_lt hHalf hHead hByte

end Pairing

end VllmRbln.KvTransfer.HeadBands
