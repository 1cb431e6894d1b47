import VllmRbln.KvTransfer.HeadCover

/-! Transfers between two engines of different tensor-parallel sizes, all ranks together. Whatever the
order in which the copies land, a rank that reads ends with its own heads in every area, and a rank
that is written to with its own heads in every replica. -/
namespace VllmRbln.KvTransfer.HeadBands

open Checked Copies Grid Handshake

variable {Name β : Type} [DecidableEq Name]

/-- Two engines. The ranks of one differ in their addresses and devices; `bytesL` and `bytesR` are
what a head of a logical region takes in one half of a block. -/
structure Engines (Name : Type) where
  worker : BandWorker Name
  peer : BandMetadata Name
  ownBases : Nat → List Nat
  peerBases : Nat → List Nat
  ownDevices : Nat → Nat
  peerDevices : Nat → Nat
  remoteTpSize : Nat
  ppSize : Nat
  ppRank : Nat
  bytesL : Nat → Nat
  bytesR : Nat → Nat

namespace Engines

variable (engines : Engines Name)

def own (rankL : Nat) : BandWorker Name :=
  { engines.worker with
    tpRank := rankL
    kvCachesBaseAddr := engines.ownBases rankL
    deviceId := engines.ownDevices rankL }

def remote (rankR : Nat) : BandMetadata Name :=
  { engines.peer with
    kvCachesBaseAddr := engines.peerBases rankR
    deviceId := engines.peerDevices rankR }

def pairing (rankL rankR : Nat) : Pairing Name :=
  ⟨engines.own rankL, engines.remote rankR, rankR, engines.remoteTpSize⟩

/-- The bands of two ranks share a head of the model. -/
def Meets (rankL rankR : Nat) : Prop :=
  ∃ head, head / (engines.worker.totalNumKvHeads / engines.worker.tpSize) = rankL ∧
    head / (engines.worker.totalNumKvHeads / engines.remoteTpSize) = rankR

def shared : List (Nat × Nat) := (engines.pairing 0 0).logicalPairs

def heads (logical : Nat) : Nat := (engines.pairing 0 0).heads logical

def widthL (logical : Nat) : Nat := (engines.pairing 0 0).widthL logical

def widthR (logical : Nat) : Nat := (engines.pairing 0 0).widthR logical

def pageL (logical : Nat) : Nat :=
  engines.worker.kvPerBlock * (engines.widthL logical * engines.bytesL logical)

def pageR (logical : Nat) : Nat :=
  engines.peer.kvPerBlock * (engines.widthR logical * engines.bytesR logical)

/-- The first head of an area. -/
def firstL (rankL logical areaL : Nat) : Nat := (engines.pairing rankL 0).firstL logical areaL

def firstR (rankR logical areaR : Nat) : Nat :=
  rankR * (engines.heads logical / engines.remoteTpSize) +
    areaR / (engines.peer.kvAreas / engines.peer.kvSlices) * engines.widthR logical

/-- Where a rank keeps a byte of a head: its area, its block, its half, and the head's place in the
area. -/
def addrL (rankL logical areaL block half head byte : Nat) : Nat :=
  (engines.ownBases rankL).getD (logical * engines.worker.kvAreas + areaL) 0 +
    (block * engines.pageL logical +
      offset (engines.widthL logical) (engines.bytesL logical) half head byte)

def addrR (rankR : Nat) (logical : Nat × Nat) (areaR block half head byte : Nat) : Nat :=
  (engines.peerBases rankR).getD (logical.2 * engines.peer.kvAreas + areaR) 0 +
    (block * engines.pageR logical.1 +
      offset (engines.widthR logical.1) (engines.bytesR logical.1) half head byte)

/-- No byte belongs to two regions. -/
def Apart (bases lens : List Nat) (numBlocks : Nat) : Prop :=
  ∀ region other u v, region ≠ other → u < numBlocks * lens.getD region 0 →
    v < numBlocks * lens.getD other 0 → bases.getD region 0 + u ≠ bases.getD other 0 + v

omit [DecidableEq Name] in
theorem Apart.place_inj {bases lens : List Nat} {numBlocks region other page page' block block' u v : Nat}
    (hApart : Apart bases lens numBlocks) (hPage : lens[region]? = some page)
    (hPage' : lens[other]? = some page') (hBlock : block < numBlocks) (hBlock' : block' < numBlocks)
    (hU : u < page) (hV : v < page')
    (hSame : bases.getD region 0 + (block * page + u) = bases.getD other 0 + (block' * page' + v)) :
    region = other ∧ block = block' ∧ u = v := by
  by_cases hRegion : region = other
  · subst hRegion
    rw [hPage] at hPage'
    cases hPage'
    exact ⟨rfl, rowMajor_inj hU hV (Nat.add_left_cancel hSame)⟩
  · have hFirst : block * page + u < numBlocks * lens.getD region 0 := by
      rw [List.getD_eq_getElem?_getD, hPage]
      exact rowMajor_lt hBlock hU
    have hSecond : block' * page' + v < numBlocks * lens.getD other 0 := by
      rw [List.getD_eq_getElem?_getD, hPage']
      exact rowMajor_lt hBlock' hV
    exact absurd hSame (hApart region other _ _ hRegion hFirst hSecond)

omit [DecidableEq Name] in
theorem apart_pair {base base' len numBlocks : Nat} (hFar : base + numBlocks * len ≤ base') :
    Apart [base, base'] [len, len] numBlocks := by
  intro region other u v hNe hU hV hSame
  match region, other with
  | 0, 0 => exact hNe rfl
  | 1, 1 => exact hNe rfl
  | 0, 1 =>
      simp only [List.getD_cons_zero, List.getD_cons_succ] at hU hSame
      omega
  | 1, 0 =>
      simp only [List.getD_cons_zero, List.getD_cons_succ] at hV hSame
      omega
  | region + 2, _ => simp at hU
  | _, other + 2 => simp at hV

/-- The two engines have met: every handshake of these ranks of ours came through, over regions as
the KV cache lays them out. -/
structure Met (engines : Engines Name) (ranks : Nat → Prop)
    (xfer : Nat → Nat → BandWorker.ShardXfer) : Prop where
  regular : ∀ rankL rankR, (engines.pairing rankL rankR).Regular
  rankHeads : 0 < engines.worker.totalNumKvHeads / engines.worker.tpSize
  remoteHeads : engines.remoteTpSize ∣ engines.worker.totalNumKvHeads
  areasL : engines.worker.kvSlices ∣ engines.worker.kvAreas
  someL : 0 < engines.worker.kvAreas / engines.worker.kvSlices
  areasR : engines.peer.kvSlices ∣ engines.peer.kvAreas
  lensL : ∀ logical ∈ engines.shared, ∀ areaL < engines.worker.kvAreas,
    engines.worker.blockLenPerLayer[logical.1 * engines.worker.kvAreas + areaL]? =
      some (engines.pageL logical.1)
  lensR : ∀ logical ∈ engines.shared, ∀ areaR < engines.peer.kvAreas,
    engines.peer.blockLens[logical.2 * engines.peer.kvAreas + areaR]? =
      some (engines.pageR logical.1)
  whole : ∀ rankL rankR, ¬ (engines.pairing rankL rankR).Narrowed engines.ppSize →
    (engines.pairing rankL rankR).Whole
  handshakes : ∀ rankL, ranks rankL → rankL < engines.worker.tpSize →
    ∀ rankR < engines.remoteTpSize, engines.Meets rankL rankR →
      (engines.own rankL).handshakeShard engines.ppSize (engines.remote rankR) engines.ppRank rankR
        engines.remoteTpSize = .ok (some (xfer rankL rankR))

variable {engines} {ranks : Nat → Prop} {xfer : Nat → Nat → BandWorker.ShardXfer}

omit [DecidableEq Name] in
/-- Each of our areas is in the transfers with one of the ranks that ours meets. -/
theorem exists_remote {rankL areaL : Nat}
    (hRankHeads : 0 < engines.worker.totalNumKvHeads / engines.worker.tpSize)
    (hRemoteHeads : engines.remoteTpSize ∣ engines.worker.totalNumKvHeads)
    (hAreas : engines.worker.kvSlices ∣ engines.worker.kvAreas)
    (hRank : rankL < engines.worker.tpSize) (hArea : areaL < engines.worker.kvAreas) :
    ∃ rankR < engines.remoteTpSize, engines.Meets rankL rankR ∧
      areaL ∈ (engines.pairing rankL rankR).areas := by
  let perRank := engines.worker.totalNumKvHeads / engines.worker.tpSize
  let perSlice := perRank / engines.worker.kvSlices
  let slice := areaL / (engines.worker.kvAreas / engines.worker.kvSlices)
  let head := rankL * perRank + slice * perSlice
  have hSlice : slice * perSlice < perRank := by
    have hSlices : slice < engines.worker.kvSlices := by
      apply Nat.div_lt_of_lt_mul
      rw [Nat.div_mul_cancel hAreas]
      exact hArea
    rcases Nat.eq_zero_or_pos perSlice with hZero | hPos
    · rw [hZero, Nat.mul_zero]
      exact hRankHeads
    · have hLess := Nat.mul_lt_mul_of_pos_right hSlices hPos
      have hAll : engines.worker.kvSlices * perSlice ≤ perRank := Nat.mul_div_le _ _
      omega
  have hHead : head < engines.remoteTpSize * (engines.worker.totalNumKvHeads /
      engines.remoteTpSize) := by
    have hBand := rowMajor_lt hRank hSlice
    have hAll : engines.worker.tpSize * perRank ≤ engines.worker.totalNumKvHeads :=
      Nat.mul_div_le _ _
    rw [Nat.mul_div_cancel' hRemoteHeads]
    omega
  have hPos : 0 < engines.worker.totalNumKvHeads / engines.remoteTpSize :=
    Nat.pos_of_mul_pos_left (Nat.lt_of_le_of_lt (Nat.zero_le _) hHead)
  refine ⟨head / (engines.worker.totalNumKvHeads / engines.remoteTpSize), ?_, ⟨head, ?_, rfl⟩, ?_⟩
  · exact (Nat.div_lt_iff_lt_mul hPos).2 hHead
  · exact rowMajor_div hSlice
  · apply (engines.pairing _ _).mem_areas.2
    exact ⟨hArea, fun _ => rfl⟩

namespace Met

variable {rankL rankR : Nat}

theorem registered (hMet : engines.Met ranks xfer) (hRank : ranks rankL)
    (hL : rankL < engines.worker.tpSize) (hR : rankR < engines.remoteTpSize)
    (hMeets : engines.Meets rankL rankR) :
    (engines.pairing rankL rankR).Registered (xfer rankL rankR) :=
  Pairing.handshakeShard_registers (hMet.regular rankL rankR) (hMet.whole rankL rankR)
    (hMet.handshakes rankL hRank hL rankR hR hMeets)

theorem fanout_le (hMet : engines.Met ranks xfer) :
    0 < (engines.pairing rankL rankR).fanout ∧
      (engines.pairing rankL rankR).fanout ≤ (engines.pairing rankL rankR).replicasR := by
  have hCopies := (hMet.regular rankL rankR).copies
  unfold Pairing.fanout BandWorker.fanout
  split
  · exact ⟨hCopies, Nat.le_refl _⟩
  · exact ⟨Nat.one_pos, hCopies⟩

variable {logical : Nat × Nat} {areaL : Nat}

/-- The check on the bytes of a head holds for a layer of the shard. -/
theorem bytes_eq (hMet : engines.Met ranks xfer)
    (hRegistered : (engines.pairing rankL rankR).Registered (xfer rankL rankR))
    (hLogical : logical ∈ engines.shared)
    (hArea : areaL ∈ (engines.pairing rankL rankR).areas) :
    engines.pageR logical.1 =
        engines.worker.kvPerBlock * (engines.widthR logical.1 * engines.bytesR logical.1) ∧
      engines.bytesR logical.1 = engines.bytesL logical.1 := by
  have hRegular := hMet.regular rankL rankR
  have hAccepts := hRegistered.accepts ⟨logical.1, logical.2, areaL⟩
    ((engines.pairing rankL rankR).mem_bands.2 ⟨hLogical, hArea⟩)
  have hSame : engines.peer.kvPerBlock = engines.worker.kvPerBlock := hRegistered.kvPerBlock
  have hPage : engines.pageR logical.1 =
      engines.worker.kvPerBlock * (engines.widthR logical.1 * engines.bytesR logical.1) := by
    rw [pageR, hSame]
  refine ⟨hPage, ?_⟩
  obtain ⟨localLen, remoteLen, hLocal, hRemote, hBytes⟩ := hRegistered.headBytes logical hLogical
  have hLocalLen := hMet.lensL logical hLogical 0 (by
    have hBound := ((engines.pairing rankL rankR).mem_areas.1 hArea).1
    exact Nat.lt_of_le_of_lt (Nat.zero_le _) hBound)
  have hRemoteLen := hMet.lensR logical hLogical 0 (Nat.pos_of_div_pos hRegular.copies)
  rw [Nat.add_zero] at hLocalLen hRemoteLen
  have hOwn : localLen = engines.pageL logical.1 := Option.some.inj (hLocal.symm.trans hLocalLen)
  have hPeer : remoteLen = engines.pageR logical.1 :=
    Option.some.inj (hRemote.symm.trans hRemoteLen)
  rw [hOwn, hPeer, hPage, pageL] at hBytes
  have hPos : 0 < engines.worker.kvPerBlock * engines.widthL logical.1 * engines.widthR logical.1 :=
    Nat.mul_pos (Nat.mul_pos hRegular.halves (hAccepts.widthL_pos hRegular.heads))
      (hAccepts.widthR_pos hRegular.heads)
  apply Nat.eq_of_mul_eq_mul_left hPos
  have hBytes' : engines.worker.kvPerBlock * (engines.widthL logical.1 * engines.bytesL logical.1) *
      engines.widthR logical.1 = engines.worker.kvPerBlock * (engines.widthR logical.1 *
        engines.bytesR logical.1) * engines.widthL logical.1 := hBytes
  calc engines.worker.kvPerBlock * engines.widthL logical.1 * engines.widthR logical.1 *
        engines.bytesR logical.1
      = engines.worker.kvPerBlock * (engines.widthR logical.1 * engines.bytesR logical.1) *
          engines.widthL logical.1 := by ring
    _ = engines.worker.kvPerBlock * (engines.widthL logical.1 * engines.bytesL logical.1) *
          engines.widthR logical.1 := hBytes'.symm
    _ = engines.worker.kvPerBlock * engines.widthL logical.1 * engines.widthR logical.1 *
          engines.bytesL logical.1 := by ring

/-- The pages of a band, as the KV cache lays them out. -/
theorem paged (hMet : engines.Met ranks xfer)
    (hRegistered : (engines.pairing rankL rankR).Registered (xfer rankL rankR))
    (hLogical : logical ∈ engines.shared)
    (hArea : areaL ∈ (engines.pairing rankL rankR).areas) :
    (engines.pairing rankL rankR).Paged ⟨logical.1, logical.2, areaL⟩
      (engines.bytesL logical.1) := by
  have hAccepts := hRegistered.accepts ⟨logical.1, logical.2, areaL⟩
    ((engines.pairing rankL rankR).mem_bands.2 ⟨hLogical, hArea⟩)
  obtain ⟨hPage, hBytes⟩ := hMet.bytes_eq hRegistered hLogical hArea
  constructor
  · have hLen := hMet.lensL logical hLogical areaL
      ((engines.pairing rankL rankR).mem_areas.1 hArea).1
    exact Option.some.inj (hAccepts.pageL.symm.trans hLen)
  · intro piece hPiece copy hCopy
    have hFits := hAccepts.fits piece hPiece copy hCopy
    have hCopies : copy < (engines.pairing rankL rankR).replicasR :=
      Nat.lt_of_lt_of_le hCopy hMet.fanout_le.2
    have hInside : (engines.pairing rankL rankR).sliceR ⟨logical.1, logical.2, areaL⟩ piece *
        (engines.pairing rankL rankR).replicasR + copy < engines.peer.kvAreas := by
      rw [← Nat.mul_div_cancel' hMet.areasR]
      exact rowMajor_lt hFits.slice hCopies
    have hLen := hMet.lensR logical hLogical _ hInside
    rw [← Nat.add_assoc] at hLen
    have hSame := Option.some.inj (hFits.page.symm.trans hLen)
    rw [hSame, hPage, hBytes]
    rfl

variable {block half headL headR byte t : Nat} {slot : Slot}

/-- The two ends of a byte of a slot. -/
theorem addrs_eq (hMet : engines.Met ranks xfer)
    (hRegistered : (engines.pairing rankL rankR).Registered (xfer rankL rankR))
    (hLogical : logical ∈ engines.shared)
    (hArea : areaL ∈ (engines.pairing rankL rankR).areas)
    (hSlot : slot ∈ (engines.pairing rankL rankR).slots)
    (hSame : (engines.pairing rankL rankR).SameByte ⟨logical.1, logical.2, areaL⟩
      (engines.bytesL logical.1) slot t half headL headR byte) (block : Nat) :
    ((engines.pairing rankL rankR).ownDesc ⟨logical.1, logical.2, areaL⟩ block slot).addr + t =
        engines.addrL rankL logical.1 areaL block half headL byte ∧
      ((engines.pairing rankL rankR).peerDesc ⟨logical.1, logical.2, areaL⟩ block slot).addr + t =
        engines.addrR rankR logical
          ((engines.pairing rankL rankR).sliceR ⟨logical.1, logical.2, areaL⟩ slot.piece *
            (engines.pairing rankL rankR).replicasR + slot.copy) block half headR byte := by
  have hPaged := hMet.paged hRegistered hLogical hArea
  obtain ⟨hPage, hBytes⟩ := hMet.bytes_eq hRegistered hLogical hArea
  obtain ⟨hPiece, hCopy, -⟩ := (engines.pairing rankL rankR).mem_slots.1 hSlot
  constructor
  · rw [Pairing.ownDesc_addr, hSame.own, hPaged.own]
    rfl
  · rw [Pairing.peerDesc_addr, hSame.peer, hPaged.peer _ hPiece _ hCopy, ← hBytes, addrR, hPage,
      Pairing.regionR, Nat.add_assoc (logical.2 * _)]
    rfl

variable {logical' : Nat × Nat} {areaL' areaR areaR' block' half' head head' byte' : Nat}

/-- A byte of our cache has one address. -/
theorem addrL_inj (hMet : engines.Met ranks xfer)
    (hApart : Apart (engines.ownBases rankL) engines.worker.blockLenPerLayer engines.worker.numBlocks)
    (hLogical : logical ∈ engines.shared) (hLogical' : logical' ∈ engines.shared)
    (hArea : areaL < engines.worker.kvAreas) (hArea' : areaL' < engines.worker.kvAreas)
    (hBlock : block < engines.worker.numBlocks) (hBlock' : block' < engines.worker.numBlocks)
    (hHalf : half < engines.worker.kvPerBlock) (hHalf' : half' < engines.worker.kvPerBlock)
    (hHead : head < engines.widthL logical.1) (hHead' : head' < engines.widthL logical'.1)
    (hByte : byte < engines.bytesL logical.1) (hByte' : byte' < engines.bytesL logical'.1)
    (hSame : engines.addrL rankL logical.1 areaL block half head byte =
      engines.addrL rankL logical'.1 areaL' block' half' head' byte') :
    logical = logical' ∧ areaL = areaL' ∧ block = block' ∧ half = half' ∧ head = head' ∧
      byte = byte' := by
  obtain ⟨hRegion, hBlocks, hPlace⟩ := hApart.place_inj (hMet.lensL logical hLogical areaL hArea)
    (hMet.lensL logical' hLogical' areaL' hArea') hBlock hBlock' (offset_lt hHalf hHead hByte)
    (offset_lt hHalf' hHead' hByte') hSame
  obtain ⟨hFirst, hAreas⟩ := rowMajor_inj hArea hArea' hRegion
  have hPair : logical = logical' :=
    Prod.ext hFirst ((Pairing.logicalPairs_unique hLogical hLogical').1 hFirst)
  subst hPair
  exact ⟨rfl, hAreas, hBlocks, offset_inj hHead hByte hHead' hByte' hPlace⟩

theorem addrR_inj (hMet : engines.Met ranks xfer)
    (hApart : Apart (engines.peerBases rankR) engines.peer.blockLens engines.peer.numBlocks)
    (hLogical : logical ∈ engines.shared) (hLogical' : logical' ∈ engines.shared)
    (hArea : areaR < engines.peer.kvAreas) (hArea' : areaR' < engines.peer.kvAreas)
    (hBlock : block < engines.peer.numBlocks) (hBlock' : block' < engines.peer.numBlocks)
    (hHalf : half < engines.peer.kvPerBlock) (hHalf' : half' < engines.peer.kvPerBlock)
    (hHead : head < engines.widthR logical.1) (hHead' : head' < engines.widthR logical'.1)
    (hByte : byte < engines.bytesR logical.1) (hByte' : byte' < engines.bytesR logical'.1)
    (hSame : engines.addrR rankR logical areaR block half head byte =
      engines.addrR rankR logical' areaR' block' half' head' byte') :
    logical = logical' ∧ areaR = areaR' ∧ block = block' ∧ half = half' ∧ head = head' ∧
      byte = byte' := by
  obtain ⟨hRegion, hBlocks, hPlace⟩ := hApart.place_inj (hMet.lensR logical hLogical areaR hArea)
    (hMet.lensR logical' hLogical' areaR' hArea') hBlock hBlock' (offset_lt hHalf hHead hByte)
    (offset_lt hHalf' hHead' hByte') hSame
  obtain ⟨hSecond, hAreas⟩ := rowMajor_inj hArea hArea' hRegion
  have hPair : logical = logical' :=
    Prod.ext ((Pairing.logicalPairs_unique hLogical hLogical').2 hSecond) hSecond
  subst hPair
  exact ⟨rfl, hAreas, hBlocks, offset_inj hHead hByte hHead' hByte' hPlace⟩

end Met

/-! ### A request -/

section Request

/-- Our rank holds the request's content: its `i`-th block, in every area. -/
def HoldsL (engines : Engines Name) (rankL : Nat) (blocks : List Nat) (memory : Nat → β)
    (content : Nat → Nat → Nat → Nat → Nat → β) : Prop :=
  ∀ logical ∈ engines.shared, ∀ areaL < engines.worker.kvAreas,
    ∀ (i block : Nat), blocks[i]? = some block →
    ∀ half < engines.worker.kvPerBlock, ∀ head < engines.widthL logical.1,
    ∀ byte < engines.bytesL logical.1,
      memory (engines.addrL rankL logical.1 areaL block half head byte) =
        content logical.1 i half (engines.firstL rankL logical.1 areaL + head) byte

def HoldsR (engines : Engines Name) (rankR : Nat) (blocks : List Nat) (memory : Nat → β)
    (content : Nat → Nat → Nat → Nat → Nat → β) : Prop :=
  ∀ logical ∈ engines.shared, ∀ areaR < engines.peer.kvAreas,
    ∀ (i block : Nat), blocks[i]? = some block →
    ∀ half < engines.peer.kvPerBlock, ∀ head < engines.widthR logical.1,
    ∀ byte < engines.bytesR logical.1,
      memory (engines.addrR rankR logical areaR block half head byte) =
        content logical.1 i half (engines.firstR rankR logical.1 areaR + head) byte

/-- The descriptor pairs of a request between two ranks. -/
def requestPairs (engines : Engines Name) (xfer : Nat → Nat → BandWorker.ShardXfer)
    (ownBlocks peerBlocks : List Nat) (rankL rankR : Nat) : Option (List (Desc × Desc)) :=
  descPairs (xfer rankL rankR) engines.worker.numBlocks engines.peer.numBlocks ownBlocks peerBlocks

/-- The copies of a request that our rank reads, from every rank that it meets. -/
def ReadsOf (engines : Engines Name) (xfer : Nat → Nat → BandWorker.ShardXfer)
    (ownBlocks peerBlocks : List Nat) (rankL : Nat) (copies : List (Copy Nat)) : Prop :=
  ∀ copy, copy ∈ copies ↔ ∃ rankR < engines.remoteTpSize, engines.Meets rankL rankR ∧
    ∃ pairs, engines.requestPairs xfer ownBlocks peerBlocks rankL rankR = some pairs ∧
      ∃ pair ∈ pairs, copy = ⟨rankR, pair.2.addr, pair.1.addr, pair.1.len⟩

/-- The copies of a request that our ranks write to one of the peer's. -/
def WritesOf (engines : Engines Name) (xfer : Nat → Nat → BandWorker.ShardXfer)
    (ownBlocks peerBlocks : List Nat) (rankR : Nat) (copies : List (Copy Nat)) : Prop :=
  ∀ copy, copy ∈ copies ↔ ∃ rankL < engines.worker.tpSize, engines.Meets rankL rankR ∧
    ∃ pairs, engines.requestPairs xfer ownBlocks peerBlocks rankL rankR = some pairs ∧
      ∃ pair ∈ pairs, copy = ⟨rankL, pair.1.addr, pair.2.addr, pair.2.len⟩

/-- A byte of a descriptor pair: the same byte of one head, in an area of ours and in one of the
peer's. -/
structure Crosses (engines : Engines Name) (rankL rankR : Nat) (logical : Nat × Nat) (areaL : Nat)
    (slot : Slot) (ownBlock peerBlock : Nat) (pair : Desc × Desc) (t half headL headR byte : Nat) :
    Prop where
  isShared : logical ∈ engines.shared
  inAreas : areaL ∈ (engines.pairing rankL rankR).areas
  inSlots : slot ∈ (engines.pairing rankL rankR).slots
  ownLen : t < pair.1.len
  peerLen : t < pair.2.len
  same : (engines.pairing rankL rankR).SameByte ⟨logical.1, logical.2, areaL⟩
    (engines.bytesL logical.1) slot t half headL headR byte
  own : pair.1.addr + t = engines.addrL rankL logical.1 areaL ownBlock half headL byte
  peer : pair.2.addr + t = engines.addrR rankR logical
    ((engines.pairing rankL rankR).sliceR ⟨logical.1, logical.2, areaL⟩ slot.piece *
      (engines.pairing rankL rankR).replicasR + slot.copy) peerBlock half headR byte

variable {rankL rankR : Nat} {ownBlocks peerBlocks : List Nat} {pairs : List (Desc × Desc)}

/-- The request's blocks exist on either side, as many on one as on the other. -/
structure Asks (engines : Engines Name) (ownBlocks peerBlocks : List Nat) : Prop where
  length : ownBlocks.length = peerBlocks.length
  own : ∀ block ∈ ownBlocks, block < engines.worker.numBlocks
  peer : ∀ block ∈ peerBlocks, block < engines.peer.numBlocks

theorem Met.requestPairs_total (hMet : engines.Met ranks xfer)
    (hAsks : engines.Asks ownBlocks peerBlocks) (hRank : ranks rankL)
    (hL : rankL < engines.worker.tpSize) (hR : rankR < engines.remoteTpSize)
    (hMeets : engines.Meets rankL rankR) :
    ∃ pairs, engines.requestPairs xfer ownBlocks peerBlocks rankL rankR = some pairs ∧
      ∀ pair ∈ pairs, pair.1.len = pair.2.len := by
  obtain ⟨pairs, hPairs, hMem⟩ := (hMet.registered hRank hL hR hMeets).mem_descPairs hAsks.length
    hAsks.own hAsks.peer
  refine ⟨pairs, hPairs, ?_⟩
  rintro ⟨own, peer⟩ hPair
  obtain ⟨band, -, blocks, -, slot, -, rfl, rfl⟩ := (hMem own peer).1 hPair
  rfl

theorem Met.crosses_of_mem (hMet : engines.Met ranks xfer)
    (hAsks : engines.Asks ownBlocks peerBlocks) (hRank : ranks rankL)
    (hL : rankL < engines.worker.tpSize) (hR : rankR < engines.remoteTpSize)
    (hMeets : engines.Meets rankL rankR)
    (hPairs : engines.requestPairs xfer ownBlocks peerBlocks rankL rankR = some pairs)
    {pair : Desc × Desc} (hPair : pair ∈ pairs) {t : Nat} (hByte : t < pair.1.len) :
    ∃ logical areaL slot, ∃ i ownBlock peerBlock : Nat, ∃ half headL headR byte,
      ownBlocks[i]? = some ownBlock ∧ peerBlocks[i]? = some peerBlock ∧
        engines.Crosses rankL rankR logical areaL slot ownBlock peerBlock pair t half headL headR
          byte := by
  have hRegistered := hMet.registered hRank hL hR hMeets
  obtain ⟨found, hFound, hMem⟩ := hRegistered.mem_descPairs hAsks.length hAsks.own hAsks.peer
  obtain rfl : found = pairs := Option.some.inj (hFound.symm.trans hPairs)
  obtain ⟨own, peer⟩ := pair
  obtain ⟨⟨logicalL, logicalR, areaL⟩, hBand, ⟨ownBlock, peerBlock⟩, hBlocks, slot, hSlot, rfl, rfl⟩ :=
    (hMem own peer).1 hPair
  obtain ⟨hLogical, hArea⟩ := (engines.pairing rankL rankR).mem_bands.1 hBand
  have hShared : (logicalL, logicalR) ∈ engines.shared := hLogical
  obtain ⟨i, hAt⟩ := List.mem_iff_getElem?.1 hBlocks
  obtain ⟨hOwnAt, hPeerAt⟩ := List.getElem?_zip_eq_some.1 hAt
  obtain ⟨half, headL, headR, byte, hSame⟩ := hRegistered.slot_same (hMet.regular rankL rankR) hBand
    (hMet.paged hRegistered hShared hArea) hSlot hByte
  have hAddrs := fun block => hMet.addrs_eq hRegistered hShared hArea hSlot hSame block
  exact ⟨(logicalL, logicalR), areaL, slot, i, ownBlock, peerBlock, half, headL, headR, byte, hOwnAt,
    hPeerAt, hShared, hArea, hSlot, hByte, hByte, hSame, (hAddrs ownBlock).1, (hAddrs peerBlock).2⟩

theorem Met.mem_of_byte (hMet : engines.Met ranks xfer)
    (hAsks : engines.Asks ownBlocks peerBlocks) (hRank : ranks rankL)
    (hL : rankL < engines.worker.tpSize) (hR : rankR < engines.remoteTpSize)
    (hMeets : engines.Meets rankL rankR)
    (hPairs : engines.requestPairs xfer ownBlocks peerBlocks rankL rankR = some pairs)
    {logical : Nat × Nat} {areaL i ownBlock peerBlock half headL byte copy : Nat}
    (hLogical : logical ∈ engines.shared) (hArea : areaL ∈ (engines.pairing rankL rankR).areas)
    (hOwnAt : ownBlocks[i]? = some ownBlock) (hPeerAt : peerBlocks[i]? = some peerBlock)
    (hHalf : half < engines.worker.kvPerBlock) (hHead : headL < engines.widthL logical.1)
    (hByte : byte < engines.bytesL logical.1)
    (hCopy : copy < (engines.pairing rankL rankR).fanout) :
    ∃ pair ∈ pairs, ∃ slot t headR, slot.copy = copy ∧
      engines.Crosses rankL rankR logical areaL slot ownBlock peerBlock pair t half headL headR
        byte := by
  have hRegistered := hMet.registered hRank hL hR hMeets
  have hBand : (⟨logical.1, logical.2, areaL⟩ : Band) ∈ (engines.pairing rankL rankR).bands :=
    (engines.pairing rankL rankR).mem_bands.2 ⟨hLogical, hArea⟩
  obtain ⟨found, hFound, hMem⟩ := hRegistered.mem_descPairs hAsks.length hAsks.own hAsks.peer
  obtain rfl : found = pairs := Option.some.inj (hFound.symm.trans hPairs)
  obtain ⟨slot, hSlot, hSlotCopy, t, hT, headR, hSame⟩ := hRegistered.slot_covers
    (hMet.regular rankL rankR) hBand (hMet.paged hRegistered hLogical hArea) hHalf hHead hByte hCopy
  have hBlocks : (ownBlock, peerBlock) ∈ ownBlocks.zip peerBlocks :=
    List.mem_of_getElem? (List.getElem?_zip_eq_some.2 ⟨hOwnAt, hPeerAt⟩)
  have hAddrs := fun block => hMet.addrs_eq hRegistered hLogical hArea hSlot hSame block
  exact ⟨_, (hMem _ _).2 ⟨_, hBand, _, hBlocks, slot, hSlot, rfl, rfl⟩, slot, t, headR, hSlotCopy,
    hLogical, hArea, hSlot, hT, hT, hSame, (hAddrs ownBlock).1, (hAddrs peerBlock).2⟩

/-- The peer's area of a crossing, and the head that it holds there. -/
theorem Met.crosses_head (hMet : engines.Met ranks xfer) (hRank : ranks rankL)
    (hL : rankL < engines.worker.tpSize) (hR : rankR < engines.remoteTpSize)
    (hMeets : engines.Meets rankL rankR) {logical : Nat × Nat}
    {areaL ownBlock peerBlock t half headL headR byte : Nat} {slot : Slot} {pair : Desc × Desc}
    (hCrosses : engines.Crosses rankL rankR logical areaL slot ownBlock peerBlock pair t half headL
      headR byte) :
    ∃ areaR < engines.peer.kvAreas,
      areaR / (engines.peer.kvAreas / engines.peer.kvSlices) =
          (engines.pairing rankL rankR).sliceR ⟨logical.1, logical.2, areaL⟩ slot.piece ∧
        areaR % (engines.peer.kvAreas / engines.peer.kvSlices) = slot.copy ∧
        pair.2.addr + t = engines.addrR rankR logical areaR peerBlock half headR byte ∧
        engines.firstL rankL logical.1 areaL + headL =
          engines.firstR rankR logical.1 areaR + headR := by
  have hAccepts := (hMet.registered hRank hL hR hMeets).accepts ⟨logical.1, logical.2, areaL⟩
    ((engines.pairing rankL rankR).mem_bands.2 ⟨hCrosses.isShared, hCrosses.inAreas⟩)
  obtain ⟨hPiece, hCopy, -⟩ := (engines.pairing rankL rankR).mem_slots.1 hCrosses.inSlots
  have hFits := hAccepts.fits slot.piece hPiece slot.copy hCopy
  have hCopies : slot.copy < engines.peer.kvAreas / engines.peer.kvSlices :=
    Nat.lt_of_lt_of_le hCopy hMet.fanout_le.2
  have hInside : (engines.pairing rankL rankR).sliceR ⟨logical.1, logical.2, areaL⟩ slot.piece *
      (engines.peer.kvAreas / engines.peer.kvSlices) + slot.copy < engines.peer.kvAreas := by
    have hLess := rowMajor_lt hFits.slice hCopies
    rwa [show (engines.pairing rankL rankR).peer.kvSlices = engines.peer.kvSlices from rfl,
      Nat.mul_div_cancel' hMet.areasR] at hLess
  have hSlice : ((engines.pairing rankL rankR).sliceR ⟨logical.1, logical.2, areaL⟩ slot.piece *
      (engines.peer.kvAreas / engines.peer.kvSlices) + slot.copy) /
        (engines.peer.kvAreas / engines.peer.kvSlices) =
          (engines.pairing rankL rankR).sliceR ⟨logical.1, logical.2, areaL⟩ slot.piece :=
    rowMajor_div hCopies
  refine ⟨_, hInside, hSlice, ?_, hCrosses.peer, ?_⟩
  · rw [Nat.mul_add_mod_self_right, Nat.mod_eq_of_lt hCopies]
  · have hHead := hCrosses.same.head
    rw [firstR, hSlice, Nat.add_assoc]
    exact hHead

/-- A rank with four heads in two areas, K and V in one block, and a peer of two ranks with one head
in each of their two areas. -/
def fanInEngines : Engines Nat where
  worker := {
    localSeenLayerNames := [7], numRegions := 2, kvAreas := 2, pipelineParallelSize := 1
    hasSwa := false, tpRank := 0, tpSize := 1, kvSlices := 2, kvPerBlock := 2, numBlocks := 2
    blockSize := 16, deviceId := 0, kvCacheLayout := .hnd, kvCachesBaseAddr := []
    blockLenPerLayer := [4, 4], logicalRegionKvHeads := [some 4], logicalRegionSlices := [2]
    totalNumKvHeads := 4, writesIntoPeer := false }
  peer := {
    ppSize := 1, registeredLayerNames := [7], kvCachesBaseAddr := [], blockLens := [2, 2]
    numBlocks := 2, blockSize := 16, deviceId := 0, kvCacheLayout := .hnd, kvAreas := 2
    kvSlices := 2, kvPerBlock := 2 }
  ownBases _ := [100, 200]
  peerBases rankR := [10 + 20 * rankR, 20 + 20 * rankR]
  ownDevices _ := 0
  peerDevices rankR := rankR
  remoteTpSize := 2
  ppSize := 1
  ppRank := 0
  bytesL _ := 1
  bytesR _ := 1

/-- What its handshakes leave. -/
def metXfer (engines : Engines Name) (rankL rankR : Nat) : BandWorker.ShardXfer :=
  match (engines.own rankL).handshakeShard engines.ppSize (engines.remote rankR) engines.ppRank rankR
    engines.remoteTpSize with
  | .ok (some xfer) => xfer
  | _ => ⟨[], [], ⟨0, [], 1⟩⟩

theorem fanInEngines_met : fanInEngines.Met (· = 0) (metXfer fanInEngines) := by
  constructor
  · intro rankL rankR
    constructor
    · intro heads hMem
      obtain rfl := Option.some.inj (List.mem_singleton.1 hMem)
      exact Nat.zero_lt_succ 3
    · show 2 / 1 = 2 / 1 / 2 * 2
      rfl
    · show 0 < 2 / 2
      exact Nat.one_pos
    · exact Nat.two_pos
  · decide
  · decide
  · decide
  · decide
  · decide
  · decide
  · decide
  · intro rankL rankR hNot
    exact absurd (Or.inr (Or.inr (Or.inl Nat.one_lt_two))) hNot
  · rintro rankL rfl - rankR hR -
    have hCases : rankR = 0 ∨ rankR = 1 := by
      have hBound : rankR < 2 := hR
      omega
    rcases hCases with rfl | rfl
    · rfl
    · rfl

/-- Block 1 of either rank, a byte for each head and half. -/
theorem fanInEngines_holds (rankR : Nat) (hR : rankR < 2) :
    fanInEngines.HoldsR rankR [1] (fun x => 10 * (x / 10 - 1) + x % 2)
      fun _ _ half head _ => 10 * head + half := by
  intro logical hLogical areaR hArea i block hAt
  obtain rfl : logical = (0, 0) := List.mem_singleton.1 hLogical
  obtain ⟨rfl, rfl⟩ : i = 0 ∧ 1 = block := by
    cases i with
    | zero => exact ⟨rfl, Option.some.inj hAt⟩
    | succ i => cases hAt
  revert areaR rankR
  decide

/-- Both engines cut a layer's heads evenly, and a head takes as much of a block on either side. -/
structure Even (engines : Engines Name) (logical : Nat) : Prop where
  own : engines.heads logical =
    engines.worker.tpSize * engines.worker.kvSlices * engines.widthL logical
  peer : engines.heads logical / engines.remoteTpSize =
    engines.peer.kvSlices * engines.widthR logical
  halves : engines.peer.kvPerBlock = engines.worker.kvPerBlock
  bytes : engines.bytesR logical = engines.bytesL logical

theorem Met.even (hMet : engines.Met (fun _ => True) xfer) {logical : Nat × Nat}
    (hLogical : logical ∈ engines.shared) : engines.Even logical.1 := by
  have hRanks : 0 < engines.worker.tpSize := by
    have hHeads := hMet.rankHeads
    apply Nat.pos_of_ne_zero
    intro hZero
    rw [hZero, Nat.div_zero] at hHeads
    omega
  obtain ⟨other, hOther, hMeets, hFirst⟩ := exists_remote hMet.rankHeads hMet.remoteHeads
    hMet.areasL hRanks (Nat.pos_of_div_pos hMet.someL)
  have hRegistered := hMet.registered trivial hRanks hOther hMeets
  have hAccepts := hRegistered.accepts ⟨logical.1, logical.2, 0⟩
    ((engines.pairing 0 other).mem_bands.2 ⟨hLogical, hFirst⟩)
  exact ⟨hAccepts.cutsL_mul, hAccepts.slicesR, hRegistered.kvPerBlock,
    (hMet.bytes_eq hRegistered hLogical hFirst).2⟩

/-- Every head that a rank of the peer owns lies in an area of a rank of ours that it meets. -/
theorem Met.exists_own (hMet : engines.Met (fun _ => True) xfer) (hR : rankR < engines.remoteTpSize)
    {logical : Nat × Nat} {areaR headR half byte : Nat} (hLogical : logical ∈ engines.shared)
    (hArea : areaR < engines.peer.kvAreas) (hHead : headR < engines.widthR logical.1)
    (hHalf : half < engines.worker.kvPerBlock) (hByte : byte < engines.bytesL logical.1) :
    ∃ rankL < engines.worker.tpSize, engines.Meets rankL rankR ∧
      ∃ areaL ∈ (engines.pairing rankL rankR).areas, ∃ headL < engines.widthL logical.1,
        engines.firstL rankL logical.1 areaL + headL =
          engines.firstR rankR logical.1 areaR + headR := by
  have hSlices : ∀ slice < engines.worker.kvSlices,
      slice * (engines.worker.kvAreas / engines.worker.kvSlices) < engines.worker.kvAreas := by
    intro slice hSlice
    have hLess := rowMajor_lt hSlice hMet.someL
    rwa [Nat.add_zero, Nat.mul_div_cancel' hMet.areasL] at hLess
  have hHeld : ∀ {rankL areaL other}, rankL < engines.worker.tpSize →
      other < engines.remoteTpSize → engines.Meets rankL other →
      areaL ∈ (engines.pairing rankL other).areas →
      (engines.pairing rankL other).Accepts ⟨logical.1, logical.2, areaL⟩ :=
    fun {rankL areaL other} hL hOther hMeets hAreaL =>
      (hMet.registered trivial hL hOther hMeets).accepts _
        ((engines.pairing rankL other).mem_bands.2 ⟨hLogical, hAreaL⟩)
  have hCut := hMet.even hLogical
  have hInRank : areaR / (engines.peer.kvAreas / engines.peer.kvSlices) *
      engines.widthR logical.1 + headR < engines.heads logical.1 / engines.remoteTpSize := by
    rw [hCut.peer]
    apply rowMajor_lt _ hHead
    apply Nat.div_lt_of_lt_mul
    rwa [Nat.div_mul_cancel hMet.areasR]
  have hFirstR : engines.firstR rankR logical.1 areaR + headR =
      rankR * (engines.heads logical.1 / engines.remoteTpSize) +
        (areaR / (engines.peer.kvAreas / engines.peer.kvSlices) * engines.widthR logical.1 +
          headR) := Nat.add_assoc _ _ _
  have hInside : engines.firstR rankR logical.1 areaR + headR <
      engines.worker.tpSize * engines.worker.kvSlices * engines.widthL logical.1 := by
    have hLess := rowMajor_lt hR hInRank
    have hAll := Nat.mul_div_le (engines.heads logical.1) engines.remoteTpSize
    rw [← hCut.own, hFirstR]
    omega
  obtain ⟨cut, hCutLt, headL, hHeadL, hPlace⟩ := exists_rowMajor hInside
  obtain ⟨rankL, hL, slice, hSlice, rfl⟩ := exists_rowMajor hCutLt
  obtain ⟨other, hOther, hMeets, hFirst⟩ := exists_remote hMet.rankHeads hMet.remoteHeads
    hMet.areasL hL (hSlices slice hSlice)
  have hAccepts := hHeld hL hOther hMeets hFirst
  have hFirstL : engines.firstL rankL logical.1
      (slice * (engines.worker.kvAreas / engines.worker.kvSlices)) + headL =
        engines.firstR rankR logical.1 areaR + headR := by
    have hBack : slice * (engines.worker.kvAreas / engines.worker.kvSlices) /
        (engines.worker.kvAreas / engines.worker.kvSlices) = slice :=
      Nat.mul_div_cancel _ hMet.someL
    have hRankHeads : engines.heads logical.1 / engines.worker.tpSize =
        engines.worker.kvSlices * engines.widthL logical.1 := hAccepts.slicesL
    have hStart : engines.firstL rankL logical.1
        (slice * (engines.worker.kvAreas / engines.worker.kvSlices)) =
          rankL * (engines.heads logical.1 / engines.worker.tpSize) +
            slice * (engines.worker.kvAreas / engines.worker.kvSlices) /
              (engines.worker.kvAreas / engines.worker.kvSlices) * engines.widthL logical.1 := rfl
    rw [hStart, hBack, hRankHeads, ← hPlace]
    ring
  -- the rank that our area is in a transfer with is the one that owns the head
  have hOwner : other = rankR := by
    have hRegistered := hMet.registered trivial hL hOther hMeets
    obtain ⟨slot, hSlot, -, t, hT, headOther, hSame⟩ := hRegistered.slot_covers
      (hMet.regular rankL other) ((engines.pairing rankL other).mem_bands.2 ⟨hLogical, hFirst⟩)
      (hMet.paged hRegistered hLogical hFirst) hHalf hHeadL hByte hMet.fanout_le.1
    obtain ⟨hPiece, hCopy, -⟩ := (engines.pairing rankL other).mem_slots.1 hSlot
    have hFits := hAccepts.fits slot.piece hPiece slot.copy hCopy
    have hOtherRank : (engines.pairing rankL other).sliceR ⟨logical.1, logical.2,
        slice * (engines.worker.kvAreas / engines.worker.kvSlices)⟩ slot.piece *
          engines.widthR logical.1 + headOther <
            engines.heads logical.1 / engines.remoteTpSize := by
      rw [hCut.peer]
      exact rowMajor_lt hFits.slice hSame.headR_lt
    have hHeads : engines.firstR rankR logical.1 areaR + headR =
        other * (engines.heads logical.1 / engines.remoteTpSize) +
          ((engines.pairing rankL other).sliceR ⟨logical.1, logical.2,
            slice * (engines.worker.kvAreas / engines.worker.kvSlices)⟩ slot.piece *
              engines.widthR logical.1 + headOther) := hFirstL.symm.trans hSame.head
    rw [hFirstR] at hHeads
    exact (rowMajor_inj hInRank hOtherRank hHeads).1.symm
  subst hOwner
  exact ⟨rankL, hL, hMeets, _, hFirst, headL, hHeadL, hFirstL⟩

/-- A rank with one head in each of two areas, writing to a peer of two ranks with two replicas of
their one head. -/
def replicaEngines : Engines Nat where
  worker := {
    localSeenLayerNames := [7], numRegions := 2, kvAreas := 2, pipelineParallelSize := 1
    hasSwa := false, tpRank := 0, tpSize := 1, kvSlices := 2, kvPerBlock := 2, numBlocks := 2
    blockSize := 16, deviceId := 0, kvCacheLayout := .hnd, kvCachesBaseAddr := []
    blockLenPerLayer := [2, 2], logicalRegionKvHeads := [some 2], logicalRegionSlices := [2]
    totalNumKvHeads := 2, writesIntoPeer := true }
  peer := {
    ppSize := 1, registeredLayerNames := [7], kvCachesBaseAddr := [], blockLens := [2, 2]
    numBlocks := 2, blockSize := 16, deviceId := 0, kvCacheLayout := .hnd, kvAreas := 2
    kvSlices := 1, kvPerBlock := 2 }
  ownBases _ := [100, 200]
  peerBases rankR := [10 + 20 * rankR, 20 + 20 * rankR]
  ownDevices _ := 0
  peerDevices rankR := rankR
  remoteTpSize := 2
  ppSize := 1
  ppRank := 0
  bytesL _ := 1
  bytesR _ := 1

theorem replicaEngines_met : replicaEngines.Met (fun _ => True) (metXfer replicaEngines) := by
  constructor
  · intro rankL rankR
    constructor
    · intro heads hMem
      obtain rfl := Option.some.inj (List.mem_singleton.1 hMem)
      exact Nat.zero_lt_succ 1
    · show 2 / 1 = 2 / 1 / 2 * 2
      rfl
    · show 0 < 2 / 1
      exact Nat.two_pos
    · exact Nat.two_pos
  · decide
  · decide
  · decide
  · decide
  · decide
  · decide
  · decide
  · intro rankL rankR hNot
    exact absurd (Or.inr (Or.inr (Or.inl Nat.one_lt_two))) hNot
  · rintro rankL - hL rankR hR -
    obtain rfl : rankL = 0 := Nat.lt_one_iff.1 hL
    have hCases : rankR = 0 ∨ rankR = 1 := by
      have hBound : rankR < 2 := hR
      omega
    rcases hCases with rfl | rfl
    · rfl
    · rfl

theorem replicaEngines_holds :
    replicaEngines.HoldsL 0 [1] (fun x => 10 * (x / 100 - 1) + x % 2)
      fun _ _ half head _ => 10 * head + half := by
  intro logical hLogical areaL hArea i block hAt
  obtain rfl : logical = (0, 0) := List.mem_singleton.1 hLogical
  obtain ⟨rfl, rfl⟩ : i = 0 ∧ 1 = block := by
    cases i with
    | zero => exact ⟨rfl, Option.some.inj hAt⟩
    | succ i => cases hAt
  revert areaL
  decide

end Request

end Engines

end VllmRbln.KvTransfer.HeadBands
