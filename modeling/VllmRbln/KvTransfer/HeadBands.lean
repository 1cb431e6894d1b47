import VllmRbln.Common.Copies
import VllmRbln.KvTransfer.Handshake
import VllmRbln.KvTransfer.PushWorker

/-! Pairing with a peer of another tensor-parallel size (`rbln_nixl/base_worker.py`). A region is
one chiplet area, so region `i` names different KV heads on the two sides; the two descriptor lists
are built so that descriptor `i` of one names the heads of descriptor `i` of the other. -/
namespace VllmRbln.KvTransfer.HeadBands

open Checked Handshake

inductive Side
  | own
  | peer
  deriving DecidableEq

inductive HeadBandError
  | tensorParallelSize (side : Side) (tpSize totalKvHeads : Nat)
  | sliceCount (side : Side) (headsPerRank slices : Nat)
  | areaCount (side : Side) (areas slices : Nat)
  | noHeadBand (logicalRegion : Nat)
  | incommensurate (cutsR cutsL : Nat)
  | areaStraddles (perSlice headsPerRemote : Nat)
  | outsidePeer (head : Nat) (baseR lastHead : Int)
  | kvRanges (remoteRegion page kvRuns : Nat)
  | headsOfPage (remoteRegion page perSlice : Nat)
  | pastHalf (region piece subLen headOffset kvStride remoteRegion : Nat)
  | blockSizes
  | layouts
  | kvPerBlock (peer own : Nat)
  | regionCounts (numRemote peerLayers regionsPerLayer : Nat)
  | headBytes (logicalL logicalR : Nat)
  | unevenSlices
  | layers (error : HandshakeError)
  | index
  | assertion
  deriving DecidableEq

inductive KvLayout
  | nhd
  | hnd
  deriving DecidableEq

/-- The rest of `RblnNixlAgentMetadata`. -/
structure BandMetadata (Name : Type) extends AgentMetadata Name where
  numBlocks : Nat
  blockSize : Nat
  deviceId : Nat
  kvCacheLayout : KvLayout
  kvAreas : Nat
  kvSlices : Nat
  kvPerBlock : Nat

/-- A worker of the device-to-device path, without a sliding window. `kvAreas` is the chiplets that
a region is spread over and `kvSlices` the different bands of heads on them. -/
structure BandWorker (Name : Type) extends Worker Name where
  tpRank : Nat
  tpSize : Nat
  kvSlices : Nat
  kvPerBlock : Nat
  numBlocks : Nat
  blockSize : Nat
  deviceId : Nat
  kvCacheLayout : KvLayout
  kvCachesBaseAddr : List Nat
  blockLenPerLayer : List Nat
  logicalRegionKvHeads : List (Option Nat)
  logicalRegionSlices : List Nat
  totalNumKvHeads : Nat
  writesIntoPeer : Bool

structure Desc where
  addr : Nat
  len : Nat
  deviceId : Nat
  deriving DecidableEq

def getAt {α : Type} (xs : List α) (i : Nat) : Except HeadBandError α :=
  match xs[i]? with
  | some x => .ok x
  | none => .error .index

def require (holds : Prop) [Decidable holds] (error : HeadBandError) : Except HeadBandError Unit :=
  if holds then .ok () else .error error

/-- `_slice_head_bounds`: the first head of a shard, and the heads of a slice. -/
def sliceHeadBounds (tpRank tpSize totalKvHeads areas slices : Nat) (side : Side) :
    Except HeadBandError (Nat × Nat) := do
  require (totalKvHeads % tpSize = 0) (.tensorParallelSize side tpSize totalKvHeads)
  let headsPerRank := totalKvHeads / tpSize
  require (0 < slices ∧ headsPerRank % slices = 0) (.sliceCount side headsPerRank slices)
  require (areas % slices = 0) (.areaCount side areas slices)
  return (tpRank * headsPerRank, headsPerRank / slices)

/-- `_head_split`: the pieces in which one of our regions is read. -/
def headSplit (cutsL cutsR : Nat) : Except HeadBandError Nat := do
  if cutsR ≤ cutsL then return 1
  require (cutsR % cutsL = 0) (.incommensurate cutsR cutsL)
  return cutsR / cutsL

/-- `_kv_runs`: the ranges that one piece of a block breaks into. -/
def kvRuns (kvPerBlock cutsL cutsR : Nat) : Nat := if cutsL ≠ cutsR then kvPerBlock else 1

namespace BandWorker

variable {Name : Type} [DecidableEq Name] (worker : BandWorker Name)

def regionKvHeads (logicalRegion : Nat) : Except HeadBandError Nat := do
  match ← getAt worker.logicalRegionKvHeads logicalRegion with
  | some heads => return heads
  | none => throw (.noHeadBand logicalRegion)

/-- `_logical_region_pairs`: a logical region of ours, and its place in the peer's list. -/
def logicalRegionPairs (registeredLayerNames : List Name) :
    Except HeadBandError (List (Nat × Nat)) := do
  let rpl ← worker.regionsPerLayer.mapError .layers
  let perLayer := rpl / worker.kvAreas
  return (worker.layerOverlap registeredLayerNames).flatMap fun overlap =>
    (List.range perLayer).map fun c => (overlap.2 * perLayer + c, overlap.1 * perLayer + c)

/-- `_fan_in_peer_areas`: the areas that a peer with more ranks than we have holds. -/
def fanInPeerAreas (remoteTpRank remoteTpSize : Nat) :
    Except HeadBandError (Option (List Nat)) := do
  if remoteTpSize ≤ worker.tpSize then return none
  let bounds ← sliceHeadBounds worker.tpRank worker.tpSize worker.totalNumKvHeads worker.kvAreas
    worker.kvSlices .own
  let headsPerRemote := worker.totalNumKvHeads / remoteTpSize
  require (bounds.2 ≤ headsPerRemote) (.areaStraddles bounds.2 headsPerRemote)
  let replicasL := worker.kvAreas / worker.kvSlices
  return some ((List.range worker.kvAreas).filter fun areaL =>
    (bounds.1 + areaL / replicasL * bounds.2) / headsPerRemote = remoteTpRank)

/-- The peer's copies of a slice that one transfer touches: reading takes the first, writing
all. -/
def fanout (replicasR : Nat) : Nat := if worker.writesIntoPeer then replicasR else 1

/-- Where piece `j` starts in the peer: the slice that holds its first head, and the heads of the
slice before that one. -/
def headSlice (head baseR perSliceR slicesR perPiece j : Nat) :
    Except HeadBandError (Nat × Nat) := do
  let offset : Int := (head + j * perPiece : Nat) - (baseR : Int)
  let sliceR := offset / perSliceR
  require (0 ≤ sliceR ∧ sliceR < slicesR)
    (.outsidePeer (head + j * perPiece) baseR (baseR + perSliceR * slicesR - 1))
  return (sliceR.toNat, (offset % perSliceR).toNat)

/-- The peer's copy in one region: where its bytes start in block 0, and the length of a block. -/
def headCopy (remoteBases remoteLens : List Nat) (regionId remoteRegion : Nat)
    (perSliceR headWithin subLen runs j : Nat) : Except HeadBandError (Nat × Nat) := do
  let page ← getAt remoteLens remoteRegion
  require (page % runs = 0) (.kvRanges remoteRegion page runs)
  let kvStride := page / runs
  require (kvStride % perSliceR = 0) (.headsOfPage remoteRegion page perSliceR)
  let headOffset := headWithin * (kvStride / perSliceR)
  require (subLen + headOffset ≤ kvStride)
    (.pastHalf regionId j subLen headOffset kvStride remoteRegion)
  let base ← getAt remoteBases remoteRegion
  return (base + headOffset, page)

/-- `_head_matched_desc`: the peer's descriptors for one of our regions. -/
def headMatchedDesc (peer : BandMetadata Name) (regionId logicalR areaL : Nat)
    (geom bounds : Nat × Nat) (split runs : Nat) : Except HeadBandError (List Desc) := do
  let replicasL := worker.kvAreas / worker.kvSlices
  let replicasR := peer.kvAreas / peer.kvSlices
  let head := geom.1 + areaL / replicasL * geom.2
  let descLen ← getAt worker.blockLenPerLayer regionId
  let perPiece := geom.2 / split
  let subLen := descLen / runs / split
  let pieces ← (List.range split).mapM fun j => do
    let slice ← headSlice head bounds.1 bounds.2 peer.kvSlices perPiece j
    (List.range (worker.fanout replicasR)).mapM fun k =>
      headCopy peer.kvCachesBaseAddr peer.blockLens regionId
        (logicalR * peer.kvAreas + slice.1 * replicasR + k) bounds.2 slice.2 subLen runs j
  return (List.range peer.numBlocks).flatMap fun block =>
    pieces.flatten.flatMap fun piece => (List.range runs).map fun kv =>
      ⟨piece.1 + block * piece.2 + kv * (piece.2 / runs), subLen, peer.deviceId⟩

/-- `_build_head_matched_remote`, for the areas that the peer holds. -/
def buildHeadMatchedRemote (peer : BandMetadata Name) (remoteTpRank remoteTpSize : Nat)
    (peerAreas : Option (List Nat)) : Except HeadBandError (List Desc) := do
  let cutsL := worker.tpSize * worker.kvSlices
  let cutsR := remoteTpSize * peer.kvSlices
  let split ← headSplit cutsL cutsR
  let runs := kvRuns worker.kvPerBlock cutsL cutsR
  let pairs ← worker.logicalRegionPairs peer.registeredLayerNames
  let areas := peerAreas.getD (List.range worker.kvAreas)
  let out ← pairs.mapM fun logical => do
    let totalHeads ← worker.regionKvHeads logical.1
    let geom ← sliceHeadBounds worker.tpRank worker.tpSize totalHeads worker.kvAreas
      worker.kvSlices .own
    let bounds ← sliceHeadBounds remoteTpRank remoteTpSize totalHeads peer.kvAreas peer.kvSlices
      .peer
    areas.mapM fun areaL =>
      worker.headMatchedDesc peer (logical.1 * worker.kvAreas + areaL) logical.2 areaL geom bounds
        split runs
  let descs := out.flatten.flatten
  require (descs.length = pairs.length * areas.length * peer.numBlocks * split *
    worker.fanout (peer.kvAreas / peer.kvSlices) * runs) .assertion
  return descs

/-! ### The checks before -/

/-- `_reject_uneven_region_slices`. -/
def rejectUnevenRegionSlices : Except HeadBandError Unit :=
  let banded := (worker.logicalRegionSlices.zip worker.logicalRegionKvHeads).filter (·.2.isSome)
  require (∀ a ∈ banded, ∀ b ∈ banded, a.1 = b.1) .unevenSlices

/-- `_check_d2d_region_pairing`. -/
def checkD2dRegionPairing (peer : BandMetadata Name) : Except HeadBandError Unit := do
  require (peer.kvPerBlock = worker.kvPerBlock) (.kvPerBlock peer.kvPerBlock worker.kvPerBlock)
  let numRemote := peer.kvCachesBaseAddr.length
  let rpl ← worker.regionsPerLayer.mapError .layers
  let counts := if peer.registeredLayerNames.isEmpty then (1, worker.blockLenPerLayer.length)
    else (peer.registeredLayerNames.length, rpl)
  require (numRemote % counts.1 = 0 ∧ numRemote / counts.1 = counts.2)
    (.regionCounts numRemote counts.1 counts.2)

/-- `_validate_head_matched_handshake`: a head takes as many bytes of a block on either side. -/
def validateHeadMatchedHandshake (peer : BandMetadata Name) (remoteTpSize : Nat) :
    Except HeadBandError Unit := do
  require (worker.blockSize / peer.blockSize = 1) .blockSizes
  require (peer.kvCacheLayout = worker.kvCacheLayout) .layouts
  let pairs ← worker.logicalRegionPairs peer.registeredLayerNames
  let _ ← pairs.mapM fun logical => do
    let totalHeads ← worker.regionKvHeads logical.1
    let geom ← sliceHeadBounds worker.tpRank worker.tpSize totalHeads worker.kvAreas
      worker.kvSlices .own
    let bounds ← sliceHeadBounds 0 remoteTpSize totalHeads peer.kvAreas peer.kvSlices .peer
    let localLen ← getAt worker.blockLenPerLayer (logical.1 * worker.kvAreas)
    let remoteLen ← getAt peer.blockLens (logical.2 * peer.kvAreas)
    require (localLen * bounds.2 = remoteLen * geom.2) (.headBytes logical.1 logical.2)
  return ()

/-- `_add_remote_agent_head_matched`: the peer's descriptor list. -/
def addRemoteAgentHeadMatched (peer : BandMetadata Name) (remoteTpRank remoteTpSize : Nat) :
    Except HeadBandError (List Desc) := do
  worker.rejectUnevenRegionSlices
  worker.checkD2dRegionPairing peer
  worker.validateHeadMatchedHandshake peer remoteTpSize
  let peerAreas ← worker.fanInPeerAreas remoteTpRank remoteTpSize
  worker.buildHeadMatchedRemote peer remoteTpRank remoteTpSize peerAreas

/-! ### Our side of a transfer -/

/-- The descriptors of one of our regions in `_register_shard_local_xfer_handler`. -/
def ownRegionDescs (split replicaFanout runs regionId : Nat) :
    Except HeadBandError (List Desc) := do
  let baseAddr ← getAt worker.kvCachesBaseAddr regionId
  let stride ← getAt worker.blockLenPerLayer regionId
  let kvStride := stride / runs
  let subLen := kvStride / split
  return (List.range worker.numBlocks).flatMap fun block =>
    (List.range split).flatMap fun j => (List.range replicaFanout).flatMap fun _ =>
      (List.range runs).map fun kv =>
        ⟨baseAddr + block * stride + kv * kvStride + j * subLen, subLen, worker.deviceId⟩

/-- What the worker keeps of a peer rank for transfers with it: both descriptor lists, and how the
ids of a request's blocks are counted in them. -/
structure ShardXfer where
  ownDescs : List Desc
  peerDescs : List Desc
  shard : ShardPeer

/-- `_register_shard_xfer_state`, which ends in `_register_shard_local_xfer_handler`. -/
def registerShardXferState (registeredLayerNames : List Name) (peerAreas : Option (List Nat))
    (globalRank split replicaFanout runs : Nat) :
    Except HeadBandError (List Desc × ShardPeer) := do
  let regionIds ← (worker.shardLocalRegionIds registeredLayerNames peerAreas).mapError .layers
  let descs ← regionIds.mapM (worker.ownRegionDescs split replicaFanout runs)
  return (descs.flatten, ⟨globalRank, List.replicate regionIds.length 0,
    split * replicaFanout * runs⟩)

/-- The body of `_nixl_handshake`'s loop for a stage of a peer of another tensor-parallel size. A
peer that nothing narrows keeps upstream's whole-engine handle: every region, and one descriptor
for a block. -/
def handshakeShard (ppSize : Nat) (peer : BandMetadata Name)
    (ppRank remoteTpRank remoteTpSize : Nat) : Except HeadBandError (Option ShardXfer) := do
  let names := peer.registeredLayerNames
  let overlap := worker.layerOverlap names
  if overlap.isEmpty then return none
  let globalRank := ppRank * remoteTpSize + remoteTpRank
  let cutsL := worker.tpSize * worker.kvSlices
  let cutsR := remoteTpSize * peer.kvSlices
  let split ← headSplit cutsL cutsR
  let runs := kvRuns worker.kvPerBlock cutsL cutsR
  let replicaFanout := if worker.writesIntoPeer then max 1 (peer.kvAreas / peer.kvSlices) else 1
  let peerDescs ← worker.addRemoteAgentHeadMatched peer remoteTpRank remoteTpSize
  if 1 < ppSize ∨ overlap.length < names.length ∨ worker.tpSize < remoteTpSize ∨ 1 < split ∨
      1 < runs then
    let peerAreas ← worker.fanInPeerAreas remoteTpRank remoteTpSize
    let own ← worker.registerShardXferState names peerAreas globalRank split replicaFanout runs
    return some ⟨own.1, peerDescs, own.2⟩
  else
    let descs ← (List.range worker.numRegions).mapM (worker.ownRegionDescs 1 1 1)
    return some ⟨descs.flatten, peerDescs, ⟨globalRank, List.replicate worker.numRegions 0, 1⟩⟩

end BandWorker

/-- The descriptors that a request's blocks, ours and the peer's, are paired by. -/
def descPairs (xfer : BandWorker.ShardXfer) (numBlocks dstNumBlocks : Nat)
    (ownBlocks peerBlocks : List Nat) : Option (List (Desc × Desc)) := do
  let ownIds ← (blockDescsIdsForShard xfer.shard numBlocks [ownBlocks]).toOption
  let peerIds ← (blockDescsIdsForShard xfer.shard dstNumBlocks [peerBlocks]).toOption
  let own ← ownIds.mapM (xfer.ownDescs[·]?)
  let peer ← peerIds.mapM (xfer.peerDescs[·]?)
  return own.zip peer

end VllmRbln.KvTransfer.HeadBands
