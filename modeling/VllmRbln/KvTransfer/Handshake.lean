import VllmRbln.Common.Bands
import VllmRbln.Common.Checked
import VllmRbln.Common.Dict

/-! The handshake with the pipeline stages of a peer engine of our own tensor-parallel size
(`_nixl_handshake`, `rbln_nixl/base_worker.py`). Each stage publishes its layers' regions in its own
order; what both sides hold is found by layer name, and a stage that holds more than ours is
presented as our part of it. -/
namespace VllmRbln.KvTransfer.Handshake

open Bands Checked

inductive HandshakeError
  | regionsPerLayer (numRegions numLayers : Nat)
  | nonContiguous (peerPositions : List Nat)
  | regionIds (owned published : Nat)
  | callerPipelineSize (caller peer : Nat)
  | slidingWindow
  | pipelineSizes (peer own : Nat)
  | pipelinedPush (peer own : Nat)
  | unreachable
  | index
  deriving DecidableEq

/-- `RblnNixlAgentMetadata`. The addresses and lengths stand in the layers' order. -/
structure AgentMetadata (Name : Type) where
  ppSize : Nat
  registeredLayerNames : List Name
  kvCachesBaseAddr : List Nat
  blockLens : List Nat

structure Worker (Name : Type) where
  localSeenLayerNames : List Name
  numRegions : Nat
  kvAreas : Nat
  pipelineParallelSize : Nat
  hasSwa : Bool

/-- A peer's shard as `add_remote_agent` registers it: the metadata it is presented by and our
region ids for its regions, or nothing but its notifications. -/
inductive Agent (Name : Type)
  | full (presented : AgentMetadata Name) (viewedRegionIds : Option (List Nat))
  | notifOnly

/-- What a shard leaves in the worker's tables: its names, its agent, and the local regions of a
transfer handle of its own. -/
structure Shard (Name : Type) where
  layerNames : Option (List Name)
  agent : Option (Agent Name)
  regionIds : Option (List Nat)

/-- `_viewed_region`. -/
def viewedRegion (viewedRegionIds : Option (List Nat)) (position : Nat) : Option Nat :=
  match viewedRegionIds with
  | none => some position
  | some ids => ids[position]?

namespace Worker

variable {Name : Type} [DecidableEq Name] (worker : Worker Name)

def regionsPerLayer : Except HandshakeError Nat :=
  let numLayers := worker.localSeenLayerNames.length
  if 0 < numLayers ∧ worker.numRegions % numLayers = 0 then .ok (worker.numRegions / numLayers)
  else .error (.regionsPerLayer worker.numRegions numLayers)

/-- `_layer_overlap`: pairs of a peer position and a local index. -/
def layerOverlap (registeredLayerNames : List Name) : List (Nat × Nat) :=
  let positionsByName := Dict.group worker.localSeenLayerNames.zipIdx
  registeredLayerNames.zipIdx.filterMap fun layer =>
    let occurrence := (registeredLayerNames.take layer.2).count layer.1
    let found := (positionsByName.lookup layer.1).getD []
    found[occurrence]?.map fun localIdx => (layer.2, localIdx)

/-- `_trim_agent_meta_to_layers`. -/
def trimAgentMetaToLayers (peer : AgentMetadata Name) (overlap : List (Nat × Nat)) :
    Except HandshakeError (AgentMetadata Name) := do
  let rpl ← worker.regionsPerLayer
  let peerPositions := overlap.map Prod.fst
  match peerPositions.head?, peerPositions.getLast? with
  | some start, some last =>
      let stop := last + 1
      if peerPositions = List.range' start (stop - start) then
        return { peer with
          kvCachesBaseAddr := (peer.kvCachesBaseAddr.take (stop * rpl)).drop (start * rpl)
          blockLens := (peer.blockLens.take (stop * rpl)).drop (start * rpl)
          registeredLayerNames := (peer.registeredLayerNames.take stop).drop start }
      else throw (.nonContiguous peerPositions)
  | _, _ => throw .index

/-- `_shard_local_region_ids`. -/
def shardLocalRegionIds (registeredLayerNames : List Name) (peerAreas : Option (List Nat)) :
    Except HandshakeError (List Nat) := do
  let rpl ← worker.regionsPerLayer
  let layerIndices := (worker.layerOverlap registeredLayerNames).map Prod.snd
  let keep := match peerAreas with
    | none => List.range rpl
    | some wanted => (List.range rpl).filter fun k => wanted.contains (k % worker.kvAreas)
  return layerIndices.flatMap fun layerIdx => keep.map (layerIdx * rpl + ·)

/-- `_peer_region_ids`. -/
def peerRegionIds (peer : AgentMetadata Name) : Except HandshakeError (Option (List Nat)) :=
  if peer.registeredLayerNames.isEmpty || worker.localSeenLayerNames.isEmpty then .ok none
  else do
    let regionIds ← worker.shardLocalRegionIds peer.registeredLayerNames none
    let nPeer := peer.kvCachesBaseAddr.length
    if regionIds.length ≠ nPeer then throw (.regionIds regionIds.length nPeer)
    if regionIds = List.range nPeer then return none
    return some regionIds

/-- The guards on the pipeline sizes, at equal tensor-parallel sizes. -/
def checkPipelines (notifAgentsOnly : Bool) (ppSize : Nat) : Except HandshakeError Unit := do
  let localPp := worker.pipelineParallelSize
  if 1 < ppSize ∨ 1 < localPp then
    if worker.hasSwa then throw .slidingWindow
    if max ppSize localPp % min ppSize localPp ≠ 0 then throw (.pipelineSizes ppSize localPp)
    if notifAgentsOnly ∧ 1 < ppSize ∧ 1 < localPp then throw (.pipelinedPush ppSize localPp)

/-- The metadata by which a stage is registered: trimmed where its overlap is partial. -/
def presentedMeta (peer : AgentMetadata Name) (overlap : List (Nat × Nat)) :
    Except HandshakeError (AgentMetadata Name) :=
  if overlap.length < peer.registeredLayerNames.length then
    worker.trimAgentMetaToLayers peer overlap
  else .ok peer

/-- The body of the loop over the peer's stages. -/
def handshakeShard (notifAgentsOnly : Bool) (ppSize : Nat) (peer : AgentMetadata Name) :
    Except HandshakeError (Shard Name) := do
  if notifAgentsOnly then return ⟨none, some .notifOnly, none⟩
  let names := peer.registeredLayerNames
  let overlap := worker.layerOverlap names
  if overlap.isEmpty then return ⟨some names, none, none⟩
  let isPartial := decide (overlap.length < names.length)
  let presented ← worker.presentedMeta peer overlap
  let viewedRegionIds ← worker.peerRegionIds presented
  let agent := Agent.full presented viewedRegionIds
  if !(decide (1 < ppSize) || isPartial) then return ⟨some names, some agent, none⟩
  let regionIds ← worker.shardLocalRegionIds names none
  return ⟨some names, some agent, some regionIds⟩

/-- `_nixl_handshake`: `query` asks the shard of a pipeline rank for its metadata. -/
def nixlHandshake (query : Nat → Except HandshakeError (AgentMetadata Name)) (remotePpSize : Nat)
    (notifAgentsOnly : Bool) : Except HandshakeError (List (Shard Name)) := do
  let firstMeta ← query 0
  let ppSize := firstMeta.ppSize
  if 1 < remotePpSize ∧ remotePpSize ≠ ppSize then
    throw (.callerPipelineSize remotePpSize ppSize)
  worker.checkPipelines notifAgentsOnly ppSize
  (List.range ppSize).mapM fun ppRank => do
    let peer ← query ppRank
    worker.handshakeShard notifAgentsOnly ppSize peer

end Worker

/-! ### The layers that two stages share -/

section Overlap

variable {Name : Type} [DecidableEq Name] {worker : Worker Name}

theorem valuesOf_zipIdx_of_notMem {names : List Name} {name : Name} (hNot : name ∉ names)
    (start : Nat) : Dict.valuesOf (names.zipIdx start) name = [] := by
  rw [Dict.valuesOf, List.map_eq_nil_iff, List.filter_eq_nil_iff]
  rintro ⟨other, place⟩ hMem hSame
  have hOther := List.fst_mem_of_mem_zipIdx hMem
  rw [of_decide_eq_true hSame] at hOther
  exact hNot hOther

theorem valuesOf_zipIdx {names : List Name} (hNodup : names.Nodup) {place : Nat} {name : Name}
    (hAt : names[place]? = some name) (start : Nat) :
    Dict.valuesOf (names.zipIdx start) name = [start + place] := by
  induction names generalizing place start with
  | nil => cases hAt
  | cons head names ih =>
      obtain ⟨hNot, hRest⟩ := List.nodup_cons.1 hNodup
      cases place with
      | zero =>
          obtain rfl := Option.some.inj hAt
          have hTail := valuesOf_zipIdx_of_notMem hNot (start + 1)
          rw [Dict.valuesOf, List.map_eq_nil_iff] at hTail
          rw [Dict.valuesOf, List.zipIdx_cons, List.filter_cons_of_pos (by simp), hTail]
          rfl
      | succ place =>
          have hTail : names[place]? = some name := hAt
          have hOther : head ≠ name := by
            rintro rfl
            exact hNot (List.mem_of_getElem? hTail)
          have hValues := ih hRest hTail (start + 1)
          rw [Dict.valuesOf] at hValues
          rw [Dict.valuesOf, List.zipIdx_cons, List.filter_cons_of_neg (by simpa using hOther),
            hValues]
          congr 1
          omega

theorem filterMap_zipIdx {α β : Type} (names : List α) (pick : α × Nat → Option β)
    (byPlace : Nat → Option β)
    (hPick : ∀ place name, names[place]? = some name → pick (name, place) = byPlace place) :
    names.zipIdx.filterMap pick = (List.range names.length).filterMap byPlace := by
  have hRange : List.range names.length = names.zipIdx.map Prod.snd := by
    rw [List.zipIdx_map_snd, List.range_eq_range']
  rw [hRange, List.filterMap_map]
  apply List.filterMap_congr
  rintro ⟨name, place⟩ hMem
  exact hPick place name (List.mem_zipIdx_iff_getElem?.1 hMem)

/-- With distinct names a layer is paired where it stands on our side, if it does. -/
theorem layerOverlap_band {layers names : List Name} {first base : Nat} (hNodup : layers.Nodup)
    (hOwn : IsBand layers first worker.localSeenLayerNames) (hPeer : IsBand layers base names)
    (hOwnNodup : worker.localSeenLayerNames.Nodup) (hPeerNodup : names.Nodup) :
    worker.layerOverlap names =
      (List.range (min names.length (first + worker.localSeenLayerNames.length - base) -
        (first - base))).map fun j =>
          (first - base + j, base + (first - base + j) - first) := by
  rw [← filterMap_interval (fun i => (i, base + i - first))]
  apply filterMap_zipIdx
  intro place name hAt
  have hFresh : (names.take place).count name = 0 := by
    rw [List.count_eq_zero]
    intro hMem
    obtain ⟨earlier, hEarlier⟩ := List.mem_iff_getElem?.1 hMem
    have hLt : earlier < place := by
      have hBound := (List.getElem?_eq_some_iff.1 hEarlier).1
      rw [List.length_take] at hBound
      omega
    rw [List.getElem?_take_of_lt hLt, ← hAt] at hEarlier
    have hSame := (List.getElem?_inj (List.getElem?_eq_some_iff.1
      (hEarlier.trans hAt)).1 hPeerNodup).1 hEarlier
    omega
  have hFound : (((Dict.group worker.localSeenLayerNames.zipIdx).lookup name).getD []) =
      Dict.valuesOf worker.localSeenLayerNames.zipIdx name := by
    rw [Dict.lookup_group]
    split
    · rename_i hNone
      rw [hNone]
      rfl
    · rfl
  have hShared := hPeer.mem_iff hNodup hOwn hAt
  simp only [hFresh, hFound]
  by_cases hInside : first - base ≤ place ∧ place < first + worker.localSeenLayerNames.length - base
  · have hOwnAt := hPeer.transfer hOwn hAt (by omega) (by omega)
    rw [valuesOf_zipIdx hOwnNodup hOwnAt, if_pos hInside, Nat.zero_add]
    rfl
  · have hNot : name ∉ worker.localSeenLayerNames := by
      intro hMem
      have hPlace := hShared.1 hMem
      omega
    rw [valuesOf_zipIdx_of_notMem hNot, if_neg hInside]
    rfl

end Overlap

/-- The regions of `count` layers, `rpl` for each. -/
def regionsOf (rpl : Nat) (layerIndices : List Nat) : List Nat :=
  layerIndices.flatMap fun layerIdx => (List.range rpl).map (layerIdx * rpl + ·)

theorem length_regionsOf (rpl : Nat) (layerIndices : List Nat) :
    (regionsOf rpl layerIndices).length = layerIndices.length * rpl := by
  induction layerIndices with
  | nil => rw [List.length_nil, Nat.zero_mul]; rfl
  | cons layerIdx layerIndices ih =>
      rw [regionsOf] at ih
      rw [regionsOf, List.flatMap_cons, List.length_append, ih, List.length_map, List.length_range,
        List.length_cons, Nat.succ_mul, Nat.add_comm]

theorem regionsOf_getElem? {rpl j k layerIdx : Nat} {layerIndices : List Nat}
    (hLayer : layerIndices[j]? = some layerIdx) (hRegion : k < rpl) :
    (regionsOf rpl layerIndices)[j * rpl + k]? = some (layerIdx * rpl + k) := by
  induction layerIndices generalizing j with
  | nil => cases hLayer
  | cons head layerIndices ih =>
      have hHead : ((List.range rpl).map (head * rpl + ·)).length = rpl := by
        rw [List.length_map, List.length_range]
      cases j with
      | zero =>
          obtain rfl := Option.some.inj hLayer
          rw [regionsOf, List.flatMap_cons, Nat.zero_mul, Nat.zero_add,
            List.getElem?_append_left (by rwa [hHead]), List.getElem?_map,
            List.getElem?_range hRegion]
          rfl
      | succ j =>
          have hTail : layerIndices[j]? = some layerIdx := hLayer
          have hSkip : (j + 1) * rpl + k - rpl = j * rpl + k := by
            rw [Nat.succ_mul]
            omega
          have hBehind : rpl ≤ (j + 1) * rpl + k := by
            rw [Nat.succ_mul]
            omega
          have hRest := ih hTail
          rw [regionsOf] at hRest
          rw [regionsOf, List.flatMap_cons, List.getElem?_append_right (by rwa [hHead]), hHead,
            hSkip, hRest]

/-! ### One stage of the peer -/

/-- The part of a stage's metadata for `count` of its layers. -/
def AgentMetadata.part {Name : Type} (peer : AgentMetadata Name) (rpl start count : Nat) :
    AgentMetadata Name :=
  { peer with
    registeredLayerNames := (peer.registeredLayerNames.drop start).take count
    kvCachesBaseAddr := (peer.kvCachesBaseAddr.drop (start * rpl)).take (count * rpl)
    blockLens := (peer.blockLens.drop (start * rpl)).take (count * rpl) }

/-- A peer stage and ours, cut from one list of layers at `base` and `first`. -/
structure Stage {Name : Type} [DecidableEq Name] (worker : Worker Name) (layers : List Name)
    (first base rpl : Nat) (peer : AgentMetadata Name) : Prop where
  nodup : layers.Nodup
  ownBand : IsBand layers first worker.localSeenLayerNames
  ownNodup : worker.localSeenLayerNames.Nodup
  peerBand : IsBand layers base peer.registeredLayerNames
  peerNodup : peer.registeredLayerNames.Nodup
  regions : worker.regionsPerLayer = .ok rpl
  addrs : peer.kvCachesBaseAddr.length = peer.registeredLayerNames.length * rpl
  lens : peer.blockLens.length = peer.registeredLayerNames.length * rpl

namespace Stage

variable {Name : Type} [DecidableEq Name] {worker : Worker Name} {layers : List Name}
  {first base rpl : Nat} {peer : AgentMetadata Name}

theorem overlap_eq (hStage : Stage worker layers first base rpl peer) :
    worker.layerOverlap peer.registeredLayerNames =
      (List.range (min peer.registeredLayerNames.length
        (first + worker.localSeenLayerNames.length - base) - (first - base))).map fun j =>
          (first - base + j, base + (first - base + j) - first) :=
  layerOverlap_band hStage.nodup hStage.ownBand hStage.peerBand hStage.ownNodup hStage.peerNodup

theorem regionIds_eq (hStage : Stage worker layers first base rpl peer) :
    worker.shardLocalRegionIds peer.registeredLayerNames none =
      .ok (regionsOf rpl (sharedFrom first worker.localSeenLayerNames.length base
        peer.registeredLayerNames.length)) := by
  rw [Worker.shardLocalRegionIds, hStage.regions, hStage.overlap_eq, List.map_map]
  rfl

theorem trim_eq (hStage : Stage worker layers first base rpl peer)
    (hShared : worker.layerOverlap peer.registeredLayerNames ≠ []) :
    worker.trimAgentMetaToLayers peer (worker.layerOverlap peer.registeredLayerNames) =
      .ok (peer.part rpl (first - base) (min peer.registeredLayerNames.length
        (first + worker.localSeenLayerNames.length - base) - (first - base))) := by
  have hOverlap := hStage.overlap_eq
  generalize hCount : min peer.registeredLayerNames.length
    (first + worker.localSeenLayerNames.length - base) - (first - base) = count at hOverlap ⊢
  have hPositions : (worker.layerOverlap peer.registeredLayerNames).map Prod.fst =
      List.range' (first - base) count := by
    rw [hOverlap, List.map_map, List.range'_eq_map_range]
    rfl
  cases count with
  | zero => exact absurd hOverlap hShared
  | succ last =>
      have hHead : (List.range' (first - base) (last + 1)).head? = some (first - base) := by
        rw [List.range'_succ, List.head?_cons]
      have hLast : (List.range' (first - base) (last + 1)).getLast? =
          some (first - base + last) := by
        rw [List.range'_concat, List.getLast?_append, List.getLast?_singleton, Nat.one_mul]
        rfl
      have hSpan : first - base + last + 1 - (first - base) = last + 1 := by omega
      have hStop : (first - base + last + 1) * rpl - (first - base) * rpl = (last + 1) * rpl := by
        rw [← Nat.sub_mul, hSpan]
      rw [Worker.trimAgentMetaToLayers, hStage.regions, ok_bind, hPositions]
      simp only [hHead, hLast, hSpan, if_true, AgentMetadata.part, List.drop_take, hStop]
      rfl

/-- A part of a stage that lies inside it is a stage itself. -/
theorem part (hStage : Stage worker layers first base rpl peer) (start count : Nat)
    (hInside : start + count ≤ peer.registeredLayerNames.length) :
    Stage worker layers first (base + start) rpl (peer.part rpl start count) where
  nodup := hStage.nodup
  ownBand := hStage.ownBand
  ownNodup := hStage.ownNodup
  peerBand := hStage.peerBand.slice start count
  peerNodup := (hStage.peerNodup.sublist (List.drop_sublist _ _)).sublist (List.take_sublist _ _)
  regions := hStage.regions
  addrs := by
    have hRegions := Nat.mul_le_mul_right rpl hInside
    rw [Nat.add_mul] at hRegions
    simp only [AgentMetadata.part, List.length_take, List.length_drop, hStage.addrs]
    rw [Nat.min_eq_left (by omega), Nat.min_eq_left (by omega)]
  lens := by
    have hRegions := Nat.mul_le_mul_right rpl hInside
    rw [Nat.add_mul] at hRegions
    simp only [AgentMetadata.part, List.length_take, List.length_drop, hStage.lens]
    rw [Nat.min_eq_left (by omega), Nat.min_eq_left (by omega)]

theorem part_whole (hStage : Stage worker layers first base rpl peer) :
    peer.part rpl 0 peer.registeredLayerNames.length = peer := by
  simp only [AgentMetadata.part, Nat.zero_mul, List.drop_zero, ← hStage.addrs, List.take_length]
  simp only [hStage.addrs, ← hStage.lens, List.take_length]

/-- The regions of a stage that lies inside ours are ours, in order. -/
theorem peerRegionIds_inside (hStage : Stage worker layers first base rpl peer)
    (hFirst : first ≤ base)
    (hLast : base + peer.registeredLayerNames.length ≤
      first + worker.localSeenLayerNames.length) :
    ∃ viewed, worker.peerRegionIds peer = .ok viewed ∧
      ∀ j < peer.registeredLayerNames.length, ∀ k < rpl,
        viewedRegion viewed (j * rpl + k) = some ((base + j - first) * rpl + k) := by
  let layerIndices := sharedFrom first worker.localSeenLayerNames.length base
    peer.registeredLayerNames.length
  have hIndices : layerIndices =
      (List.range peer.registeredLayerNames.length).map fun j => base + j - first := by
    have hStart : first - base = 0 := by omega
    have hCount : min peer.registeredLayerNames.length
        (first + worker.localSeenLayerNames.length - base) - (first - base) =
        peer.registeredLayerNames.length := by omega
    show (List.range _).map _ = _
    rw [hCount, hStart]
    simp only [Nat.zero_add]
  have hLength : (regionsOf rpl layerIndices).length = peer.kvCachesBaseAddr.length := by
    rw [length_regionsOf, hIndices, List.length_map, List.length_range, hStage.addrs]
  have hEntry : ∀ j < peer.registeredLayerNames.length, ∀ k < rpl,
      (regionsOf rpl layerIndices)[j * rpl + k]? = some ((base + j - first) * rpl + k) := by
    intro j hj k hk
    apply regionsOf_getElem? _ hk
    rw [hIndices, List.getElem?_map, List.getElem?_range hj, Option.map_some]
  unfold Worker.peerRegionIds
  split
  · rename_i hNone
    have hEmpty : peer.registeredLayerNames.length = 0 := by
      rcases Bool.or_eq_true_iff.1 hNone with hPeer | hOwn
      · rw [List.isEmpty_iff.1 hPeer, List.length_nil]
      · rw [List.isEmpty_iff.1 hOwn, List.length_nil] at hLast
        omega
    refine ⟨none, rfl, ?_⟩
    intro j hj
    omega
  · rw [hStage.regionIds_eq, ok_bind]
    simp only [ne_eq]
    rw [if_neg (not_not_intro hLength)]
    by_cases hSame : regionsOf rpl layerIndices = List.range peer.kvCachesBaseAddr.length
    · refine ⟨none, ?_, ?_⟩
      · rw [if_pos hSame]
        rfl
      · intro j hj k hk
        have hRange := hEntry j hj k hk
        rw [hSame] at hRange
        obtain ⟨hBound, hValue⟩ := List.getElem?_eq_some_iff.1 hRange
        rw [List.getElem_range] at hValue
        exact congrArg some hValue
    · refine ⟨some (regionsOf rpl layerIndices), ?_, ?_⟩
      · rw [if_neg hSame]
        rfl
      · intro j hj k hk
        exact hEntry j hj k hk

end Stage

/-! ### The handshake -/

section Tiling

variable {Name : Type} [DecidableEq Name]

/-- The pairs of a stage are its layers that are also ours, by their names and in layer order. -/
structure Overlaps (worker : Worker Name) (names : List Name) (overlap : List (Nat × Nat)) :
    Prop where
  same : ∀ pair ∈ overlap, ∃ name, names[pair.1]? = some name ∧
    worker.localSeenLayerNames[pair.2]? = some name
  shared : overlap.map (fun pair => names[pair.1]?) =
    (names.filter (· ∈ worker.localSeenLayerNames)).map some
  order : overlap.Pairwise fun earlier later => earlier.1 < later.1 ∧ earlier.2 < later.2

/-- The metadata hold the shared layers of the peer, and each of its regions is viewed as our region
of the same layer and the same place in it. -/
structure Presents (worker : Worker Name) (rpl : Nat) (peer presented : AgentMetadata Name)
    (viewed : Option (List Nat)) : Prop where
  names : presented.registeredLayerNames =
    peer.registeredLayerNames.filter (· ∈ worker.localSeenLayerNames)
  addrs : presented.kvCachesBaseAddr.length = presented.registeredLayerNames.length * rpl
  lens : presented.blockLens.length = presented.registeredLayerNames.length * rpl
  regions : ∀ j name, presented.registeredLayerNames[j]? = some name →
    ∃ peerPos localIdx, peer.registeredLayerNames[peerPos]? = some name ∧
      worker.localSeenLayerNames[localIdx]? = some name ∧ ∀ k < rpl,
        presented.kvCachesBaseAddr[j * rpl + k]? = peer.kvCachesBaseAddr[peerPos * rpl + k]? ∧
        presented.blockLens[j * rpl + k]? = peer.blockLens[peerPos * rpl + k]? ∧
        viewedRegion viewed (j * rpl + k) = some (localIdx * rpl + k)

/-- What a handshake leaves behind for a stage: nothing but its names where no layer is shared, and
else an agent presented as the shared layers, with the regions of those. -/
structure Registers (worker : Worker Name) (rpl : Nat) (notifAgentsOnly : Bool)
    (peer : AgentMetadata Name) (shard : Shard Name) : Prop where
  overlaps : Overlaps worker peer.registeredLayerNames
    (worker.layerOverlap peer.registeredLayerNames)
  apart : worker.layerOverlap peer.registeredLayerNames = [] →
    peer.registeredLayerNames ≠ [] ∨ notifAgentsOnly = false →
    shard.agent = none ∧ shard.regionIds = none
  presents : worker.layerOverlap peer.registeredLayerNames ≠ [] → notifAgentsOnly = false →
    ∃ presented viewed, shard.agent = some (.full presented viewed) ∧
      Presents worker rpl peer presented viewed ∧
      ((worker.layerOverlap peer.registeredLayerNames).length <
          peer.registeredLayerNames.length →
        worker.trimAgentMetaToLayers peer (worker.layerOverlap peer.registeredLayerNames) =
          .ok presented)
  regionIds : ∀ ids, shard.regionIds = some ids →
    worker.shardLocalRegionIds peer.registeredLayerNames none = .ok ids

/-- The peer's stages and ours cut one list of distinct layers, each side in its own way, and every
layer has `rpl` regions. -/
structure Pipelines (worker : Worker Name) (layers : List Name) (rpl : Nat)
    (peers : List (AgentMetadata Name)) (localStages : List (List Name)) : Prop where
  nodup : layers.Nodup
  peerCut : peers.flatMap (·.registeredLayerNames) = layers
  localCut : localStages.flatten = layers
  stage : worker.localSeenLayerNames ∈ localStages
  nonempty : worker.localSeenLayerNames ≠ []
  pipelineSize : worker.pipelineParallelSize = localStages.length
  regions : worker.numRegions = worker.localSeenLayerNames.length * rpl
  ppSize : ∀ peer ∈ peers, peer.ppSize = peers.length
  addrs : ∀ peer ∈ peers, peer.kvCachesBaseAddr.length = peer.registeredLayerNames.length * rpl
  lens : ∀ peer ∈ peers, peer.blockLens.length = peer.registeredLayerNames.length * rpl

namespace Stage

variable {worker : Worker Name} {layers : List Name} {first base rpl : Nat}
  {peer : AgentMetadata Name}

theorem overlaps (hStage : Stage worker layers first base rpl peer) :
    Overlaps worker peer.registeredLayerNames
      (worker.layerOverlap peer.registeredLayerNames) := by
  have hAt : ∀ j < min peer.registeredLayerNames.length
      (first + worker.localSeenLayerNames.length - base) - (first - base),
      ∃ name, peer.registeredLayerNames[first - base + j]? = some name ∧
        worker.localSeenLayerNames[base + (first - base + j) - first]? = some name := by
    intro j hj
    have hBound : first - base + j < peer.registeredLayerNames.length := by omega
    have hPeer := List.getElem?_eq_getElem hBound
    exact ⟨_, hPeer, hStage.peerBand.transfer hStage.ownBand hPeer (by omega) (by omega)⟩
  rw [hStage.overlap_eq]
  refine ⟨?_, ?_, ?_⟩
  · intro pair hMem
    obtain ⟨j, hRange, rfl⟩ := List.mem_map.1 hMem
    exact hAt j (List.mem_range.1 hRange)
  · rw [hStage.peerBand.filter_mem hStage.nodup hStage.ownBand, List.map_map]
    apply List.ext_getElem?
    intro j
    by_cases hj : j < min peer.registeredLayerNames.length
        (first + worker.localSeenLayerNames.length - base) - (first - base)
    · obtain ⟨name, hPeer, -⟩ := hAt j hj
      rw [List.getElem?_map, List.getElem?_range hj, List.getElem?_map,
        List.getElem?_take_of_lt hj, List.getElem?_drop, hPeer]
      exact congrArg some hPeer
    · rw [List.getElem?_eq_none (by simpa using hj), List.getElem?_eq_none]
      rw [List.length_map, List.length_take, List.length_drop]
      omega
  · rw [List.pairwise_map]
    apply List.pairwise_lt_range.imp_of_mem
    intro earlier later hEarlier hLater hLt
    have hBound := List.mem_range.1 hLater
    omega

/-- The shared part of a stage, presented and viewed. -/
theorem presents (hStage : Stage worker layers first base rpl peer)
    (hShared : worker.layerOverlap peer.registeredLayerNames ≠ []) :
    ∃ viewed, worker.peerRegionIds (peer.part rpl (first - base)
        (min peer.registeredLayerNames.length
          (first + worker.localSeenLayerNames.length - base) - (first - base))) = .ok viewed ∧
      Presents worker rpl peer (peer.part rpl (first - base)
        (min peer.registeredLayerNames.length
          (first + worker.localSeenLayerNames.length - base) - (first - base))) viewed := by
  have hOverlap := hStage.overlap_eq
  have hFilter := hStage.peerBand.filter_mem hStage.nodup hStage.ownBand
  generalize hCount : min peer.registeredLayerNames.length
    (first + worker.localSeenLayerNames.length - base) - (first - base) = count
      at hOverlap hFilter ⊢
  have hSome : 0 < count := by
    apply Nat.pos_of_ne_zero
    rintro rfl
    exact hShared hOverlap
  have hPart := hStage.part (first - base) count (by omega)
  have hLength : (peer.part rpl (first - base) count).registeredLayerNames.length = count := by
    show ((peer.registeredLayerNames.drop _).take _).length = _
    rw [List.length_take, List.length_drop]
    omega
  obtain ⟨viewed, hViewed, hRegions⟩ := hPart.peerRegionIds_inside (by omega) (by
    rw [hLength]
    omega)
  refine ⟨viewed, hViewed, ⟨hFilter.symm, hPart.addrs, hPart.lens, ?_⟩⟩
  intro j name hName
  have hj : j < count := by
    have hBound := (List.getElem?_eq_some_iff.1 hName).1
    rwa [hLength] at hBound
  have hPeer : peer.registeredLayerNames[first - base + j]? = some name := by
    rw [← hName]
    show _ = ((peer.registeredLayerNames.drop _).take _)[j]?
    rw [List.getElem?_take_of_lt hj, List.getElem?_drop]
  refine ⟨first - base + j, base + (first - base) + j - first, hPeer, ?_, ?_⟩
  · have hOwn := hStage.peerBand.transfer hStage.ownBand hPeer (by omega) (by omega)
    rwa [← Nat.add_assoc] at hOwn
  · intro k hk
    have hInside : j * rpl + k < count * rpl := by
      have hRow := Nat.mul_le_mul_right rpl (Nat.succ_le_of_lt hj)
      rw [Nat.succ_mul] at hRow
      omega
    have hShift : (first - base) * rpl + (j * rpl + k) = (first - base + j) * rpl + k := by
      rw [Nat.add_mul, Nat.add_assoc]
    refine ⟨?_, ?_, hRegions j (by rwa [hLength]) k hk⟩
    · show ((peer.kvCachesBaseAddr.drop _).take _)[_]? = _
      rw [List.getElem?_take_of_lt hInside, List.getElem?_drop, hShift]
    · show ((peer.blockLens.drop _).take _)[_]? = _
      rw [List.getElem?_take_of_lt hInside, List.getElem?_drop, hShift]

end Stage

namespace Pipelines

variable {worker : Worker Name} {layers : List Name} {rpl : Nat}
  {peers : List (AgentMetadata Name)} {localStages : List (List Name)}

omit [DecidableEq Name] in
/-- Our stage is a band of the layers. -/
theorem ownBand (hPipes : Pipelines worker layers rpl peers localStages) :
    ∃ before after, layers = before ++ worker.localSeenLayerNames ++ after := by
  obtain ⟨before, after, hSplit⟩ := List.append_of_mem hPipes.stage
  have hLayers := hPipes.localCut
  rw [hSplit, List.flatten_append, List.flatten_cons, ← List.append_assoc] at hLayers
  exact ⟨before.flatten, after.flatten, hLayers.symm⟩

omit [DecidableEq Name] in
theorem regionsPerLayer (hPipes : Pipelines worker layers rpl peers localStages) :
    worker.regionsPerLayer = .ok rpl := by
  have hPos : 0 < worker.localSeenLayerNames.length := List.length_pos_iff.2 hPipes.nonempty
  rw [Worker.regionsPerLayer, hPipes.regions,
    if_pos ⟨hPos, Nat.mul_mod_right _ _⟩, Nat.mul_div_cancel_left _ hPos]

/-- A stage of the peer behind the layers `before`. -/
theorem stageAt (hPipes : Pipelines worker layers rpl peers localStages) {ownBefore ownAfter : List Name}
    (hOwn : layers = ownBefore ++ worker.localSeenLayerNames ++ ownAfter)
    {peer : AgentMetadata Name} (hPeer : peer ∈ peers) {before after : List Name}
    (hAt : layers = before ++ peer.registeredLayerNames ++ after) :
    Stage worker layers ownBefore.length before.length rpl peer where
  nodup := hPipes.nodup
  ownBand := by
    rw [hOwn]
    exact isBand_append ownBefore _ ownAfter
  ownNodup := by
    have hNodup := hPipes.nodup
    rw [hOwn] at hNodup
    exact (List.nodup_append.1 (List.nodup_append.1 hNodup).1).2.1
  peerBand := by
    rw [hAt]
    exact isBand_append before _ after
  peerNodup := by
    have hNodup := hPipes.nodup
    rw [hAt] at hNodup
    exact (List.nodup_append.1 (List.nodup_append.1 hNodup).1).2.1
  regions := hPipes.regionsPerLayer
  addrs := hPipes.addrs peer hPeer
  lens := hPipes.lens peer hPeer

theorem stage_of_mem (hPipes : Pipelines worker layers rpl peers localStages)
    {peer : AgentMetadata Name} (hPeer : peer ∈ peers) :
    ∃ first base, Stage worker layers first base rpl peer := by
  obtain ⟨ownBefore, ownAfter, hOwn⟩ := hPipes.ownBand
  obtain ⟨earlier, later, hSplit⟩ := List.append_of_mem hPeer
  have hLayers := hPipes.peerCut
  rw [hSplit, List.flatMap_append, List.flatMap_cons, ← List.append_assoc] at hLayers
  exact ⟨_, _, hPipes.stageAt hOwn hPeer hLayers.symm⟩

/-- The shards' regions, stage after stage. -/
theorem regionIds_from (hPipes : Pipelines worker layers rpl peers localStages)
    {ownBefore ownAfter : List Name}
    (hOwn : layers = ownBefore ++ worker.localSeenLayerNames ++ ownAfter)
    (rest : List (AgentMetadata Name)) (hRest : ∀ peer ∈ rest, peer ∈ peers) (before : List Name)
    (hAt : layers = before ++ rest.flatMap (·.registeredLayerNames)) :
    ∃ regionIds, rest.mapM (fun peer =>
        worker.shardLocalRegionIds peer.registeredLayerNames none) = .ok regionIds ∧
      regionIds.flatten = regionsOf rpl (sharedInTurn ownBefore.length
        worker.localSeenLayerNames.length before.length
        (rest.map (·.registeredLayerNames.length))) := by
  induction rest generalizing before with
  | nil => exact ⟨[], rfl, rfl⟩
  | cons peer rest ih =>
      rw [List.flatMap_cons, ← List.append_assoc] at hAt
      have hStage := hPipes.stageAt hOwn (hRest peer List.mem_cons_self) hAt
      obtain ⟨regionIds, hRun, hIds⟩ := ih (fun other hMem =>
        hRest other (List.mem_cons_of_mem _ hMem)) _ hAt
      refine ⟨regionsOf rpl (sharedFrom ownBefore.length worker.localSeenLayerNames.length
        before.length peer.registeredLayerNames.length) :: regionIds, ?_, ?_⟩
      · rw [List.mapM_cons, hStage.regionIds_eq, ok_bind, hRun, ok_bind]
        rfl
      · rw [List.flatten_cons, hIds, List.map_cons, sharedInTurn, List.length_append]
        exact (List.flatMap_append).symm

/-- Every local region is taken by one stage of the peer, once. -/
theorem regionIds_cover (hPipes : Pipelines worker layers rpl peers localStages) :
    ∃ regionIds, peers.mapM (fun peer =>
        worker.shardLocalRegionIds peer.registeredLayerNames none) = .ok regionIds ∧
      regionIds.flatten = List.range worker.numRegions := by
  obtain ⟨ownBefore, ownAfter, hOwn⟩ := hPipes.ownBand
  obtain ⟨regionIds, hRun, hIds⟩ := hPipes.regionIds_from hOwn peers (fun _ hMem => hMem) []
    hPipes.peerCut.symm
  refine ⟨regionIds, hRun, ?_⟩
  have hTotal : (peers.map (·.registeredLayerNames.length)).sum = layers.length := by
    rw [← hPipes.peerCut, List.length_flatMap]
  have hInside : ownBefore.length + worker.localSeenLayerNames.length ≤ layers.length := by
    rw [hOwn, List.length_append, List.length_append]
    omega
  have hAll : min (0 + layers.length - ownBefore.length) worker.localSeenLayerNames.length -
      min (0 - ownBefore.length) worker.localSeenLayerNames.length =
      worker.localSeenLayerNames.length := by omega
  have hStart : min (0 - ownBefore.length) worker.localSeenLayerNames.length = 0 := by omega
  rw [hIds, sharedInTurn_eq, hTotal, List.length_nil, hAll, hStart, ← List.range_eq_range',
    hPipes.regions]
  exact flatMap_tiles rpl worker.localSeenLayerNames.length

/-- Where only notifications are registered, every stage with a layer shares one with ours. -/
theorem shares_of_notif (hPipes : Pipelines worker layers rpl peers localStages)
    (hAllowed : worker.checkPipelines true peers.length = .ok ()) {peer : AgentMetadata Name}
    (hPeer : peer ∈ peers) (hLayers : peer.registeredLayerNames ≠ []) :
    worker.layerOverlap peer.registeredLayerNames ≠ [] := by
  have hOne : peers.length = 1 ∨ localStages.length = 1 := by
    have hPeers := List.length_pos_of_mem hPeer
    have hStages := List.length_pos_of_mem hPipes.stage
    by_contra hMany
    have hBoth : 1 < peers.length ∧ 1 < worker.pipelineParallelSize := by
      rw [hPipes.pipelineSize]
      omega
    simp only [Worker.checkPipelines, hBoth.1, hBoth.2, true_or, if_true, and_self] at hAllowed
    revert hAllowed
    cases worker.hasSwa with
    | true => exact fun hAllowed => nomatch hAllowed
    | false =>
        by_cases hSizes : max peers.length worker.pipelineParallelSize %
            min peers.length worker.pipelineParallelSize = 0
        · simp [hSizes, throw, throwThe, MonadExceptOf.throw]
        · simp [hSizes, bind, Except.bind, throw, throwThe, MonadExceptOf.throw]
  obtain ⟨_, _, hStage⟩ := hPipes.stage_of_mem hPeer
  have hCommon : ∃ name ∈ peer.registeredLayerNames, name ∈ worker.localSeenLayerNames := by
    rcases hOne with hPeers | hStages
    · obtain ⟨only, hOnly⟩ := List.length_eq_one_iff.1 hPeers
      obtain rfl : peer = only := by
        rw [hOnly] at hPeer
        exact List.mem_singleton.1 hPeer
      obtain ⟨name, hName⟩ := List.exists_mem_of_ne_nil _ hPipes.nonempty
      obtain ⟨before, after, hOwn⟩ := hPipes.ownBand
      have hAll : peer.registeredLayerNames = layers := by
        rw [← hPipes.peerCut, hOnly, List.flatMap_singleton]
      refine ⟨name, ?_, hName⟩
      rw [hAll, hOwn]
      exact List.mem_append_left _ (List.mem_append_right _ hName)
    · obtain ⟨only, hOnly⟩ := List.length_eq_one_iff.1 hStages
      obtain ⟨name, hName⟩ := List.exists_mem_of_ne_nil _ hLayers
      have hOwn : worker.localSeenLayerNames = layers := by
        have hMem := hPipes.stage
        rw [hOnly] at hMem
        rw [List.mem_singleton.1 hMem, ← hPipes.localCut, hOnly, List.flatten_singleton]
      refine ⟨name, hName, ?_⟩
      rw [hOwn, ← hPipes.peerCut]
      exact List.mem_flatMap.2 ⟨peer, hPeer, hName⟩
  intro hNone
  obtain ⟨name, hName, hOwn⟩ := hCommon
  have hShared := hStage.overlaps.shared
  rw [hNone, List.map_nil] at hShared
  have hFilter := List.map_eq_nil_iff.1 hShared.symm
  exact (List.filter_eq_nil_iff.1 hFilter) name hName (decide_eq_true hOwn)

end Pipelines

theorem handshakeShard_registers {worker : Worker Name} {layers : List Name} {first base rpl : Nat}
    {peer : AgentMetadata Name} (hStage : Stage worker layers first base rpl peer)
    (notifAgentsOnly : Bool) (ppSize : Nat)
    (hNotif : notifAgentsOnly = true → peer.registeredLayerNames ≠ [] →
      worker.layerOverlap peer.registeredLayerNames ≠ []) :
    ∃ shard, worker.handshakeShard notifAgentsOnly ppSize peer = .ok shard ∧
      Registers worker rpl notifAgentsOnly peer shard := by
  cases notifAgentsOnly with
  | true =>
      refine ⟨_, rfl, ⟨hStage.overlaps, ?_, ?_, ?_⟩⟩
      · rintro hNone (hLayers | hFull)
        · exact absurd hNone (hNotif rfl hLayers)
        · cases hFull
      · intro _ hFull
        cases hFull
      · intro ids hIds
        cases hIds
  | false =>
      by_cases hShared : worker.layerOverlap peer.registeredLayerNames = []
      · refine ⟨⟨some peer.registeredLayerNames, none, none⟩, ?_, ⟨hStage.overlaps, ?_, ?_, ?_⟩⟩
        · simp only [Worker.handshakeShard, Bool.false_eq_true, if_false, hShared,
            List.isEmpty_nil, if_true]
          rfl
        · intro _ _
          exact ⟨rfl, rfl⟩
        · intro hSome
          exact absurd hShared hSome
        · intro ids hIds
          cases hIds
      · obtain ⟨viewed, hViewed, hPresents⟩ := hStage.presents hShared
        have hTrim := hStage.trim_eq hShared
        have hOverlap := congrArg List.length hStage.overlap_eq
        rw [List.length_map, List.length_range] at hOverlap
        have hWhole : ¬ (worker.layerOverlap peer.registeredLayerNames).length <
            peer.registeredLayerNames.length →
            peer.part rpl (first - base) (min peer.registeredLayerNames.length
              (first + worker.localSeenLayerNames.length - base) - (first - base)) = peer := by
          intro hAll
          have hPos := List.length_pos_iff.2 hShared
          have hStart : first - base = 0 := by omega
          have hCount : min peer.registeredLayerNames.length
              (first + worker.localSeenLayerNames.length - base) - 0 =
              peer.registeredLayerNames.length := by omega
          rw [hStart, hCount]
          exact hStage.part_whole
        generalize peer.part rpl (first - base) (min peer.registeredLayerNames.length
          (first + worker.localSeenLayerNames.length - base) - (first - base)) = presented
            at hViewed hPresents hTrim hWhole
        have hEmpty : (worker.layerOverlap peer.registeredLayerNames).isEmpty = false := by
          rw [List.isEmpty_eq_false_iff]
          exact hShared
        have hPresented : worker.presentedMeta peer
            (worker.layerOverlap peer.registeredLayerNames) = .ok presented := by
          unfold Worker.presentedMeta
          split
          · exact hTrim
          · rename_i hAll
            rw [hWhole hAll]
        have hRegisters : ∀ regionIds : Option (List Nat),
            (∀ ids, regionIds = some ids →
              worker.shardLocalRegionIds peer.registeredLayerNames none = .ok ids) →
            Registers worker rpl false peer ⟨some peer.registeredLayerNames,
              some (.full presented viewed), regionIds⟩ := by
          intro regionIds hIds
          refine ⟨hStage.overlaps, ?_, ?_, hIds⟩
          · intro hNone
            exact absurd hNone hShared
          · intro _ _
            exact ⟨presented, viewed, rfl, hPresents, fun _ => hTrim⟩
        simp only [Worker.handshakeShard, Bool.false_eq_true, if_false, hEmpty,
          hPresented, ok_bind, hViewed, hStage.regionIds_eq]
        split
        · refine ⟨_, rfl, hRegisters none ?_⟩
          intro ids hIds
          cases hIds
        · refine ⟨_, rfl, hRegisters (some _) ?_⟩
          intro ids hIds
          rw [← Option.some.inj hIds]
          exact hStage.regionIds_eq

end Tiling

/-- Layers 0 and 1 on a first stage of the peer, 2 to 4 on its second, two regions for each. -/
def twoStages : List (AgentMetadata Nat) :=
  [⟨2, [0, 1], [10, 11, 20, 21], [4, 4, 4, 4]⟩,
    ⟨2, [2, 3, 4], [30, 31, 40, 41, 50, 51], [4, 4, 4, 4, 8, 8]⟩]

/-- Our second stage, behind one that holds layer 0 alone. -/
def unevenWorker : Worker Nat where
  localSeenLayerNames := [1, 2, 3, 4]
  numRegions := 8
  kvAreas := 1
  pipelineParallelSize := 2
  hasSwa := false

theorem unevenWorker_pipelines :
    Pipelines unevenWorker [0, 1, 2, 3, 4] 2 twoStages [[0], [1, 2, 3, 4]] := by
  refine ⟨by decide, rfl, rfl, by decide, by decide, rfl, rfl, ?_, ?_, ?_⟩
  all_goals
    intro peer hPeer
    simp only [twoStages, List.mem_cons, List.not_mem_nil, or_false] at hPeer
    rcases hPeer with rfl | rfl <;> rfl

end VllmRbln.KvTransfer.Handshake
