import VllmRbln.Common.Run
import Mathlib.Data.List.Nodup
import Mathlib.Data.List.Perm.Basic

/-! The worker side of `RblnECNixlConnector`
(`distributed/ec_transfer/ec_connector/rbln_ec_nixl_connector.py`). The encoder registers
its outputs and pushes their addresses; the LLM pulls what its scheduler asks for and
acknowledges every pull that ended. -/
namespace VllmRbln.EcTransfer

set_option linter.unusedSectionVars false

variable {Hash : Type} [DecidableEq Hash]

/-- The buffer `save_caches` registered for an item. `serial` tells registrations apart: an
address comes back once its buffer is freed. -/
structure Registration where
  baseAddr : Nat
  nbytes : Nat
  serial : Nat
  deriving DecidableEq, Repr

/-- `ECNixlMetadata`: which item is where. -/
structure Metadata (Hash : Type) where
  mmHash : Hash
  tensor : Registration
  deriving DecidableEq, Repr

/-- `ECNixlAck` names the item alone. `serial` records which registration was read. -/
structure Ack (Hash : Type) where
  mmHash : Hash
  serial : Nat
  deriving DecidableEq, Repr

/-- The producer. `evicted` records the registrations an ACK took out. -/
structure Encoder (Hash : Type) where
  registeredCaches : Hash → Option Registration
  incomingAcks : List (Ack Hash)
  nextSerial : Nat
  evicted : List Nat

/-- One turn of `_drain_acks`. -/
def Encoder.evictAcked (encoder : Encoder Hash) (ack : Ack Hash) : Encoder Hash :=
  match encoder.registeredCaches ack.mmHash with
  | none => encoder
  | some tensor =>
      { encoder with
        registeredCaches := Function.update encoder.registeredCaches ack.mmHash none
        evicted := encoder.evicted ++ [tensor.serial] }

def Encoder.drainAcks (encoder : Encoder Hash) : Encoder Hash :=
  { encoder.incomingAcks.foldl Encoder.evictAcked encoder with incomingAcks := [] }

/-- `save_caches`, with the buffer it allocated and the metadata it pushes. -/
def Encoder.saveCaches (encoder : Encoder Hash) (mmHash : Hash) (baseAddr nbytes : Nat) :
    Encoder Hash × List (Metadata Hash) :=
  let encoder := encoder.drainAcks
  match encoder.registeredCaches mmHash with
  | some _ => (encoder, [])
  | none =>
      let tensor : Registration := ⟨baseAddr, nbytes, encoder.nextSerial⟩
      ({ encoder with
          registeredCaches := Function.update encoder.registeredCaches mmHash (some tensor)
          nextSerial := encoder.nextSerial + 1 },
        [⟨mmHash, tensor⟩])

/-- What the LLM's main thread is in the middle of: the loop of `start_load_caches` over the
items left, or a round of polls with the items left in it, of `_wait_for_pulls` when
`waiting` and of `get_finished` otherwise. -/
inductive Phase (Hash : Type)
  | idle
  | loading (todo : List Hash) (blocking : Bool)
  | polling (round : List Hash) (waiting : Bool)
  deriving DecidableEq, Repr

/-- The consumer. `endedPulls` records the registrations whose pull ended and `sentAcks` every
ACK it sent. -/
structure Consumer (Hash : Type) where
  maxConcurrentPulls : Nat
  tensorRegistry : Hash → Option Registration
  incomingMetadata : List (Metadata Hash)
  ackSent : List Hash
  pendingLoads : List (Hash × Registration)
  deferredLoads : List Hash
  encoderCache : List Hash
  phase : Phase Hash
  endedPulls : List Nat
  sentAcks : List (Ack Hash)

/-- The registry entry of one metadata message. -/
def register (registry : Hash → Option Registration) (metadata : Metadata Hash) :
    Hash → Option Registration :=
  Function.update registry metadata.mmHash (some metadata.tensor)

/-- `_process_pending_metadata`. -/
def Consumer.processPendingMetadata (consumer : Consumer Hash) : Consumer Hash :=
  { consumer with
    tensorRegistry := consumer.incomingMetadata.foldl register consumer.tensorRegistry
    incomingMetadata := [] }

/-- The items of one `start_load_caches`: the deferred ones, then the scheduler's asks that
are not among them. -/
def mergeTodo (deferred asks : List Hash) : List Hash :=
  asks.foldl (fun todo mmHash => if mmHash ∈ todo then todo else todo ++ [mmHash]) deferred

def Consumer.isPending (consumer : Consumer Hash) (mmHash : Hash) : Bool :=
  mmHash ∈ consumer.pendingLoads.map Prod.fst

/-- `_initiate_pull` on the buffer the registry names. -/
def Consumer.initiatePull (consumer : Consumer Hash) (mmHash : Hash) (tensor : Registration) :
    Consumer Hash :=
  { consumer with pendingLoads := consumer.pendingLoads ++ [(mmHash, tensor)] }

/-- One turn of the loop of `start_load_caches`; none while it waits for metadata. -/
def Consumer.loadItem (consumer : Consumer Hash) (mmHash : Hash) (timedOut : Bool) :
    Option (Consumer Hash) :=
  if mmHash ∈ consumer.encoderCache then some consumer
  else if consumer.isPending mmHash then some consumer
  else if consumer.maxConcurrentPulls ≤ consumer.pendingLoads.length then
    some { consumer with deferredLoads := consumer.deferredLoads ++ [mmHash] }
  else
    match consumer.tensorRegistry mmHash with
    | some tensor => some (consumer.initiatePull mmHash tensor)
    | none =>
        let consumer := consumer.processPendingMetadata
        match consumer.tensorRegistry mmHash with
        | some tensor => some (consumer.initiatePull mmHash tensor)
        | none => if timedOut then some consumer else none

/-- `_send_ack_if_unsent` for a pull that read `tensor`. The encoder advertises its ACK
address with every entry of the registry. -/
def Consumer.sendAckIfUnsent (consumer : Consumer Hash) (mmHash : Hash) (tensor : Registration) :
    Consumer Hash × List (Ack Hash) :=
  if mmHash ∈ consumer.ackSent ∨ consumer.tensorRegistry mmHash = none then (consumer, [])
  else
    ({ consumer with
        ackSent := consumer.ackSent ++ [mmHash]
        sentAcks := consumer.sentAcks ++ [⟨mmHash, tensor.serial⟩] },
      [⟨mmHash, tensor.serial⟩])

/-- A pull ends, well or not: it is released and acknowledged. -/
def Consumer.endPull (consumer : Consumer Hash) (mmHash : Hash) (done : Bool) :
    Consumer Hash × List (Ack Hash) :=
  match consumer.pendingLoads.lookup mmHash with
  | none => (consumer, [])
  | some tensor =>
      ({ consumer with
          encoderCache := if done then consumer.encoderCache ++ [mmHash] else consumer.encoderCache
          pendingLoads := consumer.pendingLoads.filter (fun load => load.1 ≠ mmHash)
          endedPulls := consumer.endedPulls ++ [tensor.serial] }).sendAckIfUnsent mmHash tensor

/-- `check_xfer_state`. -/
inductive XferState
  | done | proc | failed
  deriving DecidableEq, Repr

/-- One poll of a pending pull. -/
def Consumer.poll (consumer : Consumer Hash) (mmHash : Hash) (status : XferState) :
    Consumer Hash × List (Ack Hash) :=
  match status with
  | .done => consumer.endPull mmHash true
  | .proc => (consumer, [])
  | .failed => consumer.endPull mmHash false

/-- The end of `_wait_for_pulls` past its deadline: whatever is pending is released. -/
def Consumer.releaseAll (consumer : Consumer Hash) : Consumer Hash × List (Ack Hash) :=
  (consumer.pendingLoads.map Prod.fst).foldl
    (fun (state : Consumer Hash × List (Ack Hash)) mmHash =>
      let (consumer, acks) := state.1.endPull mmHash false
      (consumer, state.2 ++ acks))
    (consumer, [])

/-! ### The two workers and their channels -/

structure State (Hash : Type) where
  encoder : Encoder Hash
  consumer : Consumer Hash
  metadataChannel : List (Metadata Hash)
  ackChannel : List (Ack Hash)

def State.initial (maxConcurrentPulls : Nat) : State Hash where
  encoder := ⟨fun _ => none, [], 0, []⟩
  consumer := ⟨maxConcurrentPulls, fun _ => none, [], [], [], [], [], .idle, [], []⟩
  metadataChannel := []
  ackChannel := []

/-- What either worker or a receiver thread does next. `startLoad` carries the order in which
the set of deferred hashes is listed and the scheduler's asks. -/
inductive Action (Hash : Type)
  | save (mmHash : Hash) (baseAddr nbytes : Nat)
  | deliverMetadata
  | deliverAck
  | startLoad (deferred asks : List Hash) (blocking : Bool)
  | loadItem (timedOut : Bool)
  | endLoading
  | getFinished
  | poll (status : XferState)
  | endRound (timedOut : Bool)
  | removeCached (mmHash : Hash)
  deriving DecidableEq, Repr

/-- One step of the two workers; none where the step is not theirs to take. -/
def step (s : State Hash) : Action Hash → Option (State Hash)
  | .save mmHash baseAddr nbytes =>
      let (encoder, metadata) := s.encoder.saveCaches mmHash baseAddr nbytes
      some { s with encoder, metadataChannel := s.metadataChannel ++ metadata }
  | .deliverMetadata =>
      match s.metadataChannel with
      | [] => none
      | metadata :: rest => some { s with
          metadataChannel := rest
          consumer := { s.consumer with
            incomingMetadata := s.consumer.incomingMetadata ++ [metadata] } }
  | .deliverAck =>
      match s.ackChannel with
      | [] => none
      | ack :: rest => some { s with
          ackChannel := rest
          encoder := { s.encoder with incomingAcks := s.encoder.incomingAcks ++ [ack] } }
  | .startLoad deferred asks blocking =>
      if s.consumer.phase = .idle ∧ deferred.Perm s.consumer.deferredLoads then
        some { s with consumer := { s.consumer.processPendingMetadata with
          deferredLoads := []
          phase := .loading (mergeTodo deferred asks) blocking } }
      else none
  | .loadItem timedOut =>
      match s.consumer.phase with
      | .loading (mmHash :: todo) blocking =>
          (s.consumer.loadItem mmHash timedOut).map fun consumer =>
            { s with consumer := { consumer with phase := .loading todo blocking } }
      | _ => none
  | .endLoading =>
      match s.consumer.phase with
      | .loading [] blocking =>
          some { s with consumer := { s.consumer with
            phase := if blocking && !s.consumer.pendingLoads.isEmpty then
                .polling (s.consumer.pendingLoads.map Prod.fst) true
              else .idle } }
      | _ => none
  | .getFinished =>
      if s.consumer.phase = .idle ∧ s.consumer.pendingLoads ≠ [] then
        some { s with consumer := { s.consumer.processPendingMetadata with
          phase := .polling (s.consumer.pendingLoads.map Prod.fst) false } }
      else none
  | .poll status =>
      match s.consumer.phase with
      | .polling (mmHash :: round) waiting =>
          let (consumer, acks) := s.consumer.poll mmHash status
          some { s with
            consumer := { consumer with phase := .polling round waiting }
            ackChannel := s.ackChannel ++ acks }
      | _ => none
  | .endRound timedOut =>
      match s.consumer.phase with
      | .polling [] waiting =>
          if !waiting || s.consumer.pendingLoads.isEmpty then
            some { s with consumer := { s.consumer with phase := .idle } }
          else if timedOut then
            let (consumer, acks) := s.consumer.releaseAll
            some { s with
              consumer := { consumer with phase := .idle }
              ackChannel := s.ackChannel ++ acks }
          else
            some { s with consumer := { s.consumer with
              phase := .polling (s.consumer.pendingLoads.map Prod.fst) true } }
      | _ => none
  | .removeCached mmHash =>
      if s.consumer.phase = .idle then
        some { s with consumer := { s.consumer with
          encoderCache := s.consumer.encoderCache.filter (· ≠ mmHash) } }
      else none

end VllmRbln.EcTransfer
