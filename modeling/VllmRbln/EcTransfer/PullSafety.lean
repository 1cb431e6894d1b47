import VllmRbln.EcTransfer.Connector

/-! Which memory the pulls of the LLM read. An ACK names an item, not a registration, and the
consumer keeps both its registry entry and its mark that the ACK went out; as long as no
item is pulled again after its ACK the two workers agree on every buffer. -/
namespace VllmRbln.EcTransfer

set_option linter.unusedSectionVars false

variable {Hash : Type} [DecidableEq Hash]

/-- The pulls in flight read what the encoder has registered, an ACK takes out only a
registration whose pull has ended, and every registration whose pull ended has its ACK. -/
structure State.PullsSafe (s : State Hash) : Prop where
  reads : ∀ mmHash tensor, (mmHash, tensor) ∈ s.consumer.pendingLoads →
    ∃ current, s.encoder.registeredCaches mmHash = some current ∧
      current.baseAddr = tensor.baseAddr ∧ current.nbytes = tensor.nbytes
  evictions : ∀ serial ∈ s.encoder.evicted, serial ∈ s.consumer.endedPulls
  acks : ∀ serial ∈ s.consumer.endedPulls, serial ∈ s.consumer.sentAcks.map Ack.serial

/-- The load loop does not take up an item whose ACK went out before. -/
def FreshLoad (s : State Hash) : Action Hash → Prop
  | .loadItem _ =>
      match s.consumer.phase with
      | .loading (mmHash :: _) _ =>
          mmHash ∈ s.consumer.encoderCache ∨ s.consumer.isPending mmHash = true ∨
            s.consumer.maxConcurrentPulls ≤ s.consumer.pendingLoads.length ∨
            mmHash ∉ s.consumer.ackSent
      | _ => True
  | _ => True

instance (s : State Hash) (action : Action Hash) : Decidable (FreshLoad s action) := by
  unfold FreshLoad
  split
  · split <;> infer_instance
  · infer_instance

/-! ### One registration per item -/

/-- The registry or a message on its way to it names this buffer for the item. -/
def State.Names (s : State Hash) (mmHash : Hash) (tensor : Registration) : Prop :=
  ⟨mmHash, tensor⟩ ∈ s.metadataChannel ∨ ⟨mmHash, tensor⟩ ∈ s.consumer.incomingMetadata ∨
    s.consumer.tensorRegistry mmHash = some tensor

/-- The ACKs the encoder has not drained yet, oldest first. -/
def State.acksInFlight (s : State Hash) : List (Ack Hash) :=
  s.encoder.incomingAcks ++ s.ackChannel

/-- What the two workers agree on while no item is pulled again after its ACK. -/
structure State.Agree (s : State Hash) : Prop where
  named : ∀ mmHash tensor, mmHash ∉ s.consumer.ackSent → s.Names mmHash tensor →
    s.encoder.registeredCaches mmHash = some tensor
  pending : ∀ mmHash tensor, (mmHash, tensor) ∈ s.consumer.pendingLoads →
    mmHash ∉ s.consumer.ackSent ∧ s.consumer.tensorRegistry mmHash = some tensor
  pendingNodup : (s.consumer.pendingLoads.map Prod.fst).Nodup
  acked : ∀ ack ∈ s.acksInFlight, ack.mmHash ∈ s.consumer.ackSent ∧
    ack.serial ∈ s.consumer.endedPulls ∧
    ∃ tensor, s.encoder.registeredCaches ack.mmHash = some tensor ∧ tensor.serial = ack.serial
  ackedNodup : (s.acksInFlight.map Ack.mmHash).Nodup
  evictions : ∀ serial ∈ s.encoder.evicted, serial ∈ s.consumer.endedPulls
  acks : ∀ serial ∈ s.consumer.endedPulls, serial ∈ s.consumer.sentAcks.map Ack.serial

theorem State.Agree.pullsSafe {s : State Hash} (hAgree : s.Agree) : s.PullsSafe where
  reads := by
    intro mmHash tensor hPending
    obtain ⟨hUnsent, hRegistry⟩ := hAgree.pending mmHash tensor hPending
    exact ⟨tensor, hAgree.named mmHash tensor hUnsent (.inr (.inr hRegistry)), rfl, rfl⟩
  evictions := hAgree.evictions
  acks := hAgree.acks

theorem State.initial_agree (maxConcurrentPulls : Nat) :
    (State.initial maxConcurrentPulls : State Hash).Agree where
  named := by simp [State.Names, State.initial]
  pending := by simp [State.initial]
  pendingNodup := List.nodup_nil
  acked := by simp [State.acksInFlight, State.initial]
  ackedNodup := List.nodup_nil
  evictions := by simp [State.initial]
  acks := by simp [State.initial]

/-! ### The encoder -/

section Drain

variable {encoder : Encoder Hash}

/-- What draining some ACKs leaves registered. -/
theorem evictAcked_registered (acks : List (Ack Hash)) (mmHash : Hash) :
    (acks.foldl Encoder.evictAcked encoder).registeredCaches mmHash =
      if mmHash ∈ acks.map Ack.mmHash then none else encoder.registeredCaches mmHash := by
  induction acks generalizing encoder with
  | nil => simp
  | cons ack acks ih =>
      have hOne : (encoder.evictAcked ack).registeredCaches mmHash =
          if mmHash = ack.mmHash then none else encoder.registeredCaches mmHash := by
        unfold Encoder.evictAcked
        by_cases hEq : mmHash = ack.mmHash
        · subst hEq
          cases hOwn : encoder.registeredCaches ack.mmHash <;> simp [hOwn]
        · cases encoder.registeredCaches ack.mmHash <;>
            simp [hEq]
      rw [List.foldl_cons, ih, hOne, List.map_cons]
      by_cases hEq : mmHash = ack.mmHash <;> by_cases hRest : mmHash ∈ acks.map Ack.mmHash <;>
        simp [hEq, hRest]

/-- Every registration a drain takes out was the registered one of an ACKed item. -/
theorem evictAcked_evicted {acks : List (Ack Hash)} {serial : Nat}
    (hSerial : serial ∈ (acks.foldl Encoder.evictAcked encoder).evicted) :
    serial ∈ encoder.evicted ∨ ∃ ack ∈ acks, ∃ tensor,
      encoder.registeredCaches ack.mmHash = some tensor ∧ tensor.serial = serial := by
  induction acks generalizing encoder with
  | nil => exact .inl hSerial
  | cons ack acks ih =>
      rw [List.foldl_cons] at hSerial
      cases hOwn : encoder.registeredCaches ack.mmHash with
      | none =>
          have hSame : encoder.evictAcked ack = encoder := by simp [Encoder.evictAcked, hOwn]
          rw [hSame] at hSerial
          rcases ih hSerial with hOld | ⟨other, hOther, hTaken⟩
          · exact .inl hOld
          · exact .inr ⟨other, List.mem_cons_of_mem _ hOther, hTaken⟩
      | some tensor =>
          rcases ih hSerial with hOld | ⟨other, hOther, taken, hTaken, hEq⟩
          · simp only [Encoder.evictAcked, hOwn, List.mem_append, List.mem_singleton] at hOld
            rcases hOld with hOld | rfl
            · exact .inl hOld
            · exact .inr ⟨ack, List.mem_cons_self, tensor, hOwn, rfl⟩
          · refine .inr ⟨other, List.mem_cons_of_mem _ hOther, taken, ?_, hEq⟩
            simp only [Encoder.evictAcked, hOwn] at hTaken
            by_cases hSame : other.mmHash = ack.mmHash
            · rw [hSame, Function.update_self] at hTaken
              cases hTaken
            · rwa [Function.update_of_ne hSame] at hTaken

end Drain

section Steps

variable {s : State Hash}

/-- Draining takes out the ACKed registrations, whose pulls have ended, and no other. -/
theorem State.Agree.drain (hAgree : s.Agree) :
    ({ s with encoder := s.encoder.drainAcks } : State Hash).Agree := by
  have hSplit := hAgree.ackedNodup
  unfold State.acksInFlight at hSplit
  rw [List.map_append, List.nodup_append] at hSplit
  have hKeep : ∀ {mmHash}, mmHash ∉ s.encoder.incomingAcks.map Ack.mmHash →
      s.encoder.drainAcks.registeredCaches mmHash = s.encoder.registeredCaches mmHash := by
    intro mmHash hNot
    unfold Encoder.drainAcks
    simp only [evictAcked_registered, hNot, if_false]
  refine
    { named := fun mmHash tensor hUnsent hNames => ?_, pending := hAgree.pending,
      pendingNodup := hAgree.pendingNodup, acked := fun ack hAck => ?_, ackedNodup := ?_,
      evictions := fun serial hSerial => ?_, acks := hAgree.acks }
  · refine (hKeep fun hAcked => ?_).trans (hAgree.named mmHash tensor hUnsent hNames)
    obtain ⟨ack, hAck, rfl⟩ := List.mem_map.1 hAcked
    exact hUnsent (hAgree.acked ack (List.mem_append_left _ hAck)).1
  · have hChannel : ack ∈ s.ackChannel := by
      simpa [State.acksInFlight, Encoder.drainAcks] using hAck
    obtain ⟨hSent, hEnded, tensor, hOwn, hSerial⟩ :=
      hAgree.acked ack (List.mem_append_right _ hChannel)
    refine ⟨hSent, hEnded, tensor, (hKeep fun hAcked => ?_).trans hOwn, hSerial⟩
    exact hSplit.2.2 _ hAcked _ (List.mem_map_of_mem hChannel) rfl
  · simpa [State.acksInFlight, Encoder.drainAcks] using hSplit.2.1
  · rcases evictAcked_evicted hSerial with hOld | ⟨ack, hAck, tensor, hOwn, rfl⟩
    · exact hAgree.evictions serial hOld
    · obtain ⟨-, hEnded, other, hOther, hEq⟩ := hAgree.acked ack (List.mem_append_left _ hAck)
      rw [hOwn] at hOther
      cases hOther
      exact hEq ▸ hEnded

/-- A save registers a buffer only where nothing is registered, so nothing names the item. -/
theorem State.Agree.save (hAgree : s.Agree) (mmHash : Hash) (baseAddr nbytes : Nat) :
    ({ s with
      encoder := (s.encoder.saveCaches mmHash baseAddr nbytes).1
      metadataChannel := s.metadataChannel ++
        (s.encoder.saveCaches mmHash baseAddr nbytes).2 } : State Hash).Agree := by
  have hDrained := hAgree.drain
  cases hOwn : s.encoder.drainAcks.registeredCaches mmHash with
  | some tensor =>
      have hSave : s.encoder.saveCaches mmHash baseAddr nbytes = (s.encoder.drainAcks, []) := by
        simp only [Encoder.saveCaches, hOwn]
      rw [hSave, List.append_nil]
      exact hDrained
  | none =>
      have hSave : s.encoder.saveCaches mmHash baseAddr nbytes =
          ({ s.encoder.drainAcks with
              registeredCaches := Function.update s.encoder.drainAcks.registeredCaches mmHash
                (some ⟨baseAddr, nbytes, s.encoder.drainAcks.nextSerial⟩)
              nextSerial := s.encoder.drainAcks.nextSerial + 1 },
            [⟨mmHash, ⟨baseAddr, nbytes, s.encoder.drainAcks.nextSerial⟩⟩]) := by
        simp only [Encoder.saveCaches, hOwn]
      rw [hSave]
      refine
        { named := fun other tensor hUnsent hNames => ?_, pending := hDrained.pending,
          pendingNodup := hDrained.pendingNodup, acked := fun ack hAck => ?_,
          ackedNodup := hDrained.ackedNodup, evictions := hDrained.evictions,
          acks := hDrained.acks }
      · by_cases hEq : other = mmHash
        · subst hEq
          rcases hNames with hChannel | hNames
          · rcases List.mem_append.1 hChannel with hChannel | hNew
            · have := hDrained.named other tensor hUnsent (.inl hChannel)
              rw [hOwn] at this
              cases this
            · simp only [List.mem_singleton, Metadata.mk.injEq, true_and] at hNew
              subst hNew
              exact Function.update_self ..
          · have := hDrained.named other tensor hUnsent (.inr hNames)
            rw [hOwn] at this
            cases this
        · refine (Function.update_of_ne hEq ..).trans (hDrained.named other tensor hUnsent ?_)
          rcases hNames with hChannel | hNames
          · rcases List.mem_append.1 hChannel with hChannel | hNew
            · exact .inl hChannel
            · simp only [List.mem_singleton, Metadata.mk.injEq] at hNew
              exact absurd hNew.1 hEq
          · exact .inr hNames
      · obtain ⟨hSent, hEnded, tensor, hTensor, hSerial⟩ := hDrained.acked ack hAck
        have hNe : ack.mmHash ≠ mmHash := by
          intro hEq
          rw [hEq, hOwn] at hTensor
          cases hTensor
        exact ⟨hSent, hEnded, tensor, (Function.update_of_ne hNe ..).trans hTensor, hSerial⟩

theorem State.Agree.deliverMetadata (hAgree : s.Agree) {metadata : Metadata Hash}
    {rest : List (Metadata Hash)} (hChannel : s.metadataChannel = metadata :: rest) :
    ({ s with
      metadataChannel := rest
      consumer := { s.consumer with
        incomingMetadata := s.consumer.incomingMetadata ++ [metadata] } } : State Hash).Agree where
  named := by
    intro mmHash tensor hUnsent hNames
    refine hAgree.named mmHash tensor hUnsent ?_
    rcases hNames with hRest | hQueue | hRegistry
    · exact .inl (hChannel ▸ List.mem_cons_of_mem _ hRest)
    · rcases List.mem_append.1 hQueue with hQueue | hNew
      · exact .inr (.inl hQueue)
      · rw [List.mem_singleton] at hNew
        exact .inl (hChannel ▸ hNew ▸ List.mem_cons_self)
    · exact .inr (.inr hRegistry)
  pending := hAgree.pending
  pendingNodup := hAgree.pendingNodup
  acked := hAgree.acked
  ackedNodup := hAgree.ackedNodup
  evictions := hAgree.evictions
  acks := hAgree.acks

theorem State.Agree.deliverAck (hAgree : s.Agree) {ack : Ack Hash} {rest : List (Ack Hash)}
    (hChannel : s.ackChannel = ack :: rest) :
    ({ s with
      ackChannel := rest
      encoder := { s.encoder with
        incomingAcks := s.encoder.incomingAcks ++ [ack] } } : State Hash).Agree := by
  have hSame : s.encoder.incomingAcks ++ [ack] ++ rest = s.acksInFlight := by
    unfold State.acksInFlight
    rw [hChannel, List.append_assoc, List.singleton_append]
  refine
    { named := hAgree.named, pending := hAgree.pending, pendingNodup := hAgree.pendingNodup,
      acked := fun other hOther => hAgree.acked other (hSame ▸ hOther), ackedNodup := ?_,
      evictions := hAgree.evictions, acks := hAgree.acks }
  have hNodup := hAgree.ackedNodup
  rwa [← hSame] at hNodup

/-! ### The consumer -/

/-- What the registry holds once the queue is drained. -/
theorem register_queue (queue : List (Metadata Hash)) (registry : Hash → Option Registration)
    (mmHash : Hash) :
    (∃ tensor, ⟨mmHash, tensor⟩ ∈ queue ∧ (queue.foldl register registry) mmHash = some tensor) ∨
      (queue.foldl register registry) mmHash = registry mmHash := by
  induction queue generalizing registry with
  | nil => exact .inr rfl
  | cons metadata queue ih =>
      rcases ih (register registry metadata) with ⟨tensor, hMem, hFold⟩ | hFold
      · exact .inl ⟨tensor, List.mem_cons_of_mem _ hMem, hFold⟩
      · rw [List.foldl_cons, hFold]
        by_cases hEq : mmHash = metadata.mmHash
        · subst hEq
          exact .inl ⟨metadata.tensor, List.mem_cons_self, Function.update_self ..⟩
        · exact .inr (Function.update_of_ne hEq ..)

theorem State.Agree.process (hAgree : s.Agree) :
    ({ s with consumer := s.consumer.processPendingMetadata } : State Hash).Agree := by
  have hNames : ∀ mmHash tensor,
      ({ s with consumer := s.consumer.processPendingMetadata } : State Hash).Names mmHash tensor →
        s.Names mmHash tensor := by
    intro mmHash tensor hNames
    rcases hNames with hChannel | hQueue | hRegistry
    · exact .inl hChannel
    · cases hQueue
    · rcases register_queue s.consumer.incomingMetadata s.consumer.tensorRegistry mmHash with
        ⟨other, hMem, hFold⟩ | hFold
      · have hSame : some other = some tensor := hFold.symm.trans hRegistry
        cases hSame
        exact .inr (.inl hMem)
      · exact .inr (.inr (hFold.symm.trans hRegistry))
  refine
    { named := fun mmHash tensor hUnsent hOwn =>
        hAgree.named mmHash tensor hUnsent (hNames mmHash tensor hOwn),
      pending := fun mmHash tensor hPending => ?_, pendingNodup := hAgree.pendingNodup,
      acked := hAgree.acked, ackedNodup := hAgree.ackedNodup, evictions := hAgree.evictions,
      acks := hAgree.acks }
  obtain ⟨hUnsent, hRegistry⟩ := hAgree.pending mmHash tensor hPending
  refine ⟨hUnsent, ?_⟩
  rcases register_queue s.consumer.incomingMetadata s.consumer.tensorRegistry mmHash with
    ⟨other, hMem, hFold⟩ | hFold
  · -- Whatever the queue names for the item is the one registered buffer.
    have hOwn := hAgree.named mmHash tensor hUnsent (.inr (.inr hRegistry))
    have hOther := hAgree.named mmHash other hUnsent (.inr (.inl hMem))
    rw [hOwn] at hOther
    cases hOther
    exact hFold
  · exact hFold.trans hRegistry

/-- The phase of the main thread and what is cached or deferred do not matter. -/
theorem State.Agree.rest (hAgree : s.Agree) (phase : Phase Hash) (cached deferred : List Hash) :
    ({ s with consumer := { s.consumer with
      phase, encoderCache := cached, deferredLoads := deferred } } : State Hash).Agree :=
  ⟨hAgree.named, hAgree.pending, hAgree.pendingNodup, hAgree.acked, hAgree.ackedNodup,
    hAgree.evictions, hAgree.acks⟩

theorem State.Agree.initiatePull (hAgree : s.Agree) {mmHash : Hash} {tensor : Registration}
    (hFree : s.consumer.isPending mmHash = false) (hUnsent : mmHash ∉ s.consumer.ackSent)
    (hRegistry : s.consumer.tensorRegistry mmHash = some tensor) :
    ({ s with consumer := s.consumer.initiatePull mmHash tensor } : State Hash).Agree := by
  refine
    { named := hAgree.named, pending := fun other read hPending => ?_, pendingNodup := ?_,
      acked := hAgree.acked, ackedNodup := hAgree.ackedNodup, evictions := hAgree.evictions,
      acks := hAgree.acks }
  · rcases List.mem_append.1 hPending with hOld | hNew
    · exact hAgree.pending other read hOld
    · cases List.mem_singleton.1 hNew
      exact ⟨hUnsent, hRegistry⟩
  · have hNot : mmHash ∉ s.consumer.pendingLoads.map Prod.fst := by
      simpa [Consumer.isPending] using hFree
    simp only [Consumer.initiatePull, List.map_append, List.map_cons, List.map_nil]
    rw [List.nodup_append]
    refine ⟨hAgree.pendingNodup, List.nodup_singleton _, fun other hOther new hNew hEq => ?_⟩
    rw [List.mem_singleton] at hNew
    exact hNot (hNew ▸ hEq ▸ hOther)

theorem State.Agree.loadItem (hAgree : s.Agree) {mmHash : Hash} {timedOut : Bool}
    {consumer : Consumer Hash}
    (hFresh : mmHash ∈ s.consumer.encoderCache ∨ s.consumer.isPending mmHash = true ∨
      s.consumer.maxConcurrentPulls ≤ s.consumer.pendingLoads.length ∨
      mmHash ∉ s.consumer.ackSent)
    (hLoad : s.consumer.loadItem mmHash timedOut = some consumer) :
    ({ s with consumer } : State Hash).Agree := by
  unfold Consumer.loadItem at hLoad
  split at hLoad
  · cases hLoad
    exact hAgree
  · rename_i hMissing
    split at hLoad
    · cases hLoad
      exact hAgree
    · rename_i hFree
      split at hLoad
      · cases hLoad
        exact hAgree.rest _ _ _
      · rename_i hRoom
        have hUnsent : mmHash ∉ s.consumer.ackSent := by tauto
        have hIdle : s.consumer.isPending mmHash = false := by simpa using hFree
        split at hLoad
        · rename_i tensor hRegistry
          cases hLoad
          exact hAgree.initiatePull hIdle hUnsent hRegistry
        · simp only at hLoad
          split at hLoad
          · rename_i tensor hRegistry
            cases hLoad
            have hStillIdle : s.consumer.processPendingMetadata.isPending mmHash = false := hIdle
            exact hAgree.process.initiatePull hStillIdle hUnsent hRegistry
          · split at hLoad
            · cases hLoad
              exact hAgree.process
            · cases hLoad

theorem mem_of_lookup {loads : List (Hash × Registration)} {mmHash : Hash} {tensor : Registration}
    (hLookup : loads.lookup mmHash = some tensor) : (mmHash, tensor) ∈ loads := by
  induction loads with
  | nil => cases hLookup
  | cons load loads ih =>
      obtain ⟨other, read⟩ := load
      rw [List.lookup_cons] at hLookup
      by_cases hEq : mmHash = other
      · subst hEq
        simp only [beq_self_eq_true, Option.some.injEq] at hLookup
        exact hLookup ▸ List.mem_cons_self
      · have hNe : (mmHash == other) = false := by simpa using hEq
        rw [hNe] at hLookup
        exact List.mem_cons_of_mem _ (ih hLookup)

/-- The end of a pull is the first of its item, so its ACK goes out and names the buffer it
read, still registered. -/
theorem State.Agree.endPull (hAgree : s.Agree) (mmHash : Hash) (done : Bool) :
    ({ s with
      consumer := (s.consumer.endPull mmHash done).1
      ackChannel := s.ackChannel ++ (s.consumer.endPull mmHash done).2 } : State Hash).Agree := by
  cases hLookup : s.consumer.pendingLoads.lookup mmHash with
  | none =>
      have hNothing : s.consumer.endPull mmHash done = (s.consumer, []) := by
        simp only [Consumer.endPull, hLookup]
      rw [hNothing, List.append_nil]
      exact hAgree
  | some tensor =>
      have hPending := mem_of_lookup hLookup
      obtain ⟨hUnsent, hRegistry⟩ := hAgree.pending mmHash tensor hPending
      have hOwn := hAgree.named mmHash tensor hUnsent (.inr (.inr hRegistry))
      have hEnd : s.consumer.endPull mmHash done = (
          { s.consumer with
            encoderCache :=
              if done then s.consumer.encoderCache ++ [mmHash] else s.consumer.encoderCache
            pendingLoads := s.consumer.pendingLoads.filter (fun load => load.1 ≠ mmHash)
            endedPulls := s.consumer.endedPulls ++ [tensor.serial]
            ackSent := s.consumer.ackSent ++ [mmHash]
            sentAcks := s.consumer.sentAcks ++ [⟨mmHash, tensor.serial⟩] },
          [⟨mmHash, tensor.serial⟩]) := by
        simp only [Consumer.endPull, hLookup, Consumer.sendAckIfUnsent, hUnsent, hRegistry,
          reduceCtorEq, or_self, if_false]
      have hFlight : s.encoder.incomingAcks ++ (s.ackChannel ++ [⟨mmHash, tensor.serial⟩]) =
          s.acksInFlight ++ [⟨mmHash, tensor.serial⟩] := by
        rw [← List.append_assoc, State.acksInFlight]
      rw [hEnd]
      refine
        { named := fun other read hNotSent hNames => ?_, pending := fun other read hLoad => ?_,
          pendingNodup := ?_, acked := fun ack hAck => ?_, ackedNodup := ?_,
          evictions := fun serial hSerial => ?_, acks := fun serial hSerial => ?_ }
      · have hOld : other ∉ s.consumer.ackSent := fun hSent =>
          hNotSent (List.mem_append_left _ hSent)
        exact hAgree.named other read hOld hNames
      · obtain ⟨hLoad, hNe⟩ := List.mem_filter.1 hLoad
        obtain ⟨hNotSent, hNamed⟩ := hAgree.pending other read hLoad
        refine ⟨fun hSent => ?_, hNamed⟩
        rcases List.mem_append.1 hSent with hSent | hSent
        · exact hNotSent hSent
        · rw [List.mem_singleton] at hSent
          simp [hSent] at hNe
      · exact hAgree.pendingNodup.sublist (List.filter_sublist.map _)
      · unfold State.acksInFlight at hAck
        rw [hFlight] at hAck
        rcases List.mem_append.1 hAck with hAck | hAck
        · obtain ⟨hSent, hEnded, hRest⟩ := hAgree.acked ack hAck
          exact ⟨List.mem_append_left _ hSent, List.mem_append_left _ hEnded, hRest⟩
        · rw [List.mem_singleton] at hAck
          subst hAck
          exact ⟨by simp, by simp, tensor, hOwn, rfl⟩
      · have hNew : mmHash ∉ s.acksInFlight.map Ack.mmHash := by
          intro hMem
          obtain ⟨ack, hAck, hEq⟩ := List.mem_map.1 hMem
          exact hUnsent (hEq ▸ (hAgree.acked ack hAck).1)
        unfold State.acksInFlight
        rw [hFlight, List.map_append, List.nodup_append]
        refine ⟨hAgree.ackedNodup, List.nodup_singleton _, fun other hOther new hLast hEq => ?_⟩
        simp only [List.map_cons, List.map_nil, List.mem_singleton] at hLast
        exact hNew (hLast ▸ hEq ▸ hOther)
      · exact List.mem_append_left _ (hAgree.evictions serial hSerial)
      · rw [List.map_append]
        rcases List.mem_append.1 hSerial with hOld | hLast
        · exact List.mem_append_left _ (hAgree.acks serial hOld)
        · exact List.mem_append_right _ (by simpa using hLast)

theorem State.Agree.poll (hAgree : s.Agree) (mmHash : Hash) (status : XferState) :
    ({ s with
      consumer := (s.consumer.poll mmHash status).1
      ackChannel := s.ackChannel ++ (s.consumer.poll mmHash status).2 } : State Hash).Agree := by
  cases status with
  | done => exact hAgree.endPull mmHash true
  | proc =>
      have hNothing : s.consumer.poll mmHash .proc = (s.consumer, []) := rfl
      rw [hNothing, List.append_nil]
      exact hAgree
  | failed => exact hAgree.endPull mmHash false

/-- Past the deadline the pulls end one after the other. -/
theorem State.Agree.releaseAll (hAgree : s.Agree) :
    ({ s with
      consumer := s.consumer.releaseAll.1
      ackChannel := s.ackChannel ++ s.consumer.releaseAll.2 } : State Hash).Agree := by
  unfold Consumer.releaseAll
  refine Run.foldl_invariant (fun state : Consumer Hash × List (Ack Hash) =>
    ({ s with consumer := state.1, ackChannel := s.ackChannel ++ state.2 } : State Hash).Agree)
    (fun state mmHash _ hState => ?_) ?_
  · have hNext := hState.endPull mmHash false
    simp only [List.append_assoc] at hNext
    exact hNext
  · rw [List.append_nil]
    exact hAgree

/-! ### Runs -/

/-- A step that takes up no item again after its ACK keeps the two workers in agreement. -/
theorem step_agree {s' : State Hash} {action : Action Hash} (hFresh : FreshLoad s action)
    (hAgree : s.Agree) (hStep : step s action = some s') : s'.Agree := by
  cases action with
  | save mmHash baseAddr nbytes =>
      cases hStep
      exact hAgree.save mmHash baseAddr nbytes
  | deliverMetadata =>
      cases hChannel : s.metadataChannel with
      | nil => simp [step, hChannel] at hStep
      | cons metadata rest =>
          simp only [step, hChannel, Option.some.injEq] at hStep
          subst hStep
          exact hAgree.deliverMetadata hChannel
  | deliverAck =>
      cases hChannel : s.ackChannel with
      | nil => simp [step, hChannel] at hStep
      | cons ack rest =>
          simp only [step, hChannel, Option.some.injEq] at hStep
          subst hStep
          exact hAgree.deliverAck hChannel
  | startLoad deferred asks blocking =>
      simp only [step, Option.ite_none_right_eq_some, Option.some.injEq] at hStep
      obtain ⟨-, rfl⟩ := hStep
      exact hAgree.process.rest _ _ _
  | loadItem timedOut =>
      cases hPhase : s.consumer.phase with
      | idle => simp [step, hPhase] at hStep
      | polling round waiting => simp [step, hPhase] at hStep
      | loading todo blocking =>
          cases todo with
          | nil => simp [step, hPhase] at hStep
          | cons mmHash todo =>
              simp only [step, hPhase, Option.map_eq_some_iff] at hStep
              obtain ⟨consumer, hLoad, rfl⟩ := hStep
              simp only [FreshLoad, hPhase] at hFresh
              exact (hAgree.loadItem hFresh hLoad).rest _ _ _
  | endLoading =>
      cases hPhase : s.consumer.phase with
      | idle => simp [step, hPhase] at hStep
      | polling round waiting => simp [step, hPhase] at hStep
      | loading todo blocking =>
          cases todo with
          | cons mmHash todo => simp [step, hPhase] at hStep
          | nil =>
              simp only [step, hPhase, Option.some.injEq] at hStep
              subst hStep
              exact hAgree.rest _ _ _
  | getFinished =>
      simp only [step, Option.ite_none_right_eq_some, Option.some.injEq] at hStep
      obtain ⟨-, rfl⟩ := hStep
      exact hAgree.process.rest _ _ _
  | poll status =>
      cases hPhase : s.consumer.phase with
      | idle => simp [step, hPhase] at hStep
      | loading todo blocking => simp [step, hPhase] at hStep
      | polling round waiting =>
          cases round with
          | nil => simp [step, hPhase] at hStep
          | cons mmHash round =>
              simp only [step, hPhase, Option.some.injEq] at hStep
              subst hStep
              exact (hAgree.poll mmHash status).rest _ _ _
  | endRound timedOut =>
      cases hPhase : s.consumer.phase with
      | idle => simp [step, hPhase] at hStep
      | loading todo blocking => simp [step, hPhase] at hStep
      | polling round waiting =>
          cases round with
          | cons mmHash round => simp [step, hPhase] at hStep
          | nil =>
              simp only [step, hPhase] at hStep
              split at hStep
              · cases hStep
                exact hAgree.rest _ _ _
              · split at hStep
                · cases hStep
                  exact hAgree.releaseAll.rest _ _ _
                · cases hStep
                  exact hAgree.rest _ _ _
  | removeCached mmHash =>
      simp only [step, Option.ite_none_right_eq_some, Option.some.injEq] at hStep
      obtain ⟨-, rfl⟩ := hStep
      exact hAgree.rest _ _ _

end Steps

/-- In every run that takes up no item again after its ACK, every pull reads the registered
buffer, evictions wait for their pull and every ended pull is acknowledged. -/
theorem pullsSafe_of_freshLoads {maxConcurrentPulls : Nat} {actions : List (Action Hash)}
    {s : State Hash}
    (fresh : Run.Along step FreshLoad (State.initial maxConcurrentPulls) actions)
    (run : Run.runFrom step (State.initial maxConcurrentPulls) actions = some s) :
    s.PullsSafe :=
  (fresh.invariant State.Agree (fun _ _ _ hFresh hAgree hStep => step_agree hFresh hAgree hStep)
    (State.initial_agree maxConcurrentPulls) run).pullsSafe

/-- One item saved, pulled and acknowledged, then dropped from the encoder cache and saved
again at another address. -/
def resaved : List (Action Nat) :=
  [.save 7 100 64, .deliverMetadata, .startLoad [] [7] true, .loadItem false, .endLoading,
    .poll .done, .endRound false, .deliverAck, .removeCached 7, .save 7 200 64]

/-- Instance of `pullsSafe_of_freshLoads`. -/
theorem pullsSafe_resaved :
    ∃ s, Run.runFrom step (State.initial 1) resaved = some s ∧ s.PullsSafe := by
  have hSome : (Run.runFrom step (State.initial 1) resaved).isSome = true := by decide
  obtain ⟨s, run⟩ := Option.isSome_iff_exists.1 hSome
  exact ⟨s, run, pullsSafe_of_freshLoads (by decide) run⟩

/-- The next load of the item still finds the registry entry of the evicted buffer. -/
theorem pull_stale : ∃ s, Run.runFrom step (State.initial 1)
      (resaved ++ [.startLoad [] [7] true, .loadItem false]) = some s ∧
    s.consumer.pendingLoads = [(7, ⟨100, 64, 0⟩)] ∧
    s.encoder.registeredCaches 7 = some ⟨200, 64, 1⟩ ∧ ¬ s.PullsSafe := by
  have hSome : (Run.runFrom step (State.initial 1)
    (resaved ++ [.startLoad [] [7] true, .loadItem false])).isSome = true := by decide
  obtain ⟨s, run⟩ := Option.isSome_iff_exists.1 hSome
  have hEnd : (Run.runFrom step (State.initial 1)
      (resaved ++ [.startLoad [] [7] true, .loadItem false])).map (fun s =>
        (s.consumer.pendingLoads, s.encoder.registeredCaches 7)) =
      some ([(7, ⟨100, 64, 0⟩)], some ⟨200, 64, 1⟩) := by decide
  simp only [run, Option.map_some, Option.some.injEq, Prod.mk.injEq] at hEnd
  refine ⟨s, run, hEnd.1, hEnd.2, fun hSafe => ?_⟩
  obtain ⟨current, hCurrent, hAddr, -⟩ := hSafe.reads 7 ⟨100, 64, 0⟩ (by simp [hEnd.1])
  rw [hEnd.2] at hCurrent
  cases hCurrent
  exact absurd hAddr (by decide)

end VllmRbln.EcTransfer
