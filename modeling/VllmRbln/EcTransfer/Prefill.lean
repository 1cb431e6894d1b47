import VllmRbln.EcTransfer.Connector

/-! Encoder outputs of a prefill on an encoder-cache consumer: `RBLNOptimumScheduler` asks for
loads (`v1/core/optimum_scheduler.py`), the connector pulls, caps and defers them, and
`RBLNOptimumModelRunner._preprocess` (`v1/worker/optimum_model_runner.py`) gathers what the
prefill's window needs. Every metadata message that is waited for arrives, and every transfer
that is waited for ends well. -/
namespace VllmRbln.EcTransfer

set_option linter.unusedSectionVars false

variable {Hash : Type} [DecidableEq Hash]

/-! ### Whole calls of the connector -/

/-- One turn of the load loop; a message that is waited for arrives. -/
def Consumer.loadArriving (arrivals : Hash → Registration) (consumer : Consumer Hash)
    (mmHash : Hash) : Consumer Hash :=
  match consumer.loadItem mmHash false with
  | some consumer => consumer
  | none =>
      let arrived : Consumer Hash := { consumer with
        incomingMetadata := consumer.incomingMetadata ++ [⟨mmHash, arrivals mmHash⟩] }
      (arrived.loadItem mmHash false).getD arrived

/-- The pulls of these items end well. -/
def Consumer.finishPulls (consumer : Consumer Hash) (done : List Hash) : Consumer Hash :=
  done.foldl (fun consumer mmHash => (consumer.endPull mmHash true).1) consumer

/-- `start_load_caches`; `deferred` lists the set of deferred hashes. -/
def Consumer.startLoadCaches (consumer : Consumer Hash) (arrivals : Hash → Registration)
    (deferred asks : List Hash) (blocking : Bool) : Consumer Hash :=
  let started := { consumer.processPendingMetadata with deferredLoads := [] }
  let loaded := (mergeTodo deferred asks).foldl (Consumer.loadArriving arrivals) started
  if blocking then loaded.finishPulls (loaded.pendingLoads.map Prod.fst) else loaded

/-! ### The engine -/

/-- A multimodal item of a prompt, with its placeholder range. -/
structure MMFeature (Hash : Type) where
  identifier : Hash
  offset : Nat
  length : Nat
  deriving DecidableEq, Repr

inductive RequestStatus
  | waiting | running | preempted
  deriving DecidableEq, Repr

structure MMRequest (Hash : Type) where
  mmFeatures : List (MMFeature Hash)
  numTokens : Nat
  status : RequestStatus
  deriving DecidableEq, Repr

/-- Scheduler, runner and connector of the consumer. The runner's `encoder_cache` is the
dictionary the connector fills. -/
structure Engine (Hash : Type) where
  requests : Nat → Option (MMRequest Hash)
  waiting : List Nat
  running : List Nat
  pendingFreeMmHashes : List Hash
  consumer : Consumer Hash

def Engine.initial (maxConcurrentPulls : Nat) : Engine Hash where
  requests := fun _ => none
  waiting := []
  running := []
  pendingFreeMmHashes := []
  consumer := (State.initial maxConcurrentPulls).consumer

def Engine.mmHashes (engine : Engine Hash) (id : Nat) : List Hash :=
  match engine.requests id with
  | some request => request.mmFeatures.map MMFeature.identifier
  | none => []

/-- `get_mm_features_in_window`: the items that overlap `[start, stop)`. -/
def mmFeaturesInWindow (mmFeatures : List (MMFeature Hash)) (start stop : Nat) :
    List (MMFeature Hash) :=
  mmFeatures.filter fun feature => feature.offset < stop ∧ start < feature.offset + feature.length

/-- What outside the program decides about a step: the order in which the deferred set is
listed, the buffers that messages name and which pulls `get_finished` sees done. -/
structure Transport (Hash : Type) where
  deferred : List Hash
  arrivals : Hash → Registration
  done : List Hash

/-- What happens next. A schedule is told by its outcome: the request it admits with the
length of its prefix hit, or the running requests it decodes and those it preempts, and the
requests of the waiting queue it walks to prefetch. -/
inductive EngineAction (Hash : Type)
  | addRequest (id : Nat) (mmFeatures : List (MMFeature Hash)) (numTokens : Nat)
  | freeRequest (id : Nat)
  | prefill (id start : Nat) (prefetch : List Nat) (transport : Transport Hash)
  | decode (scheduled preempted prefetch : List Nat) (transport : Transport Hash)

/-- The hashes `build_connector_meta` hands to the worker: those of the admitted request,
then those of the waiting queue, each once. -/
def Engine.asks (engine : Engine Hash) (ids : List Nat) : List Hash :=
  mergeTodo [] (ids.flatMap engine.mmHashes)

/-- `_update_states` drops the encoder outputs the scheduler freed. -/
def Engine.freed (engine : Engine Hash) : Consumer Hash :=
  { engine.consumer with
    encoderCache := engine.consumer.encoderCache.filter (· ∉ engine.pendingFreeMmHashes) }

/-- The consumer when a prefill of `id` gathers its items: only a first prefill awaits
its pulls. -/
def Engine.loadedFor (engine : Engine Hash) (id : Nat) (first : Bool) (prefetch : List Nat)
    (transport : Transport Hash) : Consumer Hash :=
  engine.freed.startLoadCaches transport.arrivals transport.deferred
    (engine.asks (id :: prefetch)) first

/-- The items of the window that `_gather_mm_embeddings` does not find. A consumer has no
visual runtime, so `_execute_mm_encoder` adds none. -/
def Engine.missing (engine : Engine Hash) (request : MMRequest Hash) (id start : Nat)
    (prefetch : List Nat) (transport : Transport Hash) : List Hash :=
  ((mmFeaturesInWindow request.mmFeatures start request.numTokens).map
    MMFeature.identifier).filter
    (· ∉ (engine.loadedFor id (request.status = .waiting) prefetch transport).encoderCache)

/-- `get_finished` at the end of the step. -/
def Consumer.getFinished (consumer : Consumer Hash) (done : List Hash) : Consumer Hash :=
  consumer.processPendingMetadata.finishPulls
    ((consumer.pendingLoads.map Prod.fst).filter (· ∈ done))

def Engine.setRequest (engine : Engine Hash) (id : Nat) (request : Option (MMRequest Hash)) :
    Engine Hash :=
  { engine with requests := Function.update engine.requests id request }

/-- The scheduler admits `id` as it stands and walks `prefetch` of the waiting queue. -/
def Engine.Prefills (engine : Engine Hash) (request : MMRequest Hash) (id start : Nat)
    (prefetch : List Nat) (transport : Transport Hash) : Prop :=
  engine.requests id = some request ∧ id ∈ engine.waiting ∧ start < request.numTokens ∧
    prefetch.Nodup ∧ (∀ peer ∈ prefetch, peer ∈ engine.waiting.erase id) ∧
    transport.deferred.Perm engine.consumer.deferredLoads

instance (engine : Engine Hash) (request : MMRequest Hash) (id start : Nat) (prefetch : List Nat)
    (transport : Transport Hash) :
    Decidable (engine.Prefills request id start prefetch transport) :=
  inferInstanceAs (Decidable (_ ∧ _ ∧ _ ∧ _ ∧ _ ∧ _))

/-- One step of the engine; none where it is not a step of the scheduler, or where the
prefill fails with an encoder cache miss. -/
def Engine.step (engine : Engine Hash) : EngineAction Hash → Option (Engine Hash)
  | .addRequest id mmFeatures numTokens =>
      if engine.requests id = none ∧ 1 ≤ numTokens then
        some { engine.setRequest id (some ⟨mmFeatures, numTokens, .waiting⟩) with
          waiting := engine.waiting ++ [id] }
      else none
  | .freeRequest id =>
      match engine.requests id with
      | none => none
      | some _ => some { engine.setRequest id none with
          waiting := engine.waiting.erase id
          running := engine.running.erase id
          pendingFreeMmHashes := engine.pendingFreeMmHashes ++ engine.mmHashes id }
  | .prefill id start prefetch transport =>
      match engine.requests id with
      | none => none
      | some request =>
          if engine.Prefills request id start prefetch transport ∧
              engine.missing request id start prefetch transport = [] then
            some { engine.setRequest id (some { request with
                status := .running, numTokens := request.numTokens + 1 }) with
              waiting := engine.waiting.erase id
              running := engine.running ++ [id]
              pendingFreeMmHashes := []
              consumer := (engine.loadedFor id (request.status = .waiting) prefetch
                transport).getFinished transport.done }
          else none
  | .decode scheduled preempted prefetch transport =>
      if (scheduled ++ preempted).Nodup ∧ (∀ id ∈ scheduled ++ preempted, id ∈ engine.running) ∧
          prefetch.Nodup ∧ (∀ peer ∈ prefetch, peer ∈ preempted ++ engine.waiting) ∧
          transport.deferred.Perm engine.consumer.deferredLoads then
        some {
          requests := fun id => (engine.requests id).map fun request =>
            if id ∈ preempted then { request with status := .preempted }
            else if id ∈ scheduled then { request with numTokens := request.numTokens + 1 }
            else request
          waiting := preempted ++ engine.waiting
          running := engine.running.filter (· ∉ preempted)
          pendingFreeMmHashes := []
          consumer :=
            -- A step with nothing scheduled returns before it reaches the connector.
            if scheduled = [] then engine.freed
            else (engine.freed.startLoadCaches transport.arrivals transport.deferred
              (engine.asks prefetch) false).getFinished transport.done }
      else none

/-! ### What one load leaves behind -/

section Load

variable {consumer : Consumer Hash} {arrivals : Hash → Registration} {mmHash : Hash}

def Consumer.pendingHashes (consumer : Consumer Hash) : List Hash :=
  consumer.pendingLoads.map Prod.fst

/-- Neither cached nor on its way. -/
def Consumer.Needs (consumer : Consumer Hash) (mmHash : Hash) : Prop :=
  mmHash ∉ consumer.encoderCache ∧ mmHash ∉ consumer.pendingHashes

instance (consumer : Consumer Hash) (mmHash : Hash) : Decidable (consumer.Needs mmHash) :=
  inferInstanceAs (Decidable (_ ∧ _))

variable (arrivals) in
/-- A turn that reaches the pull starts it, once the message is there. -/
theorem loadArriving_pull (hNeeds : consumer.Needs mmHash)
    (hRoom : consumer.pendingHashes.length < consumer.maxConcurrentPulls) :
    ∃ tensor, consumer.loadArriving arrivals mmHash = consumer.initiatePull mmHash tensor ∨
      (∃ queue, consumer.loadArriving arrivals mmHash =
        ({ consumer with incomingMetadata := queue } :
          Consumer Hash).processPendingMetadata.initiatePull mmHash tensor) := by
  have hCached : mmHash ∉ consumer.encoderCache := hNeeds.1
  have hFree : consumer.isPending mmHash = false := by
    simpa [Consumer.isPending, Consumer.pendingHashes] using hNeeds.2
  have hBelow : ¬ consumer.maxConcurrentPulls ≤ consumer.pendingLoads.length := by
    simpa [Consumer.pendingHashes] using hRoom
  have hReach : ∀ {queue}, ({ consumer with incomingMetadata := queue } :
      Consumer Hash).isPending mmHash = false := hFree
  cases hRegistry : consumer.tensorRegistry mmHash with
  | some tensor =>
      refine ⟨tensor, .inl ?_⟩
      simp [Consumer.loadArriving, Consumer.loadItem, hCached, hFree, hBelow, hRegistry]
  | none =>
      cases hQueued : consumer.processPendingMetadata.tensorRegistry mmHash with
      | some tensor =>
          refine ⟨tensor, .inr ⟨consumer.incomingMetadata, ?_⟩⟩
          simp [Consumer.loadArriving, Consumer.loadItem, hCached, hFree, hBelow, hRegistry, hQueued]
      | none =>
          refine ⟨arrivals mmHash, .inr
            ⟨consumer.incomingMetadata ++ [⟨mmHash, arrivals mmHash⟩], ?_⟩⟩
          have hArrived : ({ consumer with incomingMetadata :=
              consumer.incomingMetadata ++ [⟨mmHash, arrivals mmHash⟩] } :
              Consumer Hash).processPendingMetadata.tensorRegistry mmHash =
                some (arrivals mmHash) := by
            simp [Consumer.processPendingMetadata, List.foldl_append, register]
          have hFirst : consumer.loadItem mmHash false = none := by
            simp [Consumer.loadItem, hCached, hFree, hBelow, hRegistry, hQueued]
          simp only [Consumer.loadArriving, hFirst]
          simp [Consumer.loadItem, hCached, hReach, hBelow, hRegistry, hArrived]

/-- One turn of the load loop: it skips the item, defers it or starts its pull. -/
theorem loadArriving_cases (consumer : Consumer Hash) (arrivals : Hash → Registration)
    (mmHash : Hash) :
    (consumer.loadArriving arrivals mmHash).encoderCache = consumer.encoderCache ∧
      (consumer.loadArriving arrivals mmHash).maxConcurrentPulls = consumer.maxConcurrentPulls ∧
      ((¬ consumer.Needs mmHash ∧
        (consumer.loadArriving arrivals mmHash).pendingHashes = consumer.pendingHashes ∧
        (consumer.loadArriving arrivals mmHash).deferredLoads = consumer.deferredLoads) ∨
      (consumer.Needs mmHash ∧ consumer.maxConcurrentPulls ≤ consumer.pendingHashes.length ∧
        (consumer.loadArriving arrivals mmHash).pendingHashes = consumer.pendingHashes ∧
        (consumer.loadArriving arrivals mmHash).deferredLoads =
          consumer.deferredLoads ++ [mmHash]) ∨
      (consumer.Needs mmHash ∧ consumer.pendingHashes.length < consumer.maxConcurrentPulls ∧
        (consumer.loadArriving arrivals mmHash).pendingHashes =
          consumer.pendingHashes ++ [mmHash] ∧
        (consumer.loadArriving arrivals mmHash).deferredLoads = consumer.deferredLoads)) := by
  by_cases hNeeds : consumer.Needs mmHash
  · by_cases hRoom : consumer.pendingHashes.length < consumer.maxConcurrentPulls
    · obtain ⟨tensor, hPull | ⟨queue, hPull⟩⟩ := loadArriving_pull arrivals hNeeds hRoom
      · rw [hPull]
        exact ⟨rfl, rfl, .inr (.inr ⟨hNeeds, hRoom,
          by simp [Consumer.pendingHashes, Consumer.initiatePull], rfl⟩)⟩
      · rw [hPull]
        refine ⟨rfl, rfl, .inr (.inr ⟨hNeeds, hRoom, ?_, rfl⟩)⟩
        simp [Consumer.pendingHashes, Consumer.initiatePull, Consumer.processPendingMetadata]
    · have hFree : consumer.isPending mmHash = false := by
        simpa [Consumer.isPending, Consumer.pendingHashes] using hNeeds.2
      have hFull : consumer.maxConcurrentPulls ≤ consumer.pendingLoads.length := by
        simpa [Consumer.pendingHashes] using hRoom
      have hDefer : consumer.loadArriving arrivals mmHash =
          { consumer with deferredLoads := consumer.deferredLoads ++ [mmHash] } := by
        simp [Consumer.loadArriving, Consumer.loadItem, hNeeds.1, hFree, hFull]
      rw [hDefer]
      exact ⟨rfl, rfl, .inr (.inl ⟨hNeeds, by simpa using hRoom, rfl, rfl⟩)⟩
  · have hSkip : consumer.loadArriving arrivals mmHash = consumer := by
      by_cases hCached : mmHash ∈ consumer.encoderCache
      · simp [Consumer.loadArriving, Consumer.loadItem, hCached]
      · have hPending : consumer.isPending mmHash = true := by
          by_contra hNot
          exact hNeeds ⟨hCached, by simpa [Consumer.isPending, Consumer.pendingHashes] using hNot⟩
        simp [Consumer.loadArriving, Consumer.loadItem, hCached, hPending]
    rw [hSkip]
    exact ⟨rfl, rfl, .inl ⟨hNeeds, rfl, rfl⟩⟩

/-- The load loop starts the pulls of the first items it needs, as many as the cap leaves
room for, and defers the rest. -/
theorem loadArriving_loop (arrivals : Hash → Registration) {todo : List Hash}
    (hNodup : todo.Nodup) (consumer : Consumer Hash) :
    (todo.foldl (Consumer.loadArriving arrivals) consumer).encoderCache =
        consumer.encoderCache ∧
      (todo.foldl (Consumer.loadArriving arrivals) consumer).pendingHashes =
        consumer.pendingHashes ++ (todo.filter (fun mmHash => consumer.Needs mmHash)).take
          (consumer.maxConcurrentPulls - consumer.pendingHashes.length) ∧
      (todo.foldl (Consumer.loadArriving arrivals) consumer).deferredLoads =
        consumer.deferredLoads ++ (todo.filter (fun mmHash => consumer.Needs mmHash)).drop
          (consumer.maxConcurrentPulls - consumer.pendingHashes.length) := by
  induction todo generalizing consumer with
  | nil => simp
  | cons mmHash todo ih =>
      obtain ⟨hNot, hNodup⟩ := List.nodup_cons.1 hNodup
      obtain ⟨hCache, hPending, hDeferred⟩ := ih hNodup (consumer.loadArriving arrivals mmHash)
      obtain ⟨hSameCache, hSameCap, hTurn⟩ := loadArriving_cases consumer arrivals mmHash
      rw [List.foldl_cons, hCache, hPending, hDeferred, hSameCap]
      refine ⟨hSameCache, ?_⟩
      have hFilter : todo.filter (fun other => (consumer.loadArriving arrivals mmHash).Needs other) =
          todo.filter (fun other => consumer.Needs other) := by
        refine List.filter_congr fun other hOther => decide_eq_decide.2 ?_
        have hNe : other ≠ mmHash := fun hEq => hNot (hEq ▸ hOther)
        unfold Consumer.Needs
        rw [hSameCache]
        rcases hTurn with ⟨-, hSame, -⟩ | ⟨-, -, hSame, -⟩ | ⟨-, -, hNew, -⟩
        · rw [hSame]
        · rw [hSame]
        · simp [hNew, hNe]
      rw [hFilter]
      rcases hTurn with ⟨hSkip, hSame, hSameDeferred⟩ | ⟨hNeeds, hFull, hSame, hNew⟩ |
        ⟨hNeeds, hRoom, hNew, hSameDeferred⟩
      · rw [List.filter_cons_of_neg (by simpa using hSkip), hSame, hSameDeferred]
        exact ⟨rfl, rfl⟩
      · rw [List.filter_cons_of_pos (by simpa using hNeeds), hSame, hNew]
        have hZero : consumer.maxConcurrentPulls - consumer.pendingHashes.length = 0 := by omega
        simp [hZero]
      · rw [List.filter_cons_of_pos (by simpa using hNeeds), hNew, hSameDeferred]
        obtain ⟨room, hRoomEq⟩ : ∃ room,
            consumer.maxConcurrentPulls - consumer.pendingHashes.length = room + 1 :=
          ⟨consumer.maxConcurrentPulls - consumer.pendingHashes.length - 1, by omega⟩
        have hNext : consumer.maxConcurrentPulls - (consumer.pendingHashes ++ [mmHash]).length =
            room := by
          simp only [List.length_append, List.length_cons, List.length_nil]
          omega
        rw [hNext, hRoomEq]
        simp

/-- A pull that ends well moves its item from the pending ones to the cache. -/
theorem endPull_mem (consumer : Consumer Hash) (mmHash other : Hash) :
    (other ∈ (consumer.endPull mmHash true).1.encoderCache ↔ other ∈ consumer.encoderCache ∨
      (other = mmHash ∧ other ∈ consumer.pendingHashes)) ∧
    (other ∈ (consumer.endPull mmHash true).1.pendingHashes ↔
      other ∈ consumer.pendingHashes ∧ other ≠ mmHash) := by
  cases hLookup : consumer.pendingLoads.lookup mmHash with
  | none =>
      have hNot : mmHash ∉ consumer.pendingHashes := by
        intro hMem
        obtain ⟨load, hLoad, rfl⟩ := List.mem_map.1 hMem
        have := List.lookup_eq_none_iff.1 hLookup load hLoad
        simp at this
      simp only [Consumer.endPull, hLookup]
      refine ⟨⟨.inl, fun hOr => hOr.elim id fun hEq => absurd (hEq.1 ▸ hEq.2) hNot⟩,
        ⟨fun hMem => ⟨hMem, fun hEq => hNot (hEq ▸ hMem)⟩, And.left⟩⟩
  | some tensor =>
      have hMem : mmHash ∈ consumer.pendingHashes := by
        by_contra hNot
        have hNone : consumer.pendingLoads.lookup mmHash = none := by
          refine List.lookup_eq_none_iff.2 fun load hLoad => ?_
          rw [bne_iff_ne]
          exact fun hEq => hNot (List.mem_map.2 ⟨load, hLoad, hEq.symm⟩)
        rw [hNone] at hLookup
        cases hLookup
      have hCache : (consumer.endPull mmHash true).1.encoderCache =
          consumer.encoderCache ++ [mmHash] := by
        simp only [Consumer.endPull, hLookup, Consumer.sendAckIfUnsent]
        split <;> rfl
      have hPending : (consumer.endPull mmHash true).1.pendingLoads =
          consumer.pendingLoads.filter (fun load => load.1 ≠ mmHash) := by
        simp only [Consumer.endPull, hLookup, Consumer.sendAckIfUnsent]
        split <;> rfl
      constructor
      · rw [hCache, List.mem_append, List.mem_singleton]
        constructor
        · rintro (hOld | rfl)
          · exact .inl hOld
          · exact .inr ⟨rfl, hMem⟩
        · rintro (hOld | ⟨rfl, -⟩)
          · exact .inl hOld
          · exact .inr rfl
      · unfold Consumer.pendingHashes
        rw [hPending]
        simp only [List.mem_map, List.mem_filter, decide_eq_true_eq]
        constructor
        · rintro ⟨load, ⟨hLoad, hNe⟩, rfl⟩
          exact ⟨⟨load, hLoad, rfl⟩, hNe⟩
        · rintro ⟨⟨load, hLoad, rfl⟩, hNe⟩
          exact ⟨load, ⟨hLoad, hNe⟩, rfl⟩

theorem finishPulls_mem (done : List Hash) (consumer : Consumer Hash) (other : Hash) :
    other ∈ (consumer.finishPulls done).encoderCache ↔
      other ∈ consumer.encoderCache ∨ (other ∈ done ∧ other ∈ consumer.pendingHashes) := by
  unfold Consumer.finishPulls
  induction done generalizing consumer with
  | nil => simp
  | cons mmHash done ih =>
      rw [List.foldl_cons, ih, (endPull_mem consumer mmHash other).1,
        (endPull_mem consumer mmHash other).2, List.mem_cons]
      by_cases hEq : other = mmHash <;> tauto

theorem finishPulls_deferredLoads (done : List Hash) (consumer : Consumer Hash) :
    (consumer.finishPulls done).deferredLoads = consumer.deferredLoads := by
  refine Run.foldl_keeps Consumer.deferredLoads (fun consumer mmHash => ?_) done consumer
  unfold Consumer.endPull
  split
  · rfl
  · simp only [Consumer.sendAckIfUnsent]
    split <;> rfl

theorem mergeTodo_nodup {deferred : List Hash} (hNodup : deferred.Nodup) (asks : List Hash) :
    (mergeTodo deferred asks).Nodup := by
  refine Run.foldl_invariant List.Nodup (fun todo mmHash _ hTodo => ?_) hNodup
  split
  · exact hTodo
  · rename_i hNew
    rw [List.nodup_append]
    refine ⟨hTodo, List.nodup_singleton _, fun other hOther new hLast hEq => ?_⟩
    rw [List.mem_singleton] at hLast
    exact hNew (hLast ▸ hEq ▸ hOther)

/-- What a load leaves cached: a blocking one also what was pending and the first items it
needed, up to the cap. -/
theorem startLoadCaches_mem {deferred : List Hash} (hNodup : deferred.Nodup) (asks : List Hash)
    (blocking : Bool) (consumer : Consumer Hash) (arrivals : Hash → Registration) (other : Hash) :
    other ∈ (consumer.startLoadCaches arrivals deferred asks blocking).encoderCache ↔
      other ∈ consumer.encoderCache ∨ (blocking = true ∧ (other ∈ consumer.pendingHashes ∨
        other ∈ ((mergeTodo deferred asks).filter (fun mmHash => consumer.Needs mmHash)).take
          (consumer.maxConcurrentPulls - consumer.pendingHashes.length))) := by
  obtain ⟨hCache, hPending, -⟩ := loadArriving_loop arrivals (mergeTodo_nodup hNodup asks)
    { consumer.processPendingMetadata with deferredLoads := [] }
  have hStarted : ∀ mmHash, ({ consumer.processPendingMetadata with deferredLoads := [] } :
      Consumer Hash).Needs mmHash ↔ consumer.Needs mmHash := fun _ => Iff.rfl
  unfold Consumer.startLoadCaches
  cases blocking with
  | false =>
      simp only [Bool.false_eq_true, if_false, false_and, or_false]
      rw [hCache]
      rfl
  | true =>
      simp only [if_true, true_and]
      rw [finishPulls_mem]
      change _ ∨ (other ∈ Consumer.pendingHashes _ ∧ _) ↔ _
      rw [and_self, hCache, hPending, List.mem_append]
      exact Iff.rfl

theorem startLoadCaches_deferredLoads {deferred : List Hash} (hNodup : deferred.Nodup)
    (asks : List Hash) (blocking : Bool) (consumer : Consumer Hash)
    (arrivals : Hash → Registration) :
    (consumer.startLoadCaches arrivals deferred asks blocking).deferredLoads.Nodup := by
  obtain ⟨-, -, hDeferred⟩ := loadArriving_loop arrivals (mergeTodo_nodup hNodup asks)
    { consumer.processPendingMetadata with deferredLoads := [] }
  have hLoop : ((mergeTodo deferred asks).foldl (Consumer.loadArriving arrivals)
      { consumer.processPendingMetadata with deferredLoads := [] }).deferredLoads.Nodup := by
    rw [hDeferred, List.nil_append]
    exact ((mergeTodo_nodup hNodup asks).filter _).sublist (List.drop_sublist _ _)
  unfold Consumer.startLoadCaches
  cases blocking with
  | false => exact hLoop
  | true =>
      simp only [if_true]
      rw [finishPulls_deferredLoads]
      exact hLoop

end Load

/-! ### Runs of the engine -/

section Runs

variable {engine : Engine Hash} {request : MMRequest Hash} {id start : Nat} {prefetch : List Nat}
  {transport : Transport Hash}

variable (engine request id start prefetch transport) in
/-- Every item of the window is cached once the step's frees are through, or the prefill is a
first one and the item is pending or among the first the load needs, up to the cap. -/
def Engine.Covers : Prop :=
  ∀ feature ∈ mmFeaturesInWindow request.mmFeatures start request.numTokens,
    feature.identifier ∈ engine.freed.encoderCache ∨
      (request.status = .waiting ∧ (feature.identifier ∈ engine.freed.pendingHashes ∨
        feature.identifier ∈ ((mergeTodo transport.deferred (engine.asks (id :: prefetch))).filter
          (fun mmHash => engine.freed.Needs mmHash)).take
            (engine.freed.maxConcurrentPulls - engine.freed.pendingHashes.length)))

theorem missing_eq_nil_iff (hNodup : transport.deferred.Nodup) :
    engine.missing request id start prefetch transport = [] ↔
      engine.Covers request id start prefetch transport := by
  unfold Engine.missing Engine.Covers
  rw [List.filter_eq_nil_iff]
  simp only [List.mem_map, forall_exists_index, and_imp, forall_apply_eq_imp_iff₂]
  refine forall_congr' fun feature => forall_congr' fun hFeature => ?_
  rw [decide_eq_true_eq, not_not, Engine.loadedFor, startLoadCaches_mem hNodup, decide_eq_true_eq]

/-- The prefill the action starts finds all its items. -/
def Engine.PrefillFinds (engine : Engine Hash) : EngineAction Hash → Prop
  | .prefill id start prefetch transport => ∀ request,
      engine.Prefills request id start prefetch transport →
        engine.missing request id start prefetch transport = []
  | _ => True

def Engine.PrefillCovered (engine : Engine Hash) : EngineAction Hash → Prop
  | .prefill id start prefetch transport => ∀ request,
      engine.Prefills request id start prefetch transport →
        engine.Covers request id start prefetch transport
  | _ => True

theorem getFinished_deferredLoads (done : List Hash) (consumer : Consumer Hash) :
    (consumer.getFinished done).deferredLoads = consumer.deferredLoads :=
  finishPulls_deferredLoads _ _

/-- The deferred loads are a set. -/
theorem step_deferredLoads {engine' : Engine Hash} {action : EngineAction Hash}
    (hNodup : engine.consumer.deferredLoads.Nodup) (hStep : engine.step action = some engine') :
    engine'.consumer.deferredLoads.Nodup := by
  cases action with
  | addRequest id mmFeatures numTokens =>
      simp only [Engine.step, Option.ite_none_right_eq_some, Option.some.injEq] at hStep
      obtain ⟨-, rfl⟩ := hStep
      exact hNodup
  | freeRequest id =>
      cases hRequest : engine.requests id with
      | none => simp [Engine.step, hRequest] at hStep
      | some request =>
          simp only [Engine.step, hRequest, Option.some.injEq] at hStep
          subst hStep
          exact hNodup
  | prefill id start prefetch transport =>
      cases hRequest : engine.requests id with
      | none => simp [Engine.step, hRequest] at hStep
      | some request =>
          simp only [Engine.step, hRequest, Option.ite_none_right_eq_some, Option.some.injEq] at hStep
          obtain ⟨⟨hPrefills, -⟩, rfl⟩ := hStep
          have hDeferred := hPrefills.2.2.2.2.2.nodup_iff.2 hNodup
          change (Consumer.getFinished _ _).deferredLoads.Nodup
          rw [getFinished_deferredLoads]
          exact startLoadCaches_deferredLoads hDeferred _ _ _ _
  | decode scheduled preempted prefetch transport =>
      simp only [Engine.step, Option.ite_none_right_eq_some, Option.some.injEq] at hStep
      obtain ⟨⟨-, -, -, -, hPerm⟩, rfl⟩ := hStep
      simp only
      split
      · exact hNodup
      · rw [getFinished_deferredLoads]
        exact startLoadCaches_deferredLoads (hPerm.nodup_iff.2 hNodup) _ _ _ _

end Runs

/-- Nothing deferred, messages that name one buffer, no pull done before it is awaited. -/
def Transport.plain : Transport Nat := ⟨[], fun _ => ⟨0, 64, 0⟩, []⟩

/-- Two requests that share an item: both prefill, the second is preempted, the first ends. -/
def sharedItem : List (EngineAction Nat) :=
  [.addRequest 0 [⟨7, 0, 2⟩] 4, .addRequest 1 [⟨7, 0, 2⟩] 4, .prefill 0 0 [1] .plain,
    .prefill 1 0 [] .plain, .decode [0] [1] [] .plain, .freeRequest 0]

end VllmRbln.EcTransfer
