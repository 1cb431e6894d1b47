import VllmRbln.Optimum.KvCache

/-! The block mapping of the optimum path over whole runs: the indexes agree, the allocator
partitions the outer blocks, every running request's outer blocks list its inner blocks in
order, and an allocation that was found possible goes through. -/
namespace VllmRbln.Optimum

set_option linter.unusedSectionVars false

variable {H T : Type*} [DecidableEq H] {hash : BlockHashing H T} {cfg : BlockConfiguration}

/-- The invariant of a run. -/
structure Scheduler.Consistent (cfg : BlockConfiguration) (s : Scheduler H T) : Prop where
  manager : s.kv.prefixCacheManager.Consistent cfg [] []
  tables : ∀ requestId request, s.running requestId = some request →
    s.kv.prefixCacheManager.Holds cfg requestId (s.kv.reqToBlocks requestId) ∧
      (s.kv.reqToBlocks requestId).length = ceilDiv request.numComputedTokens cfg.ibSize ∧
      0 < request.numComputedTokens
  idle : ∀ requestId, s.running requestId = none →
    s.kv.prefixCacheManager.mappingManager.requestToOuterBlocks requestId = none ∧
      s.kv.reqToBlocks requestId = []
  nodup : ∀ requestId, (s.kv.reqToBlocks requestId).Nodup
  apart : ∀ requestId ib, ib ∈ s.kv.reqToBlocks requestId → ib ∉ s.kv.freeBlocks ∧
    ∀ other, ib ∈ s.kv.reqToBlocks other → other = requestId
  free : s.kv.freeBlocks.Nodup

theorem Scheduler.initial_consistent : (Scheduler.initial cfg : Scheduler H T).Consistent cfg where
  manager := PrefixCacheManager.initial_consistent cfg
  tables := fun _ _ hRunning => by cases hRunning
  idle := fun _ _ => ⟨rfl, rfl⟩
  nodup := fun _ => List.nodup_nil
  apart := fun _ _ hMem => absurd hMem List.not_mem_nil
  free := List.nodup_range'

section Steps

variable {s : Scheduler H T}

/-- An active record belongs to a running request and is one slice of its inner blocks. -/
theorem Scheduler.Consistent.active (hOk : s.Consistent cfg) {outer : Nat} {mapping : BlockMapping}
    (hMapping : s.kv.prefixCacheManager.mappingManager.blockMappings outer = some mapping)
    (hActive : mapping.isActive = true) :
    ∃ requestId request outers i, s.running requestId = some request ∧
      mapping.requestId = some requestId ∧
      s.kv.prefixCacheManager.mappingManager.requestToOuterBlocks requestId = some outers ∧
      outers[i]? = some outer ∧ mapping.innerBlockIds = cfg.slice i (s.kv.reqToBlocks requestId) := by
  obtain ⟨requestId, outers, hRequest, hOuters, hMem⟩ :=
    hOk.manager.mappings.active outer mapping hMapping hActive List.not_mem_nil
  cases hRunning : s.running requestId with
  | none =>
      rw [(hOk.idle requestId hRunning).1] at hOuters
      cases hOuters
  | some request =>
      obtain ⟨⟨same, hSame, -, hSlices⟩, -⟩ := hOk.tables requestId request hRunning
      rw [hOuters, Option.some.injEq] at hSame
      subst hSame
      obtain ⟨i, hI⟩ := List.mem_iff_getElem?.1 hMem
      have hRecord := hSlices i outer hI
      rw [hMapping, Option.some.injEq] at hRecord
      exact ⟨requestId, request, outers, i, hRunning, hRequest, hOuters, hI, by rw [hRecord]⟩

/-- No active record holds a free inner block. -/
theorem Scheduler.Consistent.unheld (hOk : s.Consistent cfg) {new : List Nat}
    (hNew : ∀ ib ∈ new, ib ∈ s.kv.freeBlocks) :
    s.kv.prefixCacheManager.mappingManager.Unheld new := by
  intro ib hMem outer mapping hMapping hIn
  cases hActive : mapping.isActive with
  | false => rfl
  | true =>
      obtain ⟨requestId, request, outers, i, -, -, -, -, hSlice⟩ := hOk.active hMapping hActive
      rw [hSlice] at hIn
      exact absurd (hNew ib hMem)
        (hOk.apart requestId ib (List.mem_of_mem_drop (List.mem_of_mem_take hIn))).1

/-- Evicting inactive outer blocks touches no running request. -/
theorem PrefixCacheManager.Evicted.holds {p after : PrefixCacheManager} {outers : List Nat}
    (hEvicted : p.Evicted after outers)
    (hInactive : ∀ outer ∈ outers, p.mappingManager.isInactive outer = true) {requestId : Nat}
    {innerBlocks : List Nat} (hHolds : p.Holds cfg requestId innerBlocks) :
    after.Holds cfg requestId innerBlocks := by
  obtain ⟨blocks, hBlocks, hLength, hSlices⟩ := hHolds
  refine ⟨blocks, hEvicted.requests ▸ hBlocks, hLength, fun i outer hOuter => ?_⟩
  have hRecord := hSlices i outer hOuter
  rw [hEvicted.records, if_neg fun hMem => ?_]
  · exact hRecord
  · have hFlag := hInactive outer hMem
    simp [BlockMappingManager.isInactive, hRecord] at hFlag

/-- Evictions leave the invariant as it was. -/
theorem Scheduler.Consistent.evicted (hOk : s.Consistent cfg) {after : PrefixCacheManager}
    {outers : List Nat} (hAfter : after.Consistent cfg [] [])
    (hEvicted : s.kv.prefixCacheManager.Evicted after outers)
    (hInactive : ∀ outer ∈ outers,
      s.kv.prefixCacheManager.mappingManager.isInactive outer = true) :
    Scheduler.Consistent cfg { s with kv := { s.kv with prefixCacheManager := after } } where
  manager := hAfter
  tables := fun requestId request hRunning => by
    obtain ⟨hHolds, hRest⟩ := hOk.tables requestId request hRunning
    exact ⟨hEvicted.holds hInactive hHolds, hRest⟩
  idle := fun requestId hRunning => by
    obtain ⟨hNone, hBlocks⟩ := hOk.idle requestId hRunning
    exact ⟨(congrFun hEvicted.requests requestId).trans hNone, hBlocks⟩
  nodup := hOk.nodup
  apart := hOk.apart
  free := hOk.free

theorem cacheFullBlocks_rest (hashes : Nat → H) (i : Nat) (blocks : List Nat)
    (kv : KvCacheManager H) :
    (KvCacheManager.cacheFullBlocks hashes i blocks kv).prefixCacheManager = kv.prefixCacheManager ∧
      (KvCacheManager.cacheFullBlocks hashes i blocks kv).freeBlocks = kv.freeBlocks ∧
      (KvCacheManager.cacheFullBlocks hashes i blocks kv).reqToBlocks = kv.reqToBlocks := by
  induction blocks generalizing i kv with
  | nil => exact ⟨rfl, rfl, rfl⟩
  | cons ib blocks ih => exact ih (i + 1) (kv.cacheFullBlock ib (hashes i))

/-- Hashing blocks changes nothing of the mapping. -/
theorem cacheBlocks_rest (kv : KvCacheManager H) (hashes : Nat → H) (requestId numTokens : Nat) :
    (kv.cacheBlocks cfg hashes requestId numTokens).prefixCacheManager = kv.prefixCacheManager ∧
      (kv.cacheBlocks cfg hashes requestId numTokens).freeBlocks = kv.freeBlocks ∧
      (kv.cacheBlocks cfg hashes requestId numTokens).reqToBlocks = kv.reqToBlocks := by
  unfold KvCacheManager.cacheBlocks
  simp only
  split
  · exact ⟨rfl, rfl, rfl⟩
  · exact cacheFullBlocks_rest hashes _ _ kv

/-- A request with the inner blocks it was handed, its outer blocks extended by them. -/
theorem Scheduler.Consistent.extended (hOk : s.Consistent cfg) {after : PrefixCacheManager}
    {touched new : List Nat} {requestId : Nat} {request : Request T} {kv : KvCacheManager H}
    (hNew : ∀ ib ∈ new, ib ∈ s.kv.freeBlocks) (hNewNodup : new.Nodup)
    (hAfter : after.Consistent cfg [] [])
    (hExtended : s.kv.prefixCacheManager.Extended after requestId touched new)
    (hHolds : after.Holds cfg requestId (s.kv.reqToBlocks requestId ++ new))
    (hLength : (s.kv.reqToBlocks requestId ++ new).length =
      ceilDiv request.numComputedTokens cfg.ibSize)
    (hPos : 0 < request.numComputedTokens) (hManager : kv.prefixCacheManager = after)
    (hFree : kv.freeBlocks = s.kv.freeBlocks.filter fun ib => ib ∉ new)
    (hBlocks : kv.reqToBlocks =
      Function.update s.kv.reqToBlocks requestId (s.kv.reqToBlocks requestId ++ new)) :
    Scheduler.Consistent cfg ⟨kv, Function.update s.running requestId (some request)⟩ := by
  have hUnheld := hOk.unheld hNew
  have hOwn : kv.reqToBlocks requestId = s.kv.reqToBlocks requestId ++ new := by
    rw [hBlocks, Function.update_self]
  have hElse : ∀ other, other ≠ requestId → kv.reqToBlocks other = s.kv.reqToBlocks other := by
    intro other hOther
    rw [hBlocks, Function.update_of_ne hOther]
  have hRun : ∀ other, Function.update s.running requestId (some request) other =
      if other = requestId then some request else s.running other :=
    fun other => Function.update_apply ..
  have hMember : ∀ other ib, ib ∈ kv.reqToBlocks other ↔
      ib ∈ s.kv.reqToBlocks other ∨ (other = requestId ∧ ib ∈ new) := by
    intro other ib
    by_cases hOther : other = requestId
    · subst hOther
      rw [hOwn]
      simp
    · rw [hElse other hOther]
      simp [hOther]
  refine ⟨hManager ▸ hAfter, fun other otherRequest hRunning => ?_, fun other hRunning => ?_,
    fun other => ?_, fun other ib hMem => ?_, hFree ▸ hOk.free.filter _⟩
  · replace hRunning := (hRun other).symm.trans hRunning
    by_cases hOther : other = requestId
    · subst hOther
      rw [if_pos rfl, Option.some.injEq] at hRunning
      subst hRunning
      show kv.prefixCacheManager.Holds cfg other (kv.reqToBlocks other) ∧
        (kv.reqToBlocks other).length = _ ∧ _
      rw [hManager, hOwn]
      exact ⟨hHolds, hLength, hPos⟩
    · rw [if_neg hOther] at hRunning
      obtain ⟨hOld, hRest⟩ := hOk.tables other otherRequest hRunning
      show kv.prefixCacheManager.Holds cfg other (kv.reqToBlocks other) ∧
        (kv.reqToBlocks other).length = _ ∧ _
      rw [hManager, hElse other hOther]
      exact ⟨hExtended.holds hUnheld hOther hOld, hRest⟩
  · replace hRunning := (hRun other).symm.trans hRunning
    by_cases hOther : other = requestId
    · rw [if_pos hOther] at hRunning
      cases hRunning
    · rw [if_neg hOther] at hRunning
      obtain ⟨hNone, hEmpty⟩ := hOk.idle other hRunning
      refine ⟨?_, (hElse other hOther).trans hEmpty⟩
      show kv.prefixCacheManager.mappingManager.requestToOuterBlocks other = none
      rw [hManager, hExtended.requests other hOther, hNone]
  · show (kv.reqToBlocks other).Nodup
    by_cases hOther : other = requestId
    · subst hOther
      rw [hOwn, List.nodup_append]
      refine ⟨hOk.nodup other, hNewNodup, ?_⟩
      rintro ib hMem _ hIn rfl
      exact (hOk.apart other ib hMem).1 (hNew ib hIn)
    · rw [hElse other hOther]
      exact hOk.nodup other
  · show ib ∉ kv.freeBlocks ∧ ∀ third, ib ∈ kv.reqToBlocks third → third = other
    rw [hFree]
    rcases (hMember other ib).1 hMem with hOld | ⟨rfl, hIn⟩
    · obtain ⟨hNotFree, hOnly⟩ := hOk.apart other ib hOld
      refine ⟨fun hFiltered => hNotFree (List.mem_of_mem_filter hFiltered), fun third hThird => ?_⟩
      rcases (hMember third ib).1 hThird with hThird | ⟨-, hIn⟩
      · exact hOnly third hThird
      · exact absurd (hNew ib hIn) hNotFree
    · refine ⟨by simp [hIn], fun third hThird => ?_⟩
      rcases (hMember third ib).1 hThird with hThird | ⟨rfl, -⟩
      · exact absurd (hNew ib hIn) (hOk.apart third ib hThird).1
      · rfl

/-- What a prefill or a decode asks of `allocate_slots`. -/
structure Scheduler.Call (cfg : BlockConfiguration) (s : Scheduler H T)
    (requestId numTokens numComputedTokens : Nat) (new : List Nat) : Prop where
  kind : (s.running requestId = none ∧ numComputedTokens = 0 ∧ 0 < numTokens) ∨
    ∃ request, s.running requestId = some request ∧
      request.numComputedTokens = numComputedTokens ∧ numTokens = numComputedTokens + 1
  fits : numTokens ≤ cfg.maxModelLen
  gives : s.kv.Gives (s.kv.numBlocksToAllocate cfg requestId numTokens) new

/-- Room is made by evicting inactive outer blocks, then the request's are extended. -/
def PrefixCacheManager.Granted (p after : PrefixCacheManager) (requestId : Nat)
    (new : List Nat) : Prop :=
  ∃ middle outers touched, p.Evicted middle outers ∧
    (∀ outer ∈ outers, p.mappingManager.isInactive outer = true) ∧
    middle.Extended after requestId touched new

/-- What `allocate_slots` leaves of the manager when it goes through. -/
def KvCacheManager.granted (kv : KvCacheManager H) (cfg : BlockConfiguration) (hashes : Nat → H)
    (requestId numNewTokens : Nat) (new : List Nat) (after : PrefixCacheManager) :
    KvCacheManager H :=
  { kv.allocateNewBlocks requestId new with prefixCacheManager := after }.cacheBlocks cfg hashes
    requestId numNewTokens

/-- `allocate_slots` gives up with everything as it was, or goes through: it never fails. -/
theorem Scheduler.Consistent.allocateSlots (hOk : s.Consistent cfg)
    {requestId numTokens numComputedTokens : Nat} {new : List Nat}
    (hCall : s.Call cfg requestId numTokens numComputedTokens new) (hashes : Nat → H)
    (numNewTokens : Nat) :
    s.kv.allocateSlots cfg hashes requestId numTokens numComputedTokens numNewTokens new =
        some (false, s.kv) ∨
      ∃ after, s.kv.allocateSlots cfg hashes requestId numTokens numComputedTokens numNewTokens
          new = some (true, s.kv.granted cfg hashes requestId numNewTokens new after) ∧
        s.kv.prefixCacheManager.Granted after requestId new ∧ new.Nodup ∧
        (∀ ib ∈ new, ib ∈ s.kv.freeBlocks) ∧
        ∀ request : Request T, request.numComputedTokens = numTokens → Scheduler.Consistent cfg
          ⟨s.kv.granted cfg hashes requestId numNewTokens new after,
            Function.update s.running requestId (some request)⟩ := by
  have hNeed : s.kv.numBlocksToAllocate cfg requestId numTokens =
      ceilDiv numTokens cfg.ibSize - (s.kv.reqToBlocks requestId).length := by
    rw [KvCacheManager.numBlocksToAllocate, Nat.min_eq_left hCall.fits]
  by_cases hRoom : s.kv.freeBlocks.length < s.kv.numBlocksToAllocate cfg requestId numTokens
  · left
    simp only [KvCacheManager.allocateSlots, hRoom, if_true]
  obtain ⟨hLength, hNewNodup, hNew⟩ := hCall.gives (Nat.not_lt.1 hRoom)
  rcases hOk.manager.canAllocate (s.kv.numBlocksToAllocate cfg requestId numTokens)
    numComputedTokens with hNo | ⟨p, outers, hYes, hManager, hEvicted, hInactive, hOuterRoom⟩
  · left
    simp only [KvCacheManager.allocateSlots, hRoom, if_false, hNo]
  right
  have hStart := hOk.evicted hManager hEvicted hInactive
  have hUnheld := hStart.unheld hNew
  -- The blocks after the call, once the outer blocks are handed out.
  have hDone : ∀ after touched, p.allocateBlocks cfg requestId numComputedTokens new = some after →
      after.Consistent cfg [] [] → p.Extended after requestId touched new →
      after.Holds cfg requestId (s.kv.reqToBlocks requestId ++ new) →
      (s.kv.reqToBlocks requestId ++ new).length = ceilDiv numTokens cfg.ibSize → 0 < numTokens →
      ∃ after, s.kv.allocateSlots cfg hashes requestId numTokens numComputedTokens numNewTokens
          new = some (true, s.kv.granted cfg hashes requestId numNewTokens new after) ∧
        s.kv.prefixCacheManager.Granted after requestId new ∧ new.Nodup ∧
        (∀ ib ∈ new, ib ∈ s.kv.freeBlocks) ∧
        ∀ request : Request T, request.numComputedTokens = numTokens → Scheduler.Consistent cfg
          ⟨s.kv.granted cfg hashes requestId numNewTokens new after,
            Function.update s.running requestId (some request)⟩ := by
    intro after touched hAfter hAll hExtended hHolds hTotal hPos
    refine ⟨after, ?_, ⟨p, outers, touched, hEvicted, hInactive, hExtended⟩, hNewNodup, hNew,
      fun request hRequest => ?_⟩
    · simp only [KvCacheManager.allocateSlots, hRoom, if_false, hYes, hAfter, Option.map_some]
      rfl
    · obtain ⟨hRestManager, hRestFree, hRestBlocks⟩ := @cacheBlocks_rest H _ cfg
        { s.kv.allocateNewBlocks requestId new with prefixCacheManager := after } hashes requestId
        numNewTokens
      exact hStart.extended hNew hNewNodup hAll hExtended hHolds (hRequest ▸ hTotal)
        (hRequest ▸ hPos) hRestManager hRestFree hRestBlocks
  have hSameBlocks : new = [] → ∃ touched, p.Extended p requestId touched new := by
    rintro rfl
    refine ⟨[], fun _ _ => rfl, fun outer _ => ?_, fun _ hMem => absurd hMem List.not_mem_nil⟩
    cases p.mappingManager.blockMappings outer with
    | none => rfl
    | some mapping =>
        rw [Option.map_some, BlockMapping.without_of_disjoint fun _ hMem => by cases hMem]
  rcases hCall.kind with ⟨hIdle, rfl, hPos⟩ | ⟨request, hRunning, rfl, rfl⟩
  · obtain ⟨hNone, hEmpty⟩ := hStart.idle requestId hIdle
    have hEmptyBlocks : s.kv.reqToBlocks requestId = [] := hEmpty
    rw [hNeed, hEmptyBlocks, List.length_nil, Nat.sub_zero] at hLength
    have hSome : new ≠ [] := by
      refine List.ne_nil_of_length_pos ?_
      rw [hLength, lt_ceilDiv cfg.ibSize_pos]
      omega
    rw [hNeed, hEmptyBlocks, List.length_nil, Nat.sub_zero, ← hLength] at hOuterRoom
    obtain ⟨after, touched, hAfter, hAll, hExtended, hHolds⟩ :=
      hManager.allocatePrefill hSome hNewNodup hUnheld hNone hOuterRoom
    refine hDone after touched hAfter hAll hExtended ?_ ?_ hPos
    · rw [hEmptyBlocks]
      exact hHolds
    · rw [hEmptyBlocks, List.nil_append, hLength]
  · obtain ⟨hHolds, hHeld, hTokens⟩ := hStart.tables requestId request hRunning
    have hHeldLength : (s.kv.reqToBlocks requestId).length =
      ceilDiv request.numComputedTokens cfg.ibSize := hHeld
    have hNext := ceilDiv_succ cfg.ibSize_pos request.numComputedTokens
    rw [hNeed, hHeldLength, hNext, Nat.add_sub_cancel_left] at hLength hOuterRoom
    by_cases hFull : request.numComputedTokens % cfg.ibSize = 0
    · rw [if_pos hFull] at hLength hOuterRoom hNext
      obtain ⟨ib, rfl⟩ := List.length_eq_one_iff.1 hLength
      have hCount : request.numComputedTokens / cfg.ibSize =
          (s.kv.reqToBlocks requestId).length := by
        have hSplit := Nat.div_add_mod' request.numComputedTokens cfg.ibSize
        rw [hFull, Nat.add_zero] at hSplit
        rw [hHeldLength]
        conv_rhs => rw [← hSplit]
        rw [ceilDiv_mul cfg.ibSize_pos]
      obtain ⟨after, touched, hAfter, hAll, hExtended, hAfterHolds⟩ :=
        hManager.allocateDecode hUnheld hHolds hTokens hCount hOuterRoom
      refine hDone after touched hAfter hAll hExtended hAfterHolds ?_ (Nat.succ_pos _)
      rw [List.length_append, hHeldLength, hNext, List.length_singleton]
    · rw [if_neg hFull] at hLength hNext
      have hNil := List.length_eq_zero_iff.1 hLength
      obtain ⟨touched, hExtended⟩ := hSameBlocks hNil
      refine hDone p touched ?_ hManager hExtended ?_ ?_ (Nat.succ_pos _)
      · rw [hNil, PrefixCacheManager.allocateBlocks, if_pos rfl]
      · rw [hNil, List.append_nil]
        exact hHolds
      · rw [hNil, List.append_nil, hHeldLength, hNext, Nat.add_zero]

/-- `free` never fails either. -/
theorem Scheduler.Consistent.freed (hOk : s.Consistent cfg) (requestId : Nat) (preemption : Bool) :
    ∃ p, s.kv.prefixCacheManager.freeRequest requestId preemption = some p ∧
      PrefixCacheManager.Freed { s.kv.prefixCacheManager with
        mappingManager := s.kv.prefixCacheManager.mappingManager.removeRequest requestId } p
        ((s.kv.prefixCacheManager.mappingManager.requestToOuterBlocks requestId).getD [])
        preemption ∧
      ∀ kv, s.kv.free requestId preemption = some kv →
        Scheduler.Consistent cfg ⟨kv, Function.update s.running requestId none⟩ := by
  obtain ⟨p, hFree, hAll, hFreed⟩ := hOk.manager.freeRequest requestId preemption
  refine ⟨p, hFree, hFreed, fun kv hKv => ?_⟩
  rw [KvCacheManager.free, hFree, Option.map_some, Option.some.injEq] at hKv
  have hManager : kv.prefixCacheManager = p := by rw [← hKv]
  have hFreeBlocks : kv.freeBlocks = s.kv.freeBlocks ++ s.kv.reqToBlocks requestId := by rw [← hKv]
  have hOwn : kv.reqToBlocks requestId = [] := by
    rw [← hKv]
    exact Function.update_self ..
  have hElse : ∀ other, other ≠ requestId → kv.reqToBlocks other = s.kv.reqToBlocks other := by
    intro other hOther
    rw [← hKv]
    exact Function.update_of_ne hOther ..
  have hRun : ∀ other, Function.update s.running requestId none other =
      if other = requestId then none else s.running other := fun other => Function.update_apply ..
  have hMember : ∀ other ib, ib ∈ kv.reqToBlocks other →
      other ≠ requestId ∧ ib ∈ s.kv.reqToBlocks other := by
    intro other ib hMem
    by_cases hOther : other = requestId
    · subst hOther
      rw [hOwn] at hMem
      cases hMem
    · exact ⟨hOther, hElse other hOther ▸ hMem⟩
  refine ⟨hManager ▸ hAll, fun other request hRunning => ?_, fun other hRunning => ?_,
    fun other => ?_, fun other ib hMem => ?_, ?_⟩
  · replace hRunning := (hRun other).symm.trans hRunning
    rw [Option.ite_none_left_eq_some] at hRunning
    obtain ⟨hHolds, hRest⟩ := hOk.tables other request hRunning.2
    show kv.prefixCacheManager.Holds cfg other (kv.reqToBlocks other) ∧
      (kv.reqToBlocks other).length = _ ∧ _
    rw [hManager, hElse other hRunning.1]
    exact ⟨hOk.manager.freed_holds hFreed hRunning.1 hHolds, hRest⟩
  · show kv.prefixCacheManager.mappingManager.requestToOuterBlocks other = none ∧
      kv.reqToBlocks other = []
    replace hRunning := (hRun other).symm.trans hRunning
    rw [hManager, hFreed.requests]
    by_cases hOther : other = requestId
    · subst hOther
      exact ⟨Function.update_self .., hOwn⟩
    · rw [if_neg hOther] at hRunning
      obtain ⟨hNone, hEmpty⟩ := hOk.idle other hRunning
      exact ⟨(Function.update_of_ne hOther ..).trans hNone, (hElse other hOther).trans hEmpty⟩
  · show (kv.reqToBlocks other).Nodup
    by_cases hOther : other = requestId
    · subst hOther
      rw [hOwn]
      exact List.nodup_nil
    · rw [hElse other hOther]
      exact hOk.nodup other
  · obtain ⟨hOther, hOld⟩ := hMember other ib hMem
    obtain ⟨hNotFree, hOnly⟩ := hOk.apart other ib hOld
    show ib ∉ kv.freeBlocks ∧ ∀ third, ib ∈ kv.reqToBlocks third → third = other
    rw [hFreeBlocks, List.mem_append, not_or]
    refine ⟨⟨hNotFree, fun hIn => hOther (hOnly requestId hIn).symm⟩, fun third hThird => ?_⟩
    exact hOnly third (hMember third ib hThird).2
  · show kv.freeBlocks.Nodup
    rw [hFreeBlocks, List.nodup_append]
    refine ⟨hOk.free, hOk.nodup requestId, ?_⟩
    rintro ib hMem _ hIn rfl
    exact (hOk.apart requestId ib hIn).1 hMem

/-- The padding block comes from what is free, after an eviction if need be. -/
theorem Scheduler.Consistent.dummyBlock (hOk : s.Consistent cfg) {dummy : Nat × PrefixCacheManager}
    (hDummy : s.kv.prefixCacheManager.getDummyBlock cfg = some dummy) :
    ∃ outers, s.kv.prefixCacheManager.Evicted dummy.2 outers ∧
      (∀ outer ∈ outers, s.kv.prefixCacheManager.mappingManager.isInactive outer = true) ∧
      Scheduler.Consistent cfg { s with kv := { s.kv with prefixCacheManager := dummy.2 } } := by
  have hSame : s.kv.prefixCacheManager.Evicted s.kv.prefixCacheManager [] :=
    ⟨rfl, fun _ => rfl, (List.append_nil _).symm⟩
  unfold PrefixCacheManager.getDummyBlock at hDummy
  split at hDummy
  · rw [Option.some.injEq] at hDummy
    rw [← hDummy]
    exact ⟨[], hSame, by simp, hOk⟩
  · rcases hOk.manager.canAllocate 1 0 with hNo | ⟨p, outers, hYes, hAll, hEvicted, hInactive, -⟩
    · simp [hNo] at hDummy
    · simp only [hYes, Option.map_eq_some_iff] at hDummy
      obtain ⟨block, -, rfl⟩ := hDummy
      exact ⟨outers, hEvicted, hInactive, hOk.evicted hAll hEvicted hInactive⟩

/-- A request keeps its table while its tokens grow. -/
theorem Scheduler.Consistent.sample (hOk : s.Consistent cfg) (requestId : Nat) (token : T) :
    Scheduler.Consistent cfg { s with
      running := Function.update s.running requestId ((s.running requestId).map fun request =>
        { request with tokens := request.tokens ++ [token] }) } := by
  have hRun : ∀ other request, Function.update s.running requestId
      ((s.running requestId).map fun request =>
        { request with tokens := request.tokens ++ [token] }) other = some request →
      ∃ before, s.running other = some before ∧
        before.numComputedTokens = request.numComputedTokens := by
    intro other request hRunning
    rw [Function.update_apply] at hRunning
    split at hRunning
    · rename_i hSame
      subst hSame
      obtain ⟨before, hBefore, rfl⟩ := Option.map_eq_some_iff.1 hRunning
      exact ⟨before, hBefore, rfl⟩
    · exact ⟨request, hRunning, rfl⟩
  refine ⟨hOk.manager, fun other request hRunning => ?_, fun other hRunning => ?_, hOk.nodup,
    hOk.apart, hOk.free⟩
  · obtain ⟨before, hBefore, hTokens⟩ := hRun other request hRunning
    rw [← hTokens]
    exact hOk.tables other before hBefore
  · refine hOk.idle other ?_
    cases hBefore : s.running other with
    | none => rfl
    | some before =>
        replace hRunning : Function.update s.running requestId _ other = none := hRunning
        rw [Function.update_apply] at hRunning
        split at hRunning
        · rename_i hSame
          subst hSame
          simp [hBefore] at hRunning
        · rw [hBefore] at hRunning
          cases hRunning

theorem Scheduler.Legal.admitCall {requestId : Nat} {tokens : List T} {new : List Nat}
    (hLegal : s.Legal cfg (.prefill requestId tokens new)) :
    s.Call cfg requestId tokens.length 0 new := by
  obtain ⟨hIdle, hPos, hFits, hGives⟩ := hLegal
  exact ⟨.inl ⟨hIdle, rfl, hPos⟩, hFits, hGives⟩

theorem Scheduler.Legal.decodeCall {requestId : Nat} {new : List Nat} {request : Request T}
    (hLegal : s.Legal cfg (.decode requestId new)) (hRunning : s.running requestId = some request) :
    s.Call cfg requestId request.tokens.length request.numComputedTokens new := by
  obtain ⟨same, hSame, hLength, hFits, hGives⟩ := hLegal
  rw [hRunning, Option.some.injEq] at hSame
  subst hSame
  exact ⟨.inr ⟨request, hRunning, rfl, hLength⟩, hFits, hGives⟩

/-- One step keeps the invariant. -/
theorem Scheduler.Consistent.step (hOk : s.Consistent cfg) {action : Action T}
    (hLegal : s.Legal cfg action) {after : Scheduler H T}
    (hStep : s.step hash cfg action = some after) : after.Consistent cfg := by
  cases action with
  | prefill requestId tokens new =>
      rcases hOk.allocateSlots hLegal.admitCall (blockHashes hash cfg tokens) tokens.length with
        hNone | ⟨p, hSome, -, -, -, hAll⟩
      · simp only [Scheduler.step, hNone, Option.map_some, Option.some.injEq] at hStep
        exact hStep ▸ hOk
      · simp only [Scheduler.step, hSome, Option.map_some, Option.some.injEq] at hStep
        exact hStep ▸ hAll ⟨tokens, tokens.length⟩ rfl
  | sample requestId token =>
      rw [Scheduler.step, Option.some.injEq] at hStep
      exact hStep ▸ hOk.sample requestId token
  | decode requestId new =>
      obtain ⟨request, hRunning, hLength, -⟩ := id hLegal
      rcases hOk.allocateSlots (hLegal.decodeCall hRunning) (blockHashes hash cfg request.tokens) 1
        with hNone | ⟨p, hSome, -, -, -, hAll⟩
      · simp only [Scheduler.step, hRunning, Option.bind_some, hNone, Option.map_some,
          Option.some.injEq] at hStep
        exact hStep ▸ hOk
      · simp only [Scheduler.step, hRunning, Option.bind_some, hSome, Option.map_some,
          Option.some.injEq] at hStep
        exact hStep ▸ hAll { request with numComputedTokens := request.numComputedTokens + 1 }
          hLength.symm
  | finish requestId =>
      obtain ⟨-, -, -, hAll⟩ := hOk.freed requestId false
      rw [Scheduler.step, Option.map_eq_some_iff] at hStep
      obtain ⟨kv, hKv, rfl⟩ := hStep
      exact hAll kv hKv
  | preempt requestId =>
      obtain ⟨-, -, -, hAll⟩ := hOk.freed requestId true
      rw [Scheduler.step, Option.map_eq_some_iff] at hStep
      obtain ⟨kv, hKv, rfl⟩ := hStep
      exact hAll kv hKv
  | dummyBlock =>
      rw [Scheduler.step, Option.map_eq_some_iff] at hStep
      obtain ⟨dummy, hDummy, rfl⟩ := hStep
      obtain ⟨-, -, -, hAll⟩ := hOk.dummyBlock hDummy
      exact hAll

theorem Reaches.consistent (hReaches : Reaches hash cfg s) : s.Consistent cfg := by
  induction hReaches with
  | initial => exact Scheduler.initial_consistent
  | step _ hLegal hStep ih => exact ih.step hLegal hStep

/-- The slices of a request's inner blocks make up all of them. -/
theorem flatMap_slice (innerBlocks : List Nat) (n : Nat) :
    (List.range n).flatMap (fun i => cfg.slice i innerBlocks) =
      innerBlocks.take (n * cfg.blockRatio) := by
  induction n with
  | zero => simp
  | succ n ih =>
      rw [List.range_succ, List.flatMap_append, ih, List.flatMap_singleton, Nat.succ_mul,
        List.take_add]
      rfl

theorem PrefixCacheManager.Holds.flatMap {p : PrefixCacheManager} {requestId : Nat}
    {innerBlocks : List Nat} (hHolds : p.Holds cfg requestId innerBlocks) :
    ∃ outers, p.mappingManager.requestToOuterBlocks requestId = some outers ∧
      outers.flatMap p.mappingManager.innerBlocksForOuter = innerBlocks := by
  obtain ⟨outers, hOuters, hLength, hSlices⟩ := hHolds
  refine ⟨outers, hOuters, ?_⟩
  have hCover : innerBlocks.length ≤ outers.length * cfg.blockRatio := by
    rw [hLength]
    exact Nat.not_lt.1 fun hLt => Nat.lt_irrefl _ ((lt_ceilDiv cfg.blockRatio_pos).2 hLt)
  have hMap : outers.map p.mappingManager.innerBlocksForOuter =
      (List.range outers.length).map fun i => cfg.slice i innerBlocks := by
    refine List.ext_getElem (by simp) fun i hLeft hRight => ?_
    rw [List.length_map] at hLeft
    have hRecord := hSlices i outers[i] (List.getElem?_eq_getElem hLeft)
    simp [BlockMappingManager.innerBlocksForOuter, hRecord]
  rw [List.flatMap_def, hMap, ← List.flatMap_def, flatMap_slice, List.take_of_length_le hCover]

end Steps

/-- In every reachable state the block mapping is consistent: the two indexes agree, the allocator
partitions the outer blocks and has given out the mapped ones, an active outer block belongs to
one running request, whose outer blocks list its inner blocks in order, an eviction takes an
inactive outer block or one of the request being preempted, and `allocate_slots` either goes
through, when there are inner blocks and `can_allocate` says so, or leaves all as it was. -/
theorem block_mapping_consistent {s : Scheduler H T} (hReaches : Reaches hash cfg s) :
    (∀ ib outer, s.kv.prefixCacheManager.mappingManager.innerToOuter ib = some outer ↔
      ∃ mapping, s.kv.prefixCacheManager.mappingManager.blockMappings outer = some mapping ∧
        ib ∈ mapping.innerBlockIds) ∧
    (s.kv.prefixCacheManager.allocator.freeBlocks ++
      s.kv.prefixCacheManager.allocator.allocatedBlocks).Perm (List.range cfg.numOb) ∧
    (∀ outer, outer ∈ s.kv.prefixCacheManager.allocator.allocatedBlocks ↔
      ∃ mapping, s.kv.prefixCacheManager.mappingManager.blockMappings outer = some mapping) ∧
    (∀ outer mapping, s.kv.prefixCacheManager.mappingManager.blockMappings outer = some mapping →
      mapping.isActive = true → ∃! requestId, mapping.requestId = some requestId ∧
        (∃ request, s.running requestId = some request) ∧
        ∃ outers, s.kv.prefixCacheManager.mappingManager.requestToOuterBlocks requestId =
          some outers ∧ outer ∈ outers) ∧
    (∀ requestId request, s.running requestId = some request → ∃ outers,
      s.kv.prefixCacheManager.mappingManager.requestToOuterBlocks requestId = some outers ∧
        outers.flatMap s.kv.prefixCacheManager.mappingManager.innerBlocksForOuter =
          s.kv.reqToBlocks requestId) ∧
    (∀ eviction ∈ s.kv.prefixCacheManager.evictions, eviction.Justified) ∧
    ∀ requestId numTokens numComputedTokens numNewTokens new hashes,
      s.Call cfg requestId numTokens numComputedTokens new → ∃ done kv,
        s.kv.allocateSlots cfg hashes requestId numTokens numComputedTokens numNewTokens new =
          some (done, kv) ∧ (done = false → kv = s.kv) ∧
        (s.kv.numBlocksToAllocate cfg requestId numTokens ≤ s.kv.freeBlocks.length →
          (s.kv.prefixCacheManager.canAllocate cfg
            (s.kv.numBlocksToAllocate cfg requestId numTokens) numComputedTokens).1 = true →
          done = true) := by
  have hOk := hReaches.consistent
  refine ⟨hOk.manager.mappings.indexed, hOk.manager.partition, fun outer => ?_,
    fun outer mapping hMapping hActive => ?_, fun requestId request hRunning => ?_,
    hOk.manager.evicted, fun requestId numTokens numComputedTokens numNewTokens new hashes hCall => ?_⟩
  · rw [hOk.manager.allocated]
    simp
  · obtain ⟨requestId, request, outers, i, hRunning, hRequest, hOuters, hOuter, -⟩ :=
      hOk.active hMapping hActive
    refine ⟨requestId, ⟨hRequest, ⟨request, hRunning⟩, outers, hOuters,
      List.mem_of_getElem? hOuter⟩, ?_⟩
    rintro other ⟨hOther, -⟩
    rw [hRequest, Option.some.injEq] at hOther
    exact hOther.symm
  · exact (hOk.tables requestId request hRunning).1.flatMap
  · rcases hOk.allocateSlots hCall hashes numNewTokens with hNone | ⟨after, hSome, -⟩
    · refine ⟨false, s.kv, hNone, fun _ => rfl, fun hRoom hCan => ?_⟩
      have hNotShort := Nat.not_lt.2 hRoom
      generalize hCanEq : s.kv.prefixCacheManager.canAllocate cfg _ numComputedTokens = can at hCan
      obtain ⟨ok, p⟩ := can
      cases hCan
      simp [KvCacheManager.allocateSlots, hNotShort, hCanEq] at hNone
    · exact ⟨true, _, hSome, nofun, fun _ _ => rfl⟩

/-- One inner block, which is the outer block too. -/
def singleBlock : BlockConfiguration where
  ibSize := 1
  blockRatio := 1
  maxModelLen := 1
  maxNumSeqs := 1
  numInnerBlocks := 1
  ibSize_pos := Nat.one_pos
  blockRatio_pos := Nat.one_pos

/-- A request that was just admitted. -/
def oneAdmitted : Scheduler (HashChain.FreeHash Nat Unit) Nat :=
  ((Scheduler.initial singleBlock).step HashChain.FreeHash.extend singleBlock
    (.prefill 0 [7] [1])).getD (Scheduler.initial singleBlock)

theorem oneAdmitted_reaches : Reaches HashChain.FreeHash.extend singleBlock oneAdmitted := by
  refine .step .initial (?_ : Scheduler.Legal singleBlock _ (.prefill 0 [7] [1])) rfl
  exact ⟨rfl, by decide, by decide, fun _ => by decide⟩

theorem oneAdmitted_consistent :
    (oneAdmitted.kv.prefixCacheManager.allocator.freeBlocks ++
      oneAdmitted.kv.prefixCacheManager.allocator.allocatedBlocks).Perm (List.range 1) :=
  (block_mapping_consistent oneAdmitted_reaches).2.1

/-- A preemption evicts the outer blocks of the request it preempts, which are active. -/
theorem preemption_evicts_active : ∃ after : Scheduler (HashChain.FreeHash Nat Unit) Nat,
    Reaches HashChain.FreeHash.extend singleBlock after ∧
      ∃ eviction ∈ after.kv.prefixCacheManager.evictions, eviction.mapping.isActive = true := by
  refine ⟨_, .step oneAdmitted_reaches (?_ : Scheduler.Legal singleBlock _ (.preempt 0)) rfl, ?_⟩
  · exact ⟨_, rfl⟩
  · exact ⟨_, List.mem_singleton.2 rfl, rfl⟩

end VllmRbln.Optimum
