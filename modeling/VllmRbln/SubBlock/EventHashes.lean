import VllmRbln.SubBlock.EventStream

/-! Events that describe themselves. While the tokens of a request only grow, a reader that knows
the hash function and the parent recomputes every hash of an event from the event alone. -/
namespace VllmRbln.SubBlock.EventManager

open Scheduler Run HashChain

variable {H X E : Type} [DecidableEq H]

/-- The extra keys of an event's hashes, one for each. -/
def keys (stored : BlockStored E X) : List (Option X) :=
  stored.extraKeys.getD (List.replicate stored.blockHashes.length none)

/-- An event stands for a stretch of these tokens, after the pieces that the keys `before` are
for: it carries the tokens of the stretch and the hashes that they chain to. -/
structure Describes (hashing : Hashing H X) (events : EventConfig H E) (subBlockSize : Nat)
    (tokens : List Token) (before : List (Option X)) (stored : BlockStored E X) : Prop where
  blockSize_eq : stored.blockSize = subBlockSize
  nonempty : stored.blockHashes ≠ []
  fits : (before.length + stored.blockHashes.length) * subBlockSize ≤ tokens.length
  tokenIds_eq : stored.tokenIds = (tokens.drop (before.length * subBlockSize)).take
    (stored.blockHashes.length * subBlockSize)
  chained : ∃ parent, parent =
      (rehash hashing.hashBlockTokens subBlockSize none tokens before).getLast? ∧
    stored.parentBlockHash = parent.map events.maybeConvertBlockHash ∧
    stored.blockHashes = (rehash hashing.hashBlockTokens stored.blockSize parent stored.tokenIds
      (keys stored)).map events.maybeConvertBlockHash

/-- The hashes kept of every request are those of its tokens, with the keys kept beside them;
and so are those of the events that wait. -/
structure Faithful (hashing : Hashing H X) (events : EventConfig H E) (subBlockSize : Nat)
    (requests : ReqId → Request) (m : EventManager H X E) : Prop where
  hashes : ∀ id, m.kv.reqSubHashes id = rehash hashing.hashBlockTokens subBlockSize none
    (requests id).allTokenIds (m.extraKeys id)
  full : ∀ id, (m.extraKeys id).length * subBlockSize ≤ (requests id).allTokenIds.length
  queued : ∀ stored, .blockStored stored ∈ m.subBlockEventQueue →
    ∃ id before, Describes hashing events subBlockSize (requests id).allTokenIds before stored

section

variable {cfg : Config} {hashing : Hashing H X} {events : EventConfig H E} {subBlockSize : Nat}
  {requests : ReqId → Request} {m m' : EventManager H X E} {id : ReqId}

omit [DecidableEq H] in
theorem Describes.grow {tokens tokens' : List Token} {before : List (Option X)}
    {stored : BlockStored E X} (hDescribes : Describes hashing events subBlockSize tokens before stored)
    (hPrefix : tokens <+: tokens') :
    Describes hashing events subBlockSize tokens' before stored := by
  have hFits := hDescribes.fits
  obtain ⟨more, rfl⟩ := hPrefix
  rw [Nat.add_mul] at hFits
  obtain ⟨parent, hParent, hRest⟩ := hDescribes.chained
  refine { hDescribes with fits := ?_, tokenIds_eq := ?_, chained := ⟨parent, ?_, hRest⟩ }
  · rw [List.length_append, Nat.add_mul]
    omega
  · rw [hDescribes.tokenIds_eq, List.drop_append_of_le_length (by omega),
      List.take_append_of_le_length (by rw [List.length_drop]; omega)]
  · rw [hParent]
    apply congrArg List.getLast?
    apply rehash_congr
    rw [List.take_append_of_le_length (by omega)]

omit [DecidableEq H] in
/-- Nothing to show while neither the hashes nor the events change. -/
theorem Faithful.quiet (hFaithful : Faithful hashing events subBlockSize requests m)
    (hHashes : m'.kv.reqSubHashes = m.kv.reqSubHashes) (hKeys : m'.extraKeys = m.extraKeys)
    (hQueue : ∀ stored, .blockStored stored ∈ m'.subBlockEventQueue →
      .blockStored stored ∈ m.subBlockEventQueue) :
    Faithful hashing events subBlockSize requests m' where
  hashes id := by rw [hHashes, hKeys, hFaithful.hashes]
  full id := by rw [hKeys]; exact hFaithful.full id
  queued stored hMem := hFaithful.queued stored (hQueue stored hMem)

omit [DecidableEq H] in
/-- The tokens of a request grow. -/
theorem Faithful.grow (hFaithful : Faithful hashing events subBlockSize requests m)
    {requests' : ReqId → Request}
    (hPrefix : ∀ id, (requests id).allTokenIds <+: (requests' id).allTokenIds) :
    Faithful hashing events subBlockSize requests' m where
  hashes id := by
    rw [hFaithful.hashes]
    apply rehash_congr
    obtain ⟨more, hMore⟩ := hPrefix id
    rw [← hMore, List.take_append_of_le_length (hFaithful.full id)]
  full id := le_trans (hFaithful.full id) (hPrefix id).length_le
  queued stored hMem := by
    obtain ⟨id, before, hDescribes⟩ := hFaithful.queued stored hMem
    exact ⟨id, before, hDescribes.grow (hPrefix id)⟩

omit [DecidableEq H] in
/-- `hash_tokens` chains on from the parent it is given. -/
theorem hashTokens_eq_rehash (tokens : List Token) (parentHash : Option H) (start count : Nat) :
    Manager.hashTokens hashing subBlockSize id tokens parentHash start count =
      rehash hashing.hashBlockTokens subBlockSize parentHash (tokens.drop start)
        ((List.range count).map fun k => hashing.extraKeys id (start + k * subBlockSize)
          (start + k * subBlockSize + subBlockSize)) := by
  induction count generalizing parentHash start with
  | zero => rfl
  | succ count ih =>
      rw [Manager.hashTokens, ih, List.range_succ_eq_map, List.map_cons, List.map_map, rehash,
        List.drop_drop]
      simp only [Nat.zero_mul, Nat.add_zero, List.cons.injEq, true_and]
      congr 1
      apply List.map_congr_left
      intro k _
      dsimp only [Function.comp_apply]
      rw [Nat.succ_mul, Nat.add_assoc, Nat.add_comm subBlockSize]

omit [DecidableEq H] in
theorem Faithful.getOrComputeSubHashes
    (hFaithful : Faithful hashing events subBlockSize requests m) (id : ReqId) :
    Faithful hashing events subBlockSize requests
      (getOrComputeSubHashes hashing subBlockSize m id (requests id)) where
  hashes other := by
    by_cases hEq : other = id
    · subst hEq
      have hLength : (m.kv.reqSubHashes other).length = (m.extraKeys other).length := by
        rw [hFaithful.hashes, rehash_length]
      dsimp only [EventManager.getOrComputeSubHashes, Manager.getOrComputeSubHashes]
      rw [Function.update_self, Function.update_self, rehash_append, Option.or_none,
        ← hFaithful.hashes, ← hLength, ← hashTokens_eq_rehash]
      rfl
    · simp only [EventManager.getOrComputeSubHashes, Manager.getOrComputeSubHashes,
        Function.update_of_ne hEq]
      exact hFaithful.hashes other
  full other := by
    by_cases hEq : other = id
    · subst hEq
      have hFull := hFaithful.full other
      have hLength : (m.kv.reqSubHashes other).length = (m.extraKeys other).length := by
        rw [hFaithful.hashes, rehash_length]
      have hNew := Nat.div_mul_le_self ((requests other).allTokenIds.length -
        (m.extraKeys other).length * subBlockSize) subBlockSize
      dsimp only [EventManager.getOrComputeSubHashes]
      rw [Function.update_self, List.length_append, List.length_map, List.length_range, hLength,
        Nat.add_mul]
      omega
    · simp only [EventManager.getOrComputeSubHashes, Function.update_of_ne hEq]
      exact hFaithful.full other
  queued := hFaithful.queued

omit [DecidableEq H] in
/-- The event of an update describes the stretch from the first fresh hash on. -/
theorem Faithful.freshSuffix (hFaithful : Faithful hashing events subBlockSize requests m)
    {subStart subEnd first : Nat} (hFirst : first < subEnd - subStart)
    (hEnd : subEnd ≤ (m.kv.reqSubHashes id).length) :
    Describes hashing events subBlockSize (requests id).allTokenIds
      ((m.extraKeys id).take (subStart + first))
      (freshSuffix events subBlockSize m id (requests id) subStart subEnd first) := by
  set freshStart := subStart + first with hStart
  set extras := ((m.extraKeys id).drop freshStart).take (subEnd - freshStart) with hExtras
  have hLength : (m.kv.reqSubHashes id).length = (m.extraKeys id).length := by
    rw [hFaithful.hashes, rehash_length]
  have hCount : (EventManager.freshSuffix events subBlockSize m id (requests id) subStart subEnd
      first).blockHashes.length = subEnd - freshStart := by
    simp only [EventManager.freshSuffix, List.length_map, List.length_take, List.length_drop,
      ← hStart]
    omega
  have hExtrasLength : extras.length = subEnd - freshStart := by
    rw [hExtras, List.length_take, List.length_drop]
    omega
  have hBefore : ((m.extraKeys id).take freshStart).length = freshStart := by
    rw [List.length_take]
    omega
  have hTokens : (EventManager.freshSuffix events subBlockSize m id (requests id) subStart subEnd
      first).tokenIds = ((requests id).allTokenIds.drop (freshStart * subBlockSize)).take
        ((subEnd - freshStart) * subBlockSize) := by
    rw [Nat.sub_mul]
    rfl
  have hKeys : keys (EventManager.freshSuffix events subBlockSize m id (requests id) subStart
      subEnd first) = extras := by
    rw [keys, hCount]
    dsimp only [EventManager.freshSuffix]
    rw [← hStart, ← hExtras]
    by_cases hAny : extras.any Option.isSome = true
    · rw [if_pos hAny]
      rfl
    · -- no key at all is told as no keys
      rw [if_neg hAny, Option.getD_none, ← hExtrasLength]
      symm
      rw [List.eq_replicate_iff]
      refine ⟨rfl, fun key hMem => ?_⟩
      cases key with
      | none => rfl
      | some key => exact absurd (List.any_eq_true.mpr ⟨some key, hMem, rfl⟩) hAny
  constructor
  · rfl
  · rw [ne_eq, ← List.length_eq_zero_iff, hCount]
    omega
  · rw [hBefore, hCount]
    apply le_trans (Nat.mul_le_mul_right _ _) (hFaithful.full id)
    omega
  · rw [hTokens, hBefore, hCount]
  · refine ⟨_, rfl, ?_, ?_⟩
    · dsimp only [EventManager.freshSuffix]
      rw [← hStart, hFaithful.hashes]
      by_cases hPos : 0 < freshStart
      · rw [if_pos hPos]
        rw [rehash_take, List.getLast?_take, if_neg (by omega)]
        rw [List.getElem?_eq_getElem (by rw [rehash_length]; omega)]
        rfl
      · have hZero : freshStart = 0 := by omega
        rw [if_neg hPos, hZero]
        rfl
    · rw [hKeys, hTokens]
      have hPiece : rehash hashing.hashBlockTokens subBlockSize
          (rehash hashing.hashBlockTokens subBlockSize none (requests id).allTokenIds
            ((m.extraKeys id).take freshStart)).getLast?
          (((requests id).allTokenIds.drop (freshStart * subBlockSize)).take
            ((subEnd - freshStart) * subBlockSize)) extras =
          rehash hashing.hashBlockTokens subBlockSize
            (rehash hashing.hashBlockTokens subBlockSize none (requests id).allTokenIds
              ((m.extraKeys id).take freshStart)).getLast?
            ((requests id).allTokenIds.drop (freshStart * subBlockSize)) extras := by
        apply rehash_congr
        rw [hExtrasLength, List.take_take, Nat.min_self]
      dsimp only [EventManager.freshSuffix]
      rw [hPiece, ← rehash_drop_take _ _ (by omega), ← hFaithful.hashes]

theorem Faithful.indexBlock (hFaithful : Faithful hashing events subBlockSize requests m)
    (group : Nat) (block : BlockId) {subStart subEnd : Nat}
    (hEnd : subEnd ≤ (m.kv.reqSubHashes id).length) :
    Faithful hashing events subBlockSize requests
      (indexBlock events subBlockSize m id (requests id) group block subStart subEnd) := by
  have hUpdated : Faithful hashing events subBlockSize requests
      { m with kv := m.kv.indexBlock id group block subStart subEnd } :=
    hFaithful.quiet rfl rfl fun _ hMem => hMem
  dsimp only [EventManager.indexBlock, emitBlockStored]
  split
  · exact hUpdated
  · split
    · exact hUpdated
    · rename_i hFirst
      refine ⟨hUpdated.hashes, hUpdated.full, fun stored hMem => ?_⟩
      rcases List.mem_append.mp hMem with hOld | hNew
      · exact hFaithful.queued stored hOld
      · obtain rfl := KVCacheEvent.blockStored.inj (List.mem_singleton.mp hNew)
        exact ⟨id, _, hUpdated.freshSuffix (Nat.not_le.mp hFirst) hEnd⟩

theorem Faithful.indexNewlyCachedBlocks
    (hFaithful : Faithful hashing events subBlockSize requests m) (id : ReqId)
    (numFullBlocksBefore : Nat → Nat) : Faithful hashing events subBlockSize requests
      (indexNewlyCachedBlocks cfg hashing events subBlockSize m id (requests id)
        numFullBlocksBefore) := by
  apply foldl_invariant (Faithful hashing events subBlockSize requests) _ hFaithful
  intro mid group _ hMid
  apply foldl_invariant (Faithful hashing events subBlockSize requests) _ hMid
  intro last block _ hLast
  split
  · have hHashed := hLast.getOrComputeSubHashes id
    dsimp only [onBlockCached]
    split
    · exact hHashed
    · exact hHashed.indexBlock _ _ (Nat.min_le_right _ _)
  · exact hLast

theorem Faithful.indexPartialBlock
    (hFaithful : Faithful hashing events subBlockSize requests m) (id : ReqId)
    (markCached : Bool) : Faithful hashing events subBlockSize requests
      (indexPartialBlock cfg hashing events subBlockSize m id (requests id) markCached) := by
  apply foldl_invariant (Faithful hashing events subBlockSize requests)
  · intro mid group _ hMid
    dsimp only [indexPartialGroup]
    split
    · exact hMid
    · split
      · exact hMid
      · split
        · exact (hMid.indexBlock _ _ (Nat.min_le_right _ _)).quiet rfl rfl fun _ hMem => hMem
        · exact hMid.indexBlock _ _ (Nat.min_le_right _ _)
  · exact hFaithful.getOrComputeSubHashes id

theorem Faithful.doPendingIndexing
    (hFaithful : Faithful hashing events subBlockSize requests m) :
    Faithful hashing events subBlockSize requests
      (doPendingIndexing cfg hashing events subBlockSize m requests) := by
  have hIndexed : Faithful hashing events subBlockSize requests
      (m.kv.pendingIndexing.foldl (fun m pending =>
        EventManager.indexPartialBlock cfg hashing events subBlockSize
          (EventManager.indexNewlyCachedBlocks cfg hashing events subBlockSize m pending.1
            (requests pending.1) pending.2) pending.1 (requests pending.1) false) m) := by
    apply foldl_invariant (Faithful hashing events subBlockSize requests) _ hFaithful
    intro mid pending _ hMid
    exact (hMid.indexNewlyCachedBlocks pending.1 pending.2).indexPartialBlock pending.1 false
  exact hIndexed.quiet rfl rfl fun _ hMem => hMem

/-- What is dropped with a request is dropped whole. -/
theorem Faithful.finalizeSubBlockState
    (hFaithful : Faithful hashing events subBlockSize requests m) (id : ReqId) :
    Faithful hashing events subBlockSize requests
      (finalizeSubBlockState cfg hashing events subBlockSize m id (requests id)) := by
  have hNoted : Faithful hashing events subBlockSize requests { m with
      kv := { m.kv with pendingIndexing := m.kv.pendingIndexing.filter (·.1 ≠ id) } } :=
    hFaithful.quiet rfl rfl fun _ hMem => hMem
  have hForget {last : EventManager H X E}
      (hLast : Faithful hashing events subBlockSize requests last) :
      Faithful hashing events subBlockSize requests { last with
        kv := { last.kv with reqSubHashes := Function.update last.kv.reqSubHashes id [] }
        extraKeys := Function.update last.extraKeys id [] } := by
    refine ⟨fun other => ?_, fun other => ?_, hLast.queued⟩
    · by_cases hEq : other = id
      · subst hEq
        simp [rehash]
      · simpa only [Function.update_of_ne hEq] using hLast.hashes other
    · by_cases hEq : other = id
      · subst hEq
        simp
      · simpa only [Function.update_of_ne hEq] using hLast.full other
  dsimp only [EventManager.finalizeSubBlockState]
  split
  · exact hForget ((hNoted.indexNewlyCachedBlocks id _).indexPartialBlock id true)
  · exact hForget (hNoted.indexPartialBlock id true)

/-- An eviction stores nothing. -/
theorem Faithful.evict (hFaithful : Faithful hashing events subBlockSize requests m)
    (block : BlockId) : Faithful hashing events subBlockSize requests
      (evict cfg events m block) := by
  unfold EventManager.evict
  split
  · apply foldl_invariant (Faithful hashing events subBlockSize requests)
    · intro mid group _ hMid
      unfold emitBlockRemoved
      split
      · exact hMid
      · refine ⟨hMid.hashes, hMid.full, fun stored hMem => hMid.queued stored ?_⟩
        simpa using hMem
    · exact hFaithful.quiet rfl rfl fun _ hMem => hMem
  · exact hFaithful

theorem Faithful.allocateSlots (hFaithful : Faithful hashing events subBlockSize requests m)
    {numTokens : Nat} {wholeTokens : Option Nat} {hits newBlocks : Blocks}
    {freeQueue : Manager H → List BlockId}
    (hAlloc : allocateSlots cfg events m id numTokens wholeTokens hits freeQueue =
      some (m', newBlocks)) : Faithful hashing events subBlockSize requests m' := by
  unfold EventManager.allocateSlots at hAlloc
  simp only [Option.map_eq_some_iff, Prod.mk.injEq] at hAlloc
  obtain ⟨⟨kv, given⟩, hKv, rfl, rfl⟩ := hAlloc
  obtain ⟨rfl, -⟩ := Manager.allocateSlots_spec hKv
  have hEvicted : Faithful hashing events subBlockSize requests
      ((Manager.allBlocks cfg given).foldl (EventManager.evict cfg events)
        { m with kv := m.kv.touch (Manager.allBlocks cfg hits) }) := by
    apply foldl_invariant (Faithful hashing events subBlockSize requests)
    · intro mid block _ hMid
      exact hMid.evict block
    · exact hFaithful.quiet rfl rfl fun _ hMem => hMem
  have hHashes : (Manager.giveBlocks cfg m.kv id hits given).reqSubHashes =
      ((Manager.allBlocks cfg given).foldl (EventManager.evict cfg events)
        { m with kv := m.kv.touch (Manager.allBlocks cfg hits) }).kv.reqSubHashes := by
    rw [kv_foldl_evict]
    rfl
  exact hEvicted.quiet hHashes rfl fun _ hMem => hMem

end

/-! ### Runs -/

/-- A request is only ever given more tokens. -/
def Grows (s : Session H X E) : Action H → Prop
  | .setRequest id request => (s.requests id).allTokenIds <+: request.allTokenIds
  | _ => True

instance decidableGrows (s : Session H X E) : ∀ a, Decidable (Grows s a)
  | .setRequest id request =>
      inferInstanceAs (Decidable ((s.requests id).allTokenIds <+: request.allTokenIds))
  | .getComputedBlocksSubBlock .. | .allocateSlots .. | .cacheBlocks .. | .applySubBlockMatch ..
  | .releaseSubBlockMatch .. | .scheduleSubBlockIndexing .. | .drainPendingCopyOps
  | .releaseCopyOps .. | .doPendingIndexing | .free .. | .popBlocksForFree .. | .freeBlocks ..
  | .resetPrefixCache | .takeEvents => isTrue trivial

/-- All that the session's reader has seen, and what waits for it, is as `Faithful` says. -/
structure FaithfulSession (hashing : Hashing H X) (events : EventConfig H E) (subBlockSize : Nat)
    (s : Session H X E) : Prop where
  manager : Faithful hashing events subBlockSize s.requests s.manager
  published : ∀ stored, .blockStored stored ∈ s.published →
    ∃ id before, Describes hashing events subBlockSize (s.requests id).allTokenIds before stored

section

variable {cfg : Config} {hashing : Hashing H X} {events : EventConfig H E} {subBlockSize : Nat}
  {s s' : Session H X E}

omit [DecidableEq H] in
theorem reqSubHashes_cacheBlocks (kv : Manager H) (id : ReqId) (request : Request)
    (numTokens : Nat) :
    (kv.cacheBlocks cfg hashing id request numTokens).reqSubHashes = kv.reqSubHashes := by
  apply foldl_keeps Manager.reqSubHashes
  intro kv group
  apply foldl_keeps Manager.reqSubHashes
  intro kv block
  unfold Manager.cacheBlock
  split <;> rfl

omit [DecidableEq H] in
theorem reqSubHashes_scheduleSubBlockIndexing (kv : Manager H) (id : ReqId) (request : Request) :
    (kv.scheduleSubBlockIndexing cfg id request).reqSubHashes = kv.reqSubHashes := by
  unfold Manager.scheduleSubBlockIndexing
  split <;> rfl

omit [DecidableEq H] in
/-- A lookup hashes the request's tokens, unless it is skipped. -/
theorem reqSubHashes_getComputedBlocksSubBlock (choose : List BlockId → Nat) (kv : Manager H)
    (id : ReqId) (request : Request) (numComputedTokens : Nat) :
    (kv.getComputedBlocksSubBlock cfg hashing subBlockSize choose id request
      numComputedTokens).1.reqSubHashes =
        if request.skipReadingPrefixCache then kv.reqSubHashes
        else (kv.getOrComputeSubHashes hashing subBlockSize id request).reqSubHashes := by
  unfold Manager.getComputedBlocksSubBlock
  dsimp only
  split
  · rfl
  · split
    · rfl
    · rfl
    · split <;> rfl

theorem faithful_step {a : Action H} (hGrows : Grows s a)
    (hStep : s.step cfg hashing events subBlockSize a = some s')
    (hFaithful : FaithfulSession hashing events subBlockSize s) :
    FaithfulSession hashing events subBlockSize s' := by
  obtain ⟨hManager, hPublished⟩ := hFaithful
  have hQuiet (kv : Manager H) (hHashes : kv.reqSubHashes = s.manager.kv.reqSubHashes) :
      FaithfulSession hashing events subBlockSize (s.setKv kv) :=
    ⟨hManager.quiet hHashes rfl fun _ hMem => hMem, hPublished⟩
  cases a with
  | setRequest id request =>
      obtain rfl := Option.some.inj hStep
      have hPrefix : ∀ other, (s.requests other).allTokenIds <+:
          (Function.update s.requests id request other).allTokenIds := by
        intro other
        by_cases hEq : other = id
        · subst hEq
          rw [Function.update_self]
          exact hGrows
        · simp only [Function.update_of_ne hEq, List.prefix_refl]
      refine ⟨hManager.grow hPrefix, fun stored hMem => ?_⟩
      obtain ⟨other, before, hDescribes⟩ := hPublished stored hMem
      exact ⟨other, before, hDescribes.grow (hPrefix other)⟩
  | getComputedBlocksSubBlock choose id numComputedTokens =>
      obtain rfl := Option.some.inj hStep
      have hHashes : (s.manager.kv.getComputedBlocksSubBlock cfg hashing subBlockSize choose id
          (s.requests id) numComputedTokens).1.reqSubHashes = _ :=
        reqSubHashes_getComputedBlocksSubBlock ..
      refine ⟨?_, hPublished⟩
      dsimp only [Session.setManager, getComputedBlocksSubBlock]
      split
      · rename_i hSkip
        rw [if_pos hSkip] at hHashes
        exact hManager.quiet hHashes rfl fun _ hMem => hMem
      · rename_i hRead
        rw [if_neg hRead] at hHashes
        exact (hManager.getOrComputeSubHashes id).quiet hHashes rfl fun _ hMem => hMem
  | allocateSlots id numTokens wholeTokens hits freeQueue =>
      simp only [Session.step, Option.map_eq_some_iff] at hStep
      obtain ⟨⟨m', newBlocks⟩, hAlloc, rfl⟩ := hStep
      exact ⟨hManager.allocateSlots hAlloc, hPublished⟩
  | cacheBlocks id numTokens =>
      obtain rfl := Option.some.inj hStep
      exact hQuiet _ (reqSubHashes_cacheBlocks ..)
  | applySubBlockMatch subBlockMatch =>
      simp only [Session.step, Manager.applySubBlockMatch, Option.map_map,
        Option.map_eq_some_iff] at hStep
      obtain ⟨ops, -, rfl⟩ := hStep
      exact hQuiet _ rfl
  | releaseSubBlockMatch subBlockMatch =>
      obtain rfl := Option.some.inj hStep
      exact hQuiet _ rfl
  | scheduleSubBlockIndexing id =>
      obtain rfl := Option.some.inj hStep
      exact hQuiet _ (reqSubHashes_scheduleSubBlockIndexing ..)
  | drainPendingCopyOps =>
      obtain rfl := Option.some.inj hStep
      exact hQuiet _ rfl
  | releaseCopyOps ops =>
      obtain rfl := Option.some.inj hStep
      exact hQuiet _ rfl
  | doPendingIndexing =>
      obtain rfl := Option.some.inj hStep
      exact ⟨hManager.doPendingIndexing, hPublished⟩
  | free id =>
      obtain rfl := Option.some.inj hStep
      exact ⟨(hManager.finalizeSubBlockState id).quiet rfl rfl fun _ hMem => hMem, hPublished⟩
  | popBlocksForFree id =>
      obtain rfl := Option.some.inj hStep
      exact ⟨(hManager.finalizeSubBlockState id).quiet rfl rfl fun _ hMem => hMem, hPublished⟩
  | freeBlocks blocks =>
      obtain rfl := Option.some.inj hStep
      exact hQuiet _ rfl
  | resetPrefixCache =>
      obtain rfl := Option.some.inj hStep
      refine ⟨?_, hPublished⟩
      dsimp only [Session.setManager, resetPrefixCache]
      split
      · refine ⟨hManager.hashes, hManager.full, fun stored hMem => hManager.queued stored ?_⟩
        split at hMem
        · simpa using hMem
        · exact hMem
      · exact hManager
  | takeEvents =>
      obtain rfl := Option.some.inj hStep
      dsimp only [takeEvents]
      split
      · exact ⟨hManager, fun stored hMem => hPublished stored (by simpa using hMem)⟩
      · refine ⟨⟨hManager.hashes, hManager.full, fun stored hMem => ?_⟩, fun stored hMem => ?_⟩
        · cases hMem
        · exact (List.mem_append.mp hMem).elim (hPublished stored) (hManager.queued stored)

/-- While the tokens of a request only grow, every event that stores blocks, taken or still
queued, describes a stretch of a request's tokens; its hashes are those its own tokens and
keys chain to, from the hash of the stretch before. -/
theorem events_describe_tokens {m : EventManager H X E} {actions : List (Action H)}
    (hCreate : create cfg events = some m)
    (along : Along (Session.step cfg hashing events subBlockSize) Grows (Session.start m) actions)
    (run : runFrom (Session.step cfg hashing events subBlockSize) (Session.start m) actions =
      some s) {stored : BlockStored E X}
    (hMem : .blockStored stored ∈ s.published ++ s.manager.subBlockEventQueue) :
    ∃ id before,
      Describes hashing events subBlockSize (s.requests id).allTokenIds before stored := by
  have hStart : FaithfulSession hashing events subBlockSize (Session.start m) := by
    unfold create at hCreate
    split at hCreate
    · cases hCreate
    obtain rfl := Option.some.inj hCreate
    refine ⟨⟨fun id => rfl, fun id => ?_, fun stored hMem => ?_⟩, fun stored hMem => ?_⟩
    · simp [Session.start]
    · cases hMem
    · cases hMem
  have hFaithful := along.invariant (FaithfulSession hashing events subBlockSize)
    (fun s a s' hGrows hInv hStep => faithful_step hGrows hStep hInv) hStart run
  exact (List.mem_append.mp hMem).elim (hFaithful.published stored)
    (hFaithful.manager.queued stored)

end

theorem events_describe_tokens_small : ∃ (s : Session SmallHash Unit SmallHash)
    (stored : BlockStored SmallHash Unit),
    runFrom (Session.step .small Hashing.free plainEvents 2)
        (Session.start ⟨Manager.initial, fun _ => [], []⟩) twoRequests = some s ∧
      .blockStored stored ∈ s.published ∧ stored.tokenIds = [5, 6] ∧
      ∃ id before, Describes Hashing.free plainEvents 2 (s.requests id).allTokenIds before stored := by
  obtain ⟨s, run, hHolds⟩ := (Option.any_eq_true (fun s : Session SmallHash Unit SmallHash =>
    s.published.any fun event => match event with
      | .blockStored stored => decide (stored.tokenIds = [5, 6])
      | _ => false)
    (runFrom (Session.step .small Hashing.free plainEvents 2)
      (Session.start ⟨Manager.initial, fun _ => [], []⟩) twoRequests)).mp (by decide +kernel)
  obtain ⟨event, hMem, hEvent⟩ := List.any_eq_true.mp hHolds
  cases event with
  | blockStored stored =>
      exact ⟨s, stored, run, hMem, of_decide_eq_true hEvent,
        events_describe_tokens rfl (by decide +kernel) run (List.mem_append_left _ hMem)⟩
  | blockRemoved blockHashes medium => cases hEvent
  | allBlocksCleared => cases hEvent

end VllmRbln.SubBlock.EventManager
