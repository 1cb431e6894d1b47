import VllmRbln.Optimum.Reassignment
import Mathlib.Algebra.Order.Group.Nat
import Mathlib.Order.Basic

/-! Allocation of outer blocks: the allocator, the FIFO order and the records stay in step while
room is made, blocks are handed out, appended to and given back. -/
namespace VllmRbln.Optimum

set_option linter.unusedSectionVars false

theorem lt_ceilDiv {a b c : Nat} (hPos : 0 < b) : c < ceilDiv a b ↔ c * b < a := by
  unfold ceilDiv
  rw [← Nat.succ_le_iff, Nat.le_div_iff_mul_le hPos, Nat.succ_mul]
  omega

theorem ceilDiv_eq_of_forall_lt_iff {a b n : Nat} (hPos : 0 < b)
    (hIff : ∀ c, c < n ↔ c * b < a) : ceilDiv a b = n :=
  eq_of_forall_lt_iff fun c => by rw [lt_ceilDiv hPos, hIff]

theorem ceilDiv_mul {b : Nat} (hPos : 0 < b) (n : Nat) : ceilDiv (n * b) b = n :=
  ceilDiv_eq_of_forall_lt_iff hPos fun _ => (Nat.mul_lt_mul_right hPos).symm

theorem ceilDiv_mul_add {b i : Nat} (hSome : 0 < i) (hLe : i ≤ b) (n : Nat) :
    ceilDiv (n * b + i) b = n + 1 := by
  have hPos : 0 < b := by omega
  refine ceilDiv_eq_of_forall_lt_iff hPos fun c => ⟨fun hLt => ?_, fun hLt => ?_⟩
  · have := Nat.mul_le_mul_right b (Nat.lt_succ_iff.1 hLt)
    omega
  · by_contra hGe
    have := Nat.mul_le_mul_right b (Nat.not_lt.1 hGe)
    rw [Nat.succ_mul] at this
    omega

/-- One more needs another piece exactly where the pieces so far are full. -/
theorem ceilDiv_succ {b : Nat} (hPos : 0 < b) (a : Nat) :
    ceilDiv (a + 1) b = ceilDiv a b + if a % b = 0 then 1 else 0 := by
  have hSplit := Nat.div_add_mod' a b
  have hMod := Nat.mod_lt a hPos
  generalize a / b = n at hSplit
  generalize a % b = i at hSplit hMod
  subst hSplit
  rw [Nat.add_assoc, ceilDiv_mul_add (Nat.succ_pos i) hMod]
  split
  · rename_i hZero
    subst hZero
    exact congrArg Nat.succ (ceilDiv_mul hPos n).symm
  · rename_i hSome
    rw [ceilDiv_mul_add (Nat.pos_of_ne_zero hSome) hMod.le]

/-- The inner blocks of the `i`-th outer block. -/
def BlockConfiguration.slice (cfg : BlockConfiguration) (i : Nat) (innerBlocks : List Nat) :
    List Nat :=
  (innerBlocks.drop (i * cfg.blockRatio)).take cfg.blockRatio

/-- An eviction is justified by an inactive record, or by the preemption of its request. -/
def Eviction.Justified (eviction : Eviction) : Prop :=
  match eviction.preempted with
  | none => eviction.mapping.isActive = false
  | some requestId => eviction.mapping.requestId = some requestId

/-- Records, allocator and FIFO order are in step; `pending` blocks are handed out and have no
record yet. -/
structure PrefixCacheManager.Consistent (p : PrefixCacheManager) (cfg : BlockConfiguration)
    (orphans pending : List Nat) : Prop where
  mappings : p.mappingManager.Consistent orphans
  partition : (p.allocator.freeBlocks ++ p.allocator.allocatedBlocks).Perm (List.range cfg.numOb)
  allocated : ∀ outer, outer ∈ p.allocator.allocatedBlocks ↔
    (∃ mapping, p.mappingManager.blockMappings outer = some mapping) ∨ outer ∈ pending
  pending : ∀ outer ∈ pending, p.mappingManager.blockMappings outer = none
  orderNodup : p.allocationOrder.Nodup
  order : ∀ outer, outer ∈ p.allocationOrder ↔
    ∃ mapping, p.mappingManager.blockMappings outer = some mapping
  evicted : ∀ eviction ∈ p.evictions, eviction.Justified

theorem PrefixCacheManager.initial_consistent (cfg : BlockConfiguration) :
    (PrefixCacheManager.initial cfg).Consistent cfg [] [] where
  mappings := BlockMappingManager.initial_consistent
  partition := by simp [PrefixCacheManager.initial, BlockAllocator.initial]
  allocated := by simp [PrefixCacheManager.initial, BlockAllocator.initial,
    BlockMappingManager.initial]
  pending := by simp
  orderNodup := by simp [PrefixCacheManager.initial]
  order := by simp [PrefixCacheManager.initial, BlockMappingManager.initial]
  evicted := by simp [PrefixCacheManager.initial]

section Evict

variable {p : PrefixCacheManager} {cfg : BlockConfiguration} {orphans : List Nat}

theorem evictBlock_eq (hOk : p.Consistent cfg orphans []) {outer : Nat} {mapping : BlockMapping}
    (hMapping : p.mappingManager.blockMappings outer = some mapping) (preempted : Option Nat) :
    p.evictBlock preempted outer =
      { mappingManager := p.mappingManager.removeMapping outer
        allocator := ⟨p.allocator.freeBlocks ++ [outer], p.allocator.allocatedBlocks.erase outer⟩
        allocationOrder := p.allocationOrder.erase outer
        evictions := p.evictions ++ [⟨outer, mapping, preempted⟩] } := by
  have hMem : outer ∈ p.allocator.allocatedBlocks := (hOk.allocated outer).2 (.inl ⟨mapping, hMapping⟩)
  simp only [PrefixCacheManager.evictBlock, hMapping, hMem, if_true, BlockAllocator.deallocate]

/-- `_evict_block` on an outer block that no request lists. -/
theorem PrefixCacheManager.Consistent.evictBlock {rest : List Nat}
    (hOk : p.Consistent cfg orphans []) {outer : Nat} {mapping : BlockMapping}
    (hMapping : p.mappingManager.blockMappings outer = some mapping)
    (hUnlisted : ∀ requestId blocks, p.mappingManager.requestToOuterBlocks requestId =
      some blocks → outer ∉ blocks)
    (hRest : ∀ other, other ∈ rest ↔ other ∈ orphans ∧ other ≠ outer) {preempted : Option Nat}
    (hJustified : Eviction.Justified ⟨outer, mapping, preempted⟩) :
    (p.evictBlock preempted outer).Consistent cfg rest [] := by
  have hMem : outer ∈ p.allocator.allocatedBlocks :=
    (hOk.allocated outer).2 (.inl ⟨mapping, hMapping⟩)
  have hAllocatedNodup : p.allocator.allocatedBlocks.Nodup :=
    (List.nodup_append.1 (hOk.partition.nodup_iff.2 List.nodup_range)).2.1
  have hRecord : ∀ other, (∃ record, (p.mappingManager.removeMapping outer).blockMappings other =
      some record) ↔ other ≠ outer ∧ ∃ record, p.mappingManager.blockMappings other = some record := by
    intro other
    by_cases hOther : other = outer
    · subst hOther
      simp [BlockMappingManager.removeMapping]
    · simp [BlockMappingManager.removeMapping, hOther]
  rw [evictBlock_eq hOk hMapping]
  refine ⟨hOk.mappings.removeMapping hUnlisted hRest, ?_, fun other => ?_,
    fun other hPending => absurd hPending List.not_mem_nil, hOk.orderNodup.erase _, fun other => ?_,
    fun eviction hEviction => ?_⟩
  · refine (List.Perm.append_right _ List.perm_append_comm).trans ?_
    have hBack : (outer :: p.allocator.allocatedBlocks.erase outer).Perm
        p.allocator.allocatedBlocks := (List.perm_cons_erase hMem).symm
    simp only [List.cons_append, List.nil_append]
    refine (List.perm_middle.symm.trans (hBack.append_left _)).trans hOk.partition
  · rw [hRecord, hAllocatedNodup.mem_erase_iff, hOk.allocated]
    simp
  · rw [hRecord, hOk.orderNodup.mem_erase_iff, hOk.order]
  · rcases List.mem_append.1 hEviction with hOld | hNew
    · exact hOk.evicted eviction hOld
    · rw [List.mem_singleton.1 hNew]
      exact hJustified

/-- What making room leaves as it was: the requests, and every record it does not evict. -/
structure PrefixCacheManager.Evicted (p after : PrefixCacheManager) (outers : List Nat) : Prop where
  requests : after.mappingManager.requestToOuterBlocks = p.mappingManager.requestToOuterBlocks
  records : ∀ outer, after.mappingManager.blockMappings outer =
    if outer ∈ outers then none else p.mappingManager.blockMappings outer
  free : after.allocator.freeBlocks = p.allocator.freeBlocks ++ outers

/-- Evicting inactive outer blocks. -/
theorem PrefixCacheManager.Consistent.evictInactive (hOk : p.Consistent cfg [] [])
    {outers : List Nat} (hNodup : outers.Nodup)
    (hInactive : ∀ outer ∈ outers, p.mappingManager.isInactive outer = true) :
    (outers.foldl (PrefixCacheManager.evictBlock none) p).Consistent cfg [] [] ∧
      p.Evicted (outers.foldl (PrefixCacheManager.evictBlock none) p) outers := by
  induction outers generalizing p with
  | nil => exact ⟨hOk, rfl, fun _ => rfl, (List.append_nil _).symm⟩
  | cons outer outers ih =>
      obtain ⟨hNotMem, hNodup⟩ := List.nodup_cons.1 hNodup
      obtain ⟨mapping, hMapping, hFlag⟩ : ∃ mapping,
          p.mappingManager.blockMappings outer = some mapping ∧ mapping.isActive = false := by
        have hHead := hInactive outer List.mem_cons_self
        unfold BlockMappingManager.isInactive at hHead
        cases hMapping : p.mappingManager.blockMappings outer with
        | none => simp [hMapping] at hHead
        | some mapping => exact ⟨mapping, rfl, by simpa [hMapping] using hHead⟩
      have hOnly : ∀ record, p.mappingManager.blockMappings outer = some record →
          record.isActive = false := by
        intro record hRecord
        rw [hMapping, Option.some.injEq] at hRecord
        exact hRecord ▸ hFlag
      have hJustified : Eviction.Justified ⟨outer, mapping, none⟩ := hFlag
      have hStep : (p.evictBlock none outer).Consistent cfg [] [] := hOk.evictBlock hMapping
        (fun _ _ hBlocks => hOk.mappings.not_listed hOnly hBlocks) (by simp) hJustified
      have hEq := evictBlock_eq hOk hMapping none
      have hKeep : ∀ other, (p.evictBlock none outer).mappingManager.blockMappings other =
          if other = outer then none else p.mappingManager.blockMappings other := by
        intro other
        rw [hEq]
        exact Function.update_apply ..
      obtain ⟨hAll, hRequests, hRecords, hFree⟩ := ih hStep hNodup fun other hMem => by
        have hOther : other ≠ outer := fun hSame => hNotMem (hSame ▸ hMem)
        unfold BlockMappingManager.isInactive
        rw [hKeep, if_neg hOther]
        exact hInactive other (List.mem_cons_of_mem _ hMem)
      refine ⟨hAll, ?_, fun other => ?_, ?_⟩
      · rw [List.foldl_cons, hRequests, hEq]
        rfl
      · rw [List.foldl_cons, hRecords, hKeep]
        by_cases hOther : other = outer <;> by_cases hMem : other ∈ outers <;> simp [hOther, hMem]
      · rw [List.foldl_cons, hFree, hEq]
        simp

/-- What `can_allocate` does: nothing, or room for what is asked. -/
theorem PrefixCacheManager.Consistent.canAllocate (hOk : p.Consistent cfg [] [])
    (numNewBlocks numComputedTokens : Nat) :
    p.canAllocate cfg numNewBlocks numComputedTokens = (false, p) ∨
      ∃ after outers, p.canAllocate cfg numNewBlocks numComputedTokens = (true, after) ∧
        after.Consistent cfg [] [] ∧ p.Evicted after outers ∧
        (∀ outer ∈ outers, p.mappingManager.isInactive outer = true) ∧
        cfg.computeNumBlocksToAllocate numNewBlocks numComputedTokens ≤
          after.allocator.freeBlocks.length := by
  unfold PrefixCacheManager.canAllocate
  simp only
  split
  · rename_i hRoom
    exact .inr ⟨p, [], rfl, hOk, ⟨rfl, fun _ => rfl, (List.append_nil _).symm⟩, by simp, hRoom⟩
  · rename_i hShort
    split
    · rename_i hCount
      have hSelected : ∀ count, (p.selectBlocksForEviction count).Nodup ∧
          ∀ outer ∈ p.selectBlocksForEviction count, p.mappingManager.isInactive outer = true := by
        intro count
        unfold PrefixCacheManager.selectBlocksForEviction
        simp only
        split
        · simp
        · refine ⟨(hOk.orderNodup.filter _).sublist (List.take_sublist _ _), fun outer hMem => ?_⟩
          exact (List.mem_filter.1 (List.mem_of_mem_take hMem)).2
      obtain ⟨hNodup, hInactive⟩ := hSelected _
      obtain ⟨hAll, hEvicted⟩ := hOk.evictInactive hNodup hInactive
      refine .inr ⟨_, _, rfl, hAll, hEvicted, hInactive, ?_⟩
      rw [hEvicted.free, List.length_append]
      omega
    · exact .inl rfl

end Evict

section Allocate

variable {p : PrefixCacheManager} {cfg : BlockConfiguration}

/-- The outer blocks of a request stand for its inner blocks, in order. -/
def PrefixCacheManager.Holds (p : PrefixCacheManager) (cfg : BlockConfiguration)
    (requestId : Nat) (innerBlocks : List Nat) : Prop :=
  ∃ outers, p.mappingManager.requestToOuterBlocks requestId = some outers ∧
    outers.length = ceilDiv innerBlocks.length cfg.blockRatio ∧
    ∀ i outer, outers[i]? = some outer → p.mappingManager.blockMappings outer =
      some ⟨cfg.slice i innerBlocks, some requestId, true⟩

/-- What handing out blocks to a request changes: its own list, and the records of the outer
blocks it touches; the others lose the inner blocks that were handed out. -/
structure PrefixCacheManager.Extended (p after : PrefixCacheManager) (requestId : Nat)
    (touched inner : List Nat) : Prop where
  requests : ∀ other, other ≠ requestId → after.mappingManager.requestToOuterBlocks other =
    p.mappingManager.requestToOuterBlocks other
  records : ∀ outer, outer ∉ touched → after.mappingManager.blockMappings outer =
    (p.mappingManager.blockMappings outer).map fun mapping => mapping.without inner
  own : ∀ outer ∈ touched, ∀ mapping, p.mappingManager.blockMappings outer = some mapping →
    mapping.requestId = some requestId

theorem PrefixCacheManager.Consistent.createAndRegister_spec {orphans pending : List Nat}
    (hOk : p.Consistent cfg orphans pending) (outer : Nat) (inner : List Nat) (requestId : Nat) :
    (p.createAndRegister outer inner requestId).mappingManager.blockMappings outer =
      some ⟨inner, some requestId, true⟩ ∧
    (∀ other, other ≠ outer →
      (p.createAndRegister outer inner requestId).mappingManager.blockMappings other =
        (p.mappingManager.blockMappings other).map fun mapping => mapping.without inner) ∧
    (p.createAndRegister outer inner requestId).mappingManager.requestToOuterBlocks requestId =
      some ((p.mappingManager.requestToOuterBlocks requestId).getD [] ++ [outer]) ∧
    ∀ other, other ≠ requestId →
      (p.createAndRegister outer inner requestId).mappingManager.requestToOuterBlocks other =
        p.mappingManager.requestToOuterBlocks other := by
  unfold PrefixCacheManager.createAndRegister
  simp only [createMapping_eq hOk.mappings]
  exact ⟨place_blockMappings_self, fun other hOther => place_blockMappings_of_ne hOther,
    Function.update_self .., fun other hOther => Function.update_of_ne hOther ..⟩

/-- One more outer block gets its record. -/
theorem PrefixCacheManager.Consistent.register {outer : Nat} {rest : List Nat}
    (hOk : p.Consistent cfg [] (outer :: rest)) (hNotMem : outer ∉ rest) {inner : List Nat}
    (hNodup : inner.Nodup) (hUnheld : p.mappingManager.Unheld inner) (requestId : Nat) :
    (p.createAndRegister outer inner requestId).Consistent cfg [] rest := by
  have hNew := hOk.pending outer List.mem_cons_self
  obtain ⟨hSelf, hElse, -, -⟩ := hOk.createAndRegister_spec outer inner requestId
  have hRecord : ∀ other, (∃ record,
      (p.createAndRegister outer inner requestId).mappingManager.blockMappings other =
        some record) ↔ other = outer ∨ ∃ record, p.mappingManager.blockMappings other = some record := by
    intro other
    by_cases hOther : other = outer
    · subst hOther
      simp [hSelf]
    · simp [hElse other hOther, hOther]
  refine ⟨hOk.mappings.createMapping hNew hNodup hUnheld requestId, hOk.partition,
    fun other => ?_, fun other hPending => ?_, ?_, fun other => ?_, hOk.evicted⟩
  · show other ∈ p.allocator.allocatedBlocks ↔ _
    rw [hRecord, hOk.allocated, List.mem_cons]
    tauto
  · have hOther : other ≠ outer := fun hSame => hNotMem (hSame ▸ hPending)
    rw [hElse other hOther, hOk.pending other (List.mem_cons_of_mem _ hPending)]
    rfl
  · refine List.nodup_append.2 ⟨hOk.orderNodup, List.nodup_singleton outer, ?_⟩
    rintro other hMem _ hLast rfl
    rw [List.mem_singleton.1 hLast, hOk.order, hNew] at hMem
    obtain ⟨record, hRecord⟩ := hMem
    cases hRecord
  · show other ∈ p.allocationOrder ++ [outer] ↔ _
    rw [hRecord, List.mem_append, hOk.order, List.mem_singleton, or_comm]

/-- The loop of `_allocate_new_blocks`, from its `i`-th block on. -/
theorem PrefixCacheManager.Consistent.createMappings {innerBlocks : List Nat}
    (hNodup : innerBlocks.Nodup) (requestId : Nat) {rest : List Nat} {i : Nat}
    (hOk : p.Consistent cfg [] rest) (hRest : rest.Nodup)
    (hUnheld : p.mappingManager.Unheld (innerBlocks.drop (i * cfg.blockRatio))) :
    ∃ after, PrefixCacheManager.createMappings cfg requestId innerBlocks i rest p = some after ∧
      after.Consistent cfg [] [] ∧ after.allocator = p.allocator ∧
      (rest ≠ [] → after.mappingManager.requestToOuterBlocks requestId =
        some ((p.mappingManager.requestToOuterBlocks requestId).getD [] ++ rest)) ∧
      (∀ other, other ≠ requestId → after.mappingManager.requestToOuterBlocks other =
        p.mappingManager.requestToOuterBlocks other) ∧
      (∀ j outer, rest[j]? = some outer → after.mappingManager.blockMappings outer =
        some ⟨cfg.slice (i + j) innerBlocks, some requestId, true⟩) ∧
      ∀ outer, outer ∉ rest → after.mappingManager.blockMappings outer =
        (p.mappingManager.blockMappings outer).map fun mapping => mapping.without
          ((innerBlocks.drop (i * cfg.blockRatio)).take (rest.length * cfg.blockRatio)) := by
  induction rest generalizing p i with
  | nil =>
      refine ⟨p, rfl, hOk, rfl, fun hNe => absurd rfl hNe, fun _ _ => rfl, by simp, fun outer _ => ?_⟩
      cases p.mappingManager.blockMappings outer with
      | none => rfl
      | some mapping =>
          rw [Option.map_some, BlockMapping.without_of_disjoint (by simp)]
  | cons outer rest ih =>
      obtain ⟨hNotMem, hRestNodup⟩ := List.nodup_cons.1 hRest
      have hSliceNodup : (cfg.slice i innerBlocks).Nodup :=
        hNodup.sublist ((List.take_sublist _ _).trans (List.drop_sublist _ _))
      have hSliceUnheld : p.mappingManager.Unheld (cfg.slice i innerBlocks) :=
        fun ib hMem => hUnheld ib (List.mem_of_mem_take hMem)
      have hNew := hOk.pending outer List.mem_cons_self
      have hOrder : outer ∉ p.allocationOrder := by
        rw [hOk.order, hNew]
        rintro ⟨record, hRecord⟩
        cases hRecord
      obtain ⟨hSelf, hElse, hOwn, hOther⟩ :=
        hOk.createAndRegister_spec outer (cfg.slice i innerBlocks) requestId
      have hSplit : innerBlocks.drop ((i + 1) * cfg.blockRatio) =
          (innerBlocks.drop (i * cfg.blockRatio)).drop cfg.blockRatio := by
        rw [List.drop_drop, Nat.succ_mul]
      -- The blocks of this slice and those of the later ones are different.
      have hApart : ∀ ib ∈ innerBlocks.drop ((i + 1) * cfg.blockRatio),
          ib ∉ cfg.slice i innerBlocks := by
        intro ib hLater hHere
        have hDropNodup := hNodup.sublist (List.drop_sublist (i * cfg.blockRatio) _)
        rw [← List.take_append_drop cfg.blockRatio (innerBlocks.drop _)] at hDropNodup
        exact (List.nodup_append.1 hDropNodup).2.2 ib hHere ib (hSplit ▸ hLater) rfl
      have hNextUnheld : (p.createAndRegister outer (cfg.slice i innerBlocks)
          requestId).mappingManager.Unheld (innerBlocks.drop ((i + 1) * cfg.blockRatio)) := by
        intro ib hMem other record hRecord hIn
        by_cases hSame : other = outer
        · subst hSame
          rw [hSelf, Option.some.injEq] at hRecord
          subst hRecord
          exact absurd hIn (hApart ib hMem)
        · rw [hElse other hSame, Option.map_eq_some_iff] at hRecord
          obtain ⟨old, hOld, rfl⟩ := hRecord
          exact hUnheld ib (List.mem_of_mem_drop (hSplit ▸ hMem)) other old hOld
            (List.mem_of_mem_filter hIn)
      obtain ⟨after, hAfter, hAll, hAllocator, hRequest, hRequests, hSlices, hRecords⟩ :=
        ih (hOk.register hNotMem hSliceNodup hSliceUnheld requestId) hRestNodup hNextUnheld
      refine ⟨after, ?_, hAll, hAllocator, fun _ => ?_, fun other hNe => ?_, ?_, ?_⟩
      · rw [PrefixCacheManager.createMappings, if_neg hOrder]
        exact hAfter
      · cases rest with
        | nil =>
            rw [PrefixCacheManager.createMappings, Option.some.injEq] at hAfter
            rw [← hAfter, hOwn]
        | cons next rest =>
            rw [hRequest (by simp), hOwn, Option.getD_some, List.append_assoc]
            rfl
      · rw [hRequests other hNe, hOther other hNe]
      · intro j block hBlock
        cases j with
        | zero =>
            rw [List.getElem?_cons_zero, Option.some.injEq] at hBlock
            subst hBlock
            rw [hRecords outer hNotMem, hSelf, Option.map_some,
              BlockMapping.without_of_disjoint fun ib hMem => hApart ib (List.mem_of_mem_take hMem)]
            rfl
        | succ j =>
            rw [List.getElem?_cons_succ] at hBlock
            rw [hSlices j block hBlock, Nat.add_right_comm, Nat.add_assoc]
      · intro block hBlock
        rw [List.mem_cons, not_or] at hBlock
        rw [hRecords block hBlock.2, hElse block hBlock.1, Option.map_map]
        congr 1
        funext mapping
        have hTake : ∀ inner : List Nat, inner.take ((rest.length + 1) * cfg.blockRatio) =
            inner.take cfg.blockRatio ++ (inner.drop cfg.blockRatio).take
              (rest.length * cfg.blockRatio) := by
          intro inner
          rw [Nat.succ_mul, Nat.add_comm, List.take_add]
        rw [Function.comp_apply, BlockMapping.without_without, List.length_cons, hTake, hSplit]
        rfl

/-- The allocator hands out its first free blocks. -/
theorem PrefixCacheManager.Consistent.allocate (hOk : p.Consistent cfg [] []) (count : Nat) :
    PrefixCacheManager.Consistent { p with allocator :=
      ⟨p.allocator.freeBlocks.drop count,
        p.allocator.allocatedBlocks ++ p.allocator.freeBlocks.take count⟩ }
      cfg [] (p.allocator.freeBlocks.take count) := by
  have hApart := (List.nodup_append.1 (hOk.partition.nodup_iff.2 List.nodup_range)).2.2
  refine ⟨hOk.mappings, ?_, fun outer => ?_, fun outer hMem => ?_, hOk.orderNodup, hOk.order,
    hOk.evicted⟩
  · refine List.Perm.trans ?_ hOk.partition
    show (p.allocator.freeBlocks.drop count ++ (p.allocator.allocatedBlocks ++
      p.allocator.freeBlocks.take count)).Perm _
    rw [← List.append_assoc]
    refine List.perm_append_comm.trans ?_
    rw [← List.append_assoc, List.take_append_drop]
  · show outer ∈ p.allocator.allocatedBlocks ++ _ ↔ _
    rw [List.mem_append, hOk.allocated]
    simp
  · cases hRecord : p.mappingManager.blockMappings outer with
    | none => rfl
    | some record =>
        exact absurd rfl (hApart outer (List.mem_of_mem_take hMem) outer
          ((hOk.allocated outer).2 (.inl ⟨record, hRecord⟩)))

/-- `_allocate_new_blocks`, with enough free blocks. -/
theorem PrefixCacheManager.Consistent.allocateNewBlocks (hOk : p.Consistent cfg [] [])
    {innerBlocks : List Nat} (hNodup : innerBlocks.Nodup)
    (hUnheld : p.mappingManager.Unheld innerBlocks) (requestId : Nat) {numNewOb : Nat}
    (hPos : 0 < numNewOb) (hRoom : numNewOb ≤ p.allocator.freeBlocks.length)
    (hCover : innerBlocks.length ≤ numNewOb * cfg.blockRatio) :
    ∃ after new, p.allocateNewBlocks cfg requestId numNewOb innerBlocks = some after ∧
      after.Consistent cfg [] [] ∧ p.Extended after requestId new innerBlocks ∧
      (∀ outer ∈ new, p.mappingManager.blockMappings outer = none) ∧
      new.length = numNewOb ∧ after.mappingManager.requestToOuterBlocks requestId =
        some ((p.mappingManager.requestToOuterBlocks requestId).getD [] ++ new) ∧
      ∀ i outer, new[i]? = some outer → after.mappingManager.blockMappings outer =
        some ⟨cfg.slice i innerBlocks, some requestId, true⟩ := by
  have hNew := hOk.allocate numNewOb
  have hNewNodup : (p.allocator.freeBlocks.take numNewOb).Nodup :=
    (List.nodup_append.1 (hOk.partition.nodup_iff.2 List.nodup_range)).1.sublist
      (List.take_sublist _ _)
  have hNewLength : (p.allocator.freeBlocks.take numNewOb).length = numNewOb := by
    rw [List.length_take, Nat.min_eq_left hRoom]
  have hFirst : p.mappingManager.Unheld (innerBlocks.drop (0 * cfg.blockRatio)) := by
    simpa using hUnheld
  obtain ⟨after, hAfter, hAll, -, hRequest, hRequests, hSlices, hRecords⟩ :=
    hNew.createMappings hNodup requestId hNewNodup hFirst
  refine ⟨after, _, ?_, hAll, ⟨hRequests, fun outer hOuter => ?_, fun outer hMem mapping hMapping => ?_⟩,
    hNew.pending, hNewLength, hRequest ?_, fun i outer hOuter => ?_⟩
  · simp only [PrefixCacheManager.allocateNewBlocks, BlockAllocator.allocate, Nat.ne_of_gt hPos,
      Nat.not_lt.2 hRoom, if_false]
    exact hAfter
  · rw [hRecords outer hOuter, hNewLength, Nat.zero_mul, List.drop_zero,
      List.take_of_length_le hCover]
  · have hNone : p.mappingManager.blockMappings outer = none := hNew.pending outer hMem
    rw [hNone] at hMapping
    cases hMapping
  · refine List.ne_nil_of_length_pos ?_
    rw [hNewLength]
    exact hPos
  · rw [hSlices i outer hOuter, Nat.zero_add]

section Slices

variable {innerBlocks more : List Nat} {i : Nat}

theorem slice_append_of_le (hLe : (i + 1) * cfg.blockRatio ≤ innerBlocks.length) :
    cfg.slice i (innerBlocks ++ more) = cfg.slice i innerBlocks := by
  rw [Nat.succ_mul] at hLe
  unfold BlockConfiguration.slice
  rw [List.drop_append_of_le_length (by omega), List.take_append_of_le_length (by simp; omega)]

theorem slice_append_last (hGe : i * cfg.blockRatio ≤ innerBlocks.length)
    (hLe : innerBlocks.length + more.length ≤ (i + 1) * cfg.blockRatio) :
    cfg.slice i (innerBlocks ++ more) = cfg.slice i innerBlocks ++ more := by
  rw [Nat.succ_mul] at hLe
  unfold BlockConfiguration.slice
  rw [List.drop_append_of_le_length hGe, List.take_of_length_le (by simp; omega),
    List.take_of_length_le (by simp; omega)]

theorem slice_append_right (hEq : innerBlocks.length = i * cfg.blockRatio) (j : Nat) :
    cfg.slice (i + j) (innerBlocks ++ more) = cfg.slice j more := by
  unfold BlockConfiguration.slice
  rw [Nat.add_mul, ← hEq, List.drop_length_add_append]

end Slices

/-- The records of another request stay. -/
theorem PrefixCacheManager.Extended.holds {after : PrefixCacheManager} {requestId : Nat}
    {touched inner : List Nat} (hExtended : p.Extended after requestId touched inner)
    (hUnheld : p.mappingManager.Unheld inner) {other : Nat} (hOther : other ≠ requestId)
    {innerBlocks : List Nat} (hHolds : p.Holds cfg other innerBlocks) :
    after.Holds cfg other innerBlocks := by
  obtain ⟨outers, hOuters, hLength, hSlices⟩ := hHolds
  refine ⟨outers, (hExtended.requests other hOther).trans hOuters, hLength, fun i outer hOuter => ?_⟩
  have hRecord := hSlices i outer hOuter
  have hNotMem : outer ∉ touched := by
    intro hMem
    exact hOther (Option.some.inj (hExtended.own outer hMem _ hRecord))
  rw [hExtended.records outer hNotMem, hRecord, Option.map_some,
    BlockMapping.without_of_disjoint fun ib hMem hIn => ?_]
  cases hUnheld ib hMem outer _ hRecord hIn

/-- `allocate_blocks` for a prefill. -/
theorem PrefixCacheManager.Consistent.allocatePrefill (hOk : p.Consistent cfg [] [])
    {innerBlocks : List Nat} (hSome : innerBlocks ≠ []) (hNodup : innerBlocks.Nodup)
    (hUnheld : p.mappingManager.Unheld innerBlocks) {requestId : Nat}
    (hNew : p.mappingManager.requestToOuterBlocks requestId = none)
    (hRoom : cfg.computeNumBlocksToAllocate innerBlocks.length 0 ≤ p.allocator.freeBlocks.length) :
    ∃ after touched, p.allocateBlocks cfg requestId 0 innerBlocks = some after ∧
      after.Consistent cfg [] [] ∧ p.Extended after requestId touched innerBlocks ∧
      after.Holds cfg requestId innerBlocks := by
  have hLength := List.length_pos_of_ne_nil hSome
  have hCount : cfg.computeNumBlocksToAllocate innerBlocks.length 0 =
      ceilDiv innerBlocks.length cfg.blockRatio := by
    simp [BlockConfiguration.computeNumBlocksToAllocate, hSome]
  rw [hCount] at hRoom
  obtain ⟨after, new, hAfter, hAll, hExtended, -, hNewLength, hRequest, hSlices⟩ :=
    hOk.allocateNewBlocks hNodup hUnheld requestId
      ((lt_ceilDiv cfg.blockRatio_pos).2 (by omega)) hRoom
      (Nat.not_lt.1 fun hLt => Nat.lt_irrefl _ ((lt_ceilDiv cfg.blockRatio_pos).2 hLt))
  rw [hNew, Option.getD_none, List.nil_append] at hRequest
  refine ⟨after, new, ?_, hAll, hExtended, new, hRequest, hNewLength, hSlices⟩
  simp only [PrefixCacheManager.allocateBlocks, hSome, hCount, Nat.not_lt.2 hRoom, hNew, if_false]
  exact hAfter

theorem PrefixCacheManager.Consistent.append (hOk : p.Consistent cfg [] []) {outer : Nat}
    {mapping : BlockMapping} (hMapping : p.mappingManager.blockMappings outer = some mapping)
    (hActive : mapping.isActive = true) {ib : Nat} (hUnheld : p.mappingManager.Unheld [ib]) :
    ∃ after, p.appendToExistingBlock outer [ib] = some after ∧ after.Consistent cfg [] [] ∧
      after.mappingManager = p.mappingManager.place outer
        { mapping with innerBlockIds := mapping.innerBlockIds ++ [ib] } [ib] := by
  have hMapped : ∀ other, (∃ record, (p.mappingManager.place outer
      { mapping with innerBlockIds := mapping.innerBlockIds ++ [ib] } [ib]).blockMappings other =
        some record) ↔ ∃ record, p.mappingManager.blockMappings other = some record := by
    intro other
    by_cases hOther : other = outer
    · subst hOther
      simp [place_blockMappings_self, hMapping]
    · simp [place_blockMappings_of_ne hOther]
  refine ⟨{ p with
      mappingManager := p.mappingManager.place outer
        { mapping with innerBlockIds := mapping.innerBlockIds ++ [ib] } [ib] }, ?_,
    ⟨hOk.mappings.append hMapping hActive hUnheld, hOk.partition, fun other => ?_,
      fun _ hMem => absurd hMem List.not_mem_nil, hOk.orderNodup, fun other => ?_, hOk.evicted⟩, rfl⟩
  · simp only [PrefixCacheManager.appendToExistingBlock, hMapping,
      addNewInnerToOuter_eq (hOk.mappings.indexedOff _ outer)]
    rfl
  · rw [hMapped]
    exact hOk.allocated other
  · rw [hMapped]
    exact hOk.order other

/-- `allocate_blocks` for the inner block that a decode needs. -/
theorem PrefixCacheManager.Consistent.allocateDecode (hOk : p.Consistent cfg [] [])
    {ib : Nat} (hUnheld : p.mappingManager.Unheld [ib]) {requestId numAllocatedTokens : Nat}
    {innerBlocks : List Nat} (hHolds : p.Holds cfg requestId innerBlocks)
    (hTokens : 0 < numAllocatedTokens)
    (hFull : numAllocatedTokens / cfg.ibSize = innerBlocks.length)
    (hRoom : cfg.computeNumBlocksToAllocate 1 numAllocatedTokens ≤ p.allocator.freeBlocks.length) :
    ∃ after touched, p.allocateBlocks cfg requestId numAllocatedTokens [ib] = some after ∧
      after.Consistent cfg [] [] ∧ p.Extended after requestId touched [ib] ∧
      after.Holds cfg requestId (innerBlocks ++ [ib]) := by
  obtain ⟨outers, hOuters, hLength, hSlices⟩ := hHolds
  have hCount : cfg.computeNumBlocksToAllocate 1 numAllocatedTokens =
      if innerBlocks.length % cfg.blockRatio = 0 then 1 else 0 := by
    simp [BlockConfiguration.computeNumBlocksToAllocate, Nat.ne_of_gt hTokens, hFull]
  have hNext := ceilDiv_succ cfg.blockRatio_pos innerBlocks.length
  have hSplit := Nat.div_add_mod' innerBlocks.length cfg.blockRatio
  have hMod := Nat.mod_lt innerBlocks.length cfg.blockRatio_pos
  by_cases hZero : innerBlocks.length % cfg.blockRatio = 0
  · -- The outer blocks are full: the inner block opens a new one.
    rw [hCount, if_pos hZero] at hRoom
    rw [hZero, Nat.add_zero] at hSplit
    have hOutersLength : outers.length = innerBlocks.length / cfg.blockRatio := by
      rw [hLength, ← hSplit, ceilDiv_mul cfg.blockRatio_pos, hSplit]
    obtain ⟨after, new, hAfter, hAll, hExtended, hUnmapped, hNewLength, hRequest, hNewSlices⟩ :=
      hOk.allocateNewBlocks (List.nodup_singleton ib) hUnheld requestId Nat.one_pos hRoom
        (by simpa using Nat.succ_le_of_lt cfg.blockRatio_pos)
    rw [hOuters, Option.getD_some] at hRequest
    refine ⟨after, new, ?_, hAll, hExtended, _, hRequest, ?_, fun i outer hOuter => ?_⟩
    · simp only [PrefixCacheManager.allocateBlocks, List.length_singleton, hCount, if_pos hZero,
        Nat.not_lt.2 hRoom, hOuters, if_false, Nat.one_pos, if_true]
      exact hAfter
    · rw [List.length_append, List.length_append, hNewLength, hLength, List.length_singleton, hNext,
        if_pos hZero]
    · by_cases hOld : i < outers.length
      · rw [List.getElem?_append_left hOld] at hOuter
        have hRecord := hSlices i outer hOuter
        have hNotMem : outer ∉ new := by
          intro hMem
          rw [hUnmapped outer hMem] at hRecord
          cases hRecord
        have hLe : (i + 1) * cfg.blockRatio ≤ innerBlocks.length := by
          rw [← hSplit, ← hOutersLength]
          exact Nat.mul_le_mul_right _ hOld
        rw [hExtended.records outer hNotMem, hRecord, Option.map_some, slice_append_of_le hLe,
          BlockMapping.without_of_disjoint fun other hMem hIn => ?_]
        cases hUnheld other hMem outer _ hRecord hIn
      · rw [List.getElem?_append_right (Nat.not_lt.1 hOld)] at hOuter
        obtain ⟨j, rfl⟩ := Nat.exists_eq_add_of_le (Nat.not_lt.1 hOld)
        rw [Nat.add_sub_cancel_left] at hOuter
        rw [hNewSlices j outer hOuter, slice_append_right (hOutersLength ▸ hSplit.symm)]
  · -- The last outer block has room for it.
    rw [if_neg hZero] at hCount hNext
    have hOutersLength : outers.length = innerBlocks.length / cfg.blockRatio + 1 := by
      rw [hLength, ← ceilDiv_mul_add (Nat.pos_of_ne_zero hZero) hMod.le, hSplit]
    have hLast : outers[innerBlocks.length / cfg.blockRatio]? = outers.getLast? := by
      rw [List.getLast?_eq_getElem?, hOutersLength, Nat.add_sub_cancel]
    obtain ⟨last, hLastSome⟩ : ∃ last, outers.getLast? = some last := by
      rw [← hLast]
      exact ⟨_, List.getElem?_eq_getElem (by omega)⟩
    rw [hLastSome] at hLast
    have hRecord := hSlices _ last hLast
    obtain ⟨after, hAfter, hAll, hPlaced⟩ := hOk.append hRecord rfl hUnheld
    have hSelf : after.mappingManager.blockMappings last = _ :=
      hPlaced ▸ place_blockMappings_self
    have hElse : ∀ other, other ≠ last → after.mappingManager.blockMappings other =
        (p.mappingManager.blockMappings other).map fun record => record.without [ib] :=
      fun other hOther => hPlaced ▸ place_blockMappings_of_ne hOther
    have hRequests : after.mappingManager.requestToOuterBlocks =
        p.mappingManager.requestToOuterBlocks := by
      rw [hPlaced]
      rfl
    refine ⟨after, [last], ?_, hAll, ⟨fun other _ => congrFun hRequests other, fun outer hOuter => ?_,
      fun outer hMem mapping hMapping => ?_⟩, outers, (congrFun hRequests requestId).trans hOuters,
      ?_, fun i outer hOuter => ?_⟩
    · simp only [PrefixCacheManager.allocateBlocks, List.length_singleton, hCount, hOuters,
        hLastSome, List.cons_ne_nil, Nat.not_lt_zero, Nat.lt_irrefl, if_false, Option.bind_some]
      exact hAfter
    · exact hElse outer fun hSame => hOuter (List.mem_singleton.2 hSame)
    · rw [List.mem_singleton.1 hMem, hRecord, Option.some.injEq] at hMapping
      rw [← hMapping]
    · rw [List.length_append, List.length_singleton, hNext, hLength, Nat.add_zero]
    · have hNodup := (hOk.mappings.owned requestId outers hOuters).2.1
      have hLt := (List.getElem?_eq_some_iff.1 hOuter).1
      by_cases hHere : i = innerBlocks.length / cfg.blockRatio
      · subst hHere
        rw [hLast, Option.some.injEq] at hOuter
        subst hOuter
        rw [hSelf, slice_append_last (Nat.div_mul_le_self _ _)
          (by rw [Nat.succ_mul, List.length_singleton]; omega)]
      · have hOther : outer ≠ last := by
          rintro rfl
          exact hHere ((List.getElem?_inj hLt hNodup).1 (hOuter.trans hLast.symm))
        have hLe : (i + 1) * cfg.blockRatio ≤ innerBlocks.length := by
          have hBelow : i + 1 ≤ innerBlocks.length / cfg.blockRatio := by omega
          have := Nat.mul_le_mul_right cfg.blockRatio hBelow
          omega
        have hOld := hSlices i outer hOuter
        rw [hElse outer hOther, hOld, Option.map_some, slice_append_of_le hLe,
          BlockMapping.without_of_disjoint fun other hMem hIn => ?_]
        cases hUnheld other hMem outer _ hOld hIn

end Allocate

section Free

variable {p : PrefixCacheManager} {cfg : BlockConfiguration} {orphans : List Nat}

/-- What becomes of the record of a freed outer block. -/
def BlockMapping.freed (mapping : BlockMapping) (preemption : Bool) : Option BlockMapping :=
  if preemption then none else some { mapping with isActive := false, requestId := none }

/-- The request lists are as they were, and the records of some outer blocks are freed. -/
structure PrefixCacheManager.Freed (p after : PrefixCacheManager) (outers : List Nat)
    (preemption : Bool) : Prop where
  requests : after.mappingManager.requestToOuterBlocks = p.mappingManager.requestToOuterBlocks
  records : ∀ outer, after.mappingManager.blockMappings outer =
    if outer ∈ outers then
      (p.mappingManager.blockMappings outer).bind fun mapping => mapping.freed preemption
    else p.mappingManager.blockMappings outer

theorem PrefixCacheManager.Freed.cons {p next after : PrefixCacheManager} {outer : Nat}
    {outers : List Nat} {preemption : Bool} (hFirst : p.Freed next [outer] preemption)
    (hRest : next.Freed after outers preemption) (hNotMem : outer ∉ outers) :
    p.Freed after (outer :: outers) preemption := by
  refine ⟨hRest.requests.trans hFirst.requests, fun other => ?_⟩
  rw [hRest.records, hFirst.records]
  by_cases hOther : other = outer
  · subst hOther
    simp [hNotMem]
  · simp [hOther]

theorem PrefixCacheManager.Consistent.deactivateAll {outers : List Nat}
    (hOk : p.Consistent cfg outers []) (hNodup : outers.Nodup) :
    ∃ after, outers.foldlM PrefixCacheManager.deactivate p = some after ∧
      after.Consistent cfg [] [] ∧ p.Freed after outers false := by
  induction outers generalizing p with
  | nil => exact ⟨p, rfl, hOk, rfl, fun _ => rfl⟩
  | cons outer outers ih =>
      obtain ⟨hNotMem, hNodup⟩ := List.nodup_cons.1 hNodup
      obtain ⟨⟨mapping, hMapping⟩, -⟩ := hOk.mappings.orphan outer List.mem_cons_self
      have hStep := hOk.mappings.deactivate hNotMem hMapping
      have hMapped : ∀ other, (∃ record, (p.mappingManager.setMapping outer
          { mapping with isActive := false, requestId := none }).blockMappings other =
            some record) ↔ ∃ record, p.mappingManager.blockMappings other = some record := by
        intro other
        by_cases hOther : other = outer
        · subst hOther
          simp [BlockMappingManager.setMapping, hMapping]
        · simp [BlockMappingManager.setMapping, hOther]
      obtain ⟨next, hNext⟩ : ∃ next, p.deactivate outer = some next := by
        rw [PrefixCacheManager.deactivate, hMapping]
        exact ⟨_, rfl⟩
      have hNextEq := hNext
      rw [PrefixCacheManager.deactivate, hMapping, Option.map_some, Option.some.injEq] at hNextEq
      have hNextOk : next.Consistent cfg outers [] := by
        rw [← hNextEq]
        exact ⟨hStep, hOk.partition, fun other => by rw [hMapped]; exact hOk.allocated other,
          fun _ hMem => absurd hMem List.not_mem_nil, hOk.orderNodup,
          fun other => by rw [hMapped]; exact hOk.order other, hOk.evicted⟩
      have hFirst : p.Freed next [outer] false := by
        rw [← hNextEq]
        refine ⟨rfl, fun other => ?_⟩
        by_cases hOther : other = outer
        · subst hOther
          simp [BlockMappingManager.setMapping, hMapping, BlockMapping.freed]
        · simp [BlockMappingManager.setMapping, hOther]
      obtain ⟨after, hAfter, hAll, hFreed⟩ := ih hNextOk hNodup
      refine ⟨after, ?_, hAll, hFirst.cons hFreed hNotMem⟩
      rw [List.foldlM_cons, hNext]
      exact hAfter

theorem PrefixCacheManager.Consistent.evictPreempted {requestId : Nat} {outers : List Nat}
    (hOk : p.Consistent cfg outers []) (hNodup : outers.Nodup)
    (hOwned : ∀ outer ∈ outers, ∀ mapping, p.mappingManager.blockMappings outer = some mapping →
      mapping.requestId = some requestId) :
    (outers.foldl (PrefixCacheManager.evictBlock (some requestId)) p).Consistent cfg [] [] ∧
      p.Freed (outers.foldl (PrefixCacheManager.evictBlock (some requestId)) p) outers true := by
  induction outers generalizing p with
  | nil => exact ⟨hOk, rfl, fun _ => rfl⟩
  | cons outer outers ih =>
      obtain ⟨hNotMem, hNodup⟩ := List.nodup_cons.1 hNodup
      obtain ⟨⟨mapping, hMapping⟩, hUnlisted⟩ := hOk.mappings.orphan outer List.mem_cons_self
      have hJustified : Eviction.Justified ⟨outer, mapping, some requestId⟩ :=
        hOwned outer List.mem_cons_self mapping hMapping
      have hRest : ∀ other, other ∈ outers ↔ other ∈ outer :: outers ∧ other ≠ outer := by
        intro other
        constructor
        · exact fun hMem => ⟨List.mem_cons_of_mem _ hMem, fun hSame => hNotMem (hSame ▸ hMem)⟩
        · rintro ⟨hMem, hOther⟩
          exact (List.mem_cons.1 hMem).resolve_left hOther
      have hStep := hOk.evictBlock hMapping hUnlisted hRest hJustified
      have hEq := evictBlock_eq hOk hMapping (some requestId)
      have hKeep : ∀ other, (p.evictBlock (some requestId) outer).mappingManager.blockMappings other =
          if other = outer then none else p.mappingManager.blockMappings other := by
        intro other
        rw [hEq]
        exact Function.update_apply ..
      have hFirst : p.Freed (p.evictBlock (some requestId) outer) [outer] true := by
        refine ⟨by rw [hEq]; rfl, fun other => ?_⟩
        rw [hKeep]
        by_cases hOther : other = outer
        · subst hOther
          simp [hMapping, BlockMapping.freed]
        · simp [hOther]
      obtain ⟨hAll, hFreed⟩ := ih hStep hNodup fun other hMem record hRecord => by
        have hOther : other ≠ outer := fun hSame => hNotMem (hSame ▸ hMem)
        rw [hKeep, if_neg hOther] at hRecord
        exact hOwned other (List.mem_cons_of_mem _ hMem) record hRecord
      exact ⟨hAll, hFirst.cons hFreed hNotMem⟩

/-- `free_request`, for a finished and for a preempted request. -/
theorem PrefixCacheManager.Consistent.freeRequest (hOk : p.Consistent cfg [] [])
    (requestId : Nat) (preemption : Bool) :
    ∃ after, p.freeRequest requestId preemption = some after ∧ after.Consistent cfg [] [] ∧
      PrefixCacheManager.Freed
        { p with mappingManager := p.mappingManager.removeRequest requestId } after
        ((p.mappingManager.requestToOuterBlocks requestId).getD []) preemption := by
  have hStart : PrefixCacheManager.Consistent
      { p with mappingManager := p.mappingManager.removeRequest requestId } cfg
      ((p.mappingManager.requestToOuterBlocks requestId).getD []) [] :=
    ⟨hOk.mappings.removeRequest requestId, hOk.partition, hOk.allocated, hOk.pending,
      hOk.orderNodup, hOk.order, hOk.evicted⟩
  have hNodup : ((p.mappingManager.requestToOuterBlocks requestId).getD []).Nodup := by
    cases hOwn : p.mappingManager.requestToOuterBlocks requestId with
    | none => exact List.nodup_nil
    | some own => exact (hOk.mappings.owned requestId own hOwn).2.1
  have hOwned : ∀ outer ∈ (p.mappingManager.requestToOuterBlocks requestId).getD [], ∀ mapping,
      p.mappingManager.blockMappings outer = some mapping → mapping.requestId = some requestId := by
    intro outer hMem mapping hMapping
    cases hOwn : p.mappingManager.requestToOuterBlocks requestId with
    | none => simp [hOwn] at hMem
    | some own =>
        rw [hOwn, Option.getD_some] at hMem
        obtain ⟨record, hRecord, -, hRequest⟩ := (hOk.mappings.owned requestId own hOwn).2.2 outer hMem
        rw [hMapping, Option.some.injEq] at hRecord
        rw [hRecord, hRequest]
  cases preemption with
  | false => exact hStart.deactivateAll hNodup
  | true =>
      obtain ⟨hAll, hFreed⟩ := hStart.evictPreempted hNodup hOwned
      exact ⟨_, rfl, hAll, hFreed⟩

/-- The records of another request stay when a request is freed. -/
theorem PrefixCacheManager.Consistent.freed_holds (hOk : p.Consistent cfg [] [])
    {after : PrefixCacheManager} {requestId other : Nat} {preemption : Bool}
    (hFreed : PrefixCacheManager.Freed
      { p with mappingManager := p.mappingManager.removeRequest requestId } after
      ((p.mappingManager.requestToOuterBlocks requestId).getD []) preemption)
    (hOther : other ≠ requestId) {innerBlocks : List Nat} (hHolds : p.Holds cfg other innerBlocks) :
    after.Holds cfg other innerBlocks := by
  obtain ⟨outers, hOuters, hLength, hSlices⟩ := hHolds
  refine ⟨outers, ?_, hLength, fun i outer hOuter => ?_⟩
  · rw [hFreed.requests]
    exact (Function.update_of_ne hOther ..).trans hOuters
  · have hRecord := hSlices i outer hOuter
    rw [hFreed.records, if_neg ?_]
    · exact hRecord
    · intro hMem
      cases hOwn : p.mappingManager.requestToOuterBlocks requestId with
      | none => simp [hOwn] at hMem
      | some own =>
          rw [hOwn, Option.getD_some] at hMem
          obtain ⟨record, hSame, -, hRequest⟩ := (hOk.mappings.owned requestId own hOwn).2.2 outer hMem
          rw [hRecord, Option.some.injEq] at hSame
          rw [← hSame, Option.some.injEq] at hRequest
          exact hOther hRequest

end Free

end VllmRbln.Optimum
