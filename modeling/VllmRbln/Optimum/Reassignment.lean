import VllmRbln.Optimum.BlockMapping
import Mathlib.Data.List.Basic

/-! The two indexes of the mapping manager. Inner blocks move to a new outer block one at a
time, each detached from the record it was in; together the moves come to one reassignment,
and the forward and the reverse index agree before and after it. -/
namespace VllmRbln.Optimum

set_option linter.unusedSectionVars false

/-- The record with some inner blocks detached. -/
def BlockMapping.without (mapping : BlockMapping) (inner : List Nat) : BlockMapping :=
  { mapping with innerBlockIds := mapping.innerBlockIds.filter fun ib => ib ∉ inner }

/-- What reassigning inner blocks to an outer block comes to. -/
def BlockMappingManager.reassign (m : BlockMappingManager) (outer : Nat) (inner : List Nat) :
    BlockMappingManager :=
  { m with
    innerToOuter := fun ib => if ib ∈ inner then some outer else m.innerToOuter ib
    blockMappings := fun other =>
      if other = outer then m.blockMappings other
      else (m.blockMappings other).map fun mapping => mapping.without inner }

/-- Away from one outer block the records and the reverse index agree. -/
def BlockMappingManager.IndexedOff (m : BlockMappingManager) (outer : Nat) : Prop :=
  ∀ other mapping, other ≠ outer → m.blockMappings other = some mapping →
    mapping.innerBlockIds.Nodup ∧ ∀ ib, ib ∈ mapping.innerBlockIds ↔ m.innerToOuter ib = some other

theorem BlockMapping.without_of_disjoint {mapping : BlockMapping} {inner : List Nat}
    (hDisjoint : ∀ ib ∈ inner, ib ∉ mapping.innerBlockIds) : mapping.without inner = mapping := by
  have hSame : mapping.innerBlockIds.filter (fun ib => ib ∉ inner) = mapping.innerBlockIds := by
    rw [List.filter_eq_self]
    intro ib hMem
    simpa using fun hInner => hDisjoint ib hInner hMem
  unfold BlockMapping.without
  rw [hSame]

theorem BlockMapping.without_without (mapping : BlockMapping) (inner more : List Nat) :
    (mapping.without inner).without more = mapping.without (inner ++ more) := by
  simp only [BlockMapping.without, List.filter_filter]
  congr 1
  exact List.filter_congr fun ib _ => by simp [Bool.and_comm]

section Reassign

variable {m : BlockMappingManager} {outer : Nat}

theorem BlockMappingManager.IndexedOff.reassign (hIndexed : m.IndexedOff outer) (inner : List Nat) :
    (m.reassign outer inner).IndexedOff outer := by
  intro other mapping hOther hMapping
  simp only [BlockMappingManager.reassign, hOther, if_false, Option.map_eq_some_iff] at hMapping
  obtain ⟨old, hOld, rfl⟩ := hMapping
  obtain ⟨hNodup, hIff⟩ := hIndexed other old hOther hOld
  refine ⟨hNodup.filter _, fun ib => ?_⟩
  simp only [BlockMapping.without, BlockMappingManager.reassign, List.mem_filter, hIff,
    decide_eq_true_eq]
  by_cases hInner : ib ∈ inner
  · simp [hInner, Ne.symm hOther]
  · simp [hInner]

@[simp]
theorem reassign_blockMappings_self (inner : List Nat) :
    (m.reassign outer inner).blockMappings outer = m.blockMappings outer :=
  if_pos rfl

theorem reassign_blockMappings_of_ne {other : Nat} (hOther : other ≠ outer) (inner : List Nat) :
    (m.reassign outer inner).blockMappings other =
      (m.blockMappings other).map fun mapping => mapping.without inner :=
  if_neg hOther

/-- Moving one inner block detaches it from the record that has it. -/
theorem addNewInnerToOuter_eq (hIndexed : m.IndexedOff outer) (ib : Nat) :
    m.addNewInnerToOuter outer ib = m.reassign outer [ib] := by
  -- A record that is not where the reverse index points stays as it is.
  have hStays : ∀ other, m.innerToOuter ib ≠ some other → other ≠ outer →
      (m.blockMappings other).map (fun mapping => mapping.without [ib]) = m.blockMappings other := by
    intro other hElse hOther
    cases hMapping : m.blockMappings other with
    | none => rfl
    | some mapping =>
        have hNot : ib ∉ mapping.innerBlockIds := fun hMem =>
          hElse (((hIndexed other mapping hOther hMapping).2 ib).1 hMem)
        rw [Option.map_some, BlockMapping.without_of_disjoint (by simpa using hNot)]
  have hRecords : (m.detachInnerFromStaleOuter ib outer).blockMappings =
      (m.reassign outer [ib]).blockMappings := by
    funext other
    unfold BlockMappingManager.detachInnerFromStaleOuter
    by_cases hOther : other = outer
    · subst hOther
      rw [reassign_blockMappings_self]
      split
      · rfl
      · split
        · rfl
        · rename_i hPrev
          split
          · rfl
          · exact Function.update_of_ne (Ne.symm hPrev) _ _
    · rw [reassign_blockMappings_of_ne hOther]
      split
      · rename_i hNone
        exact (hStays other (by simp [hNone]) hOther).symm
      · rename_i prev hSome
        split
        · rename_i hPrev
          subst hPrev
          exact (hStays other (by simpa [hSome] using Ne.symm hOther) hOther).symm
        · rename_i hPrev
          by_cases hHere : other = prev
          · subst hHere
            split
            · rename_i hMapping
              rw [hMapping]
              rfl
            · rename_i mapping hMapping
              have hNodup := (hIndexed other mapping hOther hMapping).1
              have hErase : mapping.innerBlockIds.erase ib =
                  mapping.innerBlockIds.filter fun other => other ∉ [ib] := by
                rw [hNodup.erase_eq_filter]
                exact List.filter_congr fun _ _ => by simp [bne, BEq.beq]
              simp only [Function.update_self, hMapping, Option.map_some, BlockMapping.without, hErase]
          · rw [hStays other (by simpa [hSome] using fun h => hHere h.symm) hOther]
            split
            · rfl
            · exact Function.update_of_ne hHere _ _
  have hRest : ∀ ib, (m.detachInnerFromStaleOuter ib outer).innerToOuter = m.innerToOuter ∧
      (m.detachInnerFromStaleOuter ib outer).requestToOuterBlocks = m.requestToOuterBlocks := by
    intro ib
    unfold BlockMappingManager.detachInnerFromStaleOuter
    split
    · exact ⟨rfl, rfl⟩
    · split
      · exact ⟨rfl, rfl⟩
      · split <;> exact ⟨rfl, rfl⟩
  refine BlockMappingManager.ext hRecords ?_ (hRest ib).2
  funext other
  unfold BlockMappingManager.addNewInnerToOuter BlockMappingManager.reassign
  simp only [(hRest ib).1, Function.update_apply, List.mem_singleton]

theorem reassign_reassign (inner more : List Nat) :
    (m.reassign outer inner).reassign outer more = m.reassign outer (inner ++ more) := by
  refine BlockMappingManager.ext ?_ ?_ rfl
  · funext other
    simp only [BlockMappingManager.reassign]
    by_cases hOther : other = outer
    · rw [if_pos hOther, if_pos hOther, if_pos hOther]
    · rw [if_neg hOther, if_neg hOther, if_neg hOther, Option.map_map]
      congr 1
      funext mapping
      exact mapping.without_without inner more
  · funext ib
    simp only [BlockMappingManager.reassign, List.mem_append]
    by_cases hMore : ib ∈ more <;> by_cases hInner : ib ∈ inner <;> simp [hMore, hInner]

/-- The loop of `create_mapping` is one reassignment. -/
theorem foldl_addNewInnerToOuter (hIndexed : m.IndexedOff outer) (inner : List Nat) :
    inner.foldl (fun m ib => m.addNewInnerToOuter outer ib) m = m.reassign outer inner := by
  induction inner generalizing m with
  | nil =>
      refine BlockMappingManager.ext ?_ rfl rfl
      funext other
      simp only [List.foldl_nil, BlockMappingManager.reassign]
      split
      · rfl
      · cases m.blockMappings other with
        | none => rfl
        | some mapping =>
            rw [Option.map_some, BlockMapping.without_of_disjoint (fun _ hMem => by cases hMem)]
  | cons ib inner ih =>
      rw [List.foldl_cons, addNewInnerToOuter_eq hIndexed, ih (hIndexed.reassign [ib]),
        reassign_reassign]
      rfl

end Reassign

/-! ### Consistency -/

/-- The two indexes agree, and every active record belongs to the request that lists it. Blocks
of `orphans` are those of a request that is being freed. -/
structure BlockMappingManager.Consistent (m : BlockMappingManager) (orphans : List Nat) : Prop where
  indexed : ∀ ib outer, m.innerToOuter ib = some outer ↔
    ∃ mapping, m.blockMappings outer = some mapping ∧ ib ∈ mapping.innerBlockIds
  nodup : ∀ outer mapping, m.blockMappings outer = some mapping → mapping.innerBlockIds.Nodup
  owned : ∀ requestId blocks, m.requestToOuterBlocks requestId = some blocks →
    blocks ≠ [] ∧ blocks.Nodup ∧ ∀ outer ∈ blocks, ∃ mapping,
      m.blockMappings outer = some mapping ∧ mapping.isActive = true ∧
        mapping.requestId = some requestId
  active : ∀ outer mapping, m.blockMappings outer = some mapping → mapping.isActive = true →
    outer ∉ orphans → ∃ requestId blocks, mapping.requestId = some requestId ∧
      m.requestToOuterBlocks requestId = some blocks ∧ outer ∈ blocks
  orphan : ∀ outer ∈ orphans, (∃ mapping, m.blockMappings outer = some mapping) ∧
    ∀ requestId blocks, m.requestToOuterBlocks requestId = some blocks → outer ∉ blocks

theorem BlockMappingManager.initial_consistent :
    BlockMappingManager.initial.Consistent [] := by
  constructor <;> simp [BlockMappingManager.initial]

section Operations

variable {m : BlockMappingManager} {outer : Nat} {orphans : List Nat}

theorem BlockMappingManager.Consistent.indexedOff (hOk : m.Consistent orphans)
    (mapping : BlockMapping) (outer : Nat) : (m.setMapping outer mapping).IndexedOff outer := by
  intro other record hOther hRecord
  have hOld : m.blockMappings other = some record := by
    rw [← hRecord]
    exact (Function.update_of_ne hOther _ _).symm
  refine ⟨hOk.nodup other record hOld, fun ib => ⟨fun hMem => ?_, fun hIndex => ?_⟩⟩
  · exact (hOk.indexed ib other).2 ⟨record, hOld, hMem⟩
  · obtain ⟨same, hSame, hMem⟩ := (hOk.indexed ib other).1 hIndex
    rw [hOld] at hSame
    cases hSame
    exact hMem

/-- A request lists an outer block only if its record is active and names it. -/
theorem BlockMappingManager.Consistent.not_listed (hOk : m.Consistent orphans)
    (hFree : ∀ mapping, m.blockMappings outer = some mapping → mapping.isActive = false)
    {requestId : Nat} {blocks : List Nat} (hBlocks : m.requestToOuterBlocks requestId = some blocks) :
    outer ∉ blocks := by
  intro hMem
  obtain ⟨mapping, hMapping, hActive, -⟩ := (hOk.owned requestId blocks hBlocks).2.2 outer hMem
  rw [hFree mapping hMapping] at hActive
  cases hActive

section Place

variable {mapping : BlockMapping} {inner : List Nat}

/-- The record is replaced and the inner blocks it gains are reassigned to it. -/
def BlockMappingManager.place (m : BlockMappingManager) (outer : Nat) (mapping : BlockMapping)
    (inner : List Nat) : BlockMappingManager :=
  (m.setMapping outer mapping).reassign outer inner

theorem place_blockMappings_self :
    (m.place outer mapping inner).blockMappings outer = some mapping := by
  simp [BlockMappingManager.place, BlockMappingManager.setMapping]

theorem place_blockMappings_of_ne {other : Nat} (hOther : other ≠ outer) :
    (m.place outer mapping inner).blockMappings other =
      (m.blockMappings other).map fun record => record.without inner := by
  unfold BlockMappingManager.place
  rw [reassign_blockMappings_of_ne hOther]
  simp only [BlockMappingManager.setMapping, Function.update_of_ne hOther]

theorem BlockMappingManager.Consistent.place_nodup (hOk : m.Consistent orphans)
    (hNodup : mapping.innerBlockIds.Nodup) {other : Nat} {record : BlockMapping}
    (hRecord : (m.place outer mapping inner).blockMappings other = some record) :
    record.innerBlockIds.Nodup := by
  by_cases hOther : other = outer
  · subst hOther
    rw [place_blockMappings_self, Option.some.injEq] at hRecord
    exact hRecord ▸ hNodup
  · rw [place_blockMappings_of_ne hOther, Option.map_eq_some_iff] at hRecord
    obtain ⟨old, hOld, rfl⟩ := hRecord
    exact (hOk.nodup other old hOld).filter _

theorem BlockMappingManager.Consistent.place_indexed (hOk : m.Consistent orphans)
    (hInner : ∀ ib, ib ∈ mapping.innerBlockIds ↔ ib ∈ inner ∨ m.innerToOuter ib = some outer)
    (ib other : Nat) : (m.place outer mapping inner).innerToOuter ib = some other ↔
      ∃ record, (m.place outer mapping inner).blockMappings other = some record ∧
        ib ∈ record.innerBlockIds := by
  have hIndex : (m.place outer mapping inner).innerToOuter ib =
      if ib ∈ inner then some outer else m.innerToOuter ib := rfl
  rw [hIndex]
  by_cases hOther : other = outer
  · subst hOther
    simp only [place_blockMappings_self, Option.some.injEq, exists_eq_left', hInner]
    by_cases hMem : ib ∈ inner <;> simp [hMem]
  · simp only [place_blockMappings_of_ne hOther, Option.map_eq_some_iff, exists_exists_and_eq_and,
      BlockMapping.without, List.mem_filter, decide_eq_true_eq]
    by_cases hMem : ib ∈ inner
    · simp [hMem, Ne.symm hOther]
    · simp [hMem, hOk.indexed ib other]

/-- Inner blocks that no active record holds. -/
def BlockMappingManager.Unheld (m : BlockMappingManager) (inner : List Nat) : Prop :=
  ∀ ib ∈ inner, ∀ other record, m.blockMappings other = some record →
    ib ∈ record.innerBlockIds → record.isActive = false

theorem place_of_active (hUnheld : m.Unheld inner) {other : Nat} (hOther : other ≠ outer)
    {record : BlockMapping} (hRecord : m.blockMappings other = some record)
    (hActive : record.isActive = true) :
    (m.place outer mapping inner).blockMappings other = some record := by
  rw [place_blockMappings_of_ne hOther, hRecord, Option.map_some,
    BlockMapping.without_of_disjoint fun ib hMem hIn => ?_]
  rw [hUnheld ib hMem other record hRecord hIn] at hActive
  cases hActive

/-- Away from the new record, records keep who holds them. -/
theorem place_record {other : Nat} (hOther : other ≠ outer) {record : BlockMapping}
    (hRecord : (m.place outer mapping inner).blockMappings other = some record) :
    ∃ old, m.blockMappings other = some old ∧ record.isActive = old.isActive ∧
      record.requestId = old.requestId := by
  rw [place_blockMappings_of_ne hOther, Option.map_eq_some_iff] at hRecord
  obtain ⟨old, hOld, rfl⟩ := hRecord
  exact ⟨old, hOld, rfl, rfl⟩

end Place

theorem createMapping_eq (hOk : m.Consistent orphans) (inner : List Nat) (requestId : Nat) :
    m.createMapping outer inner requestId =
      { m.place outer ⟨inner, some requestId, true⟩ inner with
        requestToOuterBlocks := Function.update m.requestToOuterBlocks requestId
          (some ((m.requestToOuterBlocks requestId).getD [] ++ [outer])) } := by
  unfold BlockMappingManager.createMapping
  rw [foldl_addNewInnerToOuter (hOk.indexedOff _ outer)]
  rfl

/-- `create_mapping` on an outer block that has no record. -/
theorem BlockMappingManager.Consistent.createMapping (hOk : m.Consistent orphans)
    (hNew : m.blockMappings outer = none) {inner : List Nat} (hNodup : inner.Nodup)
    (hUnheld : m.Unheld inner) (requestId : Nat) :
    (m.createMapping outer inner requestId).Consistent orphans := by
  have hNone : ∀ ib, m.innerToOuter ib ≠ some outer := by
    intro ib hIndex
    obtain ⟨mapping, hMapping, -⟩ := (hOk.indexed ib outer).1 hIndex
    rw [hNew] at hMapping
    cases hMapping
  have hElse : ∀ other record, m.blockMappings other = some record → other ≠ outer := by
    rintro other record hRecord rfl
    rw [hNew] at hRecord
    cases hRecord
  rw [createMapping_eq hOk]
  refine ⟨hOk.place_indexed (by simp [hNone]), fun other record => hOk.place_nodup hNodup,
    fun request blocks hBlocks => ?_, fun other record hRecord hActive hOrphan => ?_,
    fun other hMem => ?_⟩
  · -- The blocks a request had, then the new one if it is the request's.
    have hOld : ∀ blocks, m.requestToOuterBlocks request = some blocks → ∀ other ∈ blocks,
        ∃ record, (m.place outer ⟨inner, some requestId, true⟩ inner).blockMappings other =
          some record ∧ record.isActive = true ∧ record.requestId = some request := by
      intro blocks hBlocks other hMem
      obtain ⟨record, hRecord, hActive, hRequest⟩ := (hOk.owned request blocks hBlocks).2.2 other hMem
      exact ⟨record, place_of_active hUnheld (hElse other record hRecord) hRecord hActive,
        hActive, hRequest⟩
    by_cases hRequest : request = requestId
    · subst hRequest
      simp only [Function.update_self, Option.some.injEq] at hBlocks
      subst hBlocks
      cases hBefore : m.requestToOuterBlocks request with
      | none => simp [place_blockMappings_self]
      | some before =>
          obtain ⟨-, hBeforeNodup, hBeforeOwned⟩ := hOk.owned request before hBefore
          have hNotMem : outer ∉ before := by
            intro hMem
            obtain ⟨record, hRecord, -⟩ := hBeforeOwned outer hMem
            exact hElse outer record hRecord rfl
          refine ⟨by simp, ?_, fun other hMem => ?_⟩
          · rw [Option.getD_some, List.nodup_append]
            refine ⟨hBeforeNodup, List.nodup_singleton outer, ?_⟩
            rintro other hMem _ hLast rfl
            exact hNotMem (List.mem_singleton.1 hLast ▸ hMem)
          · rcases List.mem_append.1 hMem with hMem | hMem
            · exact hOld before hBefore other hMem
            · rw [List.mem_singleton.1 hMem]
              exact ⟨_, place_blockMappings_self, rfl, rfl⟩
    · simp only [Function.update_of_ne hRequest] at hBlocks
      obtain ⟨hNe, hBlocksNodup, -⟩ := hOk.owned request blocks hBlocks
      exact ⟨hNe, hBlocksNodup, hOld blocks hBlocks⟩
  · by_cases hOther : other = outer
    · subst hOther
      simp only [place_blockMappings_self, Option.some.injEq] at hRecord
      subst hRecord
      exact ⟨requestId, _, rfl, Function.update_self .., by simp⟩
    · obtain ⟨old, hOld, hSameActive, hSameRequest⟩ := place_record hOther hRecord
      obtain ⟨request, blocks, hRequest, hBlocks, hMem⟩ :=
        hOk.active other old hOld (hSameActive ▸ hActive) hOrphan
      by_cases hSame : request = requestId
      · subst hSame
        refine ⟨request, _, hSameRequest.trans hRequest, Function.update_self .., ?_⟩
        rw [hBlocks]
        exact List.mem_append_left _ hMem
      · exact ⟨request, blocks, hSameRequest.trans hRequest,
          (Function.update_of_ne hSame ..).trans hBlocks, hMem⟩
  · obtain ⟨⟨record, hRecord⟩, hUnlisted⟩ := hOk.orphan other hMem
    have hOther := hElse other record hRecord
    refine ⟨⟨record.without inner, ?_⟩, fun request blocks hBlocks => ?_⟩
    · show (m.place outer _ inner).blockMappings other = _
      rw [place_blockMappings_of_ne hOther, hRecord, Option.map_some]
    · by_cases hRequest : request = requestId
      · subst hRequest
        simp only [Function.update_self, Option.some.injEq] at hBlocks
        subst hBlocks
        cases hBefore : m.requestToOuterBlocks request with
        | none => simpa using hOther
        | some before => simpa using ⟨hUnlisted request before hBefore, hOther⟩
      · simp only [Function.update_of_ne hRequest] at hBlocks
        exact hUnlisted request blocks hBlocks

/-- An inner block no active record holds is appended to an active record. -/
theorem BlockMappingManager.Consistent.append (hOk : m.Consistent orphans) {mapping : BlockMapping}
    (hMapping : m.blockMappings outer = some mapping) (hActive : mapping.isActive = true) {ib : Nat}
    (hUnheld : m.Unheld [ib]) :
    (m.place outer { mapping with innerBlockIds := mapping.innerBlockIds ++ [ib] }
      [ib]).Consistent orphans := by
  have hNotMem : ib ∉ mapping.innerBlockIds := by
    intro hMem
    rw [hUnheld ib (List.mem_singleton.2 rfl) outer mapping hMapping hMem] at hActive
    cases hActive
  have hIndex : ∀ other, m.innerToOuter other = some outer ↔ other ∈ mapping.innerBlockIds := by
    intro other
    rw [hOk.indexed other outer, hMapping]
    simp
  -- Each record is one from before, held by whom it was held.
  have hOld : ∀ other record, m.blockMappings other = some record → ∃ after,
      (m.place outer { mapping with innerBlockIds := mapping.innerBlockIds ++ [ib] }
        [ib]).blockMappings other = some after ∧ after.isActive = record.isActive ∧
          after.requestId = record.requestId := by
    intro other record hRecord
    by_cases hOther : other = outer
    · subst hOther
      rw [hMapping] at hRecord
      cases hRecord
      exact ⟨_, place_blockMappings_self, rfl, rfl⟩
    · exact ⟨record.without [ib], by rw [place_blockMappings_of_ne hOther, hRecord, Option.map_some],
        rfl, rfl⟩
  refine ⟨hOk.place_indexed ?_, fun other record => hOk.place_nodup ?_,
    fun request blocks hBlocks => ?_, fun other record hRecord hRecordActive hOrphan => ?_,
    fun other hMem => ?_⟩
  · simp [hIndex, or_comm]
  · rw [List.nodup_append]
    refine ⟨hOk.nodup outer mapping hMapping, List.nodup_singleton ib, ?_⟩
    rintro other hMem _ hLast rfl
    exact hNotMem (List.mem_singleton.1 hLast ▸ hMem)
  · obtain ⟨hNe, hNodup, hOwned⟩ := hOk.owned request blocks hBlocks
    refine ⟨hNe, hNodup, fun other hMem => ?_⟩
    obtain ⟨record, hRecord, hRecordActive, hRequest⟩ := hOwned other hMem
    obtain ⟨after, hAfter, hSameActive, hSameRequest⟩ := hOld other record hRecord
    exact ⟨after, hAfter, hSameActive.trans hRecordActive, hSameRequest.trans hRequest⟩
  · by_cases hOther : other = outer
    · subst hOther
      rw [place_blockMappings_self, Option.some.injEq] at hRecord
      subst hRecord
      exact hOk.active other mapping hMapping hActive hOrphan
    · obtain ⟨old, hBefore, hSameActive, hSameRequest⟩ := place_record hOther hRecord
      rw [hSameRequest]
      exact hOk.active other old hBefore (hSameActive ▸ hRecordActive) hOrphan
  · obtain ⟨⟨record, hRecord⟩, hUnlisted⟩ := hOk.orphan other hMem
    obtain ⟨after, hAfter, -⟩ := hOld other record hRecord
    exact ⟨⟨after, hAfter⟩, hUnlisted⟩

/-- An outer block no request lists loses its record. -/
theorem BlockMappingManager.Consistent.removeMapping {rest : List Nat} (hOk : m.Consistent orphans)
    (hUnlisted : ∀ requestId blocks, m.requestToOuterBlocks requestId = some blocks →
      outer ∉ blocks)
    (hRest : ∀ other, other ∈ rest ↔ other ∈ orphans ∧ other ≠ outer) :
    (m.removeMapping outer).Consistent rest := by
  have hRecord : ∀ other record, (m.removeMapping outer).blockMappings other = some record ↔
      other ≠ outer ∧ m.blockMappings other = some record := by
    intro other record
    by_cases hOther : other = outer
    · subst hOther
      simp [BlockMappingManager.removeMapping]
    · simp [BlockMappingManager.removeMapping, hOther]
  have hIndex : ∀ ib other, (m.removeMapping outer).innerToOuter ib = some other ↔
      other ≠ outer ∧ m.innerToOuter ib = some other := by
    intro ib other
    have hHeld : ib ∈ m.innerBlocksForOuter outer ↔ m.innerToOuter ib = some outer := by
      rw [hOk.indexed ib outer, BlockMappingManager.innerBlocksForOuter]
      cases m.blockMappings outer <;> simp
    simp only [BlockMappingManager.removeMapping, hHeld, Option.ite_none_left_eq_some]
    constructor
    · rintro ⟨hNot, hSome⟩
      exact ⟨fun hSame => hNot (hSame ▸ hSome), hSome⟩
    · rintro ⟨hOther, hSome⟩
      exact ⟨fun hSame => hOther (Option.some.inj (hSome.symm.trans hSame)), hSome⟩
  refine ⟨fun ib other => ?_, fun other record hAfter => ?_, fun request blocks hBlocks => ?_,
    fun other record hAfter hActive hOrphan => ?_, fun other hMem => ?_⟩
  · rw [hIndex]
    constructor
    · rintro ⟨hOther, hSome⟩
      obtain ⟨record, hOld, hMem⟩ := (hOk.indexed ib other).1 hSome
      exact ⟨record, (hRecord other record).2 ⟨hOther, hOld⟩, hMem⟩
    · rintro ⟨record, hAfter, hMem⟩
      obtain ⟨hOther, hOld⟩ := (hRecord other record).1 hAfter
      exact ⟨hOther, (hOk.indexed ib other).2 ⟨record, hOld, hMem⟩⟩
  · exact hOk.nodup other record ((hRecord other record).1 hAfter).2
  · obtain ⟨hNe, hNodup, hOwned⟩ := hOk.owned request blocks hBlocks
    refine ⟨hNe, hNodup, fun other hMem => ?_⟩
    obtain ⟨record, hOld, hState⟩ := hOwned other hMem
    have hOther : other ≠ outer := fun hSame => hUnlisted request blocks hBlocks (hSame ▸ hMem)
    exact ⟨record, (hRecord other record).2 ⟨hOther, hOld⟩, hState⟩
  · obtain ⟨hOther, hOld⟩ := (hRecord other record).1 hAfter
    exact hOk.active other record hOld hActive fun hMem => hOrphan ((hRest other).2 ⟨hMem, hOther⟩)
  · obtain ⟨hOrphan, hOther⟩ := (hRest other).1 hMem
    obtain ⟨⟨record, hOld⟩, hOrphanUnlisted⟩ := hOk.orphan other hOrphan
    exact ⟨⟨record, (hRecord other record).2 ⟨hOther, hOld⟩⟩, hOrphanUnlisted⟩

/-- A freed request's record stays, inactive. -/
theorem BlockMappingManager.Consistent.deactivate {rest : List Nat} {mapping : BlockMapping}
    (hOk : m.Consistent (outer :: rest)) (hNodup : outer ∉ rest)
    (hMapping : m.blockMappings outer = some mapping) :
    (m.setMapping outer { mapping with isActive := false, requestId := none }).Consistent rest := by
  obtain ⟨-, hUnlisted⟩ := hOk.orphan outer List.mem_cons_self
  have hSelf : (m.setMapping outer
      { mapping with isActive := false, requestId := none }).blockMappings outer =
        some { mapping with isActive := false, requestId := none } := Function.update_self ..
  have hElse : ∀ other, other ≠ outer → (m.setMapping outer
      { mapping with isActive := false, requestId := none }).blockMappings other =
        m.blockMappings other := fun other hOther => Function.update_of_ne hOther ..
  refine ⟨fun ib other => ?_, fun other record hAfter => ?_, fun request blocks hBlocks => ?_,
    fun other record hAfter hActive hOrphan => ?_, fun other hMem => ?_⟩
  · show m.innerToOuter ib = some other ↔ _
    have hOld := hOk.indexed ib other
    by_cases hOther : other = outer
    · subst hOther
      rw [hSelf]
      rw [hMapping] at hOld
      simpa using hOld
    · rw [hElse other hOther]
      exact hOld
  · by_cases hOther : other = outer
    · subst hOther
      rw [hSelf, Option.some.injEq] at hAfter
      exact hAfter ▸ hOk.nodup other mapping hMapping
    · rw [hElse other hOther] at hAfter
      exact hOk.nodup other record hAfter
  · obtain ⟨hNe, hBlocksNodup, hOwned⟩ := hOk.owned request blocks hBlocks
    refine ⟨hNe, hBlocksNodup, fun other hMem => ?_⟩
    have hOther : other ≠ outer := fun hSame => hUnlisted request blocks hBlocks (hSame ▸ hMem)
    rw [hElse other hOther]
    exact hOwned other hMem
  · by_cases hOther : other = outer
    · subst hOther
      rw [hSelf, Option.some.injEq] at hAfter
      subst hAfter
      cases hActive
    · rw [hElse other hOther] at hAfter
      exact hOk.active other record hAfter hActive (by simp [hOther, hOrphan])
  · obtain ⟨hRecord, hOtherUnlisted⟩ := hOk.orphan other (List.mem_cons_of_mem _ hMem)
    have hOther : other ≠ outer := fun hSame => hNodup (hSame ▸ hMem)
    rw [hElse other hOther]
    exact ⟨hRecord, hOtherUnlisted⟩

/-- A removed request leaves its outer blocks to be freed. -/
theorem BlockMappingManager.Consistent.removeRequest (hOk : m.Consistent []) (requestId : Nat) :
    (m.removeRequest requestId).Consistent ((m.requestToOuterBlocks requestId).getD []) := by
  have hBlocks : ∀ request blocks, (m.removeRequest requestId).requestToOuterBlocks request =
      some blocks → request ≠ requestId ∧ m.requestToOuterBlocks request = some blocks := by
    intro request blocks hSome
    by_cases hSame : request = requestId
    · subst hSame
      simp [BlockMappingManager.removeRequest] at hSome
    · exact ⟨hSame, (Function.update_of_ne hSame ..).symm.trans hSome⟩
  refine ⟨hOk.indexed, hOk.nodup, fun request blocks hSome => ?_,
    fun other record hRecord hActive hOrphan => ?_, fun other hMem => ?_⟩
  · exact hOk.owned request blocks (hBlocks request blocks hSome).2
  · obtain ⟨request, blocks, hRequest, hSome, hMem⟩ :=
      hOk.active other record hRecord hActive List.not_mem_nil
    have hSame : request ≠ requestId := by
      rintro rfl
      rw [hSome] at hOrphan
      exact hOrphan hMem
    exact ⟨request, blocks, hRequest, (Function.update_of_ne hSame ..).trans hSome, hMem⟩
  · cases hOwn : m.requestToOuterBlocks requestId with
    | none => simp [hOwn] at hMem
    | some own =>
        rw [hOwn, Option.getD_some] at hMem
        obtain ⟨record, hRecord, -, hOwner⟩ := (hOk.owned requestId own hOwn).2.2 other hMem
        refine ⟨⟨record, hRecord⟩, fun request blocks hSome hIn => ?_⟩
        obtain ⟨hSame, hBefore⟩ := hBlocks request blocks hSome
        obtain ⟨same, hSameRecord, -, hOther⟩ := (hOk.owned request blocks hBefore).2.2 other hIn
        rw [hRecord] at hSameRecord
        cases hSameRecord
        rw [hOwner, Option.some.injEq] at hOther
        exact hSame hOther.symm

end Operations

end VllmRbln.Optimum
