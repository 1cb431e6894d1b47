import VllmRbln.SubBlock.Edits
import Mathlib.Data.List.Nodup
import Mathlib.Data.List.Pairwise

/-! What the blocks hold. A slot is described by the token prefix whose KV it has. The
slots of a request's computed positions hold the request's own prefixes, and whatever is
hashed or indexed is filled with the tokens that the hash names. -/
namespace VllmRbln.SubBlock.Manager

set_option linter.unusedSectionVars false

open Scheduler Run HashChain

variable {H X : Type} [DecidableEq H]

/-- The first `count` slots of a block hold the positions of `tokens` from `first` on. -/
def Filled (slots : BlockId → Nat → Option (List Token)) (b : BlockId) (count first : Nat)
    (tokens : List Token) : Prop :=
  ∀ t < count, slots b t = some (tokens.take (first + t + 1))

section

variable {slots : BlockId → Nat → Option (List Token)} {b : BlockId} {count first : Nat}
  {tokens : List Token}

theorem Filled.mono {count' : Nat} (hFilled : Filled slots b count first tokens)
    (hLe : count' ≤ count) : Filled slots b count' first tokens :=
  fun t hLt => hFilled t (lt_of_lt_of_le hLt hLe)

/-- Two readings of one slot agree on the position and on everything before it. -/
theorem Filled.unique {count' first' : Nat} {tokens' : List Token} {n : Nat}
    (hFilled : Filled slots b count first tokens) (hFilled' : Filled slots b count' first' tokens')
    (hPos : 0 < n) (hLe : n ≤ count) (hLe' : n ≤ count') (hLength : first + n ≤ tokens.length)
    (hLength' : first' + n ≤ tokens'.length) :
    first = first' ∧ tokens.take (first + n) = tokens'.take (first + n) := by
  have hSlot := hFilled (n - 1) (by omega)
  rw [hFilled' (n - 1) (by omega), Option.some.injEq,
    show first' + (n - 1) + 1 = first' + n by omega, show first + (n - 1) + 1 = first + n by omega]
    at hSlot
  have hSame := congrArg List.length hSlot
  rw [List.length_take, List.length_take] at hSame
  have hFirst : first = first' := by omega
  exact ⟨hFirst, hFirst ▸ hSlot.symm⟩

/-- Only the tokens up to the last slot matter. -/
theorem Filled.congr {tokens' : List Token} (hFilled : Filled slots b count first tokens)
    (hTake : tokens.take (first + count) = tokens'.take (first + count)) :
    Filled slots b count first tokens' := by
  intro t hLt
  have hSame := congrArg (List.take (first + t + 1)) hTake
  rw [List.take_take, List.take_take, Nat.min_eq_left (by omega)] at hSame
  rw [hFilled t hLt, hSame]

theorem Filled.of_eq {slots' : BlockId → Nat → Option (List Token)}
    (hFilled : Filled slots b count first tokens) (hSame : ∀ t < count, slots' b t = slots b t) :
    Filled slots' b count first tokens :=
  fun t hLt => (hSame t hLt).trans (hFilled t hLt)

end

/-- A block is in use for a group: listed by a request, indexed, or hashed there. -/
inductive Uses (kv : Manager H) (group : Nat) (b : BlockId) : Prop
  | listed {id : ReqId} {i : Nat} (hBlock : (kv.reqToBlocks id group)[i]? = some b)
  | indexed {hashes : List H} (hHashes : (kv.index group).blockHashes b = some hashes)
  | hashed {hash : H} (hHash : kv.blockHash b = some (.full hash group))

/-- What the blocks of a manager hold, for requests with these tokens of which so many
are computed. A block that is not computed to its end belongs to one request alone and
carries no hash. -/
structure Contents (cfg : Config) (hashing : Hashing H X) (subBlockSize : Nat)
    (slots : BlockId → Nat → Option (List Token)) (tokens : ReqId → List Token)
    (computed : ReqId → Nat) (kv : Manager H) : Prop where
  groups : ∀ id group, cfg.numGroups ≤ group → kv.reqToBlocks id group = []
  fits : ∀ id, computed id ≤ (tokens id).length
  written : ∀ id group i b, (kv.reqToBlocks id group)[i]? = some b →
    Filled slots b (min (cfg.blockSize group) (computed id - i * cfg.blockSize group))
      (i * cfg.blockSize group) (tokens id)
  alone : ∀ id group i b, (kv.reqToBlocks id group)[i]? = some b →
    computed id < (i + 1) * cfg.blockSize group → kv.blockHash b = none ∧
      ∀ id' group' i', (kv.reqToBlocks id' group')[i']? = some b →
        id' = id ∧ group' = group ∧ i' = i
  hashed : ∀ b hash group, kv.blockHash b = some (.full hash group) → ∃ extra tokens' i,
    hash = prefixHash hashing.hashBlockTokens (cfg.blockSize group) extra tokens' i ∧
      (i + 1) * cfg.blockSize group ≤ tokens'.length ∧
      Filled slots b (cfg.blockSize group) (i * cfg.blockSize group) tokens'
  indexed : ∀ group b hashes, (kv.index group).blockHashes b = some hashes → hashes ≠ [] ∧
    hashes.length ≤ cfg.blockSize group / subBlockSize ∧ ∃ tokens' i,
      i * cfg.blockSize group + hashes.length * subBlockSize ≤ tokens'.length ∧
      (∀ k hash, hashes[k]? = some hash → ∃ extra, hash = prefixHash hashing.hashBlockTokens
        subBlockSize extra tokens' (i * (cfg.blockSize group / subBlockSize) + k)) ∧
      Filled slots b (hashes.length * subBlockSize) (i * cfg.blockSize group) tokens'
  within : ∀ id group i b hashes, (kv.reqToBlocks id group)[i]? = some b →
    (kv.index group).blockHashes b = some hashes →
    i * cfg.blockSize group + hashes.length * subBlockSize ≤ computed id
  oneGroup : ∀ b group group', Uses kv group b → Uses kv group' b → group = group'
  subHashes : ∀ id k hash, (kv.reqSubHashes id)[k]? = some hash →
    (k + 1) * subBlockSize ≤ (tokens id).length ∧
      hash = prefixHash hashing.hashBlockTokens subBlockSize
        (fun start => hashing.extraKeys id start (start + subBlockSize)) (tokens id) k

variable {cfg : Config} {hashing : Hashing H X} {subBlockSize : Nat}
  {slots : BlockId → Nat → Option (List Token)} {tokens : ReqId → List Token}
  {computed : ReqId → Nat} {kv : Manager H}

theorem Contents.initial (slots : BlockId → Nat → Option (List Token)) (tokens : ReqId → List Token)
    (computed : ReqId → Nat) (hFits : ∀ id, computed id ≤ (tokens id).length) :
    Contents cfg hashing subBlockSize slots tokens computed (Manager.initial : Manager H) where
  groups _ _ _ := rfl
  fits := hFits
  written := by simp [Manager.initial, Blocks.empty]
  alone := by simp [Manager.initial, Blocks.empty]
  hashed := by simp [Manager.initial]
  indexed := by simp [Manager.initial, SubBlockIndex.empty]
  within := by simp [Manager.initial, Blocks.empty]
  oneGroup b group group' hUses hUses' := by
    cases hUses <;> simp_all [Manager.initial, SubBlockIndex.empty, Blocks.empty]
  subHashes := by simp [Manager.initial]

theorem group_lt_of_listed (hContents : Contents cfg hashing subBlockSize slots tokens computed kv)
    {id : ReqId} {group i : Nat} {b : BlockId} (hBlock : (kv.reqToBlocks id group)[i]? = some b) :
    group < cfg.numGroups := by
  by_contra hNot
  rw [hContents.groups id group (Nat.not_lt.mp hNot)] at hBlock
  simp at hBlock

/-- A block that carries a hash is computed to its end. -/
theorem Contents.closed (hContents : Contents cfg hashing subBlockSize slots tokens computed kv)
    {id : ReqId} {group i : Nat} {b : BlockId} (hBlock : (kv.reqToBlocks id group)[i]? = some b)
    (hHash : kv.blockHash b ≠ none) : (i + 1) * cfg.blockSize group ≤ computed id := by
  by_contra hOpen
  exact hHash (hContents.alone id group i b hBlock (Nat.not_le.mp hOpen)).1

/-- The slots of such a block. -/
theorem Contents.filled (hContents : Contents cfg hashing subBlockSize slots tokens computed kv)
    {id : ReqId} {group i : Nat} {b : BlockId} (hBlock : (kv.reqToBlocks id group)[i]? = some b)
    {count : Nat} (hLe : count ≤ cfg.blockSize group)
    (hCount : i * cfg.blockSize group + count ≤ computed id) :
    Filled slots b count (i * cfg.blockSize group) (tokens id) :=
  (hContents.written id group i b hBlock).mono (by omega)

/-- The block size is a whole number of sub-blocks. -/
theorem blockSize_eq (hSize : cfg.subBlockSize = some subBlockSize) {group : Nat}
    (hGroup : group < cfg.numGroups) :
    cfg.blockSize group / subBlockSize * subBlockSize = cfg.blockSize group :=
  Nat.div_mul_cancel (Nat.dvd_of_mod_eq_zero
    ((cfg.subBlockSize_fits subBlockSize hSize).2.1 _ (cfg.blockSize_mem hGroup)).2)

/-- A manager that puts no block to a new use keeps the groups apart. -/
theorem Contents.oneGroup_of
    (hContents : Contents cfg hashing subBlockSize slots tokens computed kv) (kv' : Manager H)
    (hUses : ∀ group b, Uses kv' group b → Uses kv group b) (b : BlockId) (group group' : Nat)
    (hThis : Uses kv' group b) (hThat : Uses kv' group' b) : group = group' :=
  hContents.oneGroup b group group' (hUses group b hThis) (hUses group' b hThat)

/-- Only the lists, the hashes, the index and the recorded hashes matter. -/
theorem Contents.congr {kv' : Manager H}
    (hContents : Contents cfg hashing subBlockSize slots tokens computed kv)
    (hBlocks : kv'.reqToBlocks = kv.reqToBlocks) (hHash : kv'.blockHash = kv.blockHash)
    (hIndex : kv'.index = kv.index) (hSubHashes : kv'.reqSubHashes = kv.reqSubHashes) :
    Contents cfg hashing subBlockSize slots tokens computed kv' := by
  have hOneGroup := hContents.oneGroup_of kv' fun group b hUses => by
    cases hUses with
    | listed hBlock => exact .listed (hBlocks ▸ hBlock)
    | indexed hHashes => exact .indexed (hIndex ▸ hHashes)
    | hashed hSome => exact .hashed (hHash ▸ hSome)
  obtain ⟨groups, fits, written, alone, hashed, indexed, within, oneGroup, subHashes⟩ := hContents
  refine ⟨?_, fits, ?_, ?_, ?_, ?_, ?_, hOneGroup, ?_⟩ <;>
    simp only [hBlocks, hHash, hIndex, hSubHashes] <;> assumption

/-! ### Hashing full blocks -/

theorem Contents.cacheBlock (hContents : Contents cfg hashing subBlockSize slots tokens computed kv)
    {id : ReqId} {group i : Nat} {b : BlockId} (hBlock : (kv.reqToBlocks id group)[i]? = some b)
    (hFull : (i + 1) * cfg.blockSize group ≤ computed id) :
    Contents cfg hashing subBlockSize slots tokens computed
      (kv.cacheBlock b (.full (fullHash cfg hashing id (tokens id) group i) group)) := by
  unfold Manager.cacheBlock
  split
  · exact hContents
  refine { hContents with alone := ?_, hashed := ?_, oneGroup := ?_ }
  · intro id' group' i' b' hBlock' hOpen
    obtain ⟨hNone, hAlone⟩ := hContents.alone id' group' i' b' hBlock' hOpen
    refine ⟨?_, hAlone⟩
    by_cases hEq : b' = b
    · -- the block would be computed to its end after all
      subst hEq
      obtain ⟨rfl, rfl, rfl⟩ := hAlone id group i hBlock
      omega
    · simpa [hEq] using hNone
  · intro b' hash group' hHash
    by_cases hEq : b' = b
    · subst hEq
      simp only [Function.update_self, Option.some.injEq, BlockHash.full.injEq] at hHash
      obtain ⟨rfl, rfl⟩ := hHash
      exact ⟨_, tokens id, i, rfl, le_trans hFull (hContents.fits id),
        hContents.filled hBlock le_rfl (by rw [Nat.add_mul, Nat.one_mul] at hFull; exact hFull)⟩
    · simp only [Function.update_of_ne hEq] at hHash
      exact hContents.hashed b' hash group' hHash
  · refine hContents.oneGroup_of _ fun group' b' hUses => ?_
    cases hUses with
    | listed hBlock => exact .listed hBlock
    | indexed hHashes => exact .indexed hHashes
    | hashed hHash =>
        by_cases hEq : b' = b
        · subst hEq
          simp only [Function.update_self, Option.some.injEq, BlockHash.full.injEq] at hHash
          exact hHash.2 ▸ .listed hBlock
        · simp only [Function.update_of_ne hEq] at hHash
          exact .hashed hHash

theorem Contents.cacheBlocks (hContents : Contents cfg hashing subBlockSize slots tokens computed kv)
    {id : ReqId} {request : Request} (hTokens : request.allTokenIds = tokens id) {numTokens : Nat}
    (hLe : numTokens ≤ computed id) :
    Contents cfg hashing subBlockSize slots tokens computed
      (kv.cacheBlocks cfg hashing id request numTokens) := by
  refine foldl_invariant (Contents cfg hashing subBlockSize slots tokens computed)
    (fun mid group hGroup hMid => ?_) hContents
  have hStart : Contents cfg hashing subBlockSize slots tokens computed mid ∧
      mid.reqToBlocks = mid.reqToBlocks := ⟨hMid, rfl⟩
  refine (foldl_invariant (fun last => Contents cfg hashing subBlockSize slots tokens computed last ∧
    last.reqToBlocks = mid.reqToBlocks) (fun last block hBlock hLast => ?_) hStart).1
  rw [List.mem_zipIdx_iff_getElem?, List.getElem?_take] at hBlock
  split at hBlock
  · rename_i hLt
    rw [hTokens]
    refine ⟨hLast.1.cacheBlock (by rw [hLast.2]; exact hBlock) ?_, ?_⟩
    · exact le_trans (Nat.mul_le_mul_right _ hLt) (le_trans (Nat.div_mul_le_self _ _) hLe)
    · rw [ownership_reqToBlocks (ownership_cacheBlock ..), hLast.2]
  · cases hBlock

/-! ### Recording sub-block hashes -/

theorem hashTokens_getElem? {id : ReqId} {tokens : List Token} {n count k : Nat} {hash : H}
    (hGet : (hashTokens hashing subBlockSize id tokens
      (if n = 0 then none else some (prefixHash hashing.hashBlockTokens subBlockSize
        (fun start => hashing.extraKeys id start (start + subBlockSize)) tokens (n - 1)))
      (n * subBlockSize) count)[k]? = some hash) :
    k < count ∧ hash = prefixHash hashing.hashBlockTokens subBlockSize
      (fun start => hashing.extraKeys id start (start + subBlockSize)) tokens (n + k) := by
  induction count generalizing n k with
  | zero => simp [hashTokens] at hGet
  | succ count ih =>
      have hHead : hashing.hashBlockTokens
          (if n = 0 then none else some (prefixHash hashing.hashBlockTokens subBlockSize
            (fun start => hashing.extraKeys id start (start + subBlockSize)) tokens (n - 1)))
          ((tokens.drop (n * subBlockSize)).take subBlockSize)
          (hashing.extraKeys id (n * subBlockSize) (n * subBlockSize + subBlockSize)) =
        prefixHash hashing.hashBlockTokens subBlockSize
          (fun start => hashing.extraKeys id start (start + subBlockSize)) tokens n := by
        cases n with
        | zero => simp [prefixHash]
        | succ n => simp [prefixHash]
      simp only [hashTokens, hHead] at hGet
      cases k with
      | zero =>
          simp only [List.getElem?_cons_zero, Option.some.injEq] at hGet
          exact ⟨Nat.succ_pos _, hGet.symm⟩
      | succ k =>
          rw [List.getElem?_cons_succ] at hGet
          have hNext := ih (n := n + 1) (k := k) (by
            rw [if_neg (Nat.succ_ne_zero n), Nat.add_mul, Nat.one_mul]
            exact hGet)
          exact ⟨by omega, by rw [hNext.2]; congr 1; omega⟩

theorem Contents.getOrComputeSubHashes
    (hContents : Contents cfg hashing subBlockSize slots tokens computed kv) {id : ReqId}
    {request : Request} (hTokens : request.allTokenIds = tokens id) :
    Contents cfg hashing subBlockSize slots tokens computed
      (kv.getOrComputeSubHashes hashing subBlockSize id request) := by
  refine { hContents with oneGroup := ?_, subHashes := ?_ }
  · refine hContents.oneGroup_of _ fun group b hUses => ?_
    cases hUses with
    | listed hBlock => exact .listed hBlock
    | indexed hHashes => exact .indexed hHashes
    | hashed hHash => exact .hashed hHash
  intro id' k hash hGet
  by_cases hEq : id' = id
  · subst hEq
    simp only [Manager.getOrComputeSubHashes, Function.update_self, computeSubHashes, hTokens] at hGet
    rw [List.getElem?_append] at hGet
    split at hGet
    · exact hContents.subHashes id' k hash hGet
    rename_i hGe
    -- the chain goes on from the last recorded hash
    have hLast : (kv.reqSubHashes id').getLast? = if (kv.reqSubHashes id').length = 0 then none
        else some (prefixHash hashing.hashBlockTokens subBlockSize
          (fun start => hashing.extraKeys id' start (start + subBlockSize)) (tokens id')
            ((kv.reqSubHashes id').length - 1)) := by
      rw [List.getLast?_eq_getElem?]
      split
      · rename_i hZero
        rw [List.getElem?_eq_none_iff]
        omega
      · rename_i hPos
        have hLt : (kv.reqSubHashes id').length - 1 < (kv.reqSubHashes id').length := by omega
        rw [List.getElem?_eq_getElem hLt]
        exact congrArg some (hContents.subHashes id' _ _ (List.getElem?_eq_getElem hLt)).2
    rw [hLast] at hGet
    obtain ⟨hCount, hHash⟩ := hashTokens_getElem? hGet
    rw [Nat.add_sub_cancel' (Nat.not_lt.mp hGe)] at hHash
    refine ⟨?_, hHash⟩
    have hFits := Nat.div_mul_le_self
      ((tokens id').length - (kv.reqSubHashes id').length * subBlockSize) subBlockSize
    have hLe : (k - (kv.reqSubHashes id').length + 1) * subBlockSize ≤
        ((tokens id').length - (kv.reqSubHashes id').length * subBlockSize) / subBlockSize *
          subBlockSize := Nat.mul_le_mul_right subBlockSize hCount
    have hMore : 0 < (tokens id').length - (kv.reqSubHashes id').length * subBlockSize :=
      Nat.pos_of_ne_zero fun hZero => by
        rw [hZero, Nat.zero_div] at hCount
        exact absurd hCount (Nat.not_lt_zero _)
    have hSplit : (k + 1) * subBlockSize = (kv.reqSubHashes id').length * subBlockSize +
        (k - (kv.reqSubHashes id').length + 1) * subBlockSize := by
      rw [← Nat.add_mul]
      congr 1
      omega
    omega
  · simp only [Manager.getOrComputeSubHashes, Function.update_of_ne hEq] at hGet
    exact hContents.subHashes id' k hash hGet

/-! ### Indexing -/

/-- The hashes recorded for a block that a request lists are the request's own. -/
theorem Contents.recorded_eq (hContents : Contents cfg hashing subBlockSize slots tokens computed kv)
    (hSize : cfg.subBlockSize = some subBlockSize) {id : ReqId} {group i : Nat} {b : BlockId}
    (hBlock : (kv.reqToBlocks id group)[i]? = some b) {k : Nat} {hash : H}
    (hGet : ((kv.index group).recorded b)[k]? = some hash) :
    k < cfg.blockSize group / subBlockSize ∧ ∃ extra, hash =
      prefixHash hashing.hashBlockTokens subBlockSize extra (tokens id)
        (i * (cfg.blockSize group / subBlockSize) + k) := by
  have hPos := (cfg.subBlockSize_fits subBlockSize hSize).1
  have hWhole := blockSize_eq hSize (group_lt_of_listed hContents hBlock)
  cases hHashes : (kv.index group).blockHashes b with
  | none => simp [SubBlockIndex.recorded, hHashes] at hGet
  | some hashes =>
      simp only [SubBlockIndex.recorded, hHashes, Option.getD_some] at hGet
      obtain ⟨hNe, hShort, tokens', i', hLength, hNamed, hFilled⟩ :=
        hContents.indexed group b hashes hHashes
      have hWithin := hContents.within id group i b hashes hBlock hHashes
      have hLt : k < hashes.length := (List.getElem?_eq_some_iff.mp hGet).1
      have hCover : hashes.length * subBlockSize ≤ cfg.blockSize group :=
        hWhole ▸ Nat.mul_le_mul_right subBlockSize hShort
      obtain ⟨hFirst, hTake⟩ := hFilled.unique
        (hContents.filled hBlock hCover hWithin) (Nat.mul_pos (by omega) hPos) le_rfl le_rfl hLength
          (le_trans hWithin (hContents.fits id))
      have hIndex : i' = i := Nat.eq_of_mul_eq_mul_right (cfg.blockSize_pos group) hFirst
      subst hIndex
      obtain ⟨extra, hHash⟩ := hNamed k hash hGet
      refine ⟨by omega, extra, hHash.trans (prefixHash_congr ?_)⟩
      have hLe : (i' * (cfg.blockSize group / subBlockSize) + k + 1) * subBlockSize ≤
          i' * cfg.blockSize group + hashes.length * subBlockSize := by
        rw [Nat.add_assoc, Nat.add_mul, Nat.mul_assoc, hWhole]
        exact Nat.add_le_add_left (Nat.mul_le_mul_right _ hLt) _
      have hSame := congrArg (List.take
        ((i' * (cfg.blockSize group / subBlockSize) + k + 1) * subBlockSize)) hTake
      rwa [List.take_take, List.take_take, Nat.min_eq_left hLe] at hSame

/-- A listed block may be indexed as far as it is computed. -/
theorem Contents.indexBlock (hContents : Contents cfg hashing subBlockSize slots tokens computed kv)
    (hSize : cfg.subBlockSize = some subBlockSize) {id : ReqId} {group i subEnd : Nat} {b : BlockId}
    (hBlock : (kv.reqToBlocks id group)[i]? = some b)
    (hStart : i * (cfg.blockSize group / subBlockSize) < subEnd)
    (hEnd : subEnd ≤ i * (cfg.blockSize group / subBlockSize) + cfg.blockSize group / subBlockSize)
    (hLength : subEnd ≤ (kv.reqSubHashes id).length)
    (hComputed : subEnd * subBlockSize ≤ computed id) :
    Contents cfg hashing subBlockSize slots tokens computed
      (kv.indexBlock id group b (i * (cfg.blockSize group / subBlockSize)) subEnd) := by
  set spb := cfg.blockSize group / subBlockSize with hSpb
  have hWhole := blockSize_eq hSize (group_lt_of_listed hContents hBlock)
  rw [← hSpb] at hWhole
  set new := ((kv.reqSubHashes id).drop (i * spb)).take (subEnd - i * spb) with hNew
  have hNewLength : new.length = subEnd - i * spb := by
    rw [hNew, List.length_take, List.length_drop]
    omega
  have hRecorded : ∀ {k : Nat} {hash : H}, ((kv.index group).recorded b)[k]? = some hash →
      k < spb ∧ ∃ extra, hash = prefixHash hashing.hashBlockTokens subBlockSize extra (tokens id)
        (i * spb + k) := fun hGet => hContents.recorded_eq hSize hBlock hGet
  have hRecordedLe : ((kv.index group).recorded b).length ≤ spb ∧ i * cfg.blockSize group +
      ((kv.index group).recorded b).length * subBlockSize ≤ max (computed id)
        (i * cfg.blockSize group) := by
    cases hHashes : (kv.index group).blockHashes b with
    | none => simp [SubBlockIndex.recorded, hHashes]
    | some hashes =>
        simp only [SubBlockIndex.recorded, hHashes, Option.getD_some]
        exact ⟨(hContents.indexed group b hashes hHashes).2.1,
          le_trans (hContents.within id group i b hashes hBlock hHashes) (le_max_left _ _)⟩
  have hEndComputed : i * cfg.blockSize group + (subEnd - i * spb) * subBlockSize ≤ computed id := by
    rw [← hWhole, ← Nat.mul_assoc, ← Nat.add_mul]
    rwa [Nat.add_sub_cancel' hStart.le]
  -- the new list of hashes
  have hAll : ∀ {k : Nat} {hash : H}, ((kv.index group).recorded b ++
      new.drop ((kv.index group).recorded b).length)[k]? = some hash → ∃ extra, hash =
        prefixHash hashing.hashBlockTokens subBlockSize extra (tokens id) (i * spb + k) := by
    intro k hash hGet
    rw [List.getElem?_append] at hGet
    split at hGet
    · exact (hRecorded hGet).2
    · rename_i hGe
      rw [List.getElem?_drop, Nat.add_sub_cancel' (Nat.not_lt.mp hGe), hNew, List.getElem?_take]
        at hGet
      split at hGet
      · rw [List.getElem?_drop] at hGet
        exact ⟨_, (hContents.subHashes id _ hash hGet).2⟩
      · cases hGet
  have hCount : ((kv.index group).recorded b ++
      new.drop ((kv.index group).recorded b).length).length =
        max ((kv.index group).recorded b).length (subEnd - i * spb) := by
    rw [List.length_append, List.length_drop, hNewLength]
    omega
  have hLe : max ((kv.index group).recorded b).length (subEnd - i * spb) ≤ spb := by
    omega
  have hCover : i * cfg.blockSize group + max ((kv.index group).recorded b).length
      (subEnd - i * spb) * subBlockSize ≤ computed id := by
    rcases le_total ((kv.index group).recorded b).length (subEnd - i * spb) with hShort | hLong
    · rw [Nat.max_eq_right hShort]
      exact hEndComputed
    · rw [Nat.max_eq_left hLong]
      have := hRecordedLe.2
      omega
  have hBlockSize : max ((kv.index group).recorded b).length (subEnd - i * spb) * subBlockSize ≤
      cfg.blockSize group := hWhole ▸ Nat.mul_le_mul_right subBlockSize hLe
  have hHashesOf : ∀ {group' : Nat} {b' : BlockId} {hashes : List H},
      ((kv.indexBlock id group b (i * spb) subEnd).index group').blockHashes b' = some hashes →
      (group' = group ∧ b' = b ∧ hashes = (kv.index group).recorded b ++
        new.drop ((kv.index group).recorded b).length) ∨
      (kv.index group').blockHashes b' = some hashes := by
    intro group' b' hashes hHashes
    simp only [Manager.indexBlock] at hHashes
    by_cases hGroup : group' = group
    · subst hGroup
      rw [Function.update_self] at hHashes
      by_cases hEq : b' = b
      · subst hEq
        simp only [SubBlockIndex.update, Function.update_self, Option.some.injEq] at hHashes
        exact .inl ⟨rfl, rfl, hHashes.symm⟩
      · rw [SubBlockIndex.blockHashes_update_of_ne _ hEq] at hHashes
        exact .inr hHashes
    · rw [Function.update_of_ne hGroup] at hHashes
      exact .inr hHashes
  have hOneGroup := hContents.oneGroup_of
    (kv.indexBlock id group b (i * spb) subEnd) fun group' b' hUses => by
      cases hUses with
      | listed hBlock => exact .listed hBlock
      | hashed hHash => exact .hashed hHash
      | indexed hHashes =>
          rcases hHashesOf hHashes with ⟨rfl, rfl, -⟩ | hOld
          · exact .listed hBlock
          · exact .indexed hOld
  refine { hContents with indexed := ?_, within := ?_, oneGroup := hOneGroup }
  · intro group' b' hashes hHashes
    rcases hHashesOf hHashes with ⟨rfl, rfl, rfl⟩ | hOld
    · refine ⟨?_, by rw [hCount]; exact hLe, tokens id, i, ?_, fun k hash hGet => hAll hGet, ?_⟩
      · intro hNil
        have hZero := congrArg List.length hNil
        rw [hCount, List.length_nil] at hZero
        omega
      · rw [hCount]
        exact le_trans hCover (hContents.fits id)
      · rw [hCount]
        exact hContents.filled hBlock hBlockSize hCover
    · exact hContents.indexed group' b' hashes hOld
  · intro id' group' i' b' hashes hBlock' hHashes
    rcases hHashesOf hHashes with ⟨rfl, rfl, rfl⟩ | hOld
    · rw [hCount]
      by_cases hOpen : computed id' < (i' + 1) * cfg.blockSize group'
      · -- an open block is nobody else's
        obtain ⟨rfl, -, rfl⟩ := (hContents.alone id' group' i' b' hBlock' hOpen).2 id group' i hBlock
        exact hCover
      · rw [Nat.add_mul, Nat.one_mul] at hOpen
        omega
    · exact hContents.within id' group' i' b' hashes hBlock' hOld

theorem Contents.indexNewlyCachedBlocks
    (hContents : Contents cfg hashing subBlockSize slots tokens computed kv)
    (hSize : cfg.subBlockSize = some subBlockSize) {id : ReqId} {request : Request}
    (hTokens : request.allTokenIds = tokens id) (numFullBlocksBefore : Nat → Nat) :
    Contents cfg hashing subBlockSize slots tokens computed
      (kv.indexNewlyCachedBlocks cfg hashing subBlockSize id request numFullBlocksBefore) := by
  refine foldl_invariant (Contents cfg hashing subBlockSize slots tokens computed)
    (fun mid group hGroup hMid => ?_) hContents
  have hStart : Contents cfg hashing subBlockSize slots tokens computed mid ∧
      mid.reqToBlocks = mid.reqToBlocks := ⟨hMid, rfl⟩
  refine (foldl_invariant (fun last => Contents cfg hashing subBlockSize slots tokens computed last ∧
    last.reqToBlocks = mid.reqToBlocks) (fun last block hBlock hLast => ?_) hStart).1
  obtain ⟨hLast, hBlocks⟩ := hLast
  have hBlock := List.mem_of_mem_drop hBlock
  rw [List.mem_zipIdx_iff_getElem?, ← hBlocks] at hBlock
  split
  · rename_i hCached
    have hClosed := hLast.closed hBlock (by simpa [Option.isSome_iff_ne_none] using hCached)
    have hHashed : Contents cfg hashing subBlockSize slots tokens computed
        (last.getOrComputeSubHashes hashing subBlockSize id request) :=
      hLast.getOrComputeSubHashes hTokens
    refine ⟨?_, (ownership_reqToBlocks (ownership_onBlockCached ..)).trans hBlocks⟩
    unfold onBlockCached
    dsimp only
    split
    · exact hHashed
    rename_i hLt
    refine hHashed.indexBlock hSize hBlock (Nat.not_le.mp hLt) (Nat.min_le_left _ _)
      (Nat.min_le_right _ _) (le_trans (Nat.mul_le_mul_right _ (Nat.min_le_left _ _)) ?_)
    rw [Nat.add_mul, Nat.mul_assoc, blockSize_eq hSize (group_lt_of_listed hLast hBlock)]
    rwa [Nat.add_mul, Nat.one_mul] at hClosed
  · exact ⟨hLast, hBlocks⟩

theorem Contents.indexPartialGroup
    (hContents : Contents cfg hashing subBlockSize slots tokens computed kv)
    (hSize : cfg.subBlockSize = some subBlockSize) {id : ReqId} {request : Request}
    (hComputed : request.numComputedTokens = computed id) (group : Nat) :
    Contents cfg hashing subBlockSize slots tokens computed
      (kv.indexPartialGroup cfg subBlockSize id request false group) := by
  unfold Manager.indexPartialGroup
  dsimp only
  split
  · exact hContents
  rename_i b hBlock
  split
  · exact hContents
  rename_i hLt
  have hWhole := blockSize_eq hSize (group_lt_of_listed hContents hBlock)
  have hRemainder := Nat.mod_lt request.numComputedTokens (cfg.blockSize_pos group)
  refine hContents.indexBlock hSize hBlock (Nat.not_le.mp hLt) ?_ (Nat.min_le_right _ _) ?_
  · refine le_trans (Nat.min_le_left _ _) (Nat.add_le_add_left ?_ _)
    exact Nat.div_le_div_right hRemainder.le
  · refine le_trans (Nat.mul_le_mul_right _ (Nat.min_le_left _ _)) ?_
    rw [Nat.add_mul, Nat.mul_assoc, hWhole, ← hComputed]
    have hFloor := Nat.div_mul_le_self (request.numComputedTokens % cfg.blockSize group) subBlockSize
    have hSplit := Nat.div_add_mod' request.numComputedTokens (cfg.blockSize group)
    omega

theorem Contents.indexPartialBlock
    (hContents : Contents cfg hashing subBlockSize slots tokens computed kv)
    (hSize : cfg.subBlockSize = some subBlockSize) {id : ReqId} {request : Request}
    (hTokens : request.allTokenIds = tokens id)
    (hComputed : request.numComputedTokens = computed id) :
    Contents cfg hashing subBlockSize slots tokens computed
      (kv.indexPartialBlock cfg hashing subBlockSize id request false) :=
  foldl_invariant (Contents cfg hashing subBlockSize slots tokens computed)
    (fun _ group _ hMid => hMid.indexPartialGroup hSize hComputed group)
    (hContents.getOrComputeSubHashes hTokens)

theorem Contents.doPendingIndexing
    (hContents : Contents cfg hashing subBlockSize slots tokens computed kv)
    (hSize : cfg.subBlockSize = some subBlockSize) {requests : ReqId → Request}
    (hTokens : ∀ id, (requests id).allTokenIds = tokens id)
    (hComputed : ∀ id, (requests id).numComputedTokens = computed id) :
    Contents cfg hashing subBlockSize slots tokens computed
      (kv.doPendingIndexing cfg hashing subBlockSize requests) := by
  have hAll : Contents cfg hashing subBlockSize slots tokens computed
      (kv.pendingIndexing.foldl (fun kv pending => Manager.indexPartialBlock cfg hashing
        subBlockSize (Manager.indexNewlyCachedBlocks cfg hashing subBlockSize kv pending.1
          (requests pending.1) pending.2) pending.1 (requests pending.1) false) kv) :=
    foldl_invariant (Contents cfg hashing subBlockSize slots tokens computed) (fun mid pending _ hMid =>
      (hMid.indexNewlyCachedBlocks hSize (hTokens pending.1) pending.2).indexPartialBlock hSize
        (hTokens pending.1) (hComputed pending.1)) hContents
  exact hAll.congr rfl rfl rfl rfl

/-! ### Giving blocks back -/

/-- A manager that differs from another one in synthetic hashes, on blocks that the
request lists. -/
structure MarkedBy (id : ReqId) (kv kv' : Manager H) : Prop where
  reqToBlocks : kv'.reqToBlocks = kv.reqToBlocks
  index : kv'.index = kv.index
  reqSubHashes : kv'.reqSubHashes = kv.reqSubHashes
  blockHash : ∀ b, kv'.blockHash b = kv.blockHash b ∨
    (∃ block lastSubHash group, kv'.blockHash b = some (.partialBlock block lastSubHash group)) ∧
      ∃ group, b ∈ kv.reqToBlocks id group

theorem MarkedBy.indexPartialGroup {id : ReqId} {kv' : Manager H} (hMarked : MarkedBy id kv kv')
    (request : Request) (group : Nat) :
    MarkedBy id (kv.indexPartialGroup cfg subBlockSize id request false group)
      (kv'.indexPartialGroup cfg subBlockSize id request true group) := by
  unfold Manager.indexPartialGroup
  dsimp only
  rw [hMarked.reqToBlocks, hMarked.reqSubHashes]
  split
  · exact hMarked
  rename_i b hBlock
  split
  · exact hMarked
  have hIndexed : ∀ subStart subEnd, MarkedBy id (kv.indexBlock id group b subStart subEnd)
      (kv'.indexBlock id group b subStart subEnd) := fun subStart subEnd =>
    ⟨hMarked.reqToBlocks, by simp only [indexBlock, hMarked.index, hMarked.reqSubHashes],
      hMarked.reqSubHashes, hMarked.blockHash⟩
  split
  · refine ⟨(hIndexed _ _).reqToBlocks, (hIndexed _ _).index, (hIndexed _ _).reqSubHashes,
      fun b' => ?_⟩
    by_cases hEq : b' = b
    · subst hEq
      exact .inr ⟨⟨_, _, _, Function.update_self ..⟩, group, List.mem_of_getElem? hBlock⟩
    · simpa [hEq] using (hIndexed _ _).blockHash b'
  · exact hIndexed _ _

/-- The last half of a release: marks on the request's blocks, and its list is gone. -/
theorem Contents.pop (hContents : Contents cfg hashing subBlockSize slots tokens computed kv)
    {id : ReqId} {kv' : Manager H} (hMarked : MarkedBy id kv kv') {computed' : ReqId → Nat}
    (hSame : ∀ other, other ≠ id → computed' other = computed other)
    (hFits : computed' id ≤ (tokens id).length) :
    Contents cfg hashing subBlockSize slots tokens computed'
      { kv' with
        reqToBlocks := Function.update kv'.reqToBlocks id Blocks.empty
        reqSubHashes := Function.update kv'.reqSubHashes id [] } := by
  have hListed : ∀ {other : ReqId} {group i : Nat} {b : BlockId},
      ((Function.update kv'.reqToBlocks id Blocks.empty) other group)[i]? = some b →
      other ≠ id ∧ (kv.reqToBlocks other group)[i]? = some b := by
    intro other group i b hBlock
    by_cases hEq : other = id
    · subst hEq
      simp [Blocks.empty] at hBlock
    · rw [Function.update_of_ne hEq, hMarked.reqToBlocks] at hBlock
      exact ⟨hEq, hBlock⟩
  constructor
  · intro other group hGroup
    by_cases hEq : other = id
    · subst hEq
      simp [Blocks.empty]
    · simpa [hEq, hMarked.reqToBlocks] using hContents.groups other group hGroup
  · intro other
    by_cases hEq : other = id
    · exact hEq ▸ hFits
    · rw [hSame other hEq]
      exact hContents.fits other
  · intro other group i b hBlock
    obtain ⟨hNe, hBlock⟩ := hListed hBlock
    rw [hSame other hNe]
    exact hContents.written other group i b hBlock
  · intro other group i b hBlock hOpen
    obtain ⟨hNe, hBlock⟩ := hListed hBlock
    rw [hSame other hNe] at hOpen
    obtain ⟨hNone, hAlone⟩ := hContents.alone other group i b hBlock hOpen
    refine ⟨?_, fun id' group' i' hBlock' => hAlone id' group' i' (hListed hBlock').2⟩
    rcases hMarked.blockHash b with hHash | ⟨-, group', hMem⟩
    · exact hHash.trans hNone
    · -- a marked block is the other request's
      obtain ⟨i', hBlock'⟩ := List.mem_iff_getElem?.mp hMem
      exact absurd (hAlone id group' i' hBlock').1.symm hNe
  · intro b hash group hHash
    rcases hMarked.blockHash b with hOld | ⟨⟨block, lastSubHash, group', hNew⟩, -⟩
    · exact hContents.hashed b hash group (hOld ▸ hHash)
    · have hClash := hNew.symm.trans hHash
      cases hClash
  · intro group b hashes hHashes
    exact hContents.indexed group b hashes (hMarked.index ▸ hHashes)
  · intro other group i b hashes hBlock hHashes
    obtain ⟨hNe, hBlock⟩ := hListed hBlock
    rw [hSame other hNe]
    exact hContents.within other group i b hashes hBlock (hMarked.index ▸ hHashes)
  · refine hContents.oneGroup_of _ fun group b hUses => ?_
    cases hUses with
    | listed hBlock => exact .listed (hListed hBlock).2
    | indexed hHashes => exact .indexed (hMarked.index ▸ hHashes)
    | hashed hHash =>
        rcases hMarked.blockHash b with hOld | ⟨⟨block, lastSubHash, group', hNew⟩, -⟩
        · exact .hashed (hOld ▸ hHash)
        · have hClash := hNew.symm.trans hHash
          cases hClash
  · intro other k hash hGet
    by_cases hEq : other = id
    · subst hEq
      simp at hGet
    · simp only [Function.update_of_ne hEq, hMarked.reqSubHashes] at hGet
      exact hContents.subHashes other k hash hGet

/-- A request gives its blocks back. -/
theorem Contents.release (hContents : Contents cfg hashing subBlockSize slots tokens computed kv)
    (hSize : cfg.subBlockSize = some subBlockSize) {id : ReqId} {request : Request}
    (hTokens : request.allTokenIds = tokens id) (hComputed : request.numComputedTokens = computed id)
    {computed' : ReqId → Nat} (hSame : ∀ other, other ≠ id → computed' other = computed other)
    (hFits : computed' id ≤ (tokens id).length) :
    Contents cfg hashing subBlockSize slots tokens computed'
      ((kv.settle cfg hashing id request).popBlocks id) := by
  have hPending : Contents cfg hashing subBlockSize slots tokens computed
      (kv.settlePending cfg hashing subBlockSize id request) := by
    unfold settlePending
    split
    · have hDropped : Contents cfg hashing subBlockSize slots tokens computed
          { kv with pendingIndexing := kv.pendingIndexing.filter (·.1 ≠ id) } :=
        hContents.congr rfl rfl rfl rfl
      exact hDropped.indexNewlyCachedBlocks hSize hTokens _
    · exact hContents.congr rfl rfl rfl rfl
  have hIndexed := hPending.indexPartialBlock hSize hTokens hComputed
  -- the marks alone tell the two ways of indexing the last block apart
  have hMarked : MarkedBy id
      (Manager.indexPartialBlock cfg hashing subBlockSize
        (kv.settlePending cfg hashing subBlockSize id request) id request false)
      (Manager.indexPartialBlock cfg hashing subBlockSize
        (kv.settlePending cfg hashing subBlockSize id request) id request true) :=
    List.foldl_rel ⟨rfl, rfl, rfl, fun _ => .inl rfl⟩ fun group _ _ _ hMid =>
      hMid.indexPartialGroup request group
  have hPopped := hIndexed.pop hMarked hSame hFits
  rw [settle_eq hSize]
  exact hPopped

/-! ### Handing blocks out -/

/-- The manager with these blocks listed for a request. -/
def listing (kv : Manager H) (id : ReqId) (blocks : Blocks) : Manager H :=
  { kv with reqToBlocks := Function.update kv.reqToBlocks id blocks }

/-- A request without blocks takes cached full ones. -/
theorem Contents.takeHits (hContents : Contents cfg hashing subBlockSize slots tokens computed kv)
    (hSize : cfg.subBlockSize = some subBlockSize) (hFree : CollisionFree hashing.hashBlockTokens)
    {id : ReqId} {request : Request} (hTokens : request.allTokenIds = tokens id) {hits : Blocks}
    {numLocal : Nat} (hHits : CachedHits cfg hashing kv id request hits numLocal) :
    Contents cfg hashing subBlockSize slots tokens (Function.update computed id numLocal)
      (kv.listing id hits) := by
  have hListed : ∀ {other : ReqId} {group i : Nat} {b : BlockId},
      ((Function.update kv.reqToBlocks id hits) other group)[i]? = some b →
      (other = id ∧ (hits group)[i]? = some b) ∨
        (other ≠ id ∧ (kv.reqToBlocks other group)[i]? = some b) := by
    intro other group i b hBlock
    by_cases hEq : other = id
    · subst hEq
      rw [Function.update_self] at hBlock
      exact .inl ⟨rfl, hBlock⟩
    · rw [Function.update_of_ne hEq] at hBlock
      exact .inr ⟨hEq, hBlock⟩
  have hShort : numLocal ≤ (tokens id).length := by
    have hLength : request.numTokens = (tokens id).length := congrArg List.length hTokens
    rcases hHits.short with hZero | hLe <;> omega
  -- a hit is a whole block of the request's own tokens, under its hash
  have hHit : ∀ {group i : Nat} {b : BlockId}, (hits group)[i]? = some b →
      (i + 1) * cfg.blockSize group ≤ numLocal ∧
      kv.blockHash b = some (.full (fullHash cfg hashing id (tokens id) group i) group) := by
    intro group i b hBlock
    have hGroup : group < cfg.numGroups := by
      by_contra hNot
      rw [hHits.groups group (Nat.not_lt.mp hNot)] at hBlock
      simp at hBlock
    have hLt : i < (hits group).length := (List.getElem?_eq_some_iff.mp hBlock).1
    refine ⟨?_, hTokens ▸ hHits.hash group hGroup i b hBlock⟩
    rw [← hHits.length group hGroup]
    exact Nat.mul_le_mul_right _ hLt
  have hUses := hContents.oneGroup_of (kv.listing id hits) fun group b hUses => by
      cases hUses with
      | indexed hHashes => exact .indexed hHashes
      | hashed hHash => exact .hashed hHash
      | listed hBlock =>
          rcases hListed hBlock with ⟨-, hBlock⟩ | ⟨-, hBlock⟩
          · exact .hashed (hHit hBlock).2
          · exact .listed hBlock
  refine { hContents with
    groups := ?_, fits := ?_, written := ?_, alone := ?_, within := ?_, oneGroup := hUses }
  · intro other group hGroup
    by_cases hEq : other = id
    · subst hEq
      simpa [listing] using hHits.groups group hGroup
    · simpa [listing, hEq] using hContents.groups other group hGroup
  · intro other
    by_cases hEq : other = id
    · subst hEq
      simpa using hShort
    · simpa [hEq] using hContents.fits other
  · intro other group i b hBlock
    rcases hListed hBlock with ⟨rfl, hIn⟩ | ⟨hNe, hBlock⟩
    · obtain ⟨hLe, hHash⟩ := hHit hIn
      obtain ⟨extra, tokens', i', hName, hLength, hFilled⟩ := hContents.hashed b _ group hHash
      obtain ⟨rfl, hTake⟩ := prefixHash_injective hFree hName
      rw [Nat.add_mul, Nat.one_mul] at hTake
      exact (hFilled.congr hTake.symm).mono (Nat.min_le_left _ _)
    · rw [Function.update_of_ne hNe]
      exact hContents.written other group i b hBlock
  · intro other group i b hBlock hOpen
    rcases hListed hBlock with ⟨rfl, hIn⟩ | ⟨hNe, hBlock⟩
    · rw [Function.update_self] at hOpen
      exact absurd (hHit hIn).1 (Nat.not_le.mpr hOpen)
    · rw [Function.update_of_ne hNe] at hOpen
      obtain ⟨hNone, hAlone⟩ := hContents.alone other group i b hBlock hOpen
      refine ⟨hNone, fun id' group' i' hBlock' => ?_⟩
      rcases hListed hBlock' with ⟨-, hBlock'⟩ | ⟨-, hBlock'⟩
      · -- a hit is hashed, and an open block is not
        exact absurd ((hHit hBlock').2.symm.trans hNone) (by simp)
      · exact hAlone id' group' i' hBlock'
  · intro other group i b hashes hBlock hHashes
    rcases hListed hBlock with ⟨rfl, hIn⟩ | ⟨hNe, hBlock⟩
    · have hLe := (hHit hIn).1
      have hGroup : group < cfg.numGroups := by
        by_contra hNot
        rw [hHits.groups group (Nat.not_lt.mp hNot)] at hIn
        simp at hIn
      have hCover : hashes.length * subBlockSize ≤ cfg.blockSize group := by
        rw [← blockSize_eq hSize hGroup]
        exact Nat.mul_le_mul_right _ (hContents.indexed group b hashes hHashes).2.1
      rw [Function.update_self]
      rw [Nat.add_mul, Nat.one_mul] at hLe
      omega
    · rw [Function.update_of_ne hNe]
      exact hContents.within other group i b hashes hBlock hHashes

/-- A block has one place in a list without repetitions. -/
theorem allBlocks_unique {blocks : Blocks} (hNodup : (allBlocks cfg blocks).Nodup)
    {group group' i i' : Nat} (hGroup : group < cfg.numGroups) (hGroup' : group' < cfg.numGroups)
    {b : BlockId} (hBlock : (blocks group)[i]? = some b) (hBlock' : (blocks group')[i']? = some b) :
    group' = group ∧ i' = i := by
  rw [allBlocks, List.nodup_flatMap] at hNodup
  have hSame : group' = group := by
    by_contra hNe
    have : Std.Symm (Function.onFun List.Disjoint blocks) :=
      ⟨fun _ _ hDisjoint _ hMem hOther => hDisjoint hOther hMem⟩
    exact hNodup.2.forall (List.mem_range.mpr hGroup') (List.mem_range.mpr hGroup) hNe
      (List.mem_of_getElem? hBlock') (List.mem_of_getElem? hBlock)
  subst hSame
  obtain ⟨hLt, -⟩ := List.getElem?_eq_some_iff.mp hBlock'
  exact ⟨rfl, (List.getElem?_inj hLt (hNodup.1 group' (List.mem_range.mpr hGroup))).mp
    (hBlock'.trans hBlock.symm)⟩

/-- Fresh blocks go behind the ones that hold what the request has computed. -/
theorem Contents.giveBlocks {id : ReqId} {hits newBlocks : Blocks} {numTokens : Nat}
    (hContents : Contents cfg hashing subBlockSize slots tokens computed
      (kv.listing id fun group => kv.reqToBlocks id group ++ hits group))
    (hNew : NewBlocks cfg kv id hits numTokens newBlocks)
    (hUnlisted : ∀ b ∈ allBlocks cfg newBlocks, ∀ other group, b ∉ kv.reqToBlocks other group)
    (hFresh : ∀ b ∈ allBlocks cfg newBlocks, kv.blockHash b = none →
      ∀ group, (kv.index group).blockHashes b = none)
    (hGroups : ∀ group, cfg.numGroups ≤ group → hits group = [])
    (hCovered : ∀ group < cfg.numGroups, computed id ≤
      ((kv.reqToBlocks id group).length + (hits group).length) * cfg.blockSize group) :
    Contents cfg hashing subBlockSize slots tokens computed
      (giveBlocks cfg kv id hits newBlocks) := by
  have hNewGroup : ∀ {group i : Nat} {b : BlockId}, (newBlocks group)[i]? = some b →
      group < cfg.numGroups ∧ b ∈ allBlocks cfg newBlocks := by
    intro group i b hBlock
    have hGroup : group < cfg.numGroups := by
      by_contra hNot
      rw [hNew.groups group (Nat.not_lt.mp hNot)] at hBlock
      simp at hBlock
    exact ⟨hGroup, mem_allBlocks.mpr ⟨group, hGroup, List.mem_of_getElem? hBlock⟩⟩
  -- a listed block is an old one, or a new one at its place behind the old ones
  have hListed : ∀ {other : ReqId} {group i : Nat} {b : BlockId},
      ((Manager.giveBlocks cfg kv id hits newBlocks).reqToBlocks other group)[i]? = some b →
      (b ∉ allBlocks cfg newBlocks ∧ ((kv.listing id
        fun group => kv.reqToBlocks id group ++ hits group).reqToBlocks other group)[i]? = some b) ∨
      (other = id ∧ (kv.reqToBlocks id group).length + (hits group).length ≤ i ∧
        (newBlocks group)[i - ((kv.reqToBlocks id group).length + (hits group).length)]? =
          some b) := by
    intro other group i b hBlock
    rw [giveBlocks_reqToBlocks] at hBlock
    by_cases hEq : other = id
    · subst hEq
      rw [Function.update_self, ← List.append_assoc, List.getElem?_append] at hBlock
      split at hBlock
      · refine .inl ⟨fun hMem => ?_, by simpa [listing] using hBlock⟩
        rcases List.mem_append.mp (List.mem_of_getElem? hBlock) with hOwn | hHit
        · exact hUnlisted b hMem other group hOwn
        · refine (hNew.refCnt_eq_zero hMem).2 (mem_allBlocks.mpr ⟨group, ?_, hHit⟩)
          by_contra hNot
          rw [hGroups group (Nat.not_lt.mp hNot)] at hHit
          cases hHit
      · rename_i hGe
        rw [List.length_append] at hGe hBlock
        exact .inr ⟨rfl, Nat.not_lt.mp hGe, hBlock⟩
    · rw [Function.update_of_ne hEq] at hBlock
      exact .inl ⟨fun hMem => hUnlisted b hMem other group (List.mem_of_getElem? hBlock),
        by simpa [listing, hEq] using hBlock⟩
  have hHashOf : ∀ {b : BlockId}, (Manager.giveBlocks cfg kv id hits newBlocks).blockHash b =
      if b ∈ allBlocks cfg newBlocks then none else kv.blockHash b := giveBlocks_blockHash ..
  have hHashesOf : ∀ {group : Nat} {b : BlockId} {hashes : List H},
      ((Manager.giveBlocks cfg kv id hits newBlocks).index group).blockHashes b = some hashes →
      b ∉ allBlocks cfg newBlocks ∧ (kv.index group).blockHashes b = some hashes := by
    intro group b hashes hHashes
    rw [giveBlocks_blockHashes] at hHashes
    split at hHashes
    · cases hHashes
    · rename_i hNot
      refine ⟨fun hMem => ?_, hHashes⟩
      by_cases hHash : kv.blockHash b = none
      · rw [hFresh b hMem hHash group] at hHashes
        cases hHashes
      · exact hNot ⟨hMem, hHash⟩
  have hOldUses : ∀ {group : Nat} {b : BlockId}, b ∉ allBlocks cfg newBlocks →
      Uses (Manager.giveBlocks cfg kv id hits newBlocks) group b →
      Uses (kv.listing id fun group => kv.reqToBlocks id group ++ hits group) group b := by
    intro group b hOld hUses
    cases hUses with
    | indexed hHashes => exact .indexed (hHashesOf hHashes).2
    | hashed hHash =>
        rw [hHashOf, if_neg hOld] at hHash
        exact .hashed hHash
    | listed hBlock =>
        rcases hListed hBlock with ⟨-, hBlock⟩ | ⟨-, -, hBlock⟩
        · exact .listed hBlock
        · exact absurd (hNewGroup hBlock).2 hOld
  have hNewUses : ∀ {group : Nat} {b : BlockId}, b ∈ allBlocks cfg newBlocks →
      Uses (Manager.giveBlocks cfg kv id hits newBlocks) group b →
      ∃ i : Nat, (newBlocks group)[i]? = some b := by
    intro group b hMem hUses
    cases hUses with
    | indexed hHashes => exact absurd hMem (hHashesOf hHashes).1
    | hashed hHash =>
        rw [hHashOf, if_pos hMem] at hHash
        cases hHash
    | listed hBlock =>
        rcases hListed hBlock with ⟨hOld, -⟩ | ⟨-, -, hBlock⟩
        · exact absurd hMem hOld
        · exact ⟨_, hBlock⟩
  constructor
  · intro other group hGroup
    have hOld := hContents.groups other group hGroup
    rw [giveBlocks_reqToBlocks]
    by_cases hEq : other = id
    · subst hEq
      simp only [listing, Function.update_self] at hOld ⊢
      rw [← List.append_assoc, hOld, hNew.groups group hGroup, List.append_nil]
    · simpa [listing, hEq] using hOld
  · exact hContents.fits
  · intro other group i b hBlock
    rcases hListed hBlock with ⟨-, hOld⟩ | ⟨rfl, hGe, hFirst⟩
    · exact hContents.written other group i b hOld
    · -- nothing of a new block is computed yet
      have hLe := le_trans (hCovered group (hNewGroup hFirst).1)
        (Nat.mul_le_mul_right (cfg.blockSize group) hGe)
      rw [Nat.sub_eq_zero_of_le hLe, Nat.min_zero]
      exact fun t hLt => absurd hLt (Nat.not_lt_zero t)
  · intro other group i b hBlock hOpen
    rw [hHashOf]
    rcases hListed hBlock with ⟨hOld, hIn⟩ | ⟨rfl, hGe, hFirst⟩
    · obtain ⟨hNone, hAlone⟩ := hContents.alone other group i b hIn hOpen
      refine ⟨by rw [if_neg hOld]; exact hNone, fun id' group' i' hBlock' => ?_⟩
      rcases hListed hBlock' with ⟨-, hIn'⟩ | ⟨-, -, hFirst'⟩
      · exact hAlone id' group' i' hIn'
      · exact absurd (hNewGroup hFirst').2 hOld
    · obtain ⟨hGroup, hMem⟩ := hNewGroup hFirst
      refine ⟨by rw [if_pos hMem], fun id' group' i' hBlock' => ?_⟩
      rcases hListed hBlock' with ⟨hOld, -⟩ | ⟨rfl, hGe', hFirst'⟩
      · exact absurd hMem hOld
      · obtain ⟨rfl, hSame⟩ := allBlocks_unique hNew.nodup hGroup (hNewGroup hFirst').1 hFirst hFirst'
        exact ⟨rfl, rfl, by omega⟩
  · intro b hash group hHash
    rw [hHashOf] at hHash
    split at hHash
    · cases hHash
    · exact hContents.hashed b hash group hHash
  · intro group b hashes hHashes
    exact hContents.indexed group b hashes (hHashesOf hHashes).2
  · intro other group i b hashes hBlock hHashes
    obtain ⟨hOld, hHashes⟩ := hHashesOf hHashes
    rcases hListed hBlock with ⟨-, hIn⟩ | ⟨-, -, hFirst⟩
    · exact hContents.within other group i b hashes hIn hHashes
    · exact absurd (hNewGroup hFirst).2 hOld
  · intro b group group' hUses hUses'
    by_cases hMem : b ∈ allBlocks cfg newBlocks
    · obtain ⟨i, hFirst⟩ := hNewUses hMem hUses
      obtain ⟨i', hFirst'⟩ := hNewUses hMem hUses'
      exact (allBlocks_unique hNew.nodup (hNewGroup hFirst').1 (hNewGroup hFirst).1 hFirst' hFirst).1
    · exact hContents.oneGroup b group group' (hOldUses hMem hUses) (hOldUses hMem hUses')
  · rw [giveBlocks_reqSubHashes]
    exact hContents.subHashes

/-! ### Writing slots -/

/-- Slots past what a request has computed are written, in blocks it lists, and the
requests advance as far as the writes reach. -/
theorem Contents.write (hContents : Contents cfg hashing subBlockSize slots tokens computed kv)
    {slots' : BlockId → Nat → Option (List Token)} {computed' : ReqId → Nat}
    (hMono : ∀ id, computed id ≤ computed' id) (hFits : ∀ id, computed' id ≤ (tokens id).length)
    (hChanges : ∀ b t, slots' b t ≠ slots b t → ∃ (id : ReqId) (group i : Nat),
      (kv.reqToBlocks id group)[i]? = some b ∧ t < cfg.blockSize group ∧
        computed id ≤ i * cfg.blockSize group + t)
    (hWrites : ∀ (id : ReqId) (group i : Nat) (b : BlockId), (kv.reqToBlocks id group)[i]? = some b →
      ∀ t < cfg.blockSize group, computed id ≤ i * cfg.blockSize group + t →
        i * cfg.blockSize group + t < computed' id →
          slots' b t = some ((tokens id).take (i * cfg.blockSize group + t + 1))) :
    Contents cfg hashing subBlockSize slots' tokens computed' kv := by
  have hOpen : ∀ {id : ReqId} {group i t : Nat}, t < cfg.blockSize group →
      computed id ≤ i * cfg.blockSize group + t → computed id < (i + 1) * cfg.blockSize group := by
    intro id group i t hLt hLe
    rw [Nat.add_mul, Nat.one_mul]
    omega
  refine { hContents with fits := hFits, written := ?_, alone := ?_, hashed := ?_, indexed := ?_, within := ?_ }
  · intro id group i b hBlock t hLt
    by_cases hOld : i * cfg.blockSize group + t < computed id
    · by_cases hSame : slots' b t = slots b t
      · rw [hSame]
        exact hContents.written id group i b hBlock t (by omega)
      · -- the changed slot would be one that the request has computed
        obtain ⟨id', group', i', hBlock', hLt', hLe'⟩ := hChanges b t hSame
        obtain ⟨rfl, rfl, rfl⟩ :=
          (hContents.alone id' group' i' b hBlock' (hOpen hLt' hLe')).2 id group i hBlock
        omega
    · exact hWrites id group i b hBlock t (by omega) (Nat.not_lt.mp hOld) (by omega)
  · intro id group i b hBlock hLt
    exact hContents.alone id group i b hBlock (lt_of_le_of_lt (hMono id) hLt)
  · intro b hash group hHash
    obtain ⟨extra, tokens', i, hName, hLength, hFilled⟩ := hContents.hashed b hash group hHash
    refine ⟨extra, tokens', i, hName, hLength, hFilled.of_eq fun t _ => ?_⟩
    by_contra hSame
    obtain ⟨id', group', i', hBlock', hLt', hLe'⟩ := hChanges b t hSame
    rw [(hContents.alone id' group' i' b hBlock' (hOpen hLt' hLe')).1] at hHash
    cases hHash
  · intro group b hashes hHashes
    obtain ⟨hNe, hShort, tokens', i, hLength, hNamed, hFilled⟩ :=
      hContents.indexed group b hashes hHashes
    refine ⟨hNe, hShort, tokens', i, hLength, hNamed, hFilled.of_eq fun t hLt => ?_⟩
    by_contra hSame
    obtain ⟨id', group', i', hBlock', hLt', hLe'⟩ := hChanges b t hSame
    obtain rfl := hContents.oneGroup b group group' (.indexed hHashes) (.listed hBlock')
    have hWithin := hContents.within id' group i' b hashes hBlock' hHashes
    omega
  · intro id group i b hashes hBlock hHashes
    exact le_trans (hContents.within id group i b hashes hBlock hHashes) (hMono id)

/-- Requests are given more tokens. -/
theorem Contents.grow (hContents : Contents cfg hashing subBlockSize slots tokens computed kv)
    {tokens' : ReqId → List Token} (hPrefix : ∀ id, tokens id <+: tokens' id) :
    Contents cfg hashing subBlockSize slots tokens' computed kv := by
  refine { hContents with fits := ?_, written := ?_, subHashes := ?_ }
  · intro id
    exact le_trans (hContents.fits id) (hPrefix id).length_le
  · intro id group i b hBlock
    have hWritten := hContents.written id group i b hBlock
    have hFits := hContents.fits id
    obtain ⟨more, hMore⟩ := hPrefix id
    intro t hLt
    rw [hWritten t hLt, ← hMore, List.take_append_of_le_length (by omega)]
  · intro id k hash hGet
    obtain ⟨hLe, hHash⟩ := hContents.subHashes id k hash hGet
    obtain ⟨more, hMore⟩ := hPrefix id
    rw [← hMore]
    exact ⟨by rw [List.length_append]; omega, hHash.trans (prefixHash_append hLe).symm⟩

/-! ### Partial matches -/

/-- A number has one quotient and one remainder. -/
private theorem quotient_unique {size i i' k k' : Nat} (hSame : i' * size + k' = i * size + k)
    (hLt : k < size) (hLt' : k' < size) : i' = i ∧ k' = k := by
  have hQuotient := congrArg (· / size) hSame
  simp only [Nat.mul_comm _ size, Nat.mul_add_div (Nat.lt_of_le_of_lt (Nat.zero_le k) hLt),
    Nat.div_eq_of_lt hLt, Nat.div_eq_of_lt hLt', Nat.add_zero] at hQuotient
  subst hQuotient
  exact ⟨rfl, Nat.add_left_cancel hSame⟩

/-- The source of a partial match holds the request's own tokens, as far as it matches. -/
theorem Contents.source (hContents : Contents cfg hashing subBlockSize slots tokens computed kv)
    (hSize : cfg.subBlockSize = some subBlockSize) (hFree : CollisionFree hashing.hashBlockTokens)
    {id : ReqId} {group numLocal : Nat} (hGroup : group < cfg.numGroups)
    {found : BlockId × Nat × Nat}
    (hMatch : MatchesGroup cfg subBlockSize kv (kv.reqSubHashes id) numLocal group found) :
    Filled slots found.1 (found.2.2 * subBlockSize) (found.2.1 * cfg.blockSize group) (tokens id) := by
  obtain ⟨-, hPos, hLt, hash, hGet, hMem⟩ := hMatch
  have hWhole := blockSize_eq hSize hGroup
  set spb := cfg.blockSize group / subBlockSize with hSpb
  obtain ⟨hashes, hHashes, hIn⟩ := ((kv.index group).mem_hashToBlocks hash found.1).mp hMem
  obtain ⟨-, hShort, tokens', i, -, hNamed, hFilled⟩ := hContents.indexed group found.1 hashes hHashes
  obtain ⟨k, hHash⟩ := List.mem_iff_getElem?.mp hIn
  have hKLt : k < hashes.length := (List.getElem?_eq_some_iff.mp hHash).1
  -- one hash, so one depth and one prefix
  obtain ⟨extra, hName⟩ := hNamed k hash hHash
  obtain ⟨hDepth, hTake⟩ := prefixHash_injective hFree
    ((hContents.subHashes id _ hash hGet).2.symm.trans hName)
  rw [Nat.add_sub_assoc hPos] at hDepth
  obtain ⟨hIndex, hSub⟩ := quotient_unique hDepth (by omega) (by omega)
  subst hIndex
  have hEnd : (found.2.1 * spb + found.2.2 - 1 + 1) * subBlockSize =
      found.2.1 * cfg.blockSize group + found.2.2 * subBlockSize := by
    rw [Nat.sub_add_cancel (by omega), Nat.add_mul, Nat.mul_assoc, hWhole]
  rw [hEnd] at hTake
  refine Filled.congr (hFilled.mono ?_) hTake.symm
  exact Nat.mul_le_mul_right _ (by omega)

end VllmRbln.SubBlock.Manager
