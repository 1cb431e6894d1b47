import Mathlib.Data.List.Basic
import Mathlib.Logic.Function.Basic

/-! The sub-block index of one KV group (`SubBlockIndex` in
`v1/core/rbln_kv_cache_manager.py`): which physical blocks hold a given chained
sub-block hash, with the reverse map that eviction needs. -/
namespace VllmRbln.SubBlock

abbrev BlockId := Nat

/-- The two maps of the index. A hash names a block exactly when the block's own
list names the hash. -/
structure SubBlockIndex (H : Type) where
  hashToBlocks : H → List BlockId
  blockHashes : BlockId → Option (List H)
  mem_hashToBlocks : ∀ h b, b ∈ hashToBlocks h ↔ ∃ hs, blockHashes b = some hs ∧ h ∈ hs

namespace SubBlockIndex

variable {H : Type}

def empty : SubBlockIndex H where
  hashToBlocks _ := []
  blockHashes _ := none
  mem_hashToBlocks := by simp

/-- The hashes recorded for a block, none when it is not indexed. -/
def recorded (index : SubBlockIndex H) (block : BlockId) : List H :=
  (index.blockHashes block).getD []

def contains (index : SubBlockIndex H) (block : BlockId) : Bool :=
  (index.blockHashes block).isSome

/-- Walk the hashes while some block holds the current one. Any holder of the
last matched hash is returned; `choose` stands for the set's iteration order. -/
def longestMatch (index : SubBlockIndex H) (choose : List BlockId → Nat) :
    Option BlockId → Nat → List H → Option BlockId × Nat
  | best, depth, [] => (best, depth)
  | best, depth, h :: rest =>
      match index.hashToBlocks h with
      | [] => (best, depth)
      | b :: bs =>
          longestMatch index choose
            (some ((b :: bs).getD (choose (b :: bs) % (bs.length + 1)) b)) (depth + 1) rest

/-- The block returned is a holder of the last hash matched, and only of that one
for certain. -/
theorem longestMatch_spec (index : SubBlockIndex H) (choose : List BlockId → Nat)
    (query : List H) {best : Option BlockId} {depth : Nat} {b : BlockId} {n : Nat}
    (hMatch : index.longestMatch choose best depth query = (some b, n)) :
    (best = some b ∧ n = depth) ∨
      ∃ k h, n = depth + k + 1 ∧ query[k]? = some h ∧ b ∈ index.hashToBlocks h := by
  induction query generalizing best depth with
  | nil =>
      simp only [longestMatch, Prod.mk.injEq] at hMatch
      exact .inl ⟨hMatch.1, hMatch.2.symm⟩
  | cons h rest ih =>
      simp only [longestMatch] at hMatch
      split at hMatch
      · simp only [Prod.mk.injEq] at hMatch
        exact .inl ⟨hMatch.1, hMatch.2.symm⟩
      · rename_i head tail hBucket
        rcases ih hMatch with ⟨hBest, hDepth⟩ | ⟨k, h', hDepth, hGet, hMem⟩
        · refine .inr ⟨0, h, by omega, by simp, ?_⟩
          have hLt : choose (head :: tail) % (tail.length + 1) < (head :: tail).length :=
            Nat.mod_lt _ (by simp)
          rw [hBucket, ← Option.some.inj hBest, List.getD, List.getElem?_eq_getElem hLt]
          exact List.getElem_mem hLt
        · exact .inr ⟨k + 1, h', by omega, by simpa using hGet, hMem⟩

variable [DecidableEq H]

/-- Index a block, or extend what is recorded for it: only the hashes past the
recorded ones are added. -/
def update (index : SubBlockIndex H) (block : BlockId) (subBlockHashes : List H) :
    SubBlockIndex H where
  hashToBlocks h :=
    if h ∈ subBlockHashes.drop (index.recorded block).length ∧ block ∉ index.hashToBlocks h then
      block :: index.hashToBlocks h
    else index.hashToBlocks h
  blockHashes := Function.update index.blockHashes block
    (some (index.recorded block ++ subBlockHashes.drop (index.recorded block).length))
  mem_hashToBlocks h b := by
    have hOld := index.mem_hashToBlocks h
    have hRecorded : block ∈ index.hashToBlocks h ↔ h ∈ index.recorded block := by
      rw [hOld, recorded]
      cases index.blockHashes block <;> simp
    by_cases hBlock : b = block
    · subst hBlock
      simp only [Function.update_self, Option.some.injEq, exists_eq_left', List.mem_append,
        ← hRecorded]
      split <;> simp_all
    · simp only [Function.update_of_ne hBlock, ← hOld]
      split <;> simp [hBlock]

/-- Remove a block from the index when it is evicted. -/
def pop (index : SubBlockIndex H) (block : BlockId) : SubBlockIndex H where
  hashToBlocks h :=
    if h ∈ index.recorded block then (index.hashToBlocks h).filter (· ≠ block)
    else index.hashToBlocks h
  blockHashes := Function.update index.blockHashes block none
  mem_hashToBlocks h b := by
    have hOld := index.mem_hashToBlocks h
    have hRecorded : block ∈ index.hashToBlocks h ↔ h ∈ index.recorded block := by
      rw [hOld, recorded]
      cases index.blockHashes block <;> simp
    by_cases hBlock : b = block
    · subst hBlock
      simp only [Function.update_self, ← hRecorded]
      split <;> simp_all
    · simp only [Function.update_of_ne hBlock, ← hOld]
      split <;> simp [hBlock]

@[simp]
theorem recorded_update_self (index : SubBlockIndex H) (block : BlockId) (hashes : List H) :
    (index.update block hashes).recorded block =
      index.recorded block ++ hashes.drop (index.recorded block).length := by
  simp [update, recorded]

theorem blockHashes_update_of_ne (index : SubBlockIndex H) {block other : BlockId}
    (hNe : other ≠ block) (hashes : List H) :
    (index.update block hashes).blockHashes other = index.blockHashes other :=
  Function.update_of_ne hNe _ _

theorem recorded_update_of_ne (index : SubBlockIndex H) {block other : BlockId}
    (hNe : other ≠ block) (hashes : List H) :
    (index.update block hashes).recorded other = index.recorded other := by
  simp [recorded, blockHashes_update_of_ne index hNe]

@[simp]
theorem contains_update (index : SubBlockIndex H) (block other : BlockId) (hashes : List H) :
    (index.update block hashes).contains other = (decide (other = block) || index.contains other) := by
  by_cases hEq : other = block
  · subst hEq
    simp [contains, update]
  · simp [contains, blockHashes_update_of_ne index hEq, hEq]

theorem blockHashes_pop_of_ne (index : SubBlockIndex H) {block other : BlockId}
    (hNe : other ≠ block) : (index.pop block).blockHashes other = index.blockHashes other :=
  Function.update_of_ne hNe _ _

@[simp]
theorem blockHashes_pop_self (index : SubBlockIndex H) (block : BlockId) :
    (index.pop block).blockHashes block = none :=
  Function.update_self _ _ _

@[simp]
theorem contains_pop (index : SubBlockIndex H) (block other : BlockId) :
    (index.pop block).contains other = (decide (other ≠ block) && index.contains other) := by
  by_cases hEq : other = block
  · subst hEq
    simp [contains]
  · simp [contains, blockHashes_pop_of_ne index hEq, hEq]

end SubBlockIndex

end VllmRbln.SubBlock
