import Mathlib.Data.List.Basic
import Mathlib.Tactic.Ring

/-! Chained hashes of a token sequence cut in pieces of one size: each piece is
hashed with the hash of the piece before it, so a hash names a whole prefix. -/
namespace HashChain

variable {H T X : Type*}

/-- The hash of piece `k`, chained from the first piece. -/
def prefixHash (hash : Option H → List T → X → H) (size : Nat) (extra : Nat → X)
    (tokens : List T) : Nat → H
  | 0 => hash none (tokens.take size) (extra 0)
  | k + 1 => hash (some (prefixHash hash size extra tokens k))
      ((tokens.drop ((k + 1) * size)).take size) (extra ((k + 1) * size))

/-- The hashes of the first `n` pieces. -/
def prefixHashes (hash : Option H → List T → X → H) (size : Nat) (extra : Nat → X)
    (tokens : List T) (n : Nat) : List H :=
  (List.range n).map (prefixHash hash size extra tokens)

section

variable {hash : Option H → List T → X → H} {size : Nat}

@[simp]
theorem prefixHashes_length (extra : Nat → X) (tokens : List T) (n : Nat) :
    (prefixHashes hash size extra tokens n).length = n := by
  simp [prefixHashes]

theorem prefixHashes_getElem? {extra : Nat → X} {tokens : List T} {n k : Nat} (hLt : k < n) :
    (prefixHashes hash size extra tokens n)[k]? = some (prefixHash hash size extra tokens k) := by
  simp [prefixHashes, hLt]

/-- A hash reads no token past its own piece. -/
theorem prefixHash_congr {extra : Nat → X} {tokens tokens' : List T} {k : Nat}
    (hTake : tokens.take ((k + 1) * size) = tokens'.take ((k + 1) * size)) :
    prefixHash hash size extra tokens k = prefixHash hash size extra tokens' k := by
  induction k with
  | zero => simpa [prefixHash] using congrArg (fun l => hash none l (extra 0)) hTake
  | succ k ih =>
      have hShort : tokens.take ((k + 1) * size) = tokens'.take ((k + 1) * size) := by
        have hLe : (k + 1) * size ≤ (k + 1 + 1) * size := Nat.mul_le_mul_right _ (by omega)
        have := congrArg (List.take ((k + 1) * size)) hTake
        simpa [List.take_take, Nat.min_eq_left hLe] using this
      have hPiece : (tokens.drop ((k + 1) * size)).take size =
          (tokens'.drop ((k + 1) * size)).take size := by
        have := congrArg (List.drop ((k + 1) * size)) hTake
        rw [List.drop_take, List.drop_take] at this
        rwa [show (k + 1 + 1) * size - (k + 1) * size = size by
          rw [Nat.add_mul (k + 1) 1]; omega] at this
      simp only [prefixHash, ih hShort, hPiece]

/-- Appended tokens leave the hashes of the pieces already full alone. -/
theorem prefixHash_append {extra : Nat → X} {tokens more : List T} {k : Nat}
    (hLen : (k + 1) * size ≤ tokens.length) :
    prefixHash hash size extra (tokens ++ more) k = prefixHash hash size extra tokens k :=
  prefixHash_congr (List.take_append_of_le_length hLen)

/-- No two different arguments give one hash. -/
def CollisionFree (hash : Option H → List T → X → H) : Prop :=
  ∀ parent parent' piece piece' extra extra',
    hash parent piece extra = hash parent' piece' extra' →
      parent = parent' ∧ piece = piece' ∧ extra = extra'

/-- Without collisions a hash determines the depth and the whole prefix. -/
theorem prefixHash_injective (hFree : CollisionFree hash) {extra extra' : Nat → X}
    {tokens tokens' : List T} {k k' : Nat}
    (hHash : prefixHash hash size extra tokens k = prefixHash hash size extra' tokens' k') :
    k = k' ∧ tokens.take ((k + 1) * size) = tokens'.take ((k + 1) * size) := by
  induction k generalizing k' with
  | zero =>
      cases k' with
      | zero => exact ⟨rfl, by simpa using (hFree _ _ _ _ _ _ hHash).2.1⟩
      | succ k' => exact absurd (hFree _ _ _ _ _ _ hHash).1 (by simp)
  | succ k ih =>
      cases k' with
      | zero => exact absurd (hFree _ _ _ _ _ _ hHash).1 (by simp)
      | succ k' =>
          obtain ⟨hParent, hPiece, -⟩ := hFree _ _ _ _ _ _ hHash
          obtain ⟨rfl, hTake⟩ := ih (Option.some.inj hParent)
          refine ⟨rfl, ?_⟩
          rw [Nat.add_mul (k + 1) 1, Nat.one_mul, List.take_add, List.take_add, hTake, hPiece]

end

/-! ### Chains from any parent -/

/-- The hashes of the pieces that the extra keys are for, chained from a parent. -/
def rehash (hash : Option H → List T → X → H) (size : Nat) : Option H → List T → List X → List H
  | _, _, [] => []
  | parent, tokens, extra :: extras =>
      let h := hash parent (tokens.take size) extra
      h :: rehash hash size (some h) (tokens.drop size) extras

section

variable {hash : Option H → List T → X → H} {size : Nat}

@[simp]
theorem rehash_length (parent : Option H) (tokens : List T) (extras : List X) :
    (rehash hash size parent tokens extras).length = extras.length := by
  induction extras generalizing parent tokens with
  | nil => rfl
  | cons extra extras ih => rw [rehash, List.length_cons, ih, List.length_cons]

/-- The chain of the first pieces is the first part of the chain. -/
theorem rehash_take (parent : Option H) (tokens : List T) (extras : List X) (n : Nat) :
    rehash hash size parent tokens (extras.take n) =
      (rehash hash size parent tokens extras).take n := by
  induction extras generalizing parent tokens n with
  | nil => simp [rehash]
  | cons extra extras ih =>
      cases n with
      | zero => rfl
      | succ n => rw [List.take_succ_cons, rehash, rehash, List.take_succ_cons, ih]

/-- A chain goes on from its last hash. -/
theorem rehash_append (parent : Option H) (tokens : List T) (extras more : List X) :
    rehash hash size parent tokens (extras ++ more) =
      rehash hash size parent tokens extras ++
        rehash hash size ((rehash hash size parent tokens extras).getLast?.or parent)
          (tokens.drop (extras.length * size)) more := by
  induction extras generalizing parent tokens with
  | nil => simp [rehash]
  | cons extra extras ih =>
      have hLast (h : H) (hashes : List H) (older : Option H) :
          (h :: hashes).getLast?.or older = hashes.getLast?.or (some h) := by
        rw [List.getLast?_cons]
        cases hashes.getLast? <;> rfl
      have hDrop : (tokens.drop size).drop (extras.length * size) =
          tokens.drop ((extra :: extras).length * size) := by
        rw [List.drop_drop, List.length_cons, Nat.succ_mul, Nat.add_comm]
      simp only [rehash, List.cons_append, ih, hLast, hDrop]

/-- A chain reads no token past its last piece. -/
theorem rehash_congr (parent : Option H) {tokens tokens' : List T} {extras : List X}
    (hTake : tokens.take (extras.length * size) = tokens'.take (extras.length * size)) :
    rehash hash size parent tokens extras = rehash hash size parent tokens' extras := by
  induction extras generalizing parent tokens tokens' with
  | nil => rfl
  | cons extra extras ih =>
      rw [List.length_cons, Nat.succ_mul] at hTake
      have hPiece : tokens.take size = tokens'.take size := by
        have hFirst := congrArg (List.take size) hTake
        rwa [List.take_take, List.take_take, Nat.min_eq_left (Nat.le_add_left _ _)] at hFirst
      have hRest : (tokens.drop size).take (extras.length * size) =
          (tokens'.drop size).take (extras.length * size) := by
        have hAfter := congrArg (List.drop size) hTake
        rwa [List.drop_take, List.drop_take, Nat.add_sub_cancel_right] at hAfter
      simp only [rehash, hPiece, ih _ hRest]

/-- Any stretch of a chain is the chain from the hash before it. -/
theorem rehash_drop_take (tokens : List T) (extras : List X) {first count : Nat}
    (hLe : first + count ≤ extras.length) :
    ((rehash hash size none tokens extras).drop first).take count =
      rehash hash size (rehash hash size none tokens (extras.take first)).getLast?
        (tokens.drop (first * size)) ((extras.drop first).take count) := by
  have hSplit : extras = extras.take first ++
      ((extras.drop first).take count ++ (extras.drop first).drop count) := by
    rw [List.take_append_drop, List.take_append_drop]
  have hFirst : (rehash hash size none tokens (extras.take first)).length = first := by
    rw [rehash_length, List.length_take]
    omega
  conv_lhs => rw [hSplit, rehash_append, rehash_append, Option.or_none]
  rw [List.drop_left' hFirst, List.length_take, Nat.min_eq_left (by omega)]
  apply List.take_left'
  rw [rehash_length, List.length_take, List.length_drop]
  omega

end

/-- The hash that forgets nothing. -/
inductive FreeHash (T X : Type)
  | first (piece : List T) (extra : X)
  | next (parent : FreeHash T X) (piece : List T) (extra : X)
  deriving DecidableEq

namespace FreeHash

variable {T X : Type}

def extend : Option (FreeHash T X) → List T → X → FreeHash T X
  | none, piece, extra => .first piece extra
  | some parent, piece, extra => .next parent piece extra

theorem collisionFree : CollisionFree (extend (T := T) (X := X)) := by
  intro parent parent' piece piece' extra extra' hEq
  cases parent <;> cases parent' <;> simp_all [extend]

end FreeHash

end HashChain
