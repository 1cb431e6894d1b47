import Mathlib.Data.List.Basic

/-! Copies of byte ranges into one memory, from several others and in no fixed order. A byte ends
with the value that every copy covering it brings. -/
namespace Copies

variable {σ β : Type*}

/-- A range of one memory's bytes, and where they go. -/
structure Copy (σ : Type*) where
  source : σ
  src : Nat
  dst : Nat
  len : Nat

namespace Copy

def Covers (copy : Copy σ) (x : Nat) : Prop := copy.dst ≤ x ∧ x < copy.dst + copy.len

instance (copy : Copy σ) (x : Nat) : Decidable (copy.Covers x) :=
  inferInstanceAs (Decidable (_ ∧ _))

/-- The value it brings to a byte that it covers. -/
def value (memories : σ → Nat → β) (copy : Copy σ) (x : Nat) : β :=
  memories copy.source (copy.src + (x - copy.dst))

def run (memories : σ → Nat → β) (memory : Nat → β) (copy : Copy σ) : Nat → β :=
  fun x => if copy.Covers x then copy.value memories x else memory x

end Copy

/-- The memory after the copies, done one after the other. -/
def runAll (memories : σ → Nat → β) (memory : Nat → β) (copies : List (Copy σ)) : Nat → β :=
  copies.foldl (Copy.run memories) memory

variable {memories : σ → Nat → β} {memory : Nat → β} {copies : List (Copy σ)} {x : Nat}

theorem runAll_frame (hNone : ∀ copy ∈ copies, ¬ copy.Covers x) :
    runAll memories memory copies x = memory x := by
  induction copies generalizing memory with
  | nil => rfl
  | cons copy copies ih =>
      have hRest := @ih (Copy.run memories memory copy)
        fun other hMem => hNone other (List.mem_cons_of_mem _ hMem)
      exact hRest.trans (if_neg (hNone copy List.mem_cons_self))

/-- Whatever the order, if the copies that cover a byte agree on it. -/
theorem runAll_covered {v : β} (hSome : ∃ copy ∈ copies, copy.Covers x)
    (hAll : ∀ copy ∈ copies, copy.Covers x → copy.value memories x = v) :
    runAll memories memory copies x = v := by
  induction copies generalizing memory with
  | nil =>
      obtain ⟨copy, hMem, -⟩ := hSome
      cases hMem
  | cons copy copies ih =>
      have hRest : ∀ other ∈ copies, other.Covers x → other.value memories x = v :=
        fun other hMem => hAll other (List.mem_cons_of_mem _ hMem)
      by_cases hLater : ∃ other ∈ copies, other.Covers x
      · exact ih hLater hRest
      · -- this copy is the last to cover the byte
        have hHere : copy.Covers x := by
          obtain ⟨other, hMem, hCovers⟩ := hSome
          rcases List.mem_cons.mp hMem with rfl | hTail
          · exact hCovers
          · exact absurd ⟨other, hTail, hCovers⟩ hLater
        have hFrame : runAll memories (Copy.run memories memory copy) copies x =
            Copy.run memories memory copy x :=
          runAll_frame fun other hMem hCovers => hLater ⟨other, hMem, hCovers⟩
        have hValue : Copy.run memories memory copy x = copy.value memories x := if_pos hHere
        exact hFrame.trans (hValue.trans (hAll copy List.mem_cons_self hHere))

end Copies
