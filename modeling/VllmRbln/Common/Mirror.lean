import Mathlib.Data.List.Induction
import Mathlib.Data.Set.Basic

/-! A set that a reader keeps in step with its owner by the changes the owner sends. A
change is news if the reader learns something from it. -/
namespace Mirror

variable {K : Type*}

inductive Change (K : Type*)
  | insert (keys : List K)
  | remove (keys : List K)
  | clear

namespace Change

def apply (held : Set K) : Change K → Set K
  | insert keys => held ∪ {key | key ∈ keys}
  | remove keys => held \ {key | key ∈ keys}
  | clear => ∅

/-- Something new comes in, or something goes and all that goes was there, once each. -/
def News (held : Set K) : Change K → Prop
  | insert keys => ∃ key ∈ keys, key ∉ held
  | remove keys => keys ≠ [] ∧ keys.Nodup ∧ ∀ key ∈ keys, key ∈ held
  | clear => True

end Change

/-- What the reader holds after the changes, oldest first. -/
def replay (changes : List (Change K)) : Set K := changes.foldl Change.apply ∅

theorem replay_append (changes more : List (Change K)) :
    replay (changes ++ more) = more.foldl Change.apply (replay changes) :=
  List.foldl_append

/-- The changes lead to this set, and each was news when it came. -/
structure Mirrors (held : Set K) (changes : List (Change K)) : Prop where
  replay_eq : replay changes = held
  news : ∀ before change after, changes = before ++ change :: after → change.News (replay before)

theorem Mirrors.nil : Mirrors (∅ : Set K) [] where
  replay_eq := rfl
  news before change after hSplit := by simp at hSplit

theorem Mirrors.append {held : Set K} {changes : List (Change K)} {change : Change K}
    (hMirrors : Mirrors held changes) (hNews : change.News held) :
    Mirrors (change.apply held) (changes ++ [change]) where
  replay_eq := by rw [replay_append, hMirrors.replay_eq]; rfl
  news before other after hSplit := by
    induction after using List.reverseRecOn with
    | nil =>
        obtain ⟨rfl, hLast⟩ := List.append_inj' hSplit rfl
        obtain rfl := List.singleton_inj.mp hLast
        rw [hMirrors.replay_eq]
        exact hNews
    | append_singleton after last =>
        rw [← List.cons_append, ← List.append_assoc] at hSplit
        obtain ⟨hFirst, -⟩ := List.append_inj' hSplit rfl
        exact hMirrors.news before other after hFirst

end Mirror
