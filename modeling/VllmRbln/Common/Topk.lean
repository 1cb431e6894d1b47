import Mathlib.Data.Fintype.EquivFin
import Mathlib.Data.List.FinRange
import Mathlib.Data.List.Sort
import Mathlib.Order.WithBot

/-! The `k` highest of finitely many values: what such a selection is, one made by sorting, and how
it moves between layouts of the same values. -/
namespace VllmRbln.Topk

variable {ι κ K : Type*} [LinearOrder K] {n k : Nat}

/-- `k` different entries inside `among`, and no other entry there is higher. -/
structure IsTopk (values : ι → K) (among : ι → Prop) (picks : Fin k → ι) : Prop where
  injective : Function.Injective picks
  inside : ∀ i, among (picks i)
  highest : ∀ entry, among entry → entry ∉ Set.range picks → ∀ i, values entry ≤ values (picks i)

/-- The indices by descending value. -/
def descending (values : Fin n → K) : List (Fin n) :=
  (List.finRange n).insertionSort fun i j => values j ≤ values i

theorem length_descending (values : Fin n → K) : (descending values).length = n := by
  rw [descending, List.length_insertionSort, List.length_finRange]

/-- `torch.topk(values, k).indices`. -/
def topk (values : Fin n → K) (k : Nat) (hk : k ≤ n) (i : Fin k) : Fin n :=
  (descending values).get ⟨i, by rw [length_descending]; exact Nat.lt_of_lt_of_le i.isLt hk⟩

theorem nodup_descending (values : Fin n → K) : (descending values).Nodup :=
  (List.perm_insertionSort _ _).nodup_iff.2 (List.nodup_finRange n)

theorem pairwise_descending (values : Fin n → K) :
    (descending values).Pairwise fun i j => values j ≤ values i := by
  have : Std.Total fun i j : Fin n => values j ≤ values i := ⟨fun i j => le_total _ _⟩
  have : IsTrans (Fin n) fun i j => values j ≤ values i := ⟨fun _ _ _ h₁ h₂ => h₂.trans h₁⟩
  exact List.pairwise_insertionSort _ _

theorem topk_isTopk (values : Fin n → K) (hk : k ≤ n) :
    IsTopk values (fun _ => True) (topk values k hk) where
  injective := by
    intro i j hSame
    have hIndex := (nodup_descending values).injective_get hSame
    exact Fin.ext (Fin.mk.inj hIndex)
  inside _ := trivial
  highest := by
    intro entry _ hOut i
    have hMem : entry ∈ descending values :=
      (List.mem_insertionSort _).2 (List.mem_finRange entry)
    obtain ⟨place, hPlace⟩ := List.get_of_mem hMem
    -- an entry left out stands behind the first k
    have hBehind : k ≤ place.val := by
      by_contra hLt
      exact hOut ⟨⟨place, Nat.lt_of_not_le hLt⟩, hPlace⟩
    have hBefore : i.val < place.val := Nat.lt_of_lt_of_le i.isLt hBehind
    have hSorted := List.pairwise_iff_get.1 (pairwise_descending values)
    rw [← hPlace]
    exact hSorted ⟨i, _⟩ place hBefore

namespace IsTopk

variable {values other : ι → K} {among : ι → Prop} {picks : Fin k → ι}

/-- Values in the same order have the same selections. -/
theorem congr (hTop : IsTopk values among picks)
    (hOrder : ∀ i j, values i ≤ values j → other i ≤ other j) : IsTopk other among picks where
  injective := hTop.injective
  inside := hTop.inside
  highest := by
    intro entry hAmong hOut i
    exact hOrder _ _ (hTop.highest entry hAmong hOut i)

/-- A selection from a layout of some of the values. -/
theorem map {place : κ → ι} (hPlace : Function.Injective place) {picks : Fin k → κ}
    (hTop : IsTopk (fun entry => values (place entry)) (fun _ => True) picks) :
    IsTopk values (fun entry => entry ∈ Set.range place) (fun i => place (picks i)) where
  injective := hPlace.comp hTop.injective
  inside i := ⟨picks i, rfl⟩
  highest := by
    rintro _ ⟨entry, rfl⟩ hOut i
    apply hTop.highest entry trivial
    rintro ⟨j, rfl⟩
    exact hOut ⟨j, rfl⟩

/-- A selection from values of which all but those at `place` are hidden below the others. -/
theorem of_masked (values : ι → K) (masked : ι → WithBot K) {m : Nat} {place : Fin m → ι}
    (hPlace : Function.Injective place) (hk : k ≤ m) (hShown : ∀ j, masked (place j) = values (place j))
    (hHidden : ∀ entry, entry ∉ Set.range place → masked entry = ⊥)
    (hTop : IsTopk masked (fun _ => True) picks) :
    IsTopk values (fun entry => entry ∈ Set.range place) picks := by
  have hInside : ∀ i, picks i ∈ Set.range place := by
    intro i
    by_contra hOut
    -- with a hidden entry among the picks, every shown one is picked as well
    have hPicked : ∀ j, ∃ i', picks i' = place j := by
      intro j
      by_contra hMissed
      have hLe := hTop.highest (place j) trivial hMissed i
      rw [hShown j, hHidden _ hOut, le_bot_iff] at hLe
      exact WithBot.coe_ne_bot hLe
    choose pick hPick using hPicked
    have hInj : Function.Injective pick := by
      intro j j' hSame
      apply hPlace
      rw [← hPick j, ← hPick j', hSame]
    have hMiss : ∀ j, pick j ≠ i := by
      rintro j rfl
      exact hOut ⟨j, (hPick j).symm⟩
    have hSurj : Function.Surjective pick := by
      have hCard : m = k := by
        apply Nat.le_antisymm _ hk
        have hFin := Fintype.card_le_of_injective pick hInj
        rwa [Fintype.card_fin, Fintype.card_fin] at hFin
      subst hCard
      exact Finite.surjective_of_injective hInj
    obtain ⟨j, hj⟩ := hSurj i
    exact hMiss j hj
  refine ⟨hTop.injective, hInside, ?_⟩
  rintro _ ⟨j, rfl⟩ hOut i
  obtain ⟨j', hPick⟩ := hInside i
  have hLe := hTop.highest (place j) trivial hOut i
  rw [← hPick, hShown, hShown, WithBot.coe_le_coe] at hLe
  rw [← hPick]
  exact hLe

end IsTopk

end VllmRbln.Topk
