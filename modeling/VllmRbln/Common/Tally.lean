import Mathlib.Data.List.Count
import Mathlib.Logic.Function.Basic

/-! Counting the holders of a resource. Each owner of a finite list holds a list
of resources; the tally of a resource is the number of times it is held. -/
namespace Tally

variable {ι β : Type*} [DecidableEq β]

/-- How often the owners hold `b` between them. -/
def tally : List ι → (ι → List β) → β → Nat
  | [], _, _ => 0
  | i :: owners, held, b => (held i).count b + tally owners held b

@[simp]
theorem tally_nil (held : ι → List β) (b : β) : tally [] held b = 0 := rfl

@[simp]
theorem tally_cons (i : ι) (owners : List ι) (held : ι → List β) (b : β) :
    tally (i :: owners) held b = (held i).count b + tally owners held b := rfl

theorem tally_congr {owners : List ι} {held held' : ι → List β}
    (hHeld : ∀ i ∈ owners, held i = held' i) (b : β) :
    tally owners held b = tally owners held' b := by
  induction owners with
  | nil => rfl
  | cons i owners ih =>
      rw [tally_cons, tally_cons, hHeld i List.mem_cons_self,
        ih fun j hMem => hHeld j (List.mem_cons_of_mem _ hMem)]

@[simp]
theorem tally_append (owners owners' : List ι) (held : ι → List β) (b : β) :
    tally (owners ++ owners') held b = tally owners held b + tally owners' held b := by
  induction owners with
  | nil => simp
  | cons i owners ih =>
      rw [List.cons_append, tally_cons, tally_cons, ih, Nat.add_assoc]

theorem count_le_tally {owners : List ι} {i : ι} (hMem : i ∈ owners) (held : ι → List β) (b : β) :
    (held i).count b ≤ tally owners held b := by
  induction owners with
  | nil => cases hMem
  | cons j owners ih =>
      rw [tally_cons]
      rcases List.mem_cons.mp hMem with rfl | hMem
      · omega
      · have := ih hMem
        omega

theorem tally_pos {owners : List ι} {i : ι} (hMem : i ∈ owners) {held : ι → List β} {b : β}
    (hHeld : b ∈ held i) : 0 < tally owners held b := by
  have hCount := List.count_pos_iff.mpr hHeld
  have hLe := count_le_tally hMem held b
  omega

variable [DecidableEq ι]

/-- Changing what a stranger holds changes nothing. -/
theorem tally_update_of_notMem {owners : List ι} {i : ι} (hMem : i ∉ owners)
    (held : ι → List β) (items : List β) (b : β) :
    tally owners (Function.update held i items) b = tally owners held b :=
  tally_congr (fun _ hj => Function.update_of_ne (ne_of_mem_of_not_mem hj hMem) _ _) b

/-- Changing what one owner holds moves the tally by the difference. -/
theorem tally_update {owners : List ι} (hNodup : owners.Nodup) {i : ι} (hMem : i ∈ owners)
    (held : ι → List β) (items : List β) (b : β) :
    tally owners (Function.update held i items) b + (held i).count b =
      tally owners held b + items.count b := by
  induction owners with
  | nil => cases hMem
  | cons j owners ih =>
      obtain ⟨hNot, hNodup⟩ := List.nodup_cons.mp hNodup
      rcases List.mem_cons.mp hMem with rfl | hMem
      · simp only [tally_cons, Function.update_self, tally_update_of_notMem hNot]
        omega
      · have hNe : j ≠ i := fun hEq => hNot (hEq ▸ hMem)
        have hRest := ih hNodup hMem
        simp only [tally_cons, Function.update_of_ne hNe]
        omega

end Tally
