import Mathlib.Data.List.Basic

/-! Loops over a list whose body may raise. -/
namespace VllmRbln.Checked

universe u v

variable {α β : Type u} {ε : Type v}

@[simp] theorem ok_bind (value : α) (next : α → Except ε β) :
    ((Except.ok value : Except ε α) >>= next) = next value := rfl

/-- A list whose every item succeeds with a value known beforehand. -/
theorem mapM_eq_map {run : α → Except ε β} {value : α → β} {items : List α}
    (hRun : ∀ item ∈ items, run item = .ok (value item)) :
    items.mapM run = .ok (items.map value) := by
  induction items with
  | nil => rfl
  | cons item items ih =>
      rw [List.mapM_cons, hRun item List.mem_cons_self,
        ih fun other hMem => hRun other (List.mem_cons_of_mem _ hMem)]
      rfl

/-- The same for a body that may give up. -/
theorem mapM_eq_some_map {run : α → Option β} {value : α → β} {items : List α}
    (hRun : ∀ item ∈ items, run item = some (value item)) :
    items.mapM run = some (items.map value) := by
  induction items with
  | nil => rfl
  | cons item items ih =>
      rw [List.mapM_cons, hRun item List.mem_cons_self,
        ih fun other hMem => hRun other (List.mem_cons_of_mem _ hMem)]
      rfl

/-- Each item of a list that succeeds does, and its value is among the list's. -/
theorem mem_of_mapM {run : α → Except ε β} {items : List α} {values : List β}
    (hOk : items.mapM run = .ok values) {item : α} (hMem : item ∈ items) :
    ∃ value ∈ values, run item = .ok value := by
  induction items generalizing values with
  | nil => cases hMem
  | cons head items ih =>
      rw [List.mapM_cons] at hOk
      cases hHead : run head with
      | error error => simp [hHead, bind, Except.bind] at hOk
      | ok first =>
          cases hTail : items.mapM run with
          | error error => simp [hHead, hTail, bind, Except.bind] at hOk
          | ok rest =>
              simp only [hHead, hTail, bind, Except.bind, pure, Except.pure,
                Except.ok.injEq] at hOk
              subst hOk
              rcases List.mem_cons.1 hMem with rfl | hMem
              · exact ⟨first, List.mem_cons_self, hHead⟩
              · obtain ⟨value, hValue, hEq⟩ := ih hTail hMem
                exact ⟨value, List.mem_cons_of_mem _ hValue, hEq⟩

theorem bind_eq_ok {run : Except ε α} {next : α → Except ε β} {result : β} :
    run >>= next = .ok result ↔ ∃ value, run = .ok value ∧ next value = .ok result := by
  cases run with
  | error error =>
      constructor
      · intro hOk
        cases hOk
      · rintro ⟨value, hValue, -⟩
        cases hValue
  | ok value =>
      constructor
      · intro hOk
        exact ⟨value, rfl, hOk⟩
      · rintro ⟨other, hOther, hOk⟩
        cases hOther
        exact hOk

/-- The values of a list that succeeds, where a success has one possible value. -/
theorem eq_map_of_mapM {run : α → Except ε β} {value : α → β} {items : List α} {values : List β}
    (hOk : items.mapM run = .ok values)
    (hValue : ∀ item ∈ items, ∀ result, run item = .ok result → result = value item) :
    values = items.map value := by
  have hRun : ∀ item ∈ items, run item = .ok (value item) := by
    intro item hMem
    obtain ⟨result, -, hResult⟩ := mem_of_mapM hOk hMem
    rw [hResult, hValue item hMem result hResult]
  rw [mapM_eq_map hRun] at hOk
  exact (Except.ok.inj hOk).symm

/-- A list whose every item succeeds, with what holds of each value. -/
theorem mapM_ok (run : α → Except ε β) (Post : α → β → Prop) (items : List α)
    (hRun : ∀ item ∈ items, ∃ value, run item = .ok value ∧ Post item value) :
    ∃ values, items.mapM run = .ok values ∧ List.Forall₂ Post items values := by
  induction items with
  | nil => exact ⟨[], rfl, .nil⟩
  | cons item items ih =>
      obtain ⟨value, hValue, hPost⟩ := hRun item List.mem_cons_self
      obtain ⟨values, hValues, hPosts⟩ :=
        ih fun other hMem => hRun other (List.mem_cons_of_mem _ hMem)
      refine ⟨value :: values, ?_, .cons hPost hPosts⟩
      rw [List.mapM_cons, hValue, hValues]
      rfl

/-- The value of an item stands where the item does. -/
theorem getElem?_of_forall₂ {γ δ : Type*} {Post : γ → δ → Prop} {items : List γ} {values : List δ}
    (hPosts : List.Forall₂ Post items values) {i : Nat} {item : γ} (hItem : items[i]? = some item) :
    ∃ value, values[i]? = some value ∧ Post item value := by
  induction hPosts generalizing i with
  | nil => cases hItem
  | cons hPost _ ih =>
      cases i with
      | zero =>
          cases hItem
          exact ⟨_, rfl, hPost⟩
      | succ i => exact ih hItem

/-- Lists of values packed one behind the other. -/
theorem flatten_of_forall₂ {γ δ ρ : Type*} {f : δ → ρ} {packed : γ → List ρ} {items : List γ}
    {values : List (List δ)}
    (hPosts : List.Forall₂ (fun item value => value.map f = packed item) items values) :
    values.flatten.map f = items.flatMap packed := by
  induction hPosts with
  | nil => rfl
  | cons hPost _ ih => rw [List.flatten_cons, List.map_append, hPost, ih, List.flatMap_cons]

theorem mapM_replicate {run : α → Except ε β} {item : α} {n : Nat} {values : List β}
    (hPos : 0 < n) (hRun : (List.replicate n item).mapM run = .ok values) :
    ∃ value, run item = .ok value ∧ values = List.replicate n value := by
  obtain ⟨value, -, hEq⟩ := mem_of_mapM hRun (List.mem_replicate.2 ⟨by omega, rfl⟩)
  have hAll : (List.replicate n item).mapM run = .ok ((List.replicate n item).map fun _ => value) :=
    mapM_eq_map fun other hOther => by rw [List.eq_of_mem_replicate hOther, hEq]
  rw [hRun, List.map_replicate] at hAll
  exact ⟨value, hEq, Except.ok.inj hAll⟩

end VllmRbln.Checked
