import Mathlib.Algebra.Ring.Nat
import Mathlib.Data.List.Basic
import Mathlib.Data.List.Nodup

/-! Dictionaries as lists of rows in insertion order, one row a key. -/
namespace VllmRbln.Dict

variable {κ ν ω : Type*} [DecidableEq κ] [BEq κ] [LawfulBEq κ]

abbrev keys (rows : List (κ × ν)) : List κ := rows.map Prod.fst

theorem lookup_cons (row : κ × ν) (rows : List (κ × ν)) (k : κ) :
    (row :: rows).lookup k = if k = row.1 then some row.2 else rows.lookup k := by
  by_cases hKey : k = row.1
  · subst hKey
    rw [if_pos rfl]
    exact List.lookup_cons_self
  · have hBeq : (k == row.1) = false := beq_false_of_ne hKey
    rw [List.lookup_cons, hBeq, if_neg hKey]

theorem lookup_isSome {rows : List (κ × ν)} {k : κ} :
    (rows.lookup k).isSome = true ↔ k ∈ keys rows := by
  induction rows with
  | nil => simp
  | cons row rows ih =>
      rw [lookup_cons, keys, List.map_cons, List.mem_cons]
      split
      · rename_i hKey
        simp [hKey]
      · rename_i hKey
        rw [ih]
        simp [hKey]

theorem lookup_eq_none {rows : List (κ × ν)} {k : κ} : rows.lookup k = none ↔ k ∉ keys rows := by
  rw [← lookup_isSome, Bool.not_eq_true, Option.isSome_eq_false_iff, Option.isNone_iff_eq_none]

omit [DecidableEq κ] in
theorem mem_of_lookup {rows : List (κ × ν)} {k : κ} {v : ν} (hLookup : rows.lookup k = some v) :
    (k, v) ∈ rows := by
  obtain ⟨before, after, hRows, -⟩ := List.lookup_eq_some_iff.1 hLookup
  rw [hRows]
  exact List.mem_append_right _ List.mem_cons_self

theorem lookup_of_mem {rows : List (κ × ν)} (hNodup : (keys rows).Nodup) {k : κ} {v : ν}
    (hMem : (k, v) ∈ rows) : rows.lookup k = some v := by
  induction rows with
  | nil => cases hMem
  | cons row rows ih =>
      obtain ⟨hNot, hRest⟩ := List.nodup_cons.1 hNodup
      rw [lookup_cons]
      rcases List.mem_cons.1 hMem with hRow | hMem
      · subst hRow
        exact if_pos rfl
      · have hKey : k ∈ keys rows := List.mem_map_of_mem (f := Prod.fst) hMem
        have hNe : k ≠ row.1 := ne_of_mem_of_not_mem hKey hNot
        rw [if_neg hNe]
        exact ih hRest hMem

theorem eq_nil_iff {rows : List (κ × ν)} : rows = [] ↔ ∀ k, rows.lookup k = none := by
  constructor
  · rintro rfl k
    rfl
  · intro hNone
    apply List.eq_nil_iff_forall_not_mem.2
    intro row hMem
    exact lookup_eq_none.1 (hNone row.1) (List.mem_map_of_mem hMem)

/-- `{k: f(k, v) for k, v in d.items()}`. -/
def mapValues (f : κ → ν → ω) (rows : List (κ × ν)) : List (κ × ω) :=
  rows.map fun row => (row.1, f row.1 row.2)

omit [DecidableEq κ] [BEq κ] [LawfulBEq κ] in
@[simp]
theorem keys_mapValues (f : κ → ν → ω) (rows : List (κ × ν)) :
    keys (mapValues f rows) = keys rows := by
  simp only [keys, mapValues, List.map_map]
  rfl

@[simp]
theorem lookup_mapValues (f : κ → ν → ω) (rows : List (κ × ν)) (k : κ) :
    (mapValues f rows).lookup k = (rows.lookup k).map (f k) := by
  induction rows with
  | nil => rfl
  | cons row rows ih =>
      simp only [mapValues, List.map_cons] at ih ⊢
      rw [lookup_cons, lookup_cons, ih]
      split
      · rename_i hKey
        rw [hKey, Option.map_some]
      · rfl

/-- A comprehension with a condition. -/
def filterMapValues (f : κ → ν → Option ω) (rows : List (κ × ν)) : List (κ × ω) :=
  rows.filterMap fun row => (f row.1 row.2).map fun v => (row.1, v)

omit [DecidableEq κ] [BEq κ] [LawfulBEq κ] in
theorem keys_filterMapValues (f : κ → ν → Option ω) (rows : List (κ × ν)) :
    (keys (filterMapValues f rows)).Sublist (keys rows) := by
  induction rows with
  | nil => exact List.Sublist.slnil
  | cons row rows ih =>
      simp only [filterMapValues, List.filterMap_cons] at ih ⊢
      cases f row.1 row.2 with
      | none => exact ih.cons _
      | some v => exact ih.cons_cons _

theorem lookup_filterMapValues (f : κ → ν → Option ω) {rows : List (κ × ν)}
    (hNodup : (keys rows).Nodup) (k : κ) :
    (filterMapValues f rows).lookup k = (rows.lookup k).bind (f k) := by
  induction rows with
  | nil => rfl
  | cons row rows ih =>
      obtain ⟨hNot, hRest⟩ := List.nodup_cons.1 hNodup
      have hTail := ih hRest
      simp only [filterMapValues, List.filterMap_cons] at hTail ⊢
      rw [lookup_cons]
      by_cases hKey : k = row.1
      · subst hKey
        have hNone : rows.lookup row.1 = none := lookup_eq_none.2 hNot
        cases hValue : f row.1 row.2 with
        | none => simp [hTail, hNone, hValue]
        | some v => simp [hValue]
      · cases hValue : f row.1 row.2 with
        | none => simp [hTail, hKey]
        | some v => simp [hTail, hKey, lookup_cons]

/-- Equality of dictionaries, which does not look at the order of the rows. -/
def Same (a b : List (κ × ν)) : Prop := ∀ k ∈ keys a ++ keys b, a.lookup k = b.lookup k

instance [DecidableEq ν] (a b : List (κ × ν)) : Decidable (Same a b) :=
  inferInstanceAs (Decidable (∀ k ∈ keys a ++ keys b, a.lookup k = b.lookup k))

theorem same_iff {a b : List (κ × ν)} : Same a b ↔ ∀ k, a.lookup k = b.lookup k := by
  constructor
  · intro hSame k
    by_cases hKey : k ∈ keys a ++ keys b
    · exact hSame k hKey
    · rw [List.mem_append, not_or] at hKey
      rw [lookup_eq_none.2 hKey.1, lookup_eq_none.2 hKey.2]
  · intro hSame k _
    exact hSame k

/-- `d[k] = v`. -/
def assign (k : κ) (v : ν) : List (κ × ν) → List (κ × ν)
  | [] => [(k, v)]
  | row :: rows => if row.1 = k then (k, v) :: rows else row :: assign k v rows

theorem lookup_assign (k other : κ) (v : ν) (rows : List (κ × ν)) :
    (assign k v rows).lookup other = if other = k then some v else rows.lookup other := by
  induction rows with
  | nil => simp [assign, lookup_cons]
  | cons row rows ih =>
      simp only [assign]
      by_cases hRow : row.1 = k
      · subst hRow
        by_cases hOther : other = row.1
        · simp [hOther, lookup_cons]
        · simp [hOther, lookup_cons]
      · rw [if_neg hRow, lookup_cons, lookup_cons, ih]
        by_cases hOther : other = row.1
        · subst hOther
          simp [hRow]
        · simp [hOther]

theorem mem_keys_assign {k other : κ} {v : ν} {rows : List (κ × ν)} :
    other ∈ keys (assign k v rows) ↔ other = k ∨ other ∈ keys rows := by
  rw [← lookup_isSome, ← lookup_isSome, lookup_assign]
  split
  · rename_i hOther
    simp [hOther]
  · rename_i hOther
    simp [hOther]

/-- `d.setdefault(k, []).append(v)`. -/
def appendTo (k : κ) (v : ν) : List (κ × List ν) → List (κ × List ν)
  | [] => [(k, [v])]
  | row :: rows =>
      if row.1 = k then (row.1, row.2 ++ [v]) :: rows else row :: appendTo k v rows

theorem appendTo_eq_assign (k : κ) (v : ν) (rows : List (κ × List ν)) :
    appendTo k v rows = assign k ((rows.lookup k).getD [] ++ [v]) rows := by
  induction rows with
  | nil => rfl
  | cons row rows ih =>
      simp only [appendTo, assign]
      rw [lookup_cons]
      by_cases hRow : row.1 = k
      · simp [hRow]
      · simp [hRow, Ne.symm hRow, ih]

theorem lookup_appendTo (k other : κ) (v : ν) (rows : List (κ × List ν)) :
    (appendTo k v rows).lookup other =
      if other = k then some ((rows.lookup k).getD [] ++ [v]) else rows.lookup other := by
  rw [appendTo_eq_assign, lookup_assign]

theorem mem_keys_appendTo {k other : κ} {v : ν} {rows : List (κ × List ν)} :
    other ∈ keys (appendTo k v rows) ↔ other = k ∨ other ∈ keys rows := by
  rw [appendTo_eq_assign, mem_keys_assign]

theorem keys_appendTo_nodup {k : κ} {v : ν} {rows : List (κ × List ν)}
    (hNodup : (keys rows).Nodup) : (keys (appendTo k v rows)).Nodup := by
  induction rows with
  | nil => exact List.nodup_singleton k
  | cons row rows ih =>
      obtain ⟨hNot, hRest⟩ := List.nodup_cons.1 hNodup
      simp only [appendTo]
      split
      · exact hNodup
      · rename_i hRow
        apply List.nodup_cons.2
        refine ⟨fun hMem => ?_, ih hRest⟩
        rcases mem_keys_appendTo.1 hMem with hEq | hMem
        · exact hRow hEq
        · exact hNot hMem

/-- The rows of a list grouped by their keys, each group in list order. -/
def group (rows : List (κ × ν)) : List (κ × List ν) :=
  rows.foldl (fun groups row => appendTo row.1 row.2 groups) []

/-- The values a list has for a key, in list order. -/
def valuesOf (rows : List (κ × ν)) (k : κ) : List ν :=
  (rows.filter fun row => row.1 = k).map Prod.snd

theorem lookup_foldl_appendTo (rows : List (κ × ν)) (k : κ) (groups : List (κ × List ν)) :
    (rows.foldl (fun groups row => appendTo row.1 row.2 groups) groups).lookup k =
      if valuesOf rows k = [] then groups.lookup k
      else some ((groups.lookup k).getD [] ++ valuesOf rows k) := by
  induction rows generalizing groups with
  | nil => simp [valuesOf]
  | cons row rows ih =>
      rw [List.foldl_cons, ih, lookup_appendTo]
      by_cases hKey : row.1 = k
      · subst hKey
        have hHead : valuesOf (row :: rows) row.1 = row.2 :: valuesOf rows row.1 := by
          simp [valuesOf]
        rw [hHead]
        cases hRest : valuesOf rows row.1 <;> simp
      · have hHead : valuesOf (row :: rows) k = valuesOf rows k := by simp [valuesOf, hKey]
        rw [hHead, if_neg (Ne.symm hKey)]

theorem lookup_group (rows : List (κ × ν)) (k : κ) :
    (group rows).lookup k = if valuesOf rows k = [] then none else some (valuesOf rows k) := by
  simp [group, lookup_foldl_appendTo]

theorem keys_group_nodup (rows : List (κ × ν)) : (keys (group rows)).Nodup := by
  have hFold : ∀ groups : List (κ × List ν), (keys groups).Nodup →
      (keys (rows.foldl (fun groups row => appendTo row.1 row.2 groups) groups)).Nodup := by
    induction rows with
    | nil => exact fun _ hNodup => hNodup
    | cons row rows ih => exact fun _ hNodup => ih _ (keys_appendTo_nodup hNodup)
  exact hFold [] List.nodup_nil

omit [BEq κ] [LawfulBEq κ] in
theorem valuesOf_map (f : ν → ω) (rows : List (κ × ν)) (k : κ) :
    valuesOf (rows.map fun row => (row.1, f row.2)) k = (valuesOf rows k).map f := by
  induction rows with
  | nil => rfl
  | cons row rows ih =>
      by_cases hKey : row.1 = k
      · simpa [valuesOf, hKey] using ih
      · simpa [valuesOf, hKey] using ih

/-- Taking one row out leaves the amounts of the others. -/
theorem sum_without {rows : List (κ × Nat)} (hNodup : (keys rows).Nodup) (k : κ) :
    ((rows.filter (·.1 ≠ k)).map Prod.snd).sum + (rows.lookup k).getD 0 =
      (rows.map Prod.snd).sum := by
  induction rows with
  | nil => rfl
  | cons row rows ih =>
      obtain ⟨hNot, hRest⟩ := List.nodup_cons.1 hNodup
      have hSum := ih hRest
      rw [lookup_cons, List.map_cons, List.sum_cons]
      by_cases hKey : k = row.1
      · have hNone : rows.lookup k = none := lookup_eq_none.2 (hKey ▸ hNot)
        rw [hNone, Option.getD_none, Nat.add_zero] at hSum
        rw [if_pos hKey, List.filter_cons_of_neg (by simp [hKey]), hSum, Option.getD_some,
          Nat.add_comm]
      · rw [if_neg hKey, List.filter_cons_of_pos (by simpa using Ne.symm hKey), List.map_cons,
          List.sum_cons, Nat.add_assoc, hSum]

end VllmRbln.Dict
