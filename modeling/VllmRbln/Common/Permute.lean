import VllmRbln.Common.Dict
import Mathlib.Data.Finset.Card
import Mathlib.Data.Finset.Filter
import Mathlib.Data.List.Sort
import Mathlib.Data.List.Perm.Basic
import Mathlib.Algebra.Group.End

/-! Rows put into a new order: the stable argsort that finds the order, the gather that applies
it to arrays and to dictionaries keyed by row, and the pairwise exchanges that apply it by
following its cycles. -/
namespace VllmRbln.Permute

variable {α β : Type*}

/-! ### The stable argsort -/

/-- `i` stands before `j` in a stable sort by `keys`. -/
def Before (keys : List Int) (i j : Nat) : Prop :=
  keys.getD i 0 < keys.getD j 0 ∨ keys.getD i 0 = keys.getD j 0 ∧ i < j

/-- `np.argsort(keys, kind="stable")`. -/
def argsortStable (keys : List Int) : List Nat :=
  (List.range keys.length).insertionSort fun i j => keys.getD i 0 ≤ keys.getD j 0

theorem argsortStable_perm (keys : List Int) :
    (argsortStable keys).Perm (List.range keys.length) :=
  List.perm_insertionSort _ _

theorem length_argsortStable (keys : List Int) : (argsortStable keys).length = keys.length := by
  rw [argsortStable, List.length_insertionSort, List.length_range]

/-- An index below all others goes in front of its equals. -/
theorem orderedInsert_before {keys : List Int} {i : Nat} {rest : List Nat}
    (hFirst : ∀ j ∈ rest, i < j) (hRest : rest.Pairwise (Before keys)) :
    (rest.orderedInsert (fun i j => keys.getD i 0 ≤ keys.getD j 0) i).Pairwise (Before keys) := by
  induction rest with
  | nil => exact List.pairwise_singleton _ i
  | cons j rest ih =>
      obtain ⟨hHead, hTail⟩ := List.pairwise_cons.1 hRest
      have hBelow : i < j := hFirst j List.mem_cons_self
      rw [List.orderedInsert_cons]
      split
      · rename_i hLe
        apply List.pairwise_cons.2 ⟨_, hRest⟩
        intro other hMem
        have hOther : i < other := hFirst other hMem
        have hKey : keys.getD j 0 ≤ keys.getD other 0 := by
          rcases List.mem_cons.1 hMem with rfl | hMem
          · exact Int.le_refl _
          · rcases hHead other hMem with hLt | ⟨hEq, -⟩
            · exact Int.le_of_lt hLt
            · exact Int.le_of_eq hEq
        rcases Int.lt_or_eq_of_le (Int.le_trans hLe hKey) with hLt | hEq
        · exact Or.inl hLt
        · exact Or.inr ⟨hEq, hOther⟩
      · rename_i hNot
        apply List.pairwise_cons.2
        constructor
        · intro other hMem
          rcases (List.mem_orderedInsert _).1 hMem with rfl | hMem
          · exact Or.inl (Int.not_le.1 hNot)
          · exact hHead other hMem
        · exact ih (fun other hMem => hFirst other (List.mem_cons_of_mem _ hMem)) hTail

theorem insertionSort_before {keys : List Int} {indices : List Nat}
    (hIncreasing : indices.Pairwise (· < ·)) :
    (indices.insertionSort fun i j => keys.getD i 0 ≤ keys.getD j 0).Pairwise (Before keys) := by
  induction indices with
  | nil => exact List.Pairwise.nil
  | cons i indices ih =>
      obtain ⟨hFirst, hRest⟩ := List.pairwise_cons.1 hIncreasing
      rw [List.insertionSort_cons]
      apply orderedInsert_before _ (ih hRest)
      intro j hMem
      exact hFirst j ((List.mem_insertionSort _).1 hMem)

theorem argsortStable_before (keys : List Int) : (argsortStable keys).Pairwise (Before keys) :=
  insertionSort_before List.pairwise_lt_range

/-! ### The gather -/

/-- The old row behind new row `k`; rows behind the order stay. -/
def source (order : List Nat) (k : Nat) : Nat := order[k]?.getD k

/-- `arr[order]`; none is an `IndexError`. -/
def take (order : List Nat) (rows : List α) : Option (List α) := order.mapM fun i => rows[i]?

/-- `arr[:n] = arr[order]`. -/
def reindex (order : List Nat) (rows : List α) : Option (List α) := do
  let taken ← take order rows
  return taken ++ rows.drop order.length

/-- `arr[:n, :width] = arr[order, :width]`. -/
def reindexColumns (order : List Nat) (width : Nat) (rows : List (List α)) :
    Option (List (List α)) := do
  let taken ← take order rows
  return List.zipWith (fun new old => new.take width ++ old.drop width) taken rows ++
    rows.drop order.length

/-- `{k: d[order[k]] for k in range(n) if order[k] in d}`. -/
def rekey (order : List Nat) (dict : List (Nat × α)) : List (Nat × α) :=
  order.zipIdx.filterMap fun row => (dict.lookup row.1).map fun value => (row.2, value)

/-- New row `k` is old row `source order k`. -/
def Moved (order : List Nat) (old new : List α) : Prop :=
  new.length = old.length ∧ ∀ k, new[k]? = old[source order k]?

/-- The columns below `width` have moved, the others are where they were. -/
def MovedColumns (order : List Nat) (width : Nat) (old new : List (List α)) : Prop :=
  new.length = old.length ∧
    ∀ k row, new[k]? = some row → ∃ moved kept, old[source order k]? = some moved ∧
      old[k]? = some kept ∧ row = moved.take width ++ kept.drop width

def MovedKeys (order : List Nat) (old new : List (Nat × α)) : Prop :=
  ∀ k, new.lookup k = old.lookup (source order k)

theorem source_of_lt {order : List Nat} {k : Nat} (hRow : k < order.length) :
    order[k]? = some (source order k) := by
  rw [source, List.getElem?_eq_getElem hRow, Option.getD_some]

theorem source_of_le {order : List Nat} {k : Nat} (hBehind : order.length ≤ k) :
    source order k = k := by
  rw [source, List.getElem?_eq_none hBehind, Option.getD_none]

theorem source_range (n k : Nat) : source (List.range n) k = k := by
  rcases Nat.lt_or_ge k n with hRow | hBehind
  · rw [source, List.getElem?_range hRow, Option.getD_some]
  · exact source_of_le (by rwa [List.length_range])

theorem source_lt {order : List Nat} (hPerm : order.Perm (List.range order.length)) {k : Nat}
    (hRow : k < order.length) : source order k < order.length := by
  have hMem : source order k ∈ order := List.mem_of_getElem? (source_of_lt hRow)
  exact List.mem_range.1 (hPerm.mem_iff.1 hMem)

theorem take_eq_some {order : List Nat} {rows : List α} (hInside : ∀ i ∈ order, i < rows.length) :
    ∃ taken, take order rows = some taken ∧ taken.length = order.length ∧
      ∀ k i : Nat, order[k]? = some i → taken[k]? = rows[i]? := by
  unfold take
  induction order with
  | nil => exact ⟨[], rfl, rfl, fun k i hRow => nomatch hRow⟩
  | cons i order ih =>
      obtain ⟨taken, hTaken, hLength, hRows⟩ :=
        ih fun j hMem => hInside j (List.mem_cons_of_mem _ hMem)
      have hHead : rows[i]? = some (rows.get ⟨i, hInside i List.mem_cons_self⟩) :=
        List.getElem?_eq_getElem _
      refine ⟨rows.get ⟨i, hInside i List.mem_cons_self⟩ :: taken, ?_, ?_, ?_⟩
      · rw [List.mapM_cons, hHead, hTaken]
        rfl
      · rw [List.length_cons, hLength, List.length_cons]
      · intro k j hRow
        cases k with
        | zero =>
            rw [List.getElem?_cons_zero, Option.some.injEq] at hRow
            subst hRow
            exact hHead.symm
        | succ k => exact hRows k j hRow

variable {order : List Nat}

theorem perm_inside (hPerm : order.Perm (List.range order.length)) {rows : List α}
    (hFit : order.length ≤ rows.length) : ∀ i ∈ order, i < rows.length := by
  intro i hMem
  exact Nat.lt_of_lt_of_le (List.mem_range.1 (hPerm.mem_iff.1 hMem)) hFit

theorem reindex_moved (hPerm : order.Perm (List.range order.length)) {rows : List α}
    (hFit : order.length ≤ rows.length) : ∃ new, reindex order rows = some new ∧
      Moved order rows new := by
  obtain ⟨taken, hTaken, hLength, hRows⟩ := take_eq_some (perm_inside hPerm hFit)
  refine ⟨taken ++ rows.drop order.length, ?_, ?_, ?_⟩
  · rw [reindex, hTaken]
    rfl
  · rw [List.length_append, hLength, List.length_drop]
    omega
  · intro k
    rcases Nat.lt_or_ge k order.length with hRow | hBehind
    · rw [List.getElem?_append_left (by rwa [hLength]), hRows k _ (source_of_lt hRow)]
    · rw [List.getElem?_append_right (by rwa [hLength]), List.getElem?_drop, source_of_le hBehind,
        hLength, Nat.add_sub_cancel' hBehind]

/-- `arange(n)[order]` is the order. -/
theorem take_range (hPerm : order.Perm (List.range order.length)) :
    take order (List.range order.length) = some order := by
  have hInside : ∀ i ∈ order, i < (List.range order.length).length :=
    perm_inside hPerm (Nat.le_of_eq List.length_range.symm)
  obtain ⟨taken, hTaken, hLength, hRows⟩ := take_eq_some hInside
  rw [hTaken]
  congr 1
  apply List.ext_getElem?
  intro k
  rcases Nat.lt_or_ge k order.length with hRow | hBehind
  · rw [hRows k _ (source_of_lt hRow), source_of_lt hRow,
      List.getElem?_range (source_lt hPerm hRow)]
  · rw [List.getElem?_eq_none (by rwa [hLength]), List.getElem?_eq_none hBehind]

theorem reindexColumns_moved (hPerm : order.Perm (List.range order.length)) (width : Nat)
    {rows : List (List α)} (hFit : order.length ≤ rows.length) :
    ∃ new, reindexColumns order width rows = some new ∧ MovedColumns order width rows new := by
  obtain ⟨taken, hTaken, hLength, hRows⟩ := take_eq_some (perm_inside hPerm hFit)
  let front := List.zipWith (fun new old => new.take width ++ old.drop width) taken rows
  have hFront : front.length = order.length := by
    rw [List.length_zipWith, hLength, Nat.min_eq_left hFit]
  refine ⟨front ++ rows.drop order.length, ?_, ?_, ?_⟩
  · rw [reindexColumns, hTaken]
    rfl
  · rw [List.length_append, hFront, List.length_drop]
    omega
  · intro k row hNew
    rcases Nat.lt_or_ge k order.length with hRow | hBehind
    · rw [List.getElem?_append_left (by rwa [hFront]), List.getElem?_zipWith_eq_some] at hNew
      obtain ⟨moved, kept, hMoved, hKept, rfl⟩ := hNew
      exact ⟨moved, kept, by rw [← hRows k _ (source_of_lt hRow), hMoved], hKept, rfl⟩
    · rw [List.getElem?_append_right (by rwa [hFront]), List.getElem?_drop, hFront,
        Nat.add_sub_cancel' hBehind] at hNew
      refine ⟨row, row, ?_, hNew, (List.take_append_drop width row).symm⟩
      rwa [source_of_le hBehind]

/-- Moved columns, entry by entry. -/
theorem MovedColumns.getElem? {width : Nat} {old new : List (List α)}
    (hMoved : MovedColumns order width old new) {k col : Nat} {row source' : List α}
    (hNew : new[k]? = some row) (hOld : old[source order k]? = some source')
    (hWidth : col < width) (hInside : width ≤ source'.length) : row[col]? = source'[col]? := by
  obtain ⟨moved, kept, hSource, -, rfl⟩ := hMoved.2 k row hNew
  rw [hOld, Option.some.injEq] at hSource
  subst hSource
  rw [List.getElem?_append_left (by rw [List.length_take]; omega), List.getElem?_take_of_lt hWidth]

theorem lookup_rekey_from (dict : List (Nat × α)) (order : List Nat) (base k : Nat) :
    ((order.zipIdx base).filterMap fun row =>
      (dict.lookup row.1).map fun value => (row.2, value)).lookup (base + k) =
        order[k]?.bind fun i => dict.lookup i := by
  induction order generalizing base k with
  | nil => rfl
  | cons i order ih =>
      rw [List.zipIdx_cons, List.filterMap_cons]
      cases k with
      | zero =>
          have hLater : ((order.zipIdx (base + 1)).filterMap fun row =>
              (dict.lookup row.1).map fun value => (row.2, value)).lookup base = none := by
            apply Dict.lookup_eq_none.2
            intro hMem
            obtain ⟨entry, hEntry, hKey⟩ := List.mem_map.1 hMem
            obtain ⟨row, hRow, hValue⟩ := List.mem_filterMap.1 hEntry
            obtain ⟨value, -, rfl⟩ := Option.map_eq_some_iff.1 hValue
            have hIndex := List.le_snd_of_mem_zipIdx hRow
            omega
          cases hValue : dict.lookup i with
          | none => simpa [hValue] using hLater
          | some value => simp [hValue, Dict.lookup_cons]
      | succ k =>
          have hShift : base + (k + 1) = base + 1 + k := by omega
          have hTail := ih (base + 1) k
          cases hValue : dict.lookup i with
          | none => simpa [hValue, hShift] using hTail
          | some value =>
              have hNe : base + 1 + k ≠ base := by omega
              simpa [hValue, hShift, Dict.lookup_cons, hNe] using hTail

/-- The keys of the dictionary are rows of the batch. -/
theorem rekey_moved {dict : List (Nat × α)} (hKeys : ∀ k ∈ Dict.keys dict, k < order.length) :
    MovedKeys order dict (rekey order dict) := by
  intro k
  have hLookup := lookup_rekey_from dict order 0 k
  rw [Nat.zero_add] at hLookup
  rw [rekey, hLookup]
  rcases Nat.lt_or_ge k order.length with hRow | hBehind
  · rw [source_of_lt hRow, Option.bind_some]
  · rw [List.getElem?_eq_none hBehind, Option.bind_none, source_of_le hBehind]
    symm
    apply Dict.lookup_eq_none.2
    intro hMem
    exact Nat.not_lt_of_ge hBehind (hKeys k hMem)

/-! ### The order as a permutation -/

/-- Where the order takes old row `i`: the dictionary `zip(order, range(n))`, `i` itself behind
the order. -/
def target (order : List Nat) (i : Nat) : Nat :=
  ((order.zip (List.range order.length)).lookup i).getD i

theorem keys_zip_range (order : List Nat) :
    Dict.keys (order.zip (List.range order.length)) = order := by
  rw [Dict.keys, List.map_fst_zip (Nat.le_of_eq List.length_range.symm)]

theorem lookup_zip_range (hNodup : order.Nodup) {i k : Nat} :
    (order.zip (List.range order.length)).lookup i = some k ↔ order[k]? = some i := by
  constructor
  · intro hLookup
    obtain ⟨j, hRow⟩ := List.mem_iff_getElem?.1 (Dict.mem_of_lookup hLookup)
    obtain ⟨hLeft, hRight⟩ := List.getElem?_zip_eq_some.1 hRow
    obtain ⟨hBound, hIndex⟩ := List.getElem?_eq_some_iff.1 hRight
    rw [List.getElem_range] at hIndex
    subst hIndex
    exact hLeft
  · intro hRow
    obtain ⟨hBound, -⟩ := List.getElem?_eq_some_iff.1 hRow
    apply Dict.lookup_of_mem
    · rwa [keys_zip_range]
    · apply List.mem_of_getElem? (i := k)
      exact List.getElem?_zip_eq_some.2 ⟨hRow, List.getElem?_range hBound⟩

theorem target_of_mem (hNodup : order.Nodup) {i k : Nat} (hRow : order[k]? = some i) :
    target order i = k := by
  rw [target, (lookup_zip_range hNodup).2 hRow, Option.getD_some]

theorem target_of_not_mem {i : Nat} (hNot : i ∉ order) : target order i = i := by
  have hNone : (order.zip (List.range order.length)).lookup i = none := by
    rw [Dict.lookup_eq_none, keys_zip_range]
    exact hNot
  rw [target, hNone, Option.getD_none]

/-- Old row to new row. -/
def ranking (order : List Nat) (hPerm : order.Perm (List.range order.length)) :
    Equiv.Perm Nat where
  toFun := target order
  invFun := source order
  left_inv := by
    intro i
    have hNodup : order.Nodup := hPerm.nodup_iff.2 List.nodup_range
    by_cases hMem : i ∈ order
    · obtain ⟨k, hRow⟩ := List.mem_iff_getElem?.1 hMem
      rw [target_of_mem hNodup hRow, source, hRow, Option.getD_some]
    · have hBehind : order.length ≤ i := by
        rw [hPerm.mem_iff, List.mem_range] at hMem
        exact Nat.le_of_not_lt hMem
      rw [target_of_not_mem hMem, source_of_le hBehind]
  right_inv := by
    intro k
    have hNodup : order.Nodup := hPerm.nodup_iff.2 List.nodup_range
    rcases Nat.lt_or_ge k order.length with hRow | hBehind
    · exact target_of_mem hNodup (source_of_lt hRow)
    · rw [source_of_le hBehind]
      apply target_of_not_mem
      rw [hPerm.mem_iff, List.mem_range]
      exact Nat.not_lt_of_ge hBehind

/-! ### The exchanges -/

section Exchanges

variable {α β : Type*}

/-- `rest` is what is left to do once the cycles of `done` are closed, and `dest` the map that
says so. -/
structure Pending (rest : Equiv.Perm α) (dest : α → α) (done : List α) : Prop where
  fixed : ∀ x ∈ done, rest x = x
  agrees : ∀ x ∉ done, dest x = rest x

/-- In the middle of a cycle: row `src` holds what has to go to `dst`. -/
structure Chasing (rest : Equiv.Perm α) (dest : α → α) (done : List α) (src dst : α) : Prop where
  fixed : ∀ x ∈ done, rest x = x
  agrees : ∀ x ∉ done, x ≠ src → dest x = rest x
  head : rest src = dst
  fresh : src ∉ done

variable {rest : Equiv.Perm α} {dest : α → α} {done : List α} {src dst : α}

theorem Pending.chase (hPending : Pending rest dest done) (hFresh : src ∉ done) :
    Chasing rest dest done src (dest src) where
  fixed := hPending.fixed
  agrees := fun x hNot _ => hPending.agrees x hNot
  head := (hPending.agrees src hFresh).symm
  fresh := hFresh

theorem Chasing.close (hChasing : Chasing rest dest done src dst) (hBack : src = dst) :
    Pending rest dest (src :: done) where
  fixed := by
    intro x hMem
    rcases List.mem_cons.1 hMem with rfl | hMem
    · rw [hChasing.head, ← hBack]
    · exact hChasing.fixed x hMem
  agrees := by
    intro x hNot
    rw [List.mem_cons, not_or] at hNot
    exact hChasing.agrees x hNot.2 hNot.1

/-- A row outside the cycle's end is still to be moved. -/
theorem Chasing.apply_ne (hChasing : Chasing rest dest done src dst) (hNe : src ≠ dst) :
    rest dst ≠ dst := by
  intro hFixed
  apply hNe
  apply rest.injective
  rw [hChasing.head, hFixed]

variable [DecidableEq α]

/-- Rows `a` and `b` trade places. -/
def exchange (a b : α) (rows : α → β) : α → β := rows ∘ Equiv.swap a b

theorem mul_swap_of_ne {x : α} (hSrc : x ≠ src) (hDst : x ≠ dst) :
    (rest * Equiv.swap src dst) x = rest x := by
  rw [Equiv.Perm.mul_apply, Equiv.swap_apply_of_ne_of_ne hSrc hDst]

/-- One exchange puts the row for `dst` there and brings the one that was there to `src`. -/
theorem Chasing.exchange (hChasing : Chasing rest dest done src dst) (hNe : src ≠ dst) :
    Chasing (rest * Equiv.swap src dst) (Function.update dest dst dst) done src (dest dst) where
  fixed := by
    intro x hMem
    have hFixed := hChasing.fixed x hMem
    rw [mul_swap_of_ne]
    · exact hFixed
    · exact ne_of_mem_of_not_mem hMem hChasing.fresh
    · rintro rfl
      exact hChasing.apply_ne hNe hFixed
  agrees := by
    intro x hNot hSrc
    by_cases hDst : x = dst
    · subst hDst
      rw [Function.update_self, Equiv.Perm.mul_apply, Equiv.swap_apply_right, hChasing.head]
    · rw [Function.update_of_ne hDst, mul_swap_of_ne hSrc hDst, hChasing.agrees x hNot hSrc]
  head := by
    have hNot : dst ∉ done := fun hMem => hChasing.apply_ne hNe (hChasing.fixed dst hMem)
    rw [Equiv.Perm.mul_apply, Equiv.swap_apply_left, hChasing.agrees dst hNot hNe.symm]
  fresh := hChasing.fresh

/-- The exchange and what is left after it do what was left before. -/
theorem exchange_comp (rest : Equiv.Perm α) (src dst : α) (rows : α → β) :
    Permute.exchange src dst rows ∘ (rest * Equiv.swap src dst).symm = rows ∘ rest.symm := by
  funext x
  show rows (Equiv.swap src dst ((Equiv.swap src dst).symm (rest.symm x))) = rows (rest.symm x)
  rw [Equiv.apply_symm_apply]

theorem Chasing.moved_of_exchange (hChasing : Chasing rest dest done src dst) (hNe : src ≠ dst)
    {x : α} (hMoved : (rest * Equiv.swap src dst) x ≠ x) : rest x ≠ x := by
  intro hFixed
  apply hMoved
  rw [mul_swap_of_ne]
  · exact hFixed
  · rintro rfl
    exact hNe (hFixed.symm.trans hChasing.head)
  · rintro rfl
    exact hChasing.apply_ne hNe hFixed

/-- The rows still to be moved. -/
def misplaced (keys : Finset α) (rest : Equiv.Perm α) : Finset α := {x ∈ keys | rest x ≠ x}

theorem mem_misplaced {keys : Finset α} {x : α} :
    x ∈ misplaced keys rest ↔ x ∈ keys ∧ rest x ≠ x := Finset.mem_filter

/-- Every exchange leaves one row fewer to be moved. -/
theorem Chasing.misplaced_lt (hChasing : Chasing rest dest done src dst) (hNe : src ≠ dst)
    {keys : Finset α} (hKeys : ∀ x, rest x ≠ x → x ∈ keys) :
    (misplaced keys (rest * Equiv.swap src dst)).card < (misplaced keys rest).card := by
  have hMoves : rest dst ≠ dst := hChasing.apply_ne hNe
  apply Finset.card_lt_card
  rw [Finset.ssubset_iff_of_subset]
  · refine ⟨dst, mem_misplaced.2 ⟨hKeys dst hMoves, hMoves⟩, ?_⟩
    intro hMem
    apply (mem_misplaced.1 hMem).2
    rw [Equiv.Perm.mul_apply, Equiv.swap_apply_right, hChasing.head]
  · intro x hMem
    obtain ⟨hKey, hMoved⟩ := mem_misplaced.1 hMem
    exact mem_misplaced.2 ⟨hKey, hChasing.moved_of_exchange hNe hMoved⟩

end Exchanges

end VllmRbln.Permute
