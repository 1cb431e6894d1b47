import Mathlib.Algebra.Ring.Nat
import Mathlib.Data.List.Nodup

/-! Contiguous bands of one list of distinct entries: where two of them meet, and how bands cut from
a list one after the other tile another band of it. -/
namespace VllmRbln.Bands

variable {α β : Type*}

/-- The entries of the whole list from `first` on. -/
def IsBand (whole : List α) (first : Nat) (band : List α) : Prop :=
  ∀ i < band.length, whole[first + i]? = band[i]?

theorem isBand_append (before band after : List α) :
    IsBand (before ++ band ++ after) before.length band := by
  intro i hi
  rw [List.append_assoc, List.getElem?_append_right (Nat.le_add_right _ _), Nat.add_sub_cancel_left,
    List.getElem?_append_left hi]

/-- A band of a band. -/
theorem IsBand.slice {whole band : List α} {first : Nat} (hBand : IsBand whole first band)
    (start count : Nat) : IsBand whole (first + start) ((band.drop start).take count) := by
  intro i hi
  have hLength : i < min count (band.length - start) := by
    rwa [List.length_take, List.length_drop] at hi
  rw [Nat.add_assoc, hBand (start + i) (by omega), List.getElem?_take_of_lt (by omega),
    List.getElem?_drop]

/-- Two bands share an entry only where they meet. -/
theorem IsBand.meet {whole left right : List α} {leftFirst rightFirst i j : Nat} {entry : α}
    (hWhole : whole.Nodup) (hLeft : IsBand whole leftFirst left)
    (hRight : IsBand whole rightFirst right) (hi : left[i]? = some entry)
    (hj : right[j]? = some entry) : leftFirst + i = rightFirst + j := by
  have hLeftAt := hLeft i (List.getElem?_eq_some_iff.1 hi).1
  have hRightAt := hRight j (List.getElem?_eq_some_iff.1 hj).1
  rw [hi] at hLeftAt
  rw [hj] at hRightAt
  exact (List.getElem?_inj (List.getElem?_eq_some_iff.1 hLeftAt).1 hWhole).1
    (hLeftAt.trans hRightAt.symm)

theorem IsBand.transfer {whole left right : List α} {leftFirst rightFirst i : Nat} {entry : α}
    (hLeft : IsBand whole leftFirst left) (hRight : IsBand whole rightFirst right)
    (hi : left[i]? = some entry) (hFrom : rightFirst ≤ leftFirst + i)
    (hTo : leftFirst + i < rightFirst + right.length) :
    right[leftFirst + i - rightFirst]? = some entry := by
  have hIndex : rightFirst + (leftFirst + i - rightFirst) = leftFirst + i := by omega
  rw [← hRight _ (by omega), hIndex, hLeft i (List.getElem?_eq_some_iff.1 hi).1, hi]

theorem IsBand.mem_iff {whole left right : List α} {leftFirst rightFirst i : Nat} {entry : α}
    (hWhole : whole.Nodup) (hLeft : IsBand whole leftFirst left)
    (hRight : IsBand whole rightFirst right) (hi : left[i]? = some entry) :
    entry ∈ right ↔ rightFirst ≤ leftFirst + i ∧ leftFirst + i < rightFirst + right.length := by
  constructor
  · intro hMem
    obtain ⟨j, hj⟩ := List.mem_iff_getElem?.1 hMem
    have hMeet := hLeft.meet hWhole hRight hi hj
    have hBound := (List.getElem?_eq_some_iff.1 hj).1
    omega
  · rintro ⟨hFrom, hTo⟩
    exact List.mem_of_getElem? (hLeft.transfer hRight hi hFrom hTo)

/-- What a band shares with another is a stretch of it. -/
theorem IsBand.filter_mem [DecidableEq α] {whole left right : List α} {leftFirst rightFirst : Nat}
    (hWhole : whole.Nodup) (hLeft : IsBand whole leftFirst left)
    (hRight : IsBand whole rightFirst right) :
    left.filter (· ∈ right) = (left.drop (rightFirst - leftFirst)).take
      (min left.length (rightFirst + right.length - leftFirst) - (rightFirst - leftFirst)) := by
  let start := rightFirst - leftFirst
  let count := min left.length (rightFirst + right.length - leftFirst) - start
  have hSplit : left = left.take start ++ ((left.drop start).take count ++
      (left.drop start).drop count) := by
    rw [List.take_append_drop, List.take_append_drop]
  have hBefore : (left.take start).filter (· ∈ right) = [] := by
    rw [List.filter_eq_nil_iff]
    intro entry hMem hShared
    obtain ⟨i, hi⟩ := List.mem_iff_getElem?.1 hMem
    have hBound := (List.getElem?_eq_some_iff.1 hi).1
    rw [List.length_take] at hBound
    rw [List.getElem?_take_of_lt (by omega)] at hi
    have hPlace := (hLeft.mem_iff hWhole hRight hi).1 (of_decide_eq_true hShared)
    omega
  have hShared : ((left.drop start).take count).filter (· ∈ right) =
      (left.drop start).take count := by
    rw [List.filter_eq_self]
    intro entry hMem
    obtain ⟨i, hi⟩ := List.mem_iff_getElem?.1 hMem
    have hBound := (List.getElem?_eq_some_iff.1 hi).1
    rw [List.length_take] at hBound
    rw [List.getElem?_take_of_lt (by omega), List.getElem?_drop] at hi
    apply decide_eq_true
    apply (hLeft.mem_iff hWhole hRight hi).2
    omega
  have hBehind : ((left.drop start).drop count).filter (· ∈ right) = [] := by
    rw [List.filter_eq_nil_iff]
    intro entry hMem hOther
    obtain ⟨i, hi⟩ := List.mem_iff_getElem?.1 hMem
    rw [List.getElem?_drop, List.getElem?_drop] at hi
    have hBound := (List.getElem?_eq_some_iff.1 hi).1
    have hPlace := (hLeft.mem_iff hWhole hRight hi).1 (of_decide_eq_true hOther)
    omega
  conv_lhs => rw [hSplit]
  rw [List.filter_append, List.filter_append, hBefore, hShared, hBehind, List.nil_append,
    List.append_nil]

theorem filterMap_interval (f : Nat → β) (lo hi n : Nat) :
    (List.range n).filterMap (fun i => if lo ≤ i ∧ i < hi then some (f i) else none) =
      (List.range (min n hi - lo)).map fun j => f (lo + j) := by
  induction n with
  | zero => simp
  | succ n ih =>
      rw [List.range_succ, List.filterMap_append, ih]
      by_cases hInside : lo ≤ n ∧ n < hi
      · have hLast : lo + (min n hi - lo) = n := by omega
        have hCount : min (n + 1) hi - lo = min n hi - lo + 1 := by omega
        simp only [List.filterMap_cons, List.filterMap_nil, if_pos hInside]
        rw [hCount, List.range_succ, List.map_append, List.map_singleton, hLast]
      · have hCount : min (n + 1) hi - lo = min n hi - lo := by omega
        simp only [List.filterMap_cons, List.filterMap_nil, if_neg hInside]
        rw [List.append_nil, hCount]

/-- Tiles of one width, one after the other. -/
theorem flatMap_tiles (width n : Nat) :
    (List.range n).flatMap (fun i => (List.range width).map (i * width + ·)) =
      List.range (n * width) := by
  induction n with
  | zero => rw [Nat.zero_mul]; rfl
  | succ n ih =>
      rw [List.range_succ, List.flatMap_append, ih, List.flatMap_singleton, Nat.succ_mul,
        List.range_add]

/-- The indices, in a band of `length` entries at `first`, of what it shares with the band of `count`
entries at `base`. -/
def sharedFrom (first length base count : Nat) : List Nat :=
  (List.range (min count (first + length - base) - (first - base))).map fun j =>
    base + (first - base + j) - first

theorem sharedFrom_eq (first length base count : Nat) :
    sharedFrom first length base count =
      List.range' (min (base - first) length)
        (min (base + count - first) length - min (base - first) length) := by
  have hCount : min count (first + length - base) - (first - base) =
      min (base + count - first) length - min (base - first) length := by omega
  rw [sharedFrom, hCount, List.range'_eq_map_range]
  apply List.map_congr_left
  intro j hMem
  have hLt := List.mem_range.1 hMem
  omega

/-- The same of bands cut one after the other from `base` on. -/
def sharedInTurn (first length : Nat) : Nat → List Nat → List Nat
  | _, [] => []
  | base, count :: counts =>
      sharedFrom first length base count ++ sharedInTurn first length (base + count) counts

/-- They share the entries in order, each once. -/
theorem sharedInTurn_eq (first length base : Nat) (counts : List Nat) :
    sharedInTurn first length base counts =
      List.range' (min (base - first) length)
        (min (base + counts.sum - first) length - min (base - first) length) := by
  induction counts generalizing base with
  | nil => simp [sharedInTurn]
  | cons count counts ih =>
      have hNext : min (base - first) length + (min (base + count - first) length -
          min (base - first) length) = min (base + count - first) length := by omega
      have hJoin := @List.range'_append_1 (min (base - first) length)
        (min (base + count - first) length - min (base - first) length)
        (min (base + count + counts.sum - first) length - min (base + count - first) length)
      have hTotal : min (base + count - first) length - min (base - first) length +
          (min (base + count + counts.sum - first) length - min (base + count - first) length) =
          min (base + (count + counts.sum) - first) length - min (base - first) length := by omega
      rw [hNext, hTotal] at hJoin
      rw [sharedInTurn, sharedFrom_eq, ih, List.sum_cons, hJoin]

end VllmRbln.Bands
