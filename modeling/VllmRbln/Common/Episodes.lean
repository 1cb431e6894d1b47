import Mathlib.Order.Basic
import Mathlib.Order.Nat

/-! Episodes along numbered steps. An episode is opened by a step that starts one and is
closed by the first step, that one or a later one, that ends it; a start in an open
episode begins it anew. -/
namespace Episodes

variable {starts ends starts' ends' : Nat → Prop} {n : Nat}

/-- An episode was opened before step `n` and no step has closed it. -/
def OpenAt (starts ends : Nat → Prop) (n : Nat) : Prop :=
  ∃ k < n, starts k ∧ ∀ m, k ≤ m → m < n → ¬ ends m

/-- Step `n` closes an episode, perhaps one that it opens. -/
def ClosesAt (starts ends : Nat → Prop) (n : Nat) : Prop :=
  ends n ∧ ∃ k ≤ n, starts k ∧ ∀ m, k ≤ m → m < n → ¬ ends m

theorem not_openAt_zero : ¬ OpenAt starts ends 0 := fun ⟨_, hLt, _⟩ => Nat.not_lt_zero _ hLt

/-- Whether an episode is open follows from the last step alone. -/
theorem openAt_succ : OpenAt starts ends (n + 1) ↔ ¬ ends n ∧ (starts n ∨ OpenAt starts ends n) := by
  constructor
  · rintro ⟨k, hLt, hStart, hNone⟩
    have hLe := Nat.le_of_lt_succ hLt
    refine ⟨hNone n hLe (Nat.lt_succ_self n), ?_⟩
    rcases Nat.eq_or_lt_of_le hLe with rfl | hBefore
    · exact .inl hStart
    · exact .inr ⟨k, hBefore, hStart, fun m hFrom hTo => hNone m hFrom (Nat.lt_succ_of_lt hTo)⟩
  · rintro ⟨hOpen, hStart | ⟨k, hLt, hStart, hNone⟩⟩
    · refine ⟨n, Nat.lt_succ_self n, hStart, fun m hFrom hTo => ?_⟩
      rw [Nat.le_antisymm (Nat.le_of_lt_succ hTo) hFrom]
      exact hOpen
    · refine ⟨k, Nat.lt_succ_of_lt hLt, hStart, fun m hFrom hTo => ?_⟩
      rcases Nat.eq_or_lt_of_le (Nat.le_of_lt_succ hTo) with rfl | hBefore
      · exact hOpen
      · exact hNone m hFrom hBefore

theorem closesAt_iff : ClosesAt starts ends n ↔ ends n ∧ (starts n ∨ OpenAt starts ends n) := by
  refine and_congr_right fun _ => ?_
  constructor
  · rintro ⟨k, hLe, hStart, hNone⟩
    rcases Nat.eq_or_lt_of_le hLe with rfl | hLt
    · exact .inl hStart
    · exact .inr ⟨k, hLt, hStart, hNone⟩
  · rintro (hStart | ⟨k, hLt, hStart, hNone⟩)
    · exact ⟨n, le_rfl, hStart, fun m hFrom hTo => absurd hTo (Nat.not_lt.mpr hFrom)⟩
    · exact ⟨k, Nat.le_of_lt hLt, hStart, hNone⟩

/-- Only the steps up to `n` count. -/
theorem closesAt_congr (hStarts : ∀ m ≤ n, starts m ↔ starts' m)
    (hEnds : ∀ m ≤ n, ends m ↔ ends' m) : ClosesAt starts ends n ↔ ClosesAt starts' ends' n := by
  refine and_congr (hEnds n le_rfl) (exists_congr fun k => and_congr_right fun hLe => ?_)
  refine and_congr (hStarts k hLe) (forall_congr' fun m => forall₂_congr fun _ hTo => ?_)
  rw [hEnds m (Nat.le_of_lt hTo)]

theorem openAt_congr (hStarts : ∀ m < n, starts m ↔ starts' m) (hEnds : ∀ m < n, ends m ↔ ends' m) :
    OpenAt starts ends n ↔ OpenAt starts' ends' n := by
  refine exists_congr fun k => and_congr_right fun hLt => ?_
  refine and_congr (hStarts k hLt) (forall_congr' fun m => forall₂_congr fun _ hTo => ?_)
  rw [hEnds m hTo]

/-- Between two closings there is a new start. -/
theorem ClosesAt.start_between {i j : Nat} (hFirst : ClosesAt starts ends i)
    (hSecond : ClosesAt starts ends j) (hLt : i < j) : ∃ k, i < k ∧ k ≤ j ∧ starts k := by
  obtain ⟨-, k, hLe, hStart, hNone⟩ := hSecond
  refine ⟨k, ?_, hLe, hStart⟩
  by_contra hNot
  exact hNone i (Nat.not_lt.mp hNot) hLt hFirst.1

/-! ### Episodes of a log -/

section Log

variable {α : Type*} {start stop event : α → Prop} {log : List α} {a : α}

/-- The entry at `n` is an `event`. -/
def HappensAt (event : α → Prop) (log : List α) (n : Nat) : Prop :=
  ∃ a, log[n]? = some a ∧ event a

theorem happensAt_append (hLt : n < log.length) :
    HappensAt event (log ++ [a]) n ↔ HappensAt event log n := by
  unfold HappensAt
  rw [List.getElem?_append_left hLt]

theorem happensAt_last : HappensAt event (log ++ [a]) log.length ↔ event a := by
  simp [HappensAt]

/-- What the last entry does to an open episode. -/
theorem openAt_append : OpenAt (HappensAt start (log ++ [a])) (HappensAt stop (log ++ [a]))
      (log ++ [a]).length ↔
    ¬ stop a ∧ (start a ∨ OpenAt (HappensAt start log) (HappensAt stop log) log.length) := by
  rw [List.length_append, List.length_singleton, openAt_succ, happensAt_last, happensAt_last,
    openAt_congr (fun _ => happensAt_append) (fun _ => happensAt_append)]

theorem closesAt_last : ClosesAt (HappensAt start (log ++ [a])) (HappensAt stop (log ++ [a]))
      log.length ↔
    stop a ∧ (start a ∨ OpenAt (HappensAt start log) (HappensAt stop log) log.length) := by
  rw [closesAt_iff, happensAt_last, happensAt_last,
    openAt_congr (fun _ => happensAt_append) (fun _ => happensAt_append)]

/-- A later entry does not change which episodes were closed. -/
theorem closesAt_append (hLt : n < log.length) :
    ClosesAt (HappensAt start (log ++ [a])) (HappensAt stop (log ++ [a])) n ↔
      ClosesAt (HappensAt start log) (HappensAt stop log) n :=
  closesAt_congr (fun _ hLe => happensAt_append (Nat.lt_of_le_of_lt hLe hLt))
    (fun _ hLe => happensAt_append (Nat.lt_of_le_of_lt hLe hLt))

end Log

end Episodes
