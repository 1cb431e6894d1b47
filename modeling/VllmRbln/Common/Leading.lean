import VllmRbln.Common.Rows
import VllmRbln.Common.Slices

/-! Guesses checked in order: those in front of the first rejected one are kept, and one more entry
follows them. -/
namespace VllmRbln.Leading

open Rows Slices

variable {α β : Type}

/-- What follows the kept guesses: the first rejected one repaired, or the bonus. -/
def nextOf (accepts : α → Bool) (repair : α → β) (bonus : β) (guesses : List α) : β :=
  (guesses.dropWhile accepts).head?.elim bonus repair

def verified (accepts : α → Bool) (token repair : α → β) (bonus : β) (guesses : List α) : List β :=
  (guesses.takeWhile accepts).map token ++ [nextOf accepts repair bonus guesses]

variable {accepts : α → Bool} {token repair : α → β} {bonus : β} {guesses : List α}

theorem length_verified_le :
    (verified accepts token repair bonus guesses).length ≤ guesses.length + 1 := by
  have hLe := (List.takeWhile_prefix accepts (l := guesses)).length_le
  simp only [verified, List.length_append, List.length_map, List.length_singleton]
  omega

theorem verified_congr {accepts' : α → Bool} {token' repair' : α → β}
    (hAccepts : ∀ guess ∈ guesses, accepts guess = accepts' guess)
    (hToken : ∀ guess ∈ guesses, accepts guess = true → token guess = token' guess)
    (hRepair : ∀ guess ∈ guesses, accepts guess = false → repair guess = repair' guess) :
    verified accepts token repair bonus guesses = verified accepts' token' repair' bonus guesses := by
  induction guesses with
  | nil => rfl
  | cons guess guesses ih =>
      have hRest := ih (fun guess hMem => hAccepts guess (List.mem_cons_of_mem _ hMem))
        (fun guess hMem => hToken guess (List.mem_cons_of_mem _ hMem))
        (fun guess hMem => hRepair guess (List.mem_cons_of_mem _ hMem))
      have hHead := hAccepts guess List.mem_cons_self
      simp only [verified, nextOf] at hRest ⊢
      cases hKept : accepts guess with
      | true =>
          rw [hKept] at hHead
          rw [List.takeWhile_cons_of_pos hKept, List.takeWhile_cons_of_pos hHead.symm,
            List.dropWhile_cons_of_pos hKept, List.dropWhile_cons_of_pos hHead.symm,
            List.map_cons, List.map_cons, List.cons_append, List.cons_append, hRest,
            hToken guess List.mem_cons_self hKept]
      | false =>
          rw [hKept] at hHead
          simp [hKept, ← hHead, hRepair guess List.mem_cons_self hKept]

theorem verified_map {γ : Type} (f : γ → α) (entries : List γ) :
    verified accepts token repair bonus (entries.map f) =
      verified (fun entry => accepts (f entry)) (fun entry => token (f entry))
        (fun entry => repair (f entry)) bonus entries := by
  induction entries with
  | nil => rfl
  | cons entry entries ih =>
      simp only [verified, nextOf] at ih ⊢
      cases hKept : accepts (f entry) with
      | true => simp [hKept, ih]
      | false => simp [hKept]

theorem verified_eq_take {m : Nat} (hKept : m = (guesses.takeWhile accepts).length) :
    verified accepts token repair bonus guesses =
      (guesses.take m).map token ++ [(guesses[m]?.map repair).getD bonus] := by
  have hTake : guesses.takeWhile accepts = guesses.take m := by
    rw [hKept]
    exact List.prefix_iff_eq_take.1 (List.takeWhile_prefix _)
  have hDrop : guesses.dropWhile accepts = guesses.drop m := by
    conv_rhs => rw [← List.takeWhile_append_dropWhile (p := accepts) (l := guesses)]
    rw [hKept, List.drop_left]
  rw [verified, nextOf, hTake, hDrop, List.head?_drop]
  cases guesses[m]? <;> rfl

/-- An entry of the row: kept, next or blank. -/
theorem padTo_verified_getElem? {blank : β} {width j : Nat} (hFit : guesses.length ≤ width)
    (hj : j ≤ width) {m : Nat} (hKept : m = (guesses.takeWhile accepts).length) :
    (padTo blank (width + 1) (verified accepts token repair bonus guesses))[j]? =
      some (if j < m then (guesses[j]?.map token).getD blank
        else if j = m then (guesses[m]?.map repair).getD bonus else blank) := by
  have hLe : m ≤ guesses.length := by
    rw [hKept]
    exact (List.takeWhile_prefix accepts).length_le
  have hLength : ((guesses.take m).map token).length = m := by
    rw [List.length_map, List.length_take, Nat.min_eq_left hLe]
  rw [verified_eq_take hKept, padTo]
  rcases Nat.lt_trichotomy j m with hBefore | rfl | hBehind
  · rw [if_pos hBefore, List.append_assoc, List.getElem?_append_left (by omega), List.getElem?_map,
      List.getElem?_take_of_lt hBefore, List.getElem?_eq_getElem (by omega)]
    rfl
  · rw [if_neg (Nat.lt_irrefl j), if_pos rfl, List.append_assoc,
      List.getElem?_append_right (by omega), hLength, Nat.sub_self]
    rfl
  · rw [if_neg (by omega), if_neg (by omega)]
    rw [List.getElem?_append_right, List.getElem?_replicate, if_pos]
    · rw [List.length_append, hLength, List.length_singleton]
      omega
    · rw [List.length_append, hLength, List.length_singleton]
      omega

theorem forall_mem_verified {P : β → Prop}
    (hToken : ∀ guess ∈ guesses, accepts guess = true → P (token guess))
    (hRepair : ∀ guess ∈ guesses, P (repair guess)) (hBonus : P bonus) :
    ∀ entry ∈ verified accepts token repair bonus guesses, P entry := by
  intro entry hMem
  rcases List.mem_append.1 hMem with hKept | hNext
  · obtain ⟨guess, hGuess, rfl⟩ := List.mem_map.1 hKept
    exact hToken guess ((List.takeWhile_prefix _).subset hGuess) (List.mem_takeWhile_imp hGuess)
  · rw [List.mem_singleton.1 hNext, nextOf]
    cases hHead : (guesses.dropWhile accepts).head? with
    | none => exact hBonus
    | some guess =>
        exact hRepair guess ((List.dropWhile_suffix _).subset (List.mem_of_head? hHead))

/-- The guesses split at the first that a scan for rejected ones finds. -/
theorem verified_of_rejected (token repair : α → β) (bonus : β)
    (hAny : (guesses.map fun guess => !accepts guess).any id = true) :
    ∃ guess, guesses[(guesses.map fun guess => !accepts guess).findIdx id]? = some guess ∧
      accepts guess = false ∧
      verified accepts token repair bonus guesses =
        (guesses.take ((guesses.map fun guess => !accepts guess).findIdx id)).map token ++
          [repair guess] := by
  induction guesses with
  | nil => cases hAny
  | cons guess guesses ih =>
      cases hKept : accepts guess with
      | true =>
          rw [List.map_cons, List.any_cons, hKept] at hAny
          obtain ⟨rejected, hGet, hRejected, hRest⟩ := ih hAny
          have hIndex : ((guess :: guesses).map fun guess => !accepts guess).findIdx id =
              (guesses.map fun guess => !accepts guess).findIdx id + 1 := by
            rw [List.map_cons, List.findIdx_cons, hKept]
            rfl
          refine ⟨rejected, by rw [hIndex, List.getElem?_cons_succ, hGet], hRejected, ?_⟩
          simp only [verified, nextOf] at hRest ⊢
          rw [List.takeWhile_cons_of_pos hKept, List.dropWhile_cons_of_pos hKept, hIndex,
            List.take_succ_cons, List.map_cons, List.map_cons, List.cons_append, List.cons_append,
            hRest]
      | false =>
          have hIndex : ((guess :: guesses).map fun guess => !accepts guess).findIdx id = 0 := by
            rw [List.map_cons, List.findIdx_cons, hKept]
            rfl
          refine ⟨guess, by rw [hIndex, List.getElem?_cons_zero], hKept, ?_⟩
          rw [hIndex]
          simp [verified, nextOf, hKept]

theorem verified_of_all (hAll : ¬ (guesses.map fun guess => !accepts guess).any id = true) :
    verified accepts token repair bonus guesses = guesses.map token ++ [bonus] := by
  have hKept : ∀ guess ∈ guesses, accepts guess = true := by
    simpa using hAll
  rw [verified, nextOf, List.takeWhile_eq_self_iff.2 hKept, List.dropWhile_eq_nil_iff.2 hKept]
  rfl

/-- A row of blanks with the first entries written. -/
theorem assign_replicate {blank : β} {width : Nat} {values : List β} :
    assign (List.replicate width blank) 0 values = padTo blank width values := by
  rw [assign, List.take_zero, List.nil_append, Nat.zero_add, List.drop_replicate, padTo]

/-- The entries in front written first, then the one behind them. -/
theorem set_assign_replicate (blank value : β) {width : Nat} {values : List β}
    (hFit : values.length < width) :
    (assign (List.replicate width blank) 0 values).set values.length value =
      padTo blank width (values ++ [value]) := by
  obtain ⟨left, hLeft⟩ := Nat.exists_eq_add_of_lt hFit
  have hRest : width - values.length = left + 1 := by omega
  have hBehind : width - (values ++ [value]).length = left := by
    rw [List.length_append, List.length_singleton]
    omega
  rw [assign_replicate, padTo, padTo, hRest, hBehind, List.set_append_right _ _ le_rfl,
    Nat.sub_self, List.replicate_succ, List.set_cons_zero, List.append_assoc, List.singleton_append]

section Scan

variable {blank : β} {width : Nat}

/-- The kept tokens written, then the rejected one's repair. -/
theorem scan_rejected (hFit : guesses.length ≤ width) {k : Nat} {values : List β} {value : β}
    (hAny : (guesses.map fun guess => !accepts guess).any id = true)
    (hIndex : k = (guesses.map fun guess => !accepts guess).findIdx id)
    (hValues : values = (guesses.take k).map token)
    (hValue : ∀ guess, guesses[k]? = some guess → value = repair guess) :
    (assign (List.replicate (width + 1) blank) 0 values).set k value =
      padTo blank (width + 1) (verified accepts token repair bonus guesses) := by
  obtain ⟨guess, hGet, _, hRow⟩ := verified_of_rejected token repair bonus hAny
  rw [← hIndex] at hGet hRow
  have hLt := lt_of_row hGet
  have hLength : values.length = k := by
    rw [hValues, List.length_map, List.length_take]
    omega
  rw [hRow, ← hValues, hValue guess hGet, ← hLength]
  exact set_assign_replicate _ _ (by omega)

/-- Where repairs of kept guesses are their tokens, the repairs are written alone. -/
theorem scan_repairs {k : Nat} {values : List β}
    (hAny : (guesses.map fun guess => !accepts guess).any id = true)
    (hIndex : k = (guesses.map fun guess => !accepts guess).findIdx id)
    (hValues : values = (guesses.take (k + 1)).map repair) :
    assign (List.replicate (width + 1) blank) 0 values =
      padTo blank (width + 1) (verified accepts repair repair bonus guesses) := by
  obtain ⟨guess, hGet, _, hRow⟩ := verified_of_rejected repair repair bonus hAny
  rw [← hIndex] at hGet hRow
  rw [assign_replicate, hRow, hValues, List.take_add_one, hGet, List.map_append]
  rfl

/-- All tokens written, then the bonus. -/
theorem scan_accepted (hFit : guesses.length ≤ width)
    (hAll : ¬ (guesses.map fun guess => !accepts guess).any id = true) :
    (assign (List.replicate (width + 1) blank) 0 (guesses.map token)).set guesses.length bonus =
      padTo blank (width + 1) (verified accepts token repair bonus guesses) := by
  have hLt : (guesses.map token).length < width + 1 := by
    rw [List.length_map]
    omega
  have hSet := set_assign_replicate blank bonus hLt
  rw [List.length_map] at hSet
  rw [hSet, verified_of_all hAll]

end Scan

end VllmRbln.Leading
