import Mathlib.Data.List.Basic

/-! A loop that cuts the positions `0 .. n` into runs. A run goes on for as long as each position is
joined to the one before it. -/
namespace VllmRbln.Cuts

variable {ρ : Type*}

/-- One turn of the loop, at position `i`: the runs cut so far, and where the open one starts. -/
def cutStep (joined : Nat → Bool) (emit : Nat → Nat → ρ) (n : Nat) (cut : List ρ × Nat) (i : Nat) :
    List ρ × Nat :=
  if i < n ∧ joined i = true then cut else (cut.1 ++ [emit cut.2 (i - cut.2)], i)

/-- The runs of `0 .. n`, each made from its start and its length. -/
def cuts (joined : Nat → Bool) (emit : Nat → Nat → ρ) (n : Nat) : List ρ :=
  ((List.range' 1 n).foldl (cutStep joined emit n) ([], 0)).1

/-- Runs one behind the other, from zero to `stop`. -/
structure Spans (joined : Nat → Bool) (stop : Nat) (spans : List (Nat × Nat)) : Prop where
  covers : spans.flatMap (fun span => List.range' span.1 span.2) = List.range stop
  filled : ∀ span ∈ spans, 0 < span.2
  inside : ∀ span ∈ spans, span.1 + span.2 ≤ stop
  joined : ∀ span ∈ spans, ∀ k, span.1 < k → k < span.1 + span.2 → joined k = true

variable {joined : Nat → Bool} {stop : Nat} {spans : List (Nat × Nat)}

theorem Spans.nil : Spans joined 0 [] := ⟨rfl, by simp, by simp, by simp⟩

/-- A run put behind the others. -/
theorem Spans.append (hSpans : Spans joined stop spans) {i : Nat} (hLt : stop < i)
    (hJoined : ∀ k, stop < k → k < i → joined k = true) :
    Spans joined i (spans ++ [(stop, i - stop)]) := by
  have hEnd : stop + (i - stop) = i := by omega
  constructor
  · rw [List.flatMap_append, hSpans.covers, List.flatMap_singleton, List.range_eq_range',
      List.range_eq_range']
    have hRange := List.range'_append_1 (s := 0) (m := stop) (n := i - stop)
    rw [Nat.zero_add, hEnd] at hRange
    exact hRange
  · intro span hMem
    rcases List.mem_append.1 hMem with hOld | hNew
    · exact hSpans.filled span hOld
    · rw [List.mem_singleton.1 hNew]
      exact Nat.sub_pos_of_lt hLt
  · intro span hMem
    rcases List.mem_append.1 hMem with hOld | hNew
    · have hInside := hSpans.inside span hOld
      omega
    · rw [List.mem_singleton.1 hNew]
      exact Nat.le_of_eq hEnd
  · intro span hMem
    rcases List.mem_append.1 hMem with hOld | hNew
    · exact hSpans.joined span hOld
    · rw [List.mem_singleton.1 hNew]
      intro k hAfter hBefore
      exact hJoined k hAfter (hEnd ▸ hBefore)

/-- The first `i` turns leave runs up to the open one, which is joined up to `i`. -/
theorem foldl_cutStep (joined : Nat → Bool) (emit : Nat → Nat → ρ) {n i : Nat} (hi : i ≤ n) :
    ∃ spans start, (List.range' 1 i).foldl (cutStep joined emit n) ([], 0) =
        (spans.map fun span => emit span.1 span.2, start) ∧
      Spans joined start spans ∧ start ≤ i ∧ (i = n → start = n) ∧
      ∀ k, start < k → k ≤ i → joined k = true := by
  induction i with
  | zero => exact ⟨[], 0, rfl, Spans.nil, Nat.le_refl _, id, fun k hAfter hBefore => by omega⟩
  | succ i ih =>
      obtain ⟨spans, start, hLoop, hSpans, hStart, -, hJoined⟩ := ih (by omega)
      rw [List.range'_concat, List.foldl_append, hLoop, Nat.one_mul, Nat.add_comm 1 i,
        List.foldl_cons, List.foldl_nil, cutStep]
      split
      · rename_i hGoes
        refine ⟨spans, start, rfl, hSpans, by omega, by omega, ?_⟩
        intro k hAfter hBefore
        rcases Nat.lt_or_eq_of_le hBefore with hLt | rfl
        · exact hJoined k hAfter (Nat.le_of_lt_succ hLt)
        · exact hGoes.2
      · have hCut := hSpans.append (Nat.lt_succ_of_le hStart)
          fun k hAfter hBefore => hJoined k hAfter (Nat.le_of_lt_succ hBefore)
        refine ⟨_, i + 1, ?_, hCut, Nat.le_refl _, id, fun k hAfter hBefore => by omega⟩
        rw [List.map_append]
        rfl

/-- The loop's runs cover the positions in order, each joined throughout. -/
theorem cuts_spans (joined : Nat → Bool) (emit : Nat → Nat → ρ) (n : Nat) :
    ∃ spans, cuts joined emit n = (spans.map fun span => emit span.1 span.2) ∧
      Spans joined n spans := by
  obtain ⟨spans, start, hLoop, hSpans, -, hStart, -⟩ := foldl_cutStep joined emit (Nat.le_refl n)
  rw [hStart rfl] at hSpans
  exact ⟨spans, by rw [cuts, hLoop], hSpans⟩

end VllmRbln.Cuts
