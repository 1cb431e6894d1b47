import Mathlib.Data.List.Basic
import Mathlib.Logic.Function.Basic

/-! Runs of a partial transition function, and bounded `while` loops inside one
transition. A step or a round that raises yields `none` and ends the run. -/
namespace Run

variable {σ α : Type*}

/-- The state after the actions, oldest first. -/
def runFrom (step : σ → α → Option σ) : σ → List α → Option σ
  | s, [] => some s
  | s, a :: actions => (step s a).bind fun next => runFrom step next actions

/-- What every step preserves, every run preserves. -/
theorem runFrom_invariant {step : σ → α → Option σ} (Inv : σ → Prop)
    {actions : List α} (hStep : ∀ s, ∀ a ∈ actions, ∀ s', Inv s → step s a = some s' → Inv s')
    {start finish : σ} (hStart : Inv start) (run : runFrom step start actions = some finish) :
    Inv finish := by
  induction actions generalizing start with
  | nil =>
      simp only [runFrom, Option.some.injEq] at run
      exact run ▸ hStart
  | cons a actions ih =>
      simp only [runFrom, Option.bind_eq_some_iff] at run
      obtain ⟨next, hNext, hRest⟩ := run
      exact ih (fun s b hMem => hStep s b (List.mem_cons_of_mem _ hMem))
        (hStep start a List.mem_cons_self next hStart hNext) hRest

/-- Every step of the run is taken where `Ok` holds. -/
def Along (step : σ → α → Option σ) (Ok : σ → α → Prop) : σ → List α → Prop
  | _, [] => True
  | s, a :: actions => Ok s a ∧ ∀ next ∈ step s a, Along step Ok next actions

instance decidableAlong (step : σ → α → Option σ) (Ok : σ → α → Prop) [∀ s a, Decidable (Ok s a)] :
    ∀ s actions, Decidable (Along step Ok s actions)
  | _, [] => inferInstanceAs (Decidable True)
  | s, a :: actions =>
      have := fun next => decidableAlong step Ok next actions
      inferInstanceAs (Decidable (Ok s a ∧ ∀ next ∈ step s a, Along step Ok next actions))

/-- A condition that follows from another holds along its runs. -/
theorem Along.mono {step : σ → α → Option σ} {Ok Ok' : σ → α → Prop} {actions : List α}
    (hOk : ∀ s, ∀ a ∈ actions, Ok s a → Ok' s a) {start : σ} (along : Along step Ok start actions) :
    Along step Ok' start actions := by
  induction actions generalizing start with
  | nil => trivial
  | cons a actions ih =>
      constructor
      · exact hOk start a List.mem_cons_self along.1
      · intro next hNext
        exact ih (fun s b hMem => hOk s b (List.mem_cons_of_mem _ hMem)) (along.2 next hNext)

/-- What every step taken where `Ok` holds preserves, such a run preserves. -/
theorem Along.invariant {step : σ → α → Option σ} {Ok : σ → α → Prop} (Inv : σ → Prop)
    (hStep : ∀ s a s', Ok s a → Inv s → step s a = some s' → Inv s') {actions : List α}
    {start finish : σ} (along : Along step Ok start actions) (hStart : Inv start)
    (run : runFrom step start actions = some finish) : Inv finish := by
  induction actions generalizing start with
  | nil =>
      simp only [runFrom, Option.some.injEq] at run
      exact run ▸ hStart
  | cons a actions ih =>
      simp only [runFrom, Option.bind_eq_some_iff] at run
      obtain ⟨next, hNext, hRest⟩ := run
      exact ih (along.2 next hNext) (hStep start a next along.1 hStart hNext) hRest

/-- Conditions that agree on the states an invariant allows hold along the same runs. -/
theorem along_congr {step : σ → α → Option σ} {Ok Ok' : σ → α → Prop} (Inv : σ → Prop)
    (hStep : ∀ s a s', Inv s → step s a = some s' → Inv s')
    (hSame : ∀ s a, Inv s → (Ok s a ↔ Ok' s a)) {start : σ} (hStart : Inv start)
    (actions : List α) : Along step Ok start actions ↔ Along step Ok' start actions := by
  induction actions generalizing start with
  | nil => exact Iff.rfl
  | cons a actions ih =>
      simp only [Along]
      refine and_congr (hSame start a hStart) (forall_congr' fun next => forall_congr' fun hNext => ?_)
      exact ih (hStep start a next hStart hNext)

/-- The first actions of a run, and what is left of it. -/
theorem runFrom_append {step : σ → α → Option σ} {start : σ} {first second : List α} :
    runFrom step start (first ++ second) =
      (runFrom step start first).bind fun middle => runFrom step middle second := by
  induction first generalizing start with
  | nil => simp [runFrom]
  | cons a first ih =>
      cases hStep : step start a with
      | none => simp [runFrom, hStep]
      | some next => simp [runFrom, hStep, ih]

/-- What no item changes, a fold over items does not change. -/
theorem foldl_keeps {β : Type*} (read : σ → β) {next : σ → α → σ}
    (hNext : ∀ s a, read (next s a) = read s) (items : List α) (s : σ) :
    read (items.foldl next s) = read s := by
  induction items generalizing s with
  | nil => rfl
  | cons a items ih => rw [List.foldl_cons, ih, hNext]

/-- What each item preserves, a fold over items preserves. -/
theorem foldl_invariant (Inv : σ → Prop) {next : σ → α → σ} {items : List α}
    (hNext : ∀ s, ∀ a ∈ items, Inv s → Inv (next s a)) {start : σ} (hStart : Inv start) :
    Inv (items.foldl next start) := by
  induction items generalizing start with
  | nil => exact hStart
  | cons a items ih =>
      exact ih (fun s b hMem => hNext s b (List.mem_cons_of_mem _ hMem))
        (hNext start a List.mem_cons_self hStart)

/-- What one item brings about and every item preserves holds after the fold. -/
theorem foldl_reaches (Pre Inv : σ → Prop) {next : σ → α → σ} {items : List α} {a : α}
    (hMem : a ∈ items) (hPre : ∀ s, ∀ b ∈ items, Pre s → Pre (next s b))
    (hHere : ∀ s, Pre s → Inv (next s a)) (hKeeps : ∀ s, ∀ b ∈ items, Inv s → Inv (next s b))
    {start : σ} (hStart : Pre start) : Inv (items.foldl next start) := by
  induction items generalizing start with
  | nil => cases hMem
  | cons b items ih =>
      have hRest : ∀ s, ∀ c ∈ items, Inv s → Inv (next s c) := fun s c hTail =>
        hKeeps s c (List.mem_cons_of_mem _ hTail)
      rcases List.mem_cons.mp hMem with rfl | hTail
      · exact foldl_invariant Inv hRest (hHere start hStart)
      · exact ih hTail (fun s c hIn => hPre s c (List.mem_cons_of_mem _ hIn)) hRest
          (hPre start b List.mem_cons_self hStart)

section Keyed

variable {κ ν : Type*} [DecidableEq κ] (key : α → κ) {value : (κ → ν) → α → ν}

/-- A fold that updates one key an item leaves the other keys alone. -/
theorem foldl_update_of_notMem {items : List α} {k : κ} (hNot : k ∉ items.map key) (m : κ → ν) :
    items.foldl (fun m a => Function.update m (key a) (value m a)) m k = m k := by
  induction items generalizing m with
  | nil => rfl
  | cons a items ih =>
      simp only [List.map_cons, List.mem_cons, not_or] at hNot
      rw [List.foldl_cons, ih hNot.2, Function.update_of_ne hNot.1]

/-- If every key comes once, an item's key ends with the item's value. -/
theorem foldl_update_of_mem (hValue : ∀ m m' a, m (key a) = m' (key a) → value m a = value m' a)
    {items : List α} (hNodup : (items.map key).Nodup) {a : α} (hMem : a ∈ items) (m : κ → ν) :
    items.foldl (fun m a => Function.update m (key a) (value m a)) m (key a) = value m a := by
  induction items generalizing m with
  | nil => cases hMem
  | cons b items ih =>
      obtain ⟨hNot, hNodup⟩ := List.nodup_cons.mp hNodup
      rw [List.foldl_cons]
      rcases List.mem_cons.mp hMem with rfl | hMem
      · rw [foldl_update_of_notMem key hNot, Function.update_self]
      · have hNe : key a ≠ key b := fun hEq => hNot (hEq ▸ List.mem_map_of_mem hMem)
        rw [ih hNodup hMem]
        exact hValue _ _ _ (Function.update_of_ne hNe ..)

end Keyed

/-- How one round of a loop ends: leave the loop, or go round again. -/
inductive Next (σ : Type*)
  | stop (s : σ)
  | more (s : σ)

/-- A `while` loop of at most `fuel` rounds. -/
def loop (round : σ → Option (Next σ)) : Nat → σ → Option σ
  | 0, s => some s
  | fuel + 1, s =>
      match round s with
      | none => none
      | some (.stop s') => some s'
      | some (.more s') => loop round fuel s'

/-- The loop rule: `Inv` holds at every head of the loop, `Post` when it is left. -/
theorem loop_rule {round : σ → Option (Next σ)} (Inv Post : σ → Prop)
    (hFuel : ∀ s, Inv s → Post s)
    (hStop : ∀ s s', Inv s → round s = some (.stop s') → Post s')
    (hMore : ∀ s s', Inv s → round s = some (.more s') → Inv s') {fuel : Nat} {start finish : σ}
    (hStart : Inv start) (hLoop : loop round fuel start = some finish) : Post finish := by
  induction fuel generalizing start with
  | zero =>
      simp only [loop, Option.some.injEq] at hLoop
      exact hLoop ▸ hFuel start hStart
  | succ fuel ih =>
      simp only [loop] at hLoop
      cases hRound : round start with
      | none => simp [hRound] at hLoop
      | some next =>
          cases next with
          | stop s' =>
              simp only [hRound, Option.some.injEq] at hLoop
              exact hLoop ▸ hStop start s' hStart hRound
          | more s' =>
              simp only [hRound] at hLoop
              exact ih (hMore start s' hStart hRound) hLoop

/-- The loop rule for rounds that do not raise: then the loop does not raise either. -/
theorem loop_total {round : σ → Option (Next σ)} (Inv Post : σ → Prop) (hFuel : ∀ s, Inv s → Post s)
    (hRound : ∀ s, Inv s → (∃ s', round s = some (.stop s') ∧ Post s') ∨
      ∃ s', round s = some (.more s') ∧ Inv s') {start : σ} (hStart : Inv start) (fuel : Nat) :
    ∃ finish, loop round fuel start = some finish ∧ Post finish := by
  induction fuel generalizing start with
  | zero => exact ⟨start, rfl, hFuel start hStart⟩
  | succ fuel ih =>
      rcases hRound start hStart with ⟨s', hStop, hPost⟩ | ⟨s', hMore, hInv⟩
      · exact ⟨s', by simp [loop, hStop], hPost⟩
      · obtain ⟨finish, hLoop, hPost⟩ := ih hInv
        exact ⟨finish, by simp [loop, hMore, hLoop], hPost⟩

/-- With a measure that every further round decreases the fuel never runs out, so the
loop is left by a round that stops it. -/
theorem loop_rule_of_measure {round : σ → Option (Next σ)} (Inv Post : σ → Prop) (measure : σ → Nat)
    (hStop : ∀ s s', Inv s → round s = some (.stop s') → Post s')
    (hMore : ∀ s s', Inv s → round s = some (.more s') → Inv s' ∧ measure s' < measure s)
    {fuel : Nat} {start finish : σ} (hStart : Inv start) (hFuel : measure start < fuel)
    (hLoop : loop round fuel start = some finish) : Post finish := by
  induction fuel generalizing start with
  | zero => exact absurd hFuel (Nat.not_lt_zero _)
  | succ fuel ih =>
      simp only [loop] at hLoop
      cases hRound : round start with
      | none => simp [hRound] at hLoop
      | some next =>
          cases next with
          | stop s' =>
              simp only [hRound, Option.some.injEq] at hLoop
              exact hLoop ▸ hStop start s' hStart hRound
          | more s' =>
              simp only [hRound] at hLoop
              obtain ⟨hNext, hLess⟩ := hMore start s' hStart hRound
              exact ih hNext (by omega) hLoop

end Run
